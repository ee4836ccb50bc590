import ClockChip.Program.Run

/-!
# The program

Runs the program on the system's files and standard output.
-/

namespace ClockChip.Program

/-- The number of a system failure, which some calls give with its sign changed. -/
def failureNumber (code : UInt32) : UInt32 := min code (0 - code)

/-- A failure of the system in the form in which it is reported. -/
def fileError (e : IO.Error) : FileError :=
  match e with
  | .noFileOrDirectory .. => .notFound
  | .inappropriateType _ code _ =>
    if failureNumber code = 20 then .notDirectory else .isDirectory
  | .invalidArgument _ code detail =>
    if failureNumber code = 36 then .nameTooLong else .other detail
  | e => .other (toString e)

/-- The result of an action on a file. -/
def attempt {α : Type} (act : IO α) : IO (Except FileError α) := do
  match ← act.toBaseIO with
  | .ok a => return .ok a
  | .error e => return .error (fileError e)

instance : Host IO where
  readFile path := attempt do return (← IO.FS.readBinFile path).toList
  writeFile path content := attempt (IO.FS.writeBinFile path ⟨content.toArray⟩)
  appendLog line := IO.FS.withFile logFile .append fun h => h.putStrLn line
  printLine line := IO.println line

end ClockChip.Program

open ClockChip.Program in
def main (arguments : List String) : IO UInt32 := do
  match ← (run (m := IO) arguments).run with
  | .ok () => return 0
  | .error f =>
    IO.eprint f.report
    return 1
