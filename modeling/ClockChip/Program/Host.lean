/-!
# The host of the program

The program reads and writes files and prints lines.  What it runs on is a monad
with these operations: the system, or a table of files in memory.

What ends it early is a failure: a message with the messages of what caused it, each
one of the one before it.  A failure is reported as one text on the error output.
-/

namespace ClockChip.Program

/-! ## Failures -/

/-- What ends the program early. -/
structure Failure where
  message : String
  causes : List String := []
deriving DecidableEq, Repr

namespace Failure

/-- A cause behind the text that stands in front of it.  Its further lines are
moved in as far as `margin`. -/
def cause (lead margin text : String) : String :=
  "\n" ++ lead ++ ("\n" ++ margin).intercalate (text.splitOn "\n")

/-- Causes with their numbers, from `n` on. -/
def numbered (n : Nat) : List String → String
  | [] => ""
  | text :: texts =>
    let number := toString n
    let lead := String.ofList (List.replicate (5 - number.length) ' ') ++ number ++ ": "
    cause lead "       " text ++ numbered (n + 1) texts

/-- The text of a failure.  Several causes are numbered. -/
def report (f : Failure) : String :=
  "Error: " ++ f.message ++
    (match f.causes with
      | [] => ""
      | [text] => "\n\nCaused by:" ++ cause "    " "    " text
      | texts => "\n\nCaused by:" ++ numbered 0 texts) ++ "\n"

end Failure

/-! ## Files -/

/-- Why a file cannot be used. -/
inductive FileError where
  | notFound
  | notDirectory
  | isDirectory
  | nameTooLong
  | noSpace
  | outOfMemory
  /-- Another failure, in the words of the system. -/
  | other (text : String)
deriving DecidableEq, Repr

namespace FileError

/-- The wording of a failure. -/
def message : FileError → String
  | notFound => "No such file or directory (os error 2)"
  | notDirectory => "Not a directory (os error 20)"
  | isDirectory => "Is a directory (os error 21)"
  | nameTooLong => "File name too long (os error 36)"
  | noSpace => "No space left on device (os error 28)"
  | outOfMemory => "out of memory"
  | other text => text

end FileError

/-- What the program needs from its surroundings. -/
class Host (m : Type → Type) where
  /-- The content of a file. -/
  readFile : String → m (Except FileError (List UInt8))
  /-- Makes a file, or replaces the content of one. -/
  writeFile : String → List UInt8 → m (Except FileError Unit)
  /-- Adds a line to the log file. -/
  appendLog : String → m Unit
  /-- Prints a line. -/
  printLine : String → m Unit

end ClockChip.Program
