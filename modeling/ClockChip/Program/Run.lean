import ClockChip.Machine.Display
import ClockChip.Machine.Snapshot
import ClockChip.Program.Arguments
import ClockChip.Program.Host

/-!
# A run of the program

The program switches a machine on, restores a saved state if it is asked to, and
lets the clock run.  After every second it reads the date over the chip's bus, as
a console's firmware does, and prints it.  In the end it prints the minute
counter, on the console that has one, and saves the state if it is asked to.

Everything that is printed also goes to the log file, and so do the machine's own
records.
-/

namespace ClockChip.Program

variable {m : Type → Type} [Monad m] [Host m]

/-- A part of the program, which may end it early. -/
abbrev Run (m : Type → Type) := ExceptT Failure m

/-! ## Records -/

/-- A record as it is written. -/
def recordLine (level : Level) (text : String) : String := "[" ++ level.name ++ "] " ++ text

/-- Leaves a record of the machine in the log file. -/
def note (n : Notice) : Run m Unit :=
  ExceptT.lift (Host.appendLog (recordLine n.level n.message))

/-- Tells the user something, and leaves it in the log file. -/
def tell (text : String) : Run m Unit := do
  ExceptT.lift (Host.printLine (recordLine .info text))
  ExceptT.lift (Host.appendLog (recordLine .info text))

/-! ## Files -/

/-- Does something with a file; a failure says what was being done. -/
def withFile {α : Type} (doing : String) (act : m (Except FileError α)) : Run m α := do
  match ← ExceptT.lift act with
  | .ok a => return a
  | .error e => throw { message := doing, causes := [e.message] }

/-- The name of the log file. -/
def logFile : String := "out.log"

/-- Starts a new log file. -/
def openLog : Run m Unit := withFile ("creating " ++ logFile) (Host.writeFile logFile [])

/-- Restores a machine from a file. -/
def load (path : String) (machine : Machine) : Run m Machine := do
  let data ← withFile ("reading " ++ path) (Host.readFile path)
  match machine.load data with
  | .error e => throw { message := "loading " ++ path, causes := e.messages }
  | .ok machine =>
    note Machine.loadNotice
    tell ("Loaded state from " ++ path)
    return machine

/-- Saves a machine to a file. -/
def save (path : String) (machine : Machine) : Run m Unit := do
  withFile ("writing " ++ path) (Host.writeFile path machine.save)
  tell ("Saved state to " ++ path)

/-! ## The whole -/

/-- Lets the clock run for some seconds and shows each. -/
def showSeconds : Nat → Machine → Run m Machine
  | 0, machine => return machine
  | n + 1, machine => do
    let (line, machine) := machine.second
    tell line
    showSeconds n machine

/-- Does what the options say. -/
def runOptions (o : Options) : Run m Unit := do
  let machine := Machine.ofConfig o.config
  note machine.resetNotice
  let machine ← match o.load with
    | none => pure machine
    | some path => load path machine
  let machine ← showSeconds o.seconds.toNat machine
  let machine ← match o.config.console with
    | .ds => pure machine
    | .dsi => do
      let (line, machine) := machine.minutes
      tell line
      pure machine
  match o.save with
  | none => return
  | some path => save path machine

/-- Does what the arguments ask for. -/
def run (arguments : List String) : Run m Unit := do
  openLog
  match Request.ofArguments arguments with
  | .error e => throw e.failure
  | .ok .help => ExceptT.lift (Host.printLine usage)
  | .ok (.run options) => runOptions options

end ClockChip.Program
