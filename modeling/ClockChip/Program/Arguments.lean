import ClockChip.Machine.Basic
import ClockChip.Program.DateText
import ClockChip.Program.Host

/-!
# Arguments

What the program is asked to do.  Arguments are read from left to right, and the
first one that is wrong, or that asks for help, ends the reading.
-/

namespace ClockChip.Program

/-- What to run, for how long, and where the state comes from and goes to. -/
structure Options where
  config : Config := {}
  seconds : UInt64 := 10
  load : Option String := none
  save : Option String := none
deriving DecidableEq, Repr

/-- What the arguments ask for. -/
inductive Request where
  | help
  | run (options : Options)
deriving DecidableEq, Repr

/-- How the program is called. -/
def usage : String :=
  "usage: emulation-station-rtc [--dsi] [--seconds N] [--date \"YYYY-MM-DD HH:MM:SS\"] " ++
    "[--load PATH] [--save PATH]"

/-- Why the arguments make no sense. -/
inductive ArgumentError where
  | unknown (argument : String)
  | missingValue (option : String)
  | missingPath (option : String)
  | badCount (text : String) (cause : CountError)
  | badDate (text : String) (cause : DateError)
deriving DecidableEq, Repr

namespace ArgumentError

/-- What the user is told. -/
def failure : ArgumentError → Failure
  | unknown argument => { message := "unknown argument '" ++ argument ++ "'\n" ++ usage }
  | missingValue option => { message := option ++ " needs a value" }
  | missingPath option => { message := option ++ " needs a path" }
  | badCount text cause =>
    { message := "invalid second count '" ++ text ++ "'", causes := [cause.message] }
  | badDate text cause =>
    { message := "invalid date '" ++ text ++ "'", causes := [cause.message] }

end ArgumentError

namespace Options

/-- Options with a number of seconds. -/
def withSeconds (text : String) (o : Options) : Except ArgumentError Options :=
  match readCount text with
  | .ok seconds => .ok { o with seconds }
  | .error e => .error (.badCount text e)

/-- Options with a date to start at. -/
def withDate (text : String) (o : Options) : Except ArgumentError Options :=
  match readDate text with
  | .ok t => .ok { o with config.boot := some t }
  | .error e => .error (.badDate text e)

end Options

namespace Request

/-- Reads arguments into options that have been read so far. -/
def readFrom (o : Options) : List String → Except ArgumentError Request
  | [] => .ok (.run o)
  | "--dsi" :: rest => readFrom { o with config.console := .dsi } rest
  | "--seconds" :: text :: rest => do readFrom (← o.withSeconds text) rest
  | "--date" :: text :: rest => do readFrom (← o.withDate text) rest
  | "--load" :: path :: rest => readFrom { o with load := some path } rest
  | "--save" :: path :: rest => readFrom { o with save := some path } rest
  | "--seconds" :: [] => .error (.missingValue "--seconds")
  | "--date" :: [] => .error (.missingValue "--date")
  | "--load" :: [] => .error (.missingPath "--load")
  | "--save" :: [] => .error (.missingPath "--save")
  | "-h" :: _ | "--help" :: _ => .ok .help
  | argument :: _ => .error (.unknown argument)

/-- Reads the arguments of the program. -/
def ofArguments (arguments : List String) : Except ArgumentError Request :=
  readFrom {} arguments

end Request

end ClockChip.Program
