import ClockChip.Calendar.Count

/-!
# Writing the calendar

A byte written to the calendar is cut down to the bits that its register has and
replaced by the least value if it is then not in range.  A day past the end of
its month moves the calendar to the first of the next one.  A state that is
restored goes through the same path byte by byte, so that it ends up as if it
had been written over the bus.
-/

namespace ClockChip.Calendar

/-- An hour that is written: in the twenty-four-hour mode the afternoon bit
follows from the digits, in the twelve-hour mode it is taken as it is. -/
def hourWritten (mode : HourMode) (b : UInt8) : UInt8 :=
  match mode with
  | .twentyFour =>
    let hour := Bcd.clamp (b &&& 0x3F) 0x00 0x23
    hour ||| halfOf hour
  | .twelve => Bcd.clamp (b &&& 0x3F) 0x00 0x11 ||| (b &&& afternoon)

/-- Writes one register; they count from one, the year, to seven, the second. -/
def write (mode : HourMode) (position : Nat) (b : UInt8) (c : Calendar) : Calendar :=
  match position with
  | 1 => { c with year := Bcd.clamp b 0x00 0x99 }
  | 2 => { c with month := Bcd.clamp (b &&& 0x1F) 0x01 0x12 }
  | 3 => { c with day := Bcd.clamp (b &&& 0x3F) 0x01 0x31 }.leaveMonth
  | 4 => { c with weekday := Bcd.clamp (b &&& 0x07) 0x00 0x06 }
  | 5 => { c with hour := hourWritten mode b }
  | 6 => { c with minute := Bcd.clamp (b &&& 0x7F) 0x00 0x59 }
  | 7 => { c with second := Bcd.clamp (b &&& 0x7F) 0x00 0x59 }
  | _ => c

/-- Writes consecutive registers, the first of them at `position`. -/
def writeFrom (mode : HourMode) (position : Nat) (bs : List UInt8) (c : Calendar) : Calendar :=
  match bs with
  | [] => c
  | b :: bs => (c.write mode position b).writeFrom mode (position + 1) bs

/-- Writes every register back to where it came from. -/
def sanitize (mode : HourMode) (c : Calendar) : Calendar :=
  c.writeFrom mode 1 c.toBytes.toList

/-- Turns the hour, which was kept in the other mode, into one of `mode`. -/
def convertHour (mode : HourMode) (c : Calendar) : Calendar :=
  match mode with
  | .twentyFour =>
    let hour := if c.hourHalf = 0 then c.hourDigits else Bcd.add c.hourDigits 0x12
    { c with hour := Bcd.clamp hour 0x00 0x23 ||| c.hourHalf }
  | .twelve =>
    let hour := if c.hourDigits ≥ 0x12 then Bcd.sub c.hourDigits 0x12 else c.hourDigits
    { c with hour := Bcd.clamp hour 0x00 0x11 ||| halfOf c.hourDigits }

end ClockChip.Calendar
