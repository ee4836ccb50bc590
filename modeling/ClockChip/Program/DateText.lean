import ClockChip.Calendar.Civil
import ClockChip.Program.Number

/-!
# Dates as users type them

A date is a year, a month and a day with hyphens between them, then blanks, then
an hour, a minute and a second with colons between them.  Blanks may stand before
every number.  The year has at most four digits, or, behind a sign, any number of
them; the other numbers have one digit or two.

A number is checked against the range of its field when it has been read, and
only a date that has been read to its end is checked against the calendar.  A
leap second is taken as the second before it.
-/

namespace ClockChip

/-! ## Blanks -/

namespace Text

/-- The ranges of blank code points, which are those of the Unicode property `White_Space`. -/
def blanks : List (Nat × Nat) :=
  [(0x09, 0x0D), (0x20, 0x20), (0x85, 0x85), (0xA0, 0xA0), (0x1680, 0x1680), (0x2000, 0x200A),
   (0x2028, 0x2029), (0x202F, 0x202F), (0x205F, 0x205F), (0x3000, 0x3000)]

/-- Whether a character is blank. -/
def isBlank (c : Char) : Bool :=
  blanks.any fun (low, high) => decide (low ≤ c.toNat) && decide (c.toNat ≤ high)

/-- A text without the blanks in front of it. -/
def skipBlanks (cs : List Char) : List Char := cs.dropWhile isBlank

end Text

namespace Program

/-! ## Failures -/

/-- Why a text is not a date. -/
inductive DateError where
  /-- The text ends too soon. -/
  | tooShort
  /-- Something else stands where a digit or a mark should. -/
  | invalid
  /-- A number, or the date itself, does not exist. -/
  | outOfRange
  /-- Something follows the date. -/
  | trailing
deriving DecidableEq, Repr

namespace DateError

/-- The wording of a failure. -/
def message : DateError → String
  | tooShort => "premature end of input"
  | invalid => "input contains invalid characters"
  | outOfRange => "input is out of range"
  | trailing => "trailing input"

end DateError

/-! ## Scans -/

/-- The number at which a number that is read grows too large. -/
def numberLimit : Nat := 0x8000000000000000

/-- A scan takes something from the front of a text. -/
abbrev Scan := StateT (List Char) (Except DateError)

namespace Scan

/-- The number behind `n` and at most `most` more digits, and what follows. -/
def digits (n : Nat) : (most : Nat) → List Char → Except DateError (Nat × List Char)
  | 0, cs => .ok (n, cs)
  | _ + 1, [] => .ok (n, [])
  | most + 1, c :: cs =>
    match digit? c with
    | none => .ok (n, c :: cs)
    | some d =>
      match appendDigit? numberLimit n d with
      | none => .error .outOfRange
      | some n => digits n most cs

/-- A number of one up to `most` digits. -/
def number (most : Nat) : Scan Nat := fun cs =>
  match cs with
  | [] => .error .tooShort
  | c :: _ => if (digit? c).isSome then digits 0 most cs else .error .invalid

/-- Blanks, if there are any. -/
def blanks : Scan Unit := modify Text.skipBlanks

/-- A mark between two numbers. -/
def mark (expected : Char) : Scan Unit := fun cs =>
  match cs with
  | [] => .error .tooShort
  | c :: cs => if c = expected then .ok ((), cs) else .error .invalid

/-- The end of the text. -/
def finish : Scan Unit := fun cs => if cs.isEmpty then .ok ((), []) else .error .trailing

/-- A check of what has been read. -/
def check (p : Prop) [Decidable p] : Scan Unit := if p then pure () else throw .outOfRange

/-! ## Fields -/

/-- A field of one or two digits between two bounds. -/
def field (low high : Nat) : Scan Nat := do
  blanks
  let n ← number 2
  check (low ≤ n ∧ n ≤ high)
  return n

/-- A year, which fits in thirty-two bits. -/
def year : Scan Int := do
  blanks
  let cs ← get
  let n : Int ← match cs with
    | '-' :: rest => do
      set rest
      pure (-(← number rest.length : Int))
    | '+' :: rest => do
      set rest
      pure (← number rest.length : Int)
    | _ => pure (← number 4 : Int)
  check (-0x80000000 ≤ n ∧ n < 0x80000000)
  return n

/-- A date and a time of day. -/
def dateTime : Scan DateTime := do
  let year ← year
  mark '-'
  let month ← field 1 12
  mark '-'
  let day ← field 1 31
  blanks
  let hour ← field 0 23
  mark ':'
  let minute ← field 0 59
  mark ':'
  let second ← field 0 60
  return { year, month, day, hour, minute, second }

end Scan

/-- Whether a year is one for which dates are kept. -/
def yearKept (year : Int) : Bool := decide (-262143 ≤ year) && decide (year ≤ 262142)

/-- Reads a date. -/
def readDate (text : String) : Except DateError DateTime := do
  let (t, _) ← (do let t ← Scan.dateTime; Scan.finish; return t : Scan DateTime).run text.toList
  if yearKept t.year && t.dateExists then return { t with second := min t.second 59 }
  else throw .outOfRange

end Program

end ClockChip
