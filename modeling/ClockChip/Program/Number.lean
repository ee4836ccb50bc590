/-!
# Digits

Reading decimal numbers from the front of a text.  Only the ten ASCII digits
count as digits.  A number that grows past a limit is a failure as soon as it
does, whatever comes after it.
-/

namespace ClockChip.Program

/-- The value of a digit. -/
def digit? (c : Char) : Option Nat :=
  if '0' ≤ c ∧ c ≤ '9' then some (c.toNat - '0'.toNat) else none

/-- A number with one more digit, if it stays below the limit. -/
def appendDigit? (limit n d : Nat) : Option Nat :=
  if 10 * n + d < limit then some (10 * n + d) else none

/-! ## Counts -/

/-- Why a text is not a count. -/
inductive CountError where
  | empty
  | invalidDigit
  | tooLarge
deriving DecidableEq, Repr

namespace CountError

/-- The wording of a failure. -/
def message : CountError → String
  | empty => "cannot parse integer from empty string"
  | invalidDigit => "invalid digit found in string"
  | tooLarge => "number too large to fit in target type"

end CountError

/-- Reads digits to the end of a text, behind the number `n`. -/
def readCountFrom (n : Nat) : List Char → Except CountError Nat
  | [] => .ok n
  | c :: cs =>
    match digit? c with
    | none => .error .invalidDigit
    | some d =>
      match appendDigit? UInt64.size n d with
      | none => .error .tooLarge
      | some n => readCountFrom n cs

/-- Reads a count: digits, with a plus sign in front if one likes. -/
def readCount (text : String) : Except CountError UInt64 :=
  match text.toList with
  | [] => .error .empty
  | ['+'] => .error .invalidDigit
  | '+' :: cs => (readCountFrom 0 cs).map UInt64.ofNat
  | cs => (readCountFrom 0 cs).map UInt64.ofNat

end ClockChip.Program
