import ClockChip.Savestate.Field
import ClockChip.Text.Quoted
import ClockChip.Text.Utf8

/-!
# Reading a state stream

A `Reader` is a byte string with an offset.  Each read asks for a field of a
known size.  When the bytes for it are there, the offset moves past them; when
they are not, the read fails and the offset stays, so that a shorter read may
still succeed.  A section tag that turns out to be another one has been read all
the same.
-/

namespace ClockChip.Savestate

/-! ## Failures -/

/-- Why a stream cannot be read. -/
inductive ReadError where
  /-- The stream ends before the `wanted` bytes at `offset`. -/
  | truncated (offset wanted : Nat)
  /-- The stream does not begin with the magic. -/
  | wrongMagic (found : Tag)
  /-- The stream is of a version that is not known. -/
  | unsupportedVersion (found : UInt16)
  /-- A section does not open with the tag it should. -/
  | wrongTag (expected found : Tag)
deriving DecidableEq, Repr

namespace ReadError

/-- A tag as a reader of the message sees it. -/
def quoteTag (t : Tag) : String := Text.quoted (Text.Utf8.decode t.toList)

/-- A tag as a list of byte values. -/
def listTag (t : Tag) : String :=
  "[" ++ ", ".intercalate (t.toList.map fun b => Text.hex .lower 2 b.toNat) ++ "]"

/-- The text of a failure. -/
def message : ReadError → String
  | truncated offset wanted =>
    "savestate truncated at offset " ++ toString offset ++
      " (wanted " ++ toString wanted ++ " bytes)"
  | wrongMagic found => "not a savestate (magic " ++ listTag found ++ ")"
  | unsupportedVersion found => "unsupported savestate version " ++ toString found.toNat
  | wrongTag expected found =>
    "expected section " ++ quoteTag expected ++ ", found " ++ quoteTag found

end ReadError

/-! ## Readers -/

/-- A stream that has been read up to an offset. -/
structure Reader where
  data : List UInt8
  offset : Nat := 0
  /-- The version that the header gives, zero before it has been read. -/
  version : UInt16 := 0
deriving DecidableEq, Repr

namespace Reader

/-- The next `n` bytes, if they are there. -/
def next (r : Reader) (n : Nat) (h : r.offset + n ≤ r.data.length) : Vector UInt8 n :=
  ⟨((r.data.drop r.offset).take n).toArray, by simp; omega⟩

/-- The reader behind the next `n` bytes. -/
def skip (r : Reader) (n : Nat) : Reader := { r with offset := r.offset + n }

end Reader

/-- A read: it may move the reader, and it may fail. -/
abbrev Read := EStateM ReadError Reader

namespace Read

/-- Reads `n` bytes. -/
def bytes (n : Nat) : Read (Vector UInt8 n) := fun r =>
  if h : r.offset + n ≤ r.data.length then .ok (r.next n h) (r.skip n)
  else .error (.truncated r.offset n) r

/-- A read of bytes that are there moves the offset past them. -/
theorem bytes_of_le {n : Nat} {r : Reader} (h : r.offset + n ≤ r.data.length) :
    bytes n r = .ok (r.next n h) (r.skip n) :=
  dif_pos h

/-- A read of bytes that are not there changes nothing. -/
theorem bytes_of_lt {n : Nat} {r : Reader} (h : r.data.length < r.offset + n) :
    bytes n r = .error (.truncated r.offset n) r :=
  dif_neg (Nat.not_le.2 h)

section Bind

variable {ε α β σ : Type} {x : EStateM ε σ α} {f : α → EStateM ε σ β} {s s' : σ}

/-- A read goes on with what the read before it has found. -/
theorem bind_of_ok {v : α} (h : x s = .ok v s') : (x >>= f) s = f v s' := by
  change EStateM.bind x f s = _
  rw [EStateM.bind, h]

/-- A failure is the end. -/
theorem bind_of_error {e : ε} (h : x s = .error e s') : (x >>= f) s = .error e s' := by
  change EStateM.bind x f s = _
  rw [EStateM.bind, h]

end Bind

/-- Reads a number of `n` bytes. -/
def number (n : Nat) : Read Nat := return LittleEndian.decode (← bytes n).toList

def word8 : Read UInt8 := return UInt8.ofNat (← number 1)

def word16 : Read UInt16 := return UInt16.ofNat (← number 2)

def word32 : Read UInt32 := return UInt32.ofNat (← number 4)

def word64 : Read UInt64 := return UInt64.ofNat (← number 8)

/-- Reads the tag of a section that is expected here. -/
def tag (expected : Tag) : Read Unit := do
  let found ← bytes 4
  if found = expected then pure () else throw (.wrongTag expected found)

/-- Reads the header. -/
def header : Read Unit := do
  let found ← bytes 4
  if found ≠ magic then throw (.wrongMagic found)
  let v ← word16
  if v = 0 ∨ v > Savestate.version then throw (.unsupportedVersion v)
  modify fun r => { r with version := v }

end Read

namespace Reader

/-- A reader behind the header of a stream. -/
def ofBytes (data : List UInt8) : Except ReadError Reader :=
  match Read.header { data } with
  | .ok _ r => .ok r
  | .error e _ => .error e

/-- Whether nothing is left to read. -/
def isEmpty (r : Reader) : Bool := decide (r.data.length ≤ r.offset)

end Reader

end ClockChip.Savestate
