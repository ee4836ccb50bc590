/-!
# Reading UTF-8 that may be damaged

A stream that is not what it should be is shown to the user all the same.  The
decoder here never fails: each maximal run of bytes that begins a character but
cannot be continued to one, and each byte that begins none, is shown as a single
U+FFFD.
-/

namespace ClockChip.Text.Utf8

/-- The character that stands for bytes that are no character. -/
def replacement : Char := Char.ofNat 0xFFFD

/-- A character of which some bytes are still to come. -/
structure Started where
  /-- The bits read so far. -/
  value : Nat
  /-- How many bytes are missing after the next one. -/
  owed : Nat
  /-- The least byte that may come next. -/
  low : UInt8 := 0x80
  /-- The greatest byte that may come next. -/
  high : UInt8 := 0xBF

/-- What a byte begins: a character of its own, a longer one, or nothing. -/
def start (b : UInt8) : List Char × Option Started :=
  if b < 0x80 then ([Char.ofNat b.toNat], none)
  else if b < 0xC2 then ([replacement], none)
  else if b < 0xE0 then ([], some ⟨b.toNat % 32, 0, 0x80, 0xBF⟩)
  else if b = 0xE0 then ([], some ⟨0, 1, 0xA0, 0xBF⟩)
  else if b = 0xED then ([], some ⟨0xD, 1, 0x80, 0x9F⟩)
  else if b < 0xF0 then ([], some ⟨b.toNat % 16, 1, 0x80, 0xBF⟩)
  else if b = 0xF0 then ([], some ⟨0, 2, 0x90, 0xBF⟩)
  else if b < 0xF4 then ([], some ⟨b.toNat % 8, 2, 0x80, 0xBF⟩)
  else if b = 0xF4 then ([], some ⟨4, 2, 0x80, 0x8F⟩)
  else ([replacement], none)

/-- Reads one byte after what has been started. -/
def step (begun : Option Started) (b : UInt8) : List Char × Option Started :=
  match begun with
  | none => start b
  | some s =>
    if s.low ≤ b ∧ b ≤ s.high then
      let value := s.value * 64 + b.toNat % 64
      match s.owed with
      | 0 => ([Char.ofNat value], none)
      | owed + 1 => ([], some ⟨value, owed, 0x80, 0xBF⟩)
    else
      let (cs, next) := start b
      (replacement :: cs, next)

/-- The characters of `bs` after what has been started. -/
def decodeFrom (begun : Option Started) : List UInt8 → List Char
  | [] => if begun.isSome then [replacement] else []
  | b :: bs =>
    let (cs, next) := step begun b
    cs ++ decodeFrom next bs

/-- The characters of a byte string, with U+FFFD for what is damaged. -/
def decode (bs : List UInt8) : List Char := decodeFrom none bs

end ClockChip.Text.Utf8
