/-!
# What a state stream is made of

A state stream is a header followed by fields.  The header is a magic and a
format version; a field is a number of fixed width, with its least significant
byte first, a run of bytes, or a four-byte tag that opens a section.  Nothing in
the stream says which kind a field is: a reader has to ask for the fields in the
order in which they were written.
-/

namespace ClockChip.Savestate

/-! ## Numbers -/

namespace LittleEndian

/-- The `width` low bytes of `n`, least significant first. -/
def encode : Nat → Nat → List UInt8
  | 0, _ => []
  | width + 1, n => UInt8.ofNat (n % 256) :: encode width (n / 256)

/-- The number whose bytes these are, least significant first. -/
def decode : List UInt8 → Nat
  | [] => 0
  | b :: bs => b.toNat + 256 * decode bs

@[simp] theorem length_encode (width n : Nat) : (encode width n).length = width := by
  induction width generalizing n with
  | zero => rfl
  | succ width ih => simp [encode, ih]

theorem encode_decode (bs : List UInt8) : encode bs.length (decode bs) = bs := by
  induction bs with
  | nil => rfl
  | cons b bs ih =>
    have hb := b.toNat_lt
    have hmod : (b.toNat + 256 * decode bs) % 256 = b.toNat := by omega
    have hdiv : (b.toNat + 256 * decode bs) / 256 = decode bs := by omega
    rw [List.length_cons, decode, encode, hmod, hdiv, ih, UInt8.ofNat_toNat]

theorem decode_encode_two (v : UInt16) : decode (encode 2 v.toNat) = v.toNat := by
  have := v.toNat_lt
  simp only [encode, decode, UInt8.toNat_ofNat']
  omega

theorem decode_encode_four (v : UInt32) : decode (encode 4 v.toNat) = v.toNat := by
  have := v.toNat_lt
  simp only [encode, decode, UInt8.toNat_ofNat']
  omega

theorem decode_encode_eight (v : UInt64) : decode (encode 8 v.toNat) = v.toNat := by
  have := v.toNat_lt
  simp only [encode, decode, UInt8.toNat_ofNat']
  omega

end LittleEndian

/-! ## Fields -/

/-- The four bytes that open a section. -/
abbrev Tag := Vector UInt8 4

/-- The four bytes that every stream begins with: `ESRT`. -/
def magic : Tag := #v[0x45, 0x53, 0x52, 0x54]

/-- The version that is written, and the latest that is read. -/
def version : UInt16 := 1

/-- One entry of a stream. -/
inductive Field where
  | tag (t : Tag)
  | word8 (v : UInt8)
  | word16 (v : UInt16)
  | word32 (v : UInt32)
  | word64 (v : UInt64)
  | bytes (bs : List UInt8)
deriving DecidableEq, Repr

namespace Field

/-- The bytes of a field. -/
def encode : Field → List UInt8
  | tag t => t.toList
  | word8 v => [v]
  | word16 v => LittleEndian.encode 2 v.toNat
  | word32 v => LittleEndian.encode 4 v.toNat
  | word64 v => LittleEndian.encode 8 v.toNat
  | bytes bs => bs

/-- The number of bytes that a field takes. -/
def size : Field → Nat
  | tag _ => 4
  | word8 _ => 1
  | word16 _ => 2
  | word32 _ => 4
  | word64 _ => 8
  | bytes bs => bs.length

@[simp] theorem length_encode (f : Field) : f.encode.length = f.size := by
  cases f <;> simp [encode, size]

end Field

/-- The magic and the version. -/
def header : List UInt8 := magic.toList ++ LittleEndian.encode 2 version.toNat

/-- The bytes of a stream with these fields. -/
def encode (fields : List Field) : List UInt8 := header ++ fields.flatMap Field.encode

end ClockChip.Savestate
