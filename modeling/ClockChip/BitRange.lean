/-!
# Bit ranges of a register word

A control register packs several values into one word.  A `BitRange w` names a run of
consecutive bits of a `w`-bit word, and there are three ways to get at one:

* as a field, a number of any width that has room for the range (`get`, `set`);
* as a flag, if it is a single bit (`isSet`, `put`);
* as a byte, if it is one (`getByte`, `setByte`).

Each replaces the bits of the range and leaves the rest of the word alone, but each masks in its
own way.  What they do is said bit by bit below (`getLsbD_get`, `getLsbD_set` and so on), and
nothing else needs to know how it is done.

The number offered to `set` may be wider than the range: only its low bits are stored.
-/

namespace ClockChip

/-- The bits `lo`, …, `hi` of a `w`-bit word, both ends included. -/
structure BitRange (w : Nat) where
  lo : Nat
  hi : Nat
  lo_le_hi : lo ≤ hi := by decide
  hi_lt : hi < w := by decide
deriving DecidableEq, Repr

namespace BitRange

variable {w n : Nat}

/-- The range that holds bit `i` only. -/
@[inline] def bit (i : Nat) (h : i < w := by decide) : BitRange w := ⟨i, i, Nat.le_refl i, h⟩

/-- The range of byte `i`, the lowest byte being the first. -/
@[inline] def byte (i : Nat) (h : 8 * i + 7 < w := by decide) : BitRange w :=
  ⟨8 * i, 8 * i + 7, Nat.le_add_right (8 * i) 7, h⟩

/-- The number of bits in the range. -/
@[inline] def width (r : BitRange w) : Nat := r.hi + 1 - r.lo

instance : Membership Nat (BitRange w) := ⟨fun r i ↦ r.lo ≤ i ∧ i ≤ r.hi⟩

instance (r : BitRange w) (i : Nat) : Decidable (i ∈ r) :=
  inferInstanceAs (Decidable (r.lo ≤ i ∧ i ≤ r.hi))

theorem mem_iff {r : BitRange w} {i : Nat} : i ∈ r ↔ r.lo ≤ i ∧ i ≤ r.hi := Iff.rfl

theorem mem_of_lt_width (r : BitRange w) {i : Nat} (low : i < r.width) : r.lo + i ∈ r :=
  ⟨Nat.le_add_right r.lo i, Nat.le_of_lt_succ (Nat.add_lt_of_lt_sub' low)⟩

theorem lt_width_of_mem (r : BitRange w) {i : Nat} (inside : i ∈ r) : i - r.lo < r.width :=
  Nat.sub_lt_sub_right inside.1 (Nat.lt_succ_of_le inside.2)

theorem mem_of_single (r : BitRange w) (single : r.width = 1) {i : Nat} : i ∈ r ↔ i = r.lo := by
  have ends := r.lo_le_hi
  rw [width] at single
  rw [mem_iff]
  omega

/-! ## Fields -/

/-- The number that the range holds, in `n` bits.  It is moved up as far as it goes and down
again, and what was above the range is lost on the way. -/
@[inline] def get (r : BitRange w) (x : BitVec w) (n : Nat := r.width) : BitVec n :=
  (x >>> r.lo).setWidth n <<< (n - r.width) >>> (n - r.width)

/-- The greatest number for the range, in `n` bits.  If these are all of the range, there is no
power of two to take one from. -/
@[inline] def ones (r : BitRange w) (n : Nat) : BitVec n :=
  if r.width = n then BitVec.allOnes n else (1#n <<< r.width) - 1#n

/-- The word that is one exactly on the range, for numbers of `n` bits. -/
@[inline] def mask (r : BitRange w) (n : Nat) : BitVec w := (r.ones n).setWidth w <<< r.lo

/-- The word with the low bits of `v` in the range. -/
@[inline] def set (r : BitRange w) (v : BitVec n) (x : BitVec w) : BitVec w :=
  (x &&& ~~~r.mask n) ||| (v.setWidth w <<< r.lo &&& r.mask n)

/-! ## Flags -/

/-- Whether the first bit of the range is one. -/
@[inline] def isSet (r : BitRange w) (x : BitVec w) : Bool := x &&& 1#w <<< r.lo != 0

/-- Raises or clears a flag. -/
@[inline] def put (r : BitRange w) (b : Bool) (x : BitVec w) : BitVec w :=
  (x &&& ~~~(1#w <<< r.lo)) ||| (BitVec.ofBool b).setWidth w <<< r.lo

/-! ## Bytes -/

/-- The byte from the first bit of the range on. -/
@[inline] def getByte (r : BitRange w) (x : BitVec w) : BitVec 8 :=
  (x >>> r.lo &&& 0xFF#w).setWidth 8

/-- The word with `v` for that byte. -/
@[inline] def setByte (r : BitRange w) (v : BitVec 8) (x : BitVec w) : BitVec w :=
  (x &&& ~~~(0xFF#w <<< r.lo)) ||| v.setWidth w <<< r.lo

/-! ## A field bit by bit -/

theorem getLsbD_get (r : BitRange w) (fits : r.width ≤ n) (x : BitVec w) (i : Nat) :
    (r.get x n).getLsbD i = (decide (i < r.width) && x.getLsbD (r.lo + i)) := by
  rw [get, BitVec.getLsbD_ushiftRight, BitVec.getLsbD_shiftLeft, Nat.add_sub_cancel_left,
    BitVec.getLsbD_setWidth, BitVec.getLsbD_ushiftRight]
  by_cases low : i < r.width
  · have top : n - r.width + i < n := by omega
    have inside : i < n := Nat.lt_of_lt_of_le low fits
    simp [low, top, inside]
  · have beyond : ¬n - r.width + i < n := by omega
    simp [low, beyond]

theorem getLsbD_ones (r : BitRange w) (fits : r.width ≤ n) (i : Nat) :
    (r.ones n).getLsbD i = decide (i < r.width) := by
  unfold ones
  split
  · next full => rw [BitVec.getLsbD_allOnes, full]
  · next room =>
    have lt : r.width < n := Nat.lt_of_le_of_ne fits room
    have one : (1#n).toNat = 1 := BitVec.toNat_one (Nat.zero_lt_of_lt lt)
    have power : (1#n <<< r.width).toNat = 2 ^ r.width := by
      rw [← BitVec.twoPow_eq, BitVec.toNat_twoPow_of_lt lt]
    have le : 1#n ≤ 1#n <<< r.width := by
      rw [BitVec.le_def, one, power]
      exact Nat.two_pow_pos r.width
    rw [← BitVec.testBit_toNat, BitVec.toNat_sub_of_le le, power, one, Nat.testBit_two_pow_sub_one]

/-- A number that is moved up to bit `k` of a word. -/
theorem getLsbD_moved (v : BitVec n) (k i : Nat) :
    (v.setWidth w <<< k).getLsbD i = (decide (k ≤ i ∧ i < w) && v.getLsbD (i - k)) := by
  rw [BitVec.getLsbD_shiftLeft, BitVec.getLsbD_setWidth]
  by_cases place : k ≤ i ∧ i < w
  · have above : ¬i < k := Nat.not_lt.2 place.1
    have inside : i - k < w := Nat.lt_of_le_of_lt (Nat.sub_le i k) place.2
    simp [place, above, inside]
  · rcases Decidable.not_and_iff_not_or_not.1 place with below | out
    · simp [place, Nat.lt_of_not_le below]
    · simp [out]

theorem getLsbD_mask (r : BitRange w) (fits : r.width ≤ n) (i : Nat) :
    (r.mask n).getLsbD i = decide (i ∈ r) := by
  have ends := r.lo_le_hi
  have last := r.hi_lt
  rw [mask, getLsbD_moved, r.getLsbD_ones fits, width, ← Bool.decide_and, decide_eq_decide,
    mem_iff]
  omega

theorem getLsbD_set (r : BitRange w) (fits : r.width ≤ n) (v : BitVec n) (x : BitVec w) (i : Nat) :
    (r.set v x).getLsbD i = if i ∈ r then v.getLsbD (i - r.lo) else x.getLsbD i := by
  rw [set, BitVec.getLsbD_or, BitVec.getLsbD_and, BitVec.getLsbD_and, BitVec.getLsbD_not,
    r.getLsbD_mask fits, getLsbD_moved]
  by_cases inside : i ∈ r
  · have place : r.lo ≤ i ∧ i < w := ⟨inside.1, Nat.lt_of_le_of_lt inside.2 r.hi_lt⟩
    simp [inside, place]
  · by_cases hi : i < w
    · simp [inside, hi]
    · simp [inside, hi, BitVec.getLsbD_of_ge x i (Nat.le_of_not_lt hi)]

/-- A number that fills the range has nothing that the mask takes away. -/
theorem set_of_whole (r : BitRange w) (whole : r.width = n) (v : BitVec n) (x : BitVec w) :
    r.set v x =
      (x &&& ~~~((BitVec.allOnes n).setWidth w <<< r.lo)) ||| v.setWidth w <<< r.lo := by
  have mask : r.mask n = (BitVec.allOnes n).setWidth w <<< r.lo := by rw [mask, ones, if_pos whole]
  have within : v.setWidth w <<< r.lo &&& r.mask n = v.setWidth w <<< r.lo := by
    rw [mask, ← BitVec.shiftLeft_and_distrib, ← BitVec.setWidth_and, BitVec.and_allOnes]
  rw [set, within, mask]

/-! ## A flag is its bit -/

theorem isSet_eq (r : BitRange w) (x : BitVec w) : r.isSet x = x.getLsbD r.lo := by
  have inside : r.lo < w := Nat.lt_of_le_of_lt r.lo_le_hi r.hi_lt
  have power : BitVec.twoPow w r.lo ≠ 0 := by
    intro zero
    have bit := congrArg (BitVec.getLsbD · r.lo) zero
    simp [inside] at bit
  rw [isSet, ← BitVec.twoPow_eq, BitVec.and_twoPow]
  cases x.getLsbD r.lo with
  | true => exact bne_iff_ne.2 power
  | false => exact bne_eq_false_iff_eq.2 rfl

theorem isSet_bit {i : Nat} (h : i < w) (x : BitVec w) : (bit i h).isSet x = x.getLsbD i :=
  isSet_eq (bit i h) x

/-- A flag is a field of one bit. -/
theorem put_eq_set (r : BitRange w) (single : r.width = 1) (b : Bool) (x : BitVec w) :
    r.put b x = r.set (.ofBool b) x := by
  have one : 1#w = (BitVec.allOnes 1).setWidth w := by
    apply BitVec.eq_of_toNat_eq
    simp
  rw [put, one, r.set_of_whole single]

theorem getLsbD_put (r : BitRange w) (b : Bool) (x : BitVec w) (i : Nat) :
    (r.put b x).getLsbD i = if i = r.lo then b else x.getLsbD i := by
  -- Of a range that is longer, too, only the first bit is raised.
  let first : BitRange w := bit r.lo (Nat.lt_of_le_of_lt r.lo_le_hi r.hi_lt)
  have single : first.width = 1 := Nat.add_sub_cancel_left r.lo 1
  change (first.put b x).getLsbD i = if i = first.lo then b else x.getLsbD i
  rw [first.put_eq_set single, first.getLsbD_set (Nat.le_of_eq single)]
  by_cases here : i = first.lo
  · rw [if_pos ((first.mem_of_single single).2 here), if_pos here, here, Nat.sub_self,
      BitVec.getLsbD_ofBool]
    exact Bool.true_and b
  · rw [if_neg (mt (first.mem_of_single single).1 here), if_neg here]

theorem isSet_put {i : Nat} (h : i < w) (b : Bool) (x : BitVec w) :
    (bit i h).isSet ((bit i h).put b x) = b := by
  rw [isSet_bit, getLsbD_put, if_pos]
  rfl

/-! ## A byte is a field of eight bits -/

theorem byteMask_eq : 0xFF#w = (BitVec.allOnes 8).setWidth w := by
  apply BitVec.eq_of_toNat_eq
  simp

theorem getByte_eq_get (r : BitRange w) (whole : r.width = 8) (x : BitVec w) :
    r.getByte x = r.get x 8 := by
  have inside : 8 ≤ w := by
    have last := r.hi_lt
    rw [width] at whole
    omega
  have all : (0xFF#w).setWidth 8 = BitVec.allOnes 8 := by
    rw [byteMask_eq, BitVec.setWidth_setWidth_of_le _ inside, BitVec.setWidth_eq]
  rw [getByte, BitVec.setWidth_and, all, BitVec.and_allOnes, get, whole, Nat.sub_self,
    BitVec.shiftLeft_zero, BitVec.ushiftRight_zero]

theorem setByte_eq_set (r : BitRange w) (whole : r.width = 8) (v : BitVec 8) (x : BitVec w) :
    r.setByte v x = r.set v x := by
  rw [setByte, byteMask_eq, r.set_of_whole whole]

end BitRange

end ClockChip
