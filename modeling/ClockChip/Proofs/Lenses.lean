import ClockChip.Accessor
import ClockChip.Registers.Basic
import Mathlib.Algebra.Group.Nat.Defs

/-!
# Accessors are lenses

What is written under a name is what is read under it, and nothing else in the word changes
(`lawful`).

Flags, fields and bytes mask in ways of their own: a field is read by a shift up and down, and
it is written under a mask that is made among its own numbers and then cast.  So the laws are
not seen in the definitions.  They follow from two facts that have the same form for all three:
which bits of the word a number is made of (`testBit_read`), and which bits of the word a number
goes to (`getLsbD_write`).
-/

namespace ClockChip.Accessor

variable {w : Nat} (a : Accessor w)

/-! ## Bit by bit -/

/-- A value is known by its number. -/
theorem number_injective : Function.Injective a.number := by
  cases a with
  | flag bits single =>
    have known : ∀ b b' : Bool, b.toNat = b'.toNat → b = b' := by decide
    exact fun b b' ↦ known b b'
  | field bits size fits => exact fun _ _ ↦ BitVec.eq_of_toNat_eq
  | byte bits whole => exact fun _ _ ↦ BitVec.eq_of_toNat_eq

theorem testBit_read (x : BitVec w) (i : Nat) :
    (a.number (a.read x)).testBit i =
      (decide (i < a.range.width) && x.getLsbD (a.range.lo + i)) := by
  cases a with
  | flag bits single =>
    change (bits.isSet x).toNat.testBit i = (decide (i < bits.width) && x.getLsbD (bits.lo + i))
    rw [bits.isSet_eq, Nat.testBit_bool_toNat, single]
    by_cases zero : i = 0
    · subst zero
      rfl
    · rw [decide_eq_false zero, decide_eq_false (mt Nat.lt_one_iff.1 zero), Bool.false_and,
        Bool.false_and]
  | field bits size fits => exact bits.getLsbD_get fits x i
  | byte bits whole =>
    change (bits.getByte x).getLsbD i = (decide (i < bits.width) && x.getLsbD (bits.lo + i))
    rw [bits.getByte_eq_get whole, bits.getLsbD_get (Nat.le_of_eq whole)]

theorem getLsbD_write (v : a.Value) (x : BitVec w) (i : Nat) :
    (a.write v x).getLsbD i =
      if i ∈ a.range then (a.number v).testBit (i - a.range.lo) else x.getLsbD i := by
  cases a with
  | flag bits single =>
    have written (b : Bool) : (bits.put b x).getLsbD i =
        if i ∈ bits then b.toNat.testBit (i - bits.lo) else x.getLsbD i := by
      rw [bits.put_eq_set single, bits.getLsbD_set (Nat.le_of_eq single), Nat.testBit_bool_toNat,
        BitVec.getLsbD_ofBool]
    exact written v
  | field bits size fits => exact bits.getLsbD_set fits v x i
  | byte bits whole =>
    have written (b : BitVec 8) : (bits.setByte b x).getLsbD i =
        if i ∈ bits then b.getLsbD (i - bits.lo) else x.getLsbD i := by
      rw [bits.setByte_eq_set whole, bits.getLsbD_set (Nat.le_of_eq whole)]
    exact written v

theorem getLsbD_write_of_mem {v : a.Value} {x : BitVec w} {i : Nat} (inside : i ∈ a.range) :
    (a.write v x).getLsbD i = (a.number v).testBit (i - a.range.lo) := by
  rw [getLsbD_write, if_pos inside]

theorem getLsbD_write_of_not_mem {v : a.Value} {x : BitVec w} {i : Nat} (outside : i ∉ a.range) :
    (a.write v x).getLsbD i = x.getLsbD i := by
  rw [getLsbD_write, if_neg outside]

/-! ## Laws -/

variable {a}

/-- A value does not depend on the bits that its range does not have. -/
theorem read_congr {x y : BitVec w} (same : ∀ i ∈ a.range, x.getLsbD i = y.getLsbD i) :
    a.read x = a.read y := by
  refine a.number_injective (Nat.eq_of_testBit_eq fun i ↦ ?_)
  rw [testBit_read, testBit_read]
  by_cases low : i < a.range.width
  · rw [same _ (a.range.mem_of_lt_width low)]
  · rw [decide_eq_false low, Bool.false_and, Bool.false_and]

/-- A number that is too great for the range is read back without what is above. -/
theorem number_read_write (v : a.Value) (x : BitVec w) :
    a.number (a.read (a.write v x)) = a.number v % 2 ^ a.range.width := by
  refine Nat.eq_of_testBit_eq fun i ↦ ?_
  rw [testBit_read, Nat.testBit_mod_two_pow]
  by_cases low : i < a.range.width
  · rw [getLsbD_write_of_mem a (a.range.mem_of_lt_width low), Nat.add_sub_cancel_left]
  · rw [decide_eq_false low, Bool.false_and, Bool.false_and]

theorem write_write (v v' : a.Value) (x : BitVec w) :
    a.write v' (a.write v x) = a.write v' x := by
  refine BitVec.eq_of_getLsbD_eq fun i _ ↦ ?_
  by_cases inside : i ∈ a.range
  · rw [getLsbD_write_of_mem a inside, getLsbD_write_of_mem a inside]
  · rw [getLsbD_write_of_not_mem a inside, getLsbD_write_of_not_mem a inside,
      getLsbD_write_of_not_mem a inside]

theorem write_read (x : BitVec w) : a.write (a.read x) x = x := by
  refine BitVec.eq_of_getLsbD_eq fun i _ ↦ ?_
  by_cases inside : i ∈ a.range
  · rw [getLsbD_write_of_mem a inside, testBit_read, decide_eq_true (a.range.lt_width_of_mem inside),
      Bool.true_and, Nat.add_sub_cancel' inside.1]
  · exact getLsbD_write_of_not_mem a inside

theorem read_write_of_disjoint {b : Accessor w} (disjoint : ∀ i ∈ a.range, i ∉ b.range)
    (v : a.Value) (x : BitVec w) : b.read (a.write v x) = b.read x :=
  read_congr fun _ own ↦ getLsbD_write_of_not_mem a fun inside ↦ disjoint _ inside own

/-- An accessor is a lens on its range: what is written is read back as far as it fits, all else
in the word stays, the last value written is the one that counts, and writing what is there
already changes nothing.  It does not matter whether the word is kept or a copy is made. -/
theorem lawful (a : Accessor w) (v : a.Value) (x : BitVec w) :
    a.number (a.read (a.write v x)) = a.number v % 2 ^ a.range.width ∧
      (∀ i, i ∉ a.range → (a.write v x).getLsbD i = x.getLsbD i) ∧
      (∀ b : Accessor w, (∀ i ∈ a.range, i ∉ b.range) → b.read (a.write v x) = b.read x) ∧
      (∀ v', a.write v' (a.write v x) = a.write v' x) ∧
      a.write (a.read x) x = x ∧
      (a.assign v).run x = ((), a.write v x) :=
  ⟨number_read_write v x, fun _ outside ↦ getLsbD_write_of_not_mem a outside,
    fun _ disjoint ↦ read_write_of_disjoint disjoint v x, fun v' ↦ write_write v v' x,
    write_read x, rfl⟩

/-- Eight bits written where there is room for two. -/
theorem lawful_truncated :
    let general : Accessor 8 := .field Status1.general 8 (Nat.le_of_ble_eq_true rfl)
    let powerLost : Accessor 8 := .flag Status1.powerLost rfl
    general.number (general.read (general.write 0xFE#8 0x92#8)) = 2 ∧
      (∀ i ∈ general.range, i ∉ powerLost.range) ∧
      powerLost.read (general.write 0xFE#8 0x92#8) = true := by
  have disjoint : ∀ i ∈ Status1.general, i ∉ Status1.powerLost := by
    rintro i ⟨_, high⟩ ⟨low, _⟩
    exact absurd (Nat.le_trans low high) (by decide)
  obtain ⟨truncated, -, apart, -⟩ :=
    lawful (.field Status1.general 8 (Nat.le_of_ble_eq_true rfl)) 0xFE#8 0x92#8
  exact ⟨truncated, disjoint, apart (.flag Status1.powerLost rfl) disjoint⟩

end ClockChip.Accessor
