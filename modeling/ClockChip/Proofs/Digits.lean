import ClockChip.Bcd

/-!
# Packed decimal as numbers

A byte of two decimal digits stands for a number below a hundred (`value`).  The
order of such bytes is the order of the numbers (`value_le_iff`), and counting one
up is adding one, with a hundred gone round to nought (`value_increment`).  A
register that has not reached its last value therefore stays in its range when it
is counted up (`InRange.increment`).
-/

namespace ClockChip

/-- What is said of every byte can be tried on every byte. -/
instance decidableForallByte (p : UInt8 → Prop) [DecidablePred p] : Decidable (∀ b, p b) :=
  decidable_of_iff (∀ b : BitVec 8, p ⟨b⟩) ⟨fun h b ↦ h b.toBitVec, fun h b ↦ h ⟨b⟩⟩

namespace Bcd

/-- The number that a byte stands for. -/
def value (b : UInt8) : Nat := (toBinary b).toNat

@[simp] theorem value_one : value 1 = 1 := by decide

/-- The halves never spell more than a byte holds. -/
theorem value_eq (b : UInt8) : value b = b.toNat / 16 * 10 + b.toNat % 16 := by
  have := b.toNat_lt
  have high : (b / 16).toNat = b.toNat / 16 := UInt8.toNat_div b 16
  have low : (b % 16).toNat = b.toNat % 16 := UInt8.toNat_mod b 16
  rw [value, toBinary, UInt8.toNat_add, UInt8.toNat_mul, high, low]
  change (b.toNat / 16 * 10 % 256 + b.toNat % 16) % 256 = _
  omega

theorem isDigits_iff {b : UInt8} : isDigits b = true ↔ b.toNat % 16 < 10 ∧ b.toNat / 16 < 10 := by
  rw [isDigits, Bool.and_eq_true, decide_eq_true_iff, decide_eq_true_iff, UInt8.lt_iff_toNat_lt,
    UInt8.lt_iff_toNat_lt, UInt8.toNat_mod, UInt8.toNat_div]
  rfl

theorem value_lt {b : UInt8} (h : isDigits b = true) : value b < 100 := by
  have := isDigits_iff.1 h
  rw [value_eq]
  omega

theorem value_le_iff {a b : UInt8} (ha : isDigits a = true) (hb : isDigits b = true) :
    value a ≤ value b ↔ a ≤ b := by
  have := isDigits_iff.1 ha
  have := isDigits_iff.1 hb
  rw [value_eq, value_eq, UInt8.le_iff_toNat_le]
  omega

theorem lt_iff_value_lt {a b : UInt8} (ha : isDigits a = true) (hb : isDigits b = true) :
    a < b ↔ value a < value b := by
  rw [← UInt8.not_le, ← Nat.not_le, value_le_iff hb ha]

/-! ## Counting up -/

/-- Counting up is exact on the digits, carry and all. -/
theorem toNat_increment {b : UInt8} (h : isDigits b = true) :
    (increment b).toNat =
      if b.toNat = 0x99 then 0 else if b.toNat % 16 = 9 then b.toNat + 7 else b.toNat + 1 := by
  have digits := isDigits_iff.1 h
  have one : (b + 1).toNat = b.toNat + 1 := by
    rw [UInt8.toNat_add]
    exact Nat.mod_eq_of_lt (by change b.toNat + 1 < 256; omega)
  by_cases low : b.toNat % 16 = 9
  · have carry : ¬(b + 1) % 16 < 10 := by
      rw [UInt8.lt_iff_toNat_lt, UInt8.toNat_mod, one]
      change ¬(b.toNat + 1) % 16 < 10
      omega
    have six : (b + 1 + 0x06).toNat = b.toNat + 7 := by
      rw [UInt8.toNat_add, one]
      exact Nat.mod_eq_of_lt (by change b.toNat + 1 + 6 < 256; omega)
    have tens : (b + 1 + 0x06) / 16 < 10 ↔ (b.toNat + 7) / 16 < 10 := by
      rw [UInt8.lt_iff_toNat_lt, UInt8.toNat_div, six]
      rfl
    rw [increment, if_neg carry]
    split
    · next inside =>
      have := tens.1 inside
      rw [six, if_neg (by omega)]
    · next past =>
      have := mt tens.2 past
      rw [UInt8.toNat_add, six, if_pos (by omega)]
      change (b.toNat + 7 + 96) % 256 = 0
      omega
  · have under : (b + 1) % 16 < 10 := by
      rw [UInt8.lt_iff_toNat_lt, UInt8.toNat_mod, one]
      change (b.toNat + 1) % 16 < 10
      omega
    have high : (b + 1) / 16 < 10 := by
      rw [UInt8.lt_iff_toNat_lt, UInt8.toNat_div, one]
      change (b.toNat + 1) / 16 < 10
      omega
    rw [increment, if_pos under, if_pos high, one, if_neg (by omega), if_neg low]

theorem isDigits_increment {b : UInt8} (h : isDigits b = true) :
    isDigits (increment b) = true := by
  have digits := isDigits_iff.1 h
  rw [isDigits_iff, toNat_increment h]
  split
  · decide
  · split <;> omega

/-- Counting up adds one, modulo a hundred. -/
theorem value_increment {b : UInt8} (h : isDigits b = true) :
    value (increment b) = (value b + 1) % 100 := by
  have digits := isDigits_iff.1 h
  rw [value_eq, value_eq, toNat_increment h]
  split
  · omega
  · split <;> omega

/-! ## Ranges -/

variable {low high b : UInt8}

theorem InRange.isDigits (h : InRange low high b) : Bcd.isDigits b = true := h.2.2

theorem InRange.value_le (h : InRange low high b) (top : Bcd.isDigits high = true) :
    value b ≤ value high :=
  (value_le_iff h.isDigits top).2 h.2.1

theorem InRange.le_value (h : InRange low high b) (bottom : Bcd.isDigits low = true) :
    value low ≤ value b :=
  (value_le_iff bottom h.isDigits).2 h.1

/-- Any two digits are a number below a hundred. -/
theorem inRange_of_isDigits (h : Bcd.isDigits b = true) : InRange 0x00 0x99 b :=
  ⟨UInt8.zero_le, (value_le_iff h (by decide)).1 (Nat.le_of_lt_succ (value_lt h)), h⟩

/-- Below the end of its range a register adds one. -/
theorem InRange.value_increment (h : InRange low high b) (top : Bcd.isDigits high = true)
    (lt : b < high) : value (increment b) = value b + 1 := by
  have below := (lt_iff_value_lt h.isDigits top).1 lt
  have := value_lt top
  rw [Bcd.value_increment h.isDigits, Nat.mod_eq_of_lt (by omega)]

/-- Below the end of its range a register stays in it. -/
theorem InRange.increment (h : InRange low high b) (top : Bcd.isDigits high = true)
    (lt : b < high) : InRange low high (increment b) := by
  have digits := isDigits_increment h.isDigits
  have step := h.value_increment top lt
  have from' : b ≤ Bcd.increment b :=
    (value_le_iff h.isDigits digits).1 (by rw [step]; exact Nat.le_succ _)
  have below := (lt_iff_value_lt h.isDigits top).1 lt
  have to' : Bcd.increment b ≤ high := (value_le_iff digits top).1 (by rw [step]; exact below)
  exact ⟨UInt8.le_trans h.1 from', to', digits⟩

end Bcd

end ClockChip
