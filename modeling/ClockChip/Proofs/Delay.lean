import ClockChip.Oscillator

/-!
# The delay between ticks

A delay is computed in machine words: a signed sum of thirty-two bits, shifted
and masked, and then widened.  As numbers these are a quotient and a remainder,
as long as the sum is one that thirty-two signed bits hold.  The `n`-th tick after a start
from rest therefore falls into the cycle `tickTime n`, and what the delay to it
left over is the rest of the same division.

Whatever the remainder was before, after one delay it is one that a division leaves over
(`regular_nextDelay`), and no delay at all is longer than 65535 cycles
(`toInt_nextDelay_lt`).
-/

namespace ClockChip.Oscillator

/-! ## Words as numbers -/

/-- An arithmetic shift rounds down, also below nought. -/
theorem toInt_shiftRight (t : Int32) : (t >>> 15).toInt = t.toInt / 32768 := by
  change (t.toBitVec.sshiftRight 15).toInt = _
  rw [BitVec.toInt_sshiftRight, Int.shiftRight_eq_div_pow]
  rfl

/-- The mask takes the rest that belongs to the shift. -/
theorem toInt_and (t : Int32) : (t &&& 32767).toInt = t.toInt % 32768 := by
  change (t.toBitVec &&& 32767#32).toInt = t.toBitVec.toInt % 32768
  have low : (t.toBitVec &&& 32767#32).toNat = t.toBitVec.toNat % 32768 := by
    rw [BitVec.toNat_and]
    exact Nat.and_two_pow_sub_one_eq_mod t.toBitVec.toNat 15
  have := t.toBitVec.isLt
  rw [BitVec.toInt_eq_toNat_cond, BitVec.toInt_eq_toNat_cond, low]
  split <;> split <;> omega

/-- A signed word that is not negative stays the same number when it is widened. -/
theorem toNat_widen {t : Int32} (h : 0 ≤ t.toInt) : (t.toInt64.toUInt64.toNat : Int) = t.toInt := by
  have bound := t.toInt_lt
  have nonneg : 0 ≤ t.toInt64 := by
    rw [Int64.le_iff_toInt_le, Int32.toInt_toInt64]
    exact h
  rw [Int64.toNat_toUInt64_of_le nonneg, ← Int64.toNat_toInt, Int32.toInt_toInt64]
  omega

/-! ## One delay -/

/-- The cycles that a delay divides, in units of one 32768th: a tick of the crystal
and what was left over before. -/
def total (o : Oscillator) : Int := busClock.toInt + o.remainder.toInt

/-- The sum stays within its word. -/
def Fits (o : Oscillator) : Prop := 0 ≤ o.total ∧ o.total < 2147483648

theorem toInt_sum {o : Oscillator} (h : o.Fits) : (busClock + o.remainder).toInt = o.total := by
  obtain ⟨low, high⟩ := h
  rw [Int32.toInt_add]
  exact Int.bmod_eq_of_le (by rw [total] at low; omega) (by rw [total] at high; omega)

theorem toNat_nextDelay {o : Oscillator} (h : o.Fits) :
    (o.nextDelay.1.toNat : Int) = o.total / 32768 := by
  have shifted := toInt_shiftRight (busClock + o.remainder)
  rw [toInt_sum h] at shifted
  rw [← shifted]
  exact toNat_widen (by rw [shifted]; exact Int.ediv_nonneg h.1 (by decide))

theorem remainder_nextDelay {o : Oscillator} (h : o.Fits) :
    o.nextDelay.2.remainder.toInt = o.total % 32768 := by
  rw [← toInt_sum h]
  exact toInt_and _

/-! ## After the first delay

A remainder that is restored can be any word, and the delay that is computed from it as well:
it may be negative, and then it is a great number when it is widened.  What it leaves over is
a remainder as the chip itself leaves it, and from then on the delays are those of the crystal.
-/

/-- The remainder is one that a delay has left over. -/
def Regular (o : Oscillator) : Prop := 0 ≤ o.remainder.toInt ∧ o.remainder.toInt < 32768

theorem regular_nextDelay (o : Oscillator) : o.nextDelay.2.Regular := by
  have rest : o.nextDelay.2.remainder.toInt = (busClock + o.remainder).toInt % 32768 :=
    toInt_and _
  rw [Regular, rest]
  exact ⟨Int.emod_nonneg _ (by decide), Int.emod_lt_of_pos _ (by decide)⟩

theorem Regular.total {o : Oscillator} (h : o.Regular) :
    33513982 ≤ o.total ∧ o.total < 33513982 + 32768 := by
  obtain ⟨low, high⟩ := h
  have clock : busClock.toInt = 33513982 := rfl
  rw [Oscillator.total, clock]
  omega

theorem Regular.fits {o : Oscillator} (h : o.Regular) : o.Fits := by
  obtain ⟨low, high⟩ := h.total
  exact ⟨by omega, by omega⟩

/-- A regular delay is a thousand cycles and a little more. -/
theorem Regular.toNat_nextDelay {o : Oscillator} (h : o.Regular) :
    o.nextDelay.1.toNat = 1022 ∨ o.nextDelay.1.toNat = 1023 := by
  obtain ⟨low, high⟩ := h.total
  have delay := Oscillator.toNat_nextDelay h.fits
  omega

/-- A delay as a number, which may be negative. -/
theorem toInt_nextDelay (o : Oscillator) :
    o.nextDelay.1.toInt64.toInt = (busClock + o.remainder).toInt / 32768 := by
  have widened : o.nextDelay.1.toInt64 = ((busClock + o.remainder) >>> 15).toInt64 := rfl
  rw [widened, Int32.toInt_toInt64, toInt_shiftRight]

theorem Fits.toInt_nextDelay {o : Oscillator} (h : o.Fits) :
    o.nextDelay.1.toInt64.toInt = o.nextDelay.1.toNat := by
  rw [Oscillator.toInt_nextDelay, toInt_sum h, Oscillator.toNat_nextDelay h]

/-- No delay is longer than this, whatever the remainder. -/
theorem toInt_nextDelay_lt (o : Oscillator) : o.nextDelay.1.toInt64.toInt < 65536 := by
  have bound := (busClock + o.remainder).toInt_lt
  rw [toInt_nextDelay]
  omega

/-! ## The schedule of the ticks -/

/-- The cycle into which the `n`-th tick after a start from rest falls. -/
def tickTime (n : Nat) : Nat := n * busClock.toInt.toNat / ticksPerSecond.toNat

/-- What the delay to the `n`-th tick leaves over. -/
def tickRest (n : Nat) : Nat := n * busClock.toInt.toNat % ticksPerSecond.toNat

theorem tickTime_eq (n : Nat) : tickTime n = n * 33513982 / 32768 := rfl

theorem tickRest_eq (n : Nat) : tickRest n = n * 33513982 % 32768 := rfl

theorem tickTime_succ_le (n : Nat) : tickTime (n + 1) ≤ tickTime n + 1023 := by
  rw [tickTime_eq, tickTime_eq]
  omega

theorem tickTime_mono {m n : Nat} (h : m ≤ n) : tickTime m ≤ tickTime n := by
  rw [tickTime_eq, tickTime_eq]
  omega

/-- How many ticks after a start from rest fall due in some cycles. -/
def ticksBy (cycles : Nat) : Nat := (cycles * 32768 + 32767) / 33513982

theorem le_ticksBy_iff {n cycles : Nat} : n ≤ ticksBy cycles ↔ tickTime n ≤ cycles := by
  rw [tickTime_eq, ticksBy, Nat.le_div_iff_mul_le (by decide)]
  omega

theorem lt_tickTime_ticksBy (cycles : Nat) : cycles < tickTime (ticksBy cycles + 1) :=
  Nat.lt_of_not_le (mt le_ticksBy_iff.2 (Nat.not_succ_le_self _))

theorem ticksBy_mono {cycles cycles' : Nat} (h : cycles ≤ cycles') :
    ticksBy cycles ≤ ticksBy cycles' :=
  le_ticksBy_iff.2 (Nat.le_trans (le_ticksBy_iff.1 (Nat.le_refl _)) h)

/-- An oscillator that has just computed the delay to the `n`-th tick. -/
def Carries (n : Nat) (o : Oscillator) : Prop := o.remainder.toInt = tickRest n

theorem Carries.total {n : Nat} {o : Oscillator} (h : o.Carries n) :
    o.total = 33513982 + tickRest n := by
  rw [Oscillator.total, h]
  rfl

theorem Carries.fits {n : Nat} {o : Oscillator} (h : o.Carries n) : o.Fits := by
  have rest : tickRest n < 32768 := Nat.mod_lt _ (by decide)
  rw [Fits, h.total]
  omega

/-- What is left over is carried, so that the delays add up to the schedule. -/
theorem Carries.toNat_nextDelay {n : Nat} {o : Oscillator} (h : o.Carries n) :
    tickTime n + o.nextDelay.1.toNat = tickTime (n + 1) := by
  have delay := Oscillator.toNat_nextDelay h.fits
  rw [h.total, tickRest_eq] at delay
  rw [tickTime_eq, tickTime_eq]
  omega

theorem Carries.nextDelay {n : Nat} {o : Oscillator} (h : o.Carries n) :
    o.nextDelay.2.Carries (n + 1) := by
  have rest := remainder_nextDelay h.fits
  rw [h.total, tickRest_eq] at rest
  rw [Carries, tickRest_eq, rest]
  omega

/-- From rest nothing has been left over yet. -/
theorem carries_fromRest (o : Oscillator) : o.fromRest.Carries 0 := rfl

end ClockChip.Oscillator
