import ClockChip.Proofs.Delay

/-!
# No cycle is lost

An oscillator is asked for the delay to the next tick and is told when one has come, and the
one does not matter to the other: delays go by the remainder and ticks by the count.

The delays are a long division.  Whatever has been handed out and what is left over make up all
that came in (`cycles_add_remainder`), and what is left over after a delay is less than a cycle
(`regular_calls`), so that any number of delays add up to the quotient of the whole.

The ticks are counted in a word that comes round.  It holds a whole number of seconds, so the
place within a second goes on counting when it does (`secondsCounted_eq`).
-/

namespace ClockChip.Oscillator

/-! ## Calls -/

/-- What is asked of an oscillator. -/
inductive Call where
  /-- The cycles until the next tick. -/
  | delay
  /-- To count a tick. -/
  | tick
deriving DecidableEq, Repr

/-- The oscillator after a call. -/
def call (o : Oscillator) : Call → Oscillator
  | .delay => o.nextDelay.2
  | .tick => o.tick

/-- The oscillator after one call after another. -/
def calls (o : Oscillator) (cs : List Call) : Oscillator := cs.foldl call o

/-- What the delays among some calls add up to. -/
def cycles : List Call → Oscillator → Nat
  | [], _ => 0
  | .delay :: cs, o => o.nextDelay.1.toNat + cycles cs o.nextDelay.2
  | .tick :: cs, o => cycles cs o.tick

/-- How many of the ticks among some calls complete a second. -/
def secondsCounted : List Call → Oscillator → Nat
  | [], _ => 0
  | .delay :: cs, o => secondsCounted cs o.nextDelay.2
  | .tick :: cs, o => o.tick.atSecond.toNat + secondsCounted cs o.tick

variable {o : Oscillator}

/-! ## Delays -/

/-- What a delay hands out and what it leaves over are what it divides. -/
theorem Fits.nextDelay_add_remainder (h : o.Fits) :
    (o.nextDelay.1.toNat : Int) * 32768 + o.nextDelay.2.remainder.toInt =
      33513982 + o.remainder.toInt := by
  have whole : o.total = 33513982 + o.remainder.toInt := rfl
  rw [toNat_nextDelay h, remainder_nextDelay h, Int.mul_comm, Int.mul_ediv_add_emod, whole]

theorem Fits.call (h : o.Fits) (c : Call) : (o.call c).Fits := by
  cases c with
  | delay => exact (regular_nextDelay o).fits
  | tick => exact h

theorem Regular.calls (h : o.Regular) (cs : List Call) : (o.calls cs).Regular := by
  induction cs generalizing o with
  | nil => exact h
  | cons c cs ih =>
    cases c with
    | delay => exact ih (regular_nextDelay o)
    | tick => exact ih (o := o.tick) h

/-- From the first delay on the remainder is one that a division leaves. -/
theorem regular_calls {cs : List Call} (asked : 0 < cs.count .delay) : (o.calls cs).Regular := by
  induction cs generalizing o with
  | nil => nomatch asked
  | cons c cs ih =>
    cases c with
    | delay => exact (regular_nextDelay o).calls cs
    | tick => exact ih asked

/-- Nothing of what comes in is lost: it is handed out in cycles, or it is left over. -/
theorem cycles_add_remainder (h : o.Fits) (cs : List Call) :
    (cycles cs o : Int) * 32768 + (o.calls cs).remainder.toInt =
      cs.count .delay * 33513982 + o.remainder.toInt := by
  induction cs generalizing o with
  | nil => simp [cycles, calls]
  | cons c cs ih =>
    have rest := ih (h.call c)
    cases c with
    | delay =>
      have first := h.nextDelay_add_remainder
      change (cycles cs o.nextDelay.2 : Int) * 32768 + (o.calls (.delay :: cs)).remainder.toInt =
        cs.count .delay * 33513982 + o.nextDelay.2.remainder.toInt at rest
      rw [cycles, List.count_cons_self, Int.natCast_add, Int.natCast_add]
      omega
    | tick => exact rest

/-! ## Ticks -/

theorem atSecond_eq_true_iff : o.atSecond = true ↔ o.ticks.toNat % 32768 = 0 := by
  rw [atSecond, beq_iff_eq, ← UInt32.toNat_inj, UInt32.toNat_mod]
  rfl

/-- The seconds go by the place within a second at which the ticks begin. -/
theorem secondsCounted_eq (cs : List Call) (o : Oscillator) :
    secondsCounted cs o = (o.ticks.toNat % 32768 + cs.count .tick) / 32768 := by
  induction cs generalizing o with
  | nil => exact (Nat.div_eq_of_lt (Nat.mod_lt _ (by decide))).symm
  | cons c cs ih =>
    cases c with
    | delay => exact ih o.nextDelay.2
    | tick =>
      have counted : o.tick.ticks.toNat = (o.ticks.toNat + 1) % 4294967296 :=
        UInt32.toNat_add o.ticks 1
      have marked := atSecond_eq_true_iff (o := o.tick)
      rw [secondsCounted, ih, List.count_cons_self]
      rw [counted] at marked ⊢
      cases second : o.tick.atSecond with
      | true =>
        have last := marked.1 second
        rw [Bool.toNat_true]
        omega
      | false =>
        have before := mt marked.2 (Bool.eq_false_iff.1 second)
        rw [Bool.toNat_false]
        omega

/-! ## Any number of calls -/

/-- From any remainder with which the sum stays within its word, the delays of some calls add
up to the whole cycles of the crystal's ticks, and what is left over is the rest; after the
first of them it is between 0 and 32767, the next sum is that of the numbers, and the next delay
1022 or 1023 cycles.  So as many delays as there are ticks in a second take exactly a second and
leave over what they found, and as many ticks complete exactly one, wherever the count is that
they go on from. -/
theorem calls_exact (fits : o.Fits) :
    (∀ cs : List Call, 0 < cs.count .delay →
      let whole := cs.count .delay * 33513982 + o.remainder.toInt
      let o' := o.calls cs
      (cycles cs o : Int) = whole / 32768 ∧ o'.remainder.toInt = whole % 32768 ∧
        (0 ≤ o'.remainder.toInt ∧ o'.remainder.toInt ≤ 32767) ∧
        (busClock + o'.remainder).toInt = 33513982 + o'.remainder.toInt ∧
        (o'.nextDelay.1.toNat = 1022 ∨ o'.nextDelay.1.toNat = 1023)) ∧
    (∀ (start : Oscillator) (cs : List Call), 0 ≤ start.remainder.toInt →
      start.remainder.toInt ≤ 32767 → cs.count .delay = 32768 →
        cycles cs start = 33513982 ∧ (start.calls cs).remainder = start.remainder) ∧
    ∀ (start : Oscillator) (cs : List Call), cs.count .tick = 32768 →
      secondsCounted cs start = 1 := by
  refine ⟨?_, ?_, ?_⟩
  · intro cs asked whole o'
    have sum : (cycles cs o : Int) * 32768 + o'.remainder.toInt = whole :=
      cycles_add_remainder fits cs
    have regular : o'.Regular := regular_calls asked
    have ⟨low, high⟩ := regular
    exact ⟨by omega, by omega, ⟨low, by omega⟩, toInt_sum regular.fits, regular.toNat_nextDelay⟩
  · intro start cs low high second
    have regular : start.Regular := ⟨low, by omega⟩
    have sum := cycles_add_remainder regular.fits cs
    obtain ⟨low', high'⟩ := regular.calls cs
    rw [second] at sum
    exact ⟨by omega, Int32.toInt_inj.1 (by omega)⟩
  · intro start cs second
    rw [secondsCounted_eq, second]
    omega

/-- The count is about to come round, and the sum is as small as it may be. -/
def brink : Oscillator := { ticks := 0xFFFFFFFF, remainder := -33513982 }

/-- The first delay is none at all, the second one regular; and a second is a second. -/
theorem calls_exact_brink :
    brink.Fits ∧ cycles [.delay, .tick, .delay] brink = 1022 ∧
      (brink.calls [.delay, .tick, .delay]).remainder = 25086 ∧
      cycles (List.replicate 32768 .delay) { remainder := 32767 } = 33513982 ∧
      secondsCounted (List.replicate 32768 .tick) brink = 1 := by
  have fits : brink.Fits := ⟨by decide, by decide⟩
  obtain ⟨delays, seconds, ticks⟩ := calls_exact fits
  obtain ⟨sum, rest, -⟩ := delays [.delay, .tick, .delay] (by decide)
  obtain ⟨second, -⟩ := seconds { remainder := 32767 } (List.replicate 32768 .delay) (by decide)
    (by decide) List.count_replicate_self
  exact ⟨fits, Int.ofNat_inj.1 sum, Int32.toInt_inj.1 rest, second,
    ticks brink (List.replicate 32768 .tick) List.count_replicate_self⟩

end ClockChip.Oscillator
