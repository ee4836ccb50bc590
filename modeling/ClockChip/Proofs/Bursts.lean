import ClockChip.Proofs.Slicing

/-!
# Bursts

A host may look at the scheduler as seldom as it likes.  Time then goes past many ticks at
once, and when the host looks they are served in one burst, long after they were due.  This
leaves no trace, because a tick is armed from the time for which the one before it was due
and not from the time at which that one was served: a tick and a change of the time can be
exchanged (`afterTick_atTime`).

So a machine that was started from rest and has served all that was due after some cycles is
one and the same machine, whatever the host has done to get there (`elapsed`).  A host that
looks at arbitrary times (`LooksIn`) ends there, and so does the loop that stops at every due
time on its way (`RunsTo`).
-/

namespace ClockChip.Machine

open Oscillator (tickTime ticksBy le_ticksBy_iff lt_tickTime_ticksBy ticksBy_mono)

/-! ## The clock of a host -/

/-- The machine with its chip reset where it is.  Time goes on. -/
def restarted (m : Machine) : Machine :=
  { m with
    chip := (m.chip.reset m.scheduler).1
    scheduler := (m.chip.reset m.scheduler).2 }

/-- Time passes, now and then the host looks, and then it serves all that is due. -/
inductive LooksIn : List UInt64 → Machine → Machine → Prop where
  | done {m : Machine} : LooksIn [] m m
  | look {m m' m'' : Machine} {cycles : UInt64} {pauses : List UInt64}
      (serves : Serves { m with scheduler := m.scheduler.advance cycles } m')
      (rest : LooksIn pauses m' m'') : LooksIn (cycles :: pauses) m m''

/-! ## Ticks and the time -/

/-- The machine at another time. -/
def atTime (t : UInt64) (m : Machine) : Machine := { m with scheduler := m.scheduler.setTime t }

/-- The machine after its next tick, be it due or not. -/
def afterTick (m : Machine) : Machine := m.ticked m.scheduler.nextDue

/-- A tick does not look at the time. -/
theorem afterTick_atTime (t : UInt64) : Function.Commute afterTick (atTime t) := fun _ ↦ rfl

@[simp] theorem now_atTime (t : UInt64) (m : Machine) : (m.atTime t).scheduler.now = t := rfl

@[simp] theorem chip_atTime (t : UInt64) (m : Machine) : (m.atTime t).chip = m.chip := rfl

theorem atTime_atTime (t t' : UInt64) (m : Machine) : (m.atTime t).atTime t' = m.atTime t' := rfl

theorem wait_eq (stop : UInt64) (m : Machine) :
    m.wait stop = m.atTime (min m.scheduler.nextDue stop) := by
  rw [← now_wait]
  rfl

variable {t₀ k e : Nat} {m start : Machine}

theorem Pending.afterTick {due : UInt64} (h : m.Pending due) : m.afterTick = m.ticked due := by
  rw [Machine.afterTick, Scheduler.nextDue_of_single h]

theorem Underway.next (h : Underway t₀ k m) (fits : t₀ + tickTime (k + 2) < UInt64.size) :
    Underway t₀ (k + 1) m.afterTick := by
  obtain ⟨due, pending, -⟩ := h.pending
  rw [pending.afterTick]
  exact h.ticked pending fits

theorem Underway.atTime (h : Underway t₀ k m) (t : UInt64) : Underway t₀ k (m.atTime t) :=
  ⟨h.ticks, h.carries, h.pending⟩

/-- The registers count a second in every 32768th tick. -/
theorem Underway.registers_afterTick (h : Underway t₀ (k + 1) m.afterTick) :
    m.afterTick.chip.registers =
      if 32768 ∣ k + 1 then m.chip.registers.countSecond else m.chip.registers := by
  have second : m.chip.oscillator.tick.atSecond = ((k + 1) % 32768 == 0) := h.atSecond
  change (if m.chip.oscillator.tick.atSecond then _ else _) = _
  rw [second]
  simp only [beq_iff_eq, Nat.dvd_iff_mod_eq_zero]

/-- What a chip that was started from rest comes to by its ticks alone. -/
theorem Underway.iterate (h : Underway t₀ 0 start) (k : Nat)
    (fits : t₀ + tickTime (k + 1) < UInt64.size) :
    Underway t₀ k (afterTick^[k] start) ∧
      (afterTick^[k] start).chip.registers =
        Registers.countSecond^[k / 32768] start.chip.registers := by
  induction k with
  | zero => exact ⟨h, rfl⟩
  | succ k ih =>
    have shorter : tickTime (k + 1) ≤ tickTime (k + 1 + 1) := Oscillator.tickTime_mono (by omega)
    obtain ⟨underway, registers⟩ := ih (by omega)
    have next := underway.next fits
    rw [Function.iterate_succ_apply']
    refine ⟨next, ?_⟩
    rw [next.registers_afterTick, registers, Nat.succ_div]
    split
    · rw [Function.iterate_succ_apply']
    · rw [Nat.add_zero]

/-! ## The machine after some cycles -/

/-- The machine after some cycles in which it has served what fell due, as if each tick had been
served at once. -/
def elapsed (e : Nat) (start : Machine) : Machine :=
  (afterTick^[ticksBy e] start).atTime (start.scheduler.now + UInt64.ofNat e)

@[simp] theorem now_elapsed (e : Nat) (start : Machine) :
    (start.elapsed e).scheduler.now = start.scheduler.now + UInt64.ofNat e := by
  rw [elapsed, now_atTime]

theorem elapsed_zero (start : Machine) : start.elapsed 0 = start := by
  have now : start.scheduler.now + UInt64.ofNat 0 = start.scheduler.now := UInt64.add_zero _
  rw [elapsed, now]
  rfl

/-- A time that has been reached, as a number. -/
theorem toNat_add_ofNat {t : UInt64} {e : Nat} (fits : t.toNat + e < UInt64.size) :
    (t + UInt64.ofNat e).toNat = t.toNat + e := by
  have small : (UInt64.ofNat e).toNat = e := UInt64.toNat_ofNat_of_lt' (by omega)
  rw [UInt64.toNat_add, small]
  exact Nat.mod_eq_of_lt fits

/-- No due time up to these cycles overflows, nor the first one after them. -/
def Fits (start : Machine) (e : Nat) : Prop :=
  start.scheduler.now.toNat + tickTime (ticksBy e + 1) < UInt64.size

/-- The cycles themselves do not overflow then. -/
theorem Fits.now (h : start.Fits e) : start.scheduler.now.toNat + e < UInt64.size := by
  have later := lt_tickTime_ticksBy e
  rw [Fits] at h
  omega

theorem Fits.due (h : start.Fits e) {k : Nat} (le : k ≤ ticksBy e + 1) :
    start.scheduler.now.toNat + tickTime k < UInt64.size := by
  have mono := Oscillator.tickTime_mono le
  rw [Fits] at h
  omega

theorem Fits.of_le {e' : Nat} (h : start.Fits e') (le : e ≤ e') : start.Fits e :=
  h.due (Nat.succ_le_succ (ticksBy_mono le))

/-- No tick is owed after these cycles, and none has been served too soon. -/
theorem Underway.after (h : Underway start.scheduler.now.toNat 0 start) (fits : start.Fits e) :
    Underway start.scheduler.now.toNat (ticksBy e) (start.elapsed e) ∧
      (start.elapsed e).chip.registers =
        Registers.countSecond^[ticksBy e / 32768] start.chip.registers := by
  obtain ⟨underway, registers⟩ := h.iterate (ticksBy e) (fits.due (Nat.le_refl _))
  rw [elapsed, chip_atTime]
  exact ⟨underway.atTime _, registers⟩

/-- A burst: what has fallen due is served tick by tick, however long ago that was. -/
theorem Underway.burst (h : Underway start.scheduler.now.toNat 0 start) (fits : start.Fits e)
    {k n : Nat} (all : k + n = ticksBy e) :
    Serves ((afterTick^[k] start).atTime (start.scheduler.now + UInt64.ofNat e))
      (start.elapsed e) := by
  have now := toNat_add_ofNat fits.now
  induction n generalizing k with
  | zero =>
    obtain ⟨due, waits, at'⟩ := (h.after fits).1.pending
    have early := lt_tickTime_ticksBy e
    rw [Nat.add_zero] at all
    rw [all, ← elapsed]
    refine .done (waits.serveDue?_of_lt (UInt64.lt_iff_toNat_lt.2 ?_))
    rw [now_elapsed, now, at']
    omega
  | succ n ih =>
    have underway := (h.iterate k (fits.due (by omega))).1
    obtain ⟨due, waits, at'⟩ := (underway.atTime (start.scheduler.now + UInt64.ofNat e)).pending
    have late : tickTime (k + 1) ≤ e := le_ticksBy_iff.1 (by omega)
    refine .tick (waits.serveDue?_of_le (UInt64.le_iff_toNat_le.2 ?_)) ?_
    · rw [now_atTime, now, at']
      omega
    · have rest := ih (k := k + 1) (by omega)
      rw [Function.iterate_succ_apply', ← afterTick_atTime, waits.afterTick] at rest
      exact rest

/-! ## Both ways -/

variable {e' : Nat}

/-- From one time to a later one. -/
theorem Underway.serves_elapsed (h : Underway start.scheduler.now.toNat 0 start)
    (fits : start.Fits e') (le : e ≤ e') :
    Serves ((start.elapsed e).atTime (start.scheduler.now + UInt64.ofNat e'))
      (start.elapsed e') := by
  obtain ⟨n, all⟩ := Nat.exists_eq_add_of_le (ticksBy_mono le)
  rw [elapsed, atTime_atTime]
  exact h.burst fits all.symm

/-- The cycles of some pauses. -/
def totalOf : List UInt64 → Nat
  | [] => 0
  | cycles :: pauses => cycles.toNat + totalOf pauses

/-- However often the host looks in, it comes to the same. -/
theorem Underway.looksIn (h : Underway start.scheduler.now.toNat 0 start) (pauses : List UInt64)
    (fits : start.Fits (e + totalOf pauses)) :
    LooksIn pauses (start.elapsed e) (start.elapsed (e + totalOf pauses)) := by
  induction pauses generalizing e with
  | nil => exact .done
  | cons cycles pauses ih =>
    have total : e + totalOf (cycles :: pauses) = e + cycles.toNat + totalOf pauses := by
      rw [totalOf, Nat.add_assoc]
    have passed : start.scheduler.now + UInt64.ofNat e + cycles =
        start.scheduler.now + UInt64.ofNat (e + cycles.toNat) := by
      rw [UInt64.ofNat_add, UInt64.ofNat_toNat, UInt64.add_assoc]
    rw [total] at fits ⊢
    have serves := h.serves_elapsed (fits.of_le (Nat.le_add_right _ _))
      (Nat.le_add_right e cycles.toNat)
    rw [← passed] at serves
    exact .look serves (ih fits)

/-- The loop goes to the next due time or to its end. -/
theorem Underway.wait_elapsed (h : Underway start.scheduler.now.toNat 0 start)
    (fits : start.Fits e') (le : e ≤ e') :
    (start.elapsed e).wait (start.scheduler.now + UInt64.ofNat e') =
      (start.elapsed e).atTime
        (start.scheduler.now + UInt64.ofNat (min (tickTime (ticksBy e + 1)) e')) := by
  obtain ⟨due, waits, at'⟩ := (h.after (fits.of_le le)).1.pending
  have inTime := fits.now
  have stop := toNat_add_ofNat inTime
  have next : start.scheduler.now.toNat + min (tickTime (ticksBy e + 1)) e' < UInt64.size := by
    omega
  rw [wait_eq, Scheduler.nextDue_of_single waits, Std.min_eq_if]
  dsimp only
  refine congrArg (fun t ↦ (start.elapsed e).atTime t) (UInt64.toNat_inj.1 ?_)
  rw [toNat_add_ofNat next]
  split
  · next first =>
    rw [UInt64.le_iff_toNat_le, stop] at first
    omega
  · next last =>
    rw [UInt64.le_iff_toNat_le, stop] at last
    omega

/-- The loop that stops at every due time comes to the same. -/
theorem Underway.runsTo (h : Underway start.scheduler.now.toNat 0 start) (fits : start.Fits e')
    (le : e ≤ e') :
    ∃ heads, RunsTo (start.scheduler.now + UInt64.ofNat e') heads (start.elapsed e)
      (start.elapsed e') := by
  have stop := toNat_add_ofNat fits.now
  have now (e : Nat) (le : e ≤ e') :
      (start.elapsed e).scheduler.now.toNat = start.scheduler.now.toNat + e := by
    rw [now_elapsed]
    exact toNat_add_ofNat (fits.of_le le).now
  obtain ⟨left, all⟩ := Nat.exists_eq_add_of_le le
  induction left using Nat.strongRecOn generalizing e with
  | ind left ih =>
    rcases Nat.eq_zero_or_pos left with rfl | some
    · obtain rfl : e' = e := all
      refine ⟨[], .done fun lt ↦ ?_⟩
      rw [UInt64.lt_iff_toNat_lt, stop, now e' le] at lt
      omega
    · -- the turn leads to the next due time or to the end, and in either case onwards
      have ahead := lt_tickTime_ticksBy e
      have onwards : e ≤ min (tickTime (ticksBy e + 1)) e' := by omega
      have within : min (tickTime (ticksBy e + 1)) e' ≤ e' := Nat.min_le_right _ _
      have serves := h.serves_elapsed (fits.of_le within) onwards
      rw [← h.wait_elapsed fits le] at serves
      have before : (start.elapsed e).scheduler.now < start.scheduler.now + UInt64.ofNat e' := by
        rw [UInt64.lt_iff_toNat_lt, stop, now e le]
        omega
      obtain ⟨heads, rest⟩ := ih (e' - min (tickTime (ticksBy e + 1)) e') (by omega) within
        (Nat.add_sub_cancel' within).symm
      exact ⟨_ :: heads, .turn before serves rest⟩

/-- A host that looks in leaves no choice either. -/
theorem LooksIn.unique {pauses : List UInt64} {m' m'' : Machine} (h : LooksIn pauses m m')
    (h' : LooksIn pauses m m'') : m' = m'' := by
  induction h with
  | done =>
    cases h'
    rfl
  | look serves rest ih =>
    cases h' with
    | look serves' rest' =>
      obtain rfl := serves.unique serves'
      exact ih rest'

/-! ## From a reset of the chip on -/

/-- Nothing waits but ticks that a reset of the chip takes back. -/
def OwnOnly (m : Machine) : Prop := ∀ e ∈ m.scheduler.events, e.handle.id = m.chip.tickHandle.id

/-- The chip starts from rest. -/
theorem underway_restarted (own : m.OwnOnly)
    (fits : m.scheduler.now.toNat + tickTime 1 < UInt64.size) :
    Underway m.scheduler.now.toNat 0 m.restarted := by
  have rest := (Oscillator.carries_fromRest { m.chip.oscillator with ticks := 0 }).nextDelay
  have first : (Oscillator.fromRest {}).nextDelay.1.toNat = tickTime 1 := by decide
  have none : m.scheduler.events.filter (fun e ↦ e.handle.id != m.chip.tickHandle.id) = [] := by
    refine List.filter_eq_nil_iff.2 fun e mem ↦ ?_
    rw [own e mem, bne_self_eq_false]
    exact Bool.false_ne_true
  refine ⟨rfl, rest, m.scheduler.now + (Oscillator.fromRest {}).nextDelay.1, ?_, ?_⟩
  · refine Queue.toList_eq_single.1 ?_
    change ((m.scheduler.cancel m.chip.tickHandle).schedule _
      m.restarted.chip.tickHandle).events = _
    rw [Scheduler.events_schedule, Scheduler.events_cancel, none]
    rfl
  · rw [UInt64.toNat_add, first]
    exact Nat.mod_eq_of_lt fits

/-- Whether ticks are served on time or in bursts makes no difference.  A chip is reset, with
nothing waiting in its scheduler but ticks of its own, and `t` cycles go by.  A host that looks
in after any pauses that add up to them, and the loop that stops at every due time, both end,
and in one and the same machine.  It has counted the seconds in `t`, its oscillator has the
count and the remainder of the ticks that fall due by then, and all that waits is the next tick,
for its time in the schedule that began with the reset. -/
theorem looksIn_restarted (own : m.OwnOnly) (t : Nat) (fits : m.Fits t) :
    ∃ after : Machine,
      (∀ pauses, totalOf pauses = t → ∀ m', LooksIn pauses m.restarted m' ↔ m' = after) ∧
      (∀ m', (∃ heads, RunsTo (m.scheduler.now + UInt64.ofNat t) heads m.restarted m') ↔
        m' = after) ∧
      IsGreatest {j | tickTime j ≤ t} (ticksBy t) ∧
      after.chip.registers = Registers.countSecond^[t / 33513982] m.chip.registers ∧
      after.chip.oscillator.ticks.toNat = ticksBy t % 4294967296 ∧
      after.chip.oscillator.remainder.toInt = ((ticksBy t + 1) * 33513982 % 32768 : Nat) ∧
      after.scheduler.now.toNat = m.scheduler.now.toNat + t ∧
      ∃ due, after.scheduler.events = [⟨due, after.chip.tickHandle⟩] ∧
        due.toNat = m.scheduler.now.toNat + (ticksBy t + 1) * 33513982 / 32768 := by
  have start : Underway m.restarted.scheduler.now.toNat 0 m.restarted :=
    underway_restarted own (fits.due (by omega))
  have fits' : m.restarted.Fits t := fits
  have zero := elapsed_zero m.restarted
  have past : tickTime (ticksBy t) ≤ t := le_ticksBy_iff.1 (Nat.le_refl _)
  have ahead := lt_tickTime_ticksBy t
  obtain ⟨underway, registers⟩ := start.after fits'
  obtain ⟨due, pending, at'⟩ := underway.pending
  have now : (m.restarted.elapsed t).scheduler.now.toNat = m.scheduler.now.toNat + t := by
    rw [now_elapsed]
    exact toNat_add_ofNat fits'.now
  rw [seconds_of_ticks past ahead] at registers
  refine ⟨m.restarted.elapsed t, fun pauses total m' ↦ ?_, fun m' ↦ ?_,
    isGreatest_of_ticks past ahead, registers, underway.ticks, underway.carries, now, due,
    Queue.toList_eq_single.2 pending, at'⟩
  · have looks := start.looksIn (e := 0) pauses (by rw [total, Nat.zero_add]; exact fits')
    rw [zero, total, Nat.zero_add] at looks
    constructor
    · intro looks'
      exact looks'.unique looks
    · rintro rfl
      exact looks
  · obtain ⟨heads, runs⟩ := start.runsTo fits' (Nat.zero_le t)
    rw [zero] at runs
    constructor
    · rintro ⟨_, runs'⟩
      exact runs'.unique runs
    · rintro rfl
      exact ⟨heads, runs⟩

/-- A machine in whose queue three ticks of its chip wait, one of them overdue. -/
def crowded : Machine :=
  let m := ofConfig {}
  let s := m.scheduler.advance 2000
  { m with scheduler := (s.add 5 m.chip.tickHandle).add 7 m.chip.tickHandle }

/-- A second in three pauses, in the second of which tens of thousands of ticks fall due. -/
theorem looksIn_restarted_crowded :
    crowded.scheduler.now = 2000 ∧ crowded.scheduler.pending = 3 ∧ crowded.OwnOnly ∧
      crowded.Fits 33513982 ∧
      ∃ after, LooksIn [1, 33513000, 981] crowded.restarted after ∧
        (∃ heads, RunsTo 33515982 heads crowded.restarted after) ∧
        after.chip.registers = crowded.chip.registers.countSecond ∧
        after.chip.oscillator.ticks = 32768 ∧ after.scheduler.nextDue = 33517004 := by
  have own : crowded.OwnOnly := by
    unfold OwnOnly
    decide +kernel
  have now : crowded.scheduler.now = 2000 := by decide +kernel
  have ticks : ticksBy 33513982 = 32768 := by decide
  have fits : crowded.Fits 33513982 := by
    rw [Fits, now, ticks]
    decide
  obtain ⟨after, looks, runs, -, registers, count, -, -, due, events, at'⟩ :=
    looksIn_restarted own 33513982 fits
  rw [now] at runs at'
  rw [ticks] at count at'
  have stop : (2000 : UInt64) + UInt64.ofNat 33513982 = 33515982 := by decide
  have next : after.scheduler.nextDue = 33517004 := by
    rw [Scheduler.nextDue_eq, events]
    exact UInt64.toNat_inj.1 at'
  rw [stop] at runs
  exact ⟨now, by decide +kernel, own, fits, after, (looks _ (by decide) _).2 rfl,
    (runs _).2 rfl, registers, UInt32.toNat_inj.1 count, next⟩

end ClockChip.Machine
