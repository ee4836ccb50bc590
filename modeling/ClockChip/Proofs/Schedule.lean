import ClockChip.Proofs.Delay
import ClockChip.Proofs.Serving
import Mathlib.Order.Bounds.Defs

/-!
# No drift

After a reset a machine stays on schedule: the `k`-th tick is due in the cycle
`tickTime k`, however the cycles are divided into runs and whatever the host does
between them.  Four things have to agree for this, the time, the due time of the
pending tick, the rest that the last delay left over and the count of ticks;
`OnSchedule` says how.  One tick keeps it (`OnSchedule.ticked`), and from there it
goes up through the loops to a run (`UpToDate.run`) and to any sequence of actions
(`UpToDate.play`).
-/

namespace ClockChip.Machine

open Oscillator (tickTime tickRest tickTime_eq)

variable {k : Nat} {m : Machine}

/-! ## On schedule -/

/-- The machine has served `k` ticks since its reset, each of them on time. -/
structure OnSchedule (k : Nat) (m : Machine) : Prop where
  ticks : m.chip.oscillator.ticks.toNat = k % 4294967296
  carries : m.chip.oscillator.Carries (k + 1)
  pending : ∃ due, m.Pending due ∧ due.toNat = tickTime (k + 1)

/-- The machine is on schedule, and what is due has been served. -/
structure UpToDate (k : Nat) (m : Machine) : Prop extends OnSchedule k m where
  past : tickTime k ≤ m.scheduler.now.toNat
  ahead : m.scheduler.now.toNat < tickTime (k + 1)

/-- The marks of the `n` ticks after the `k`-th. -/
def marks (k n : Nat) : List Bool := (List.range' (k + 1) n).map fun i ↦ i % 32768 == 0

theorem marks_cons (k n : Nat) :
    ((k + 1) % 32768 == 0) :: marks (k + 1) n = marks k (n + 1) := by
  rw [marks, marks, List.range'_succ, List.map_cons]

theorem marks_append (k n n' : Nat) : marks k n ++ marks (k + n) n' = marks k (n + n') := by
  rw [marks, marks, marks, ← List.map_append, ← List.range'_append, Nat.one_mul,
    Nat.add_right_comm]

@[simp] theorem length_marks (k n : Nat) : (marks k n).length = n := by
  rw [marks, List.length_map, List.length_range']

/-- Of the first `n` ticks, every 32768th completes a second. -/
theorem count_marks (n : Nat) : (marks 0 n).count true = n / 32768 := by
  induction n with
  | zero => rfl
  | succ n ih =>
    have last : marks (0 + n) 1 = [(n + 1) % 32768 == 0] := by rw [Nat.zero_add]; rfl
    rw [← marks_append, List.count_append, ih, last, List.count_singleton]
    by_cases whole : (n + 1) % 32768 = 0
    · simp only [whole, beq_self_eq_true, if_true]
      omega
    · simp only [whole, beq_eq_false_iff_ne.2, ne_eq, not_false_eq_true]
      simp only [Bool.false_beq, Bool.not_true, Bool.false_eq_true, if_false]
      omega

/-! ## One tick -/

/-- The oscillator has ticked `k` times since it started from rest at the time `t₀`, and the
next tick waits for its time.  What the time is now does not matter. -/
structure Underway (t₀ k : Nat) (m : Machine) : Prop where
  ticks : m.chip.oscillator.ticks.toNat = k % 4294967296
  carries : m.chip.oscillator.Carries (k + 1)
  pending : ∃ due, m.Pending due ∧ due.toNat = t₀ + tickTime (k + 1)

/-- To be on schedule is to be underway from the time nought. -/
theorem onSchedule_iff : OnSchedule k m ↔ Underway 0 k m := by
  constructor
  · intro h
    exact ⟨h.ticks, h.carries, by rw [Nat.zero_add]; exact h.pending⟩
  · rintro ⟨ticks, carries, pending⟩
    rw [Nat.zero_add] at pending
    exact ⟨ticks, carries, pending⟩

/-- Two due times of one tick are the same. -/
theorem Pending.unique {due due' : UInt64} (h : m.Pending due) (h' : m.Pending due') :
    due' = due :=
  (Event.mk.inj (List.cons.inj ((Queue.toList_eq_single.2 h').symm.trans
    (Queue.toList_eq_single.2 h))).1).1

variable {t₀ : Nat}

/-- The marks are right: the oscillator's word of thirty-two bits overflows at the end
of a second. -/
theorem Underway.atSecond (h : Underway t₀ k m) :
    m.chip.oscillator.atSecond = (k % 32768 == 0) := by
  have low : (m.chip.oscillator.ticks % ticksPerSecond).toNat = k % 32768 := by
    rw [UInt32.toNat_mod, h.ticks]
    exact Nat.mod_mod_of_dvd k (by decide)
  rw [Oscillator.atSecond, Bool.eq_iff_iff, beq_iff_eq, beq_iff_eq, ← UInt32.toNat_inj, low]
  rfl

/-- The step of the invariant: the next tick takes what the delay before it left. -/
theorem Underway.ticked (h : Underway t₀ k m) {due : UInt64} (pending : m.Pending due)
    (fits : t₀ + tickTime (k + 2) < UInt64.size) : Underway t₀ (k + 1) (m.ticked due) := by
  obtain ⟨due', pending', at'⟩ := h.pending
  obtain rfl := pending.unique pending'
  have carries : m.chip.oscillator.tick.Carries (k + 1) := h.carries
  have delay : tickTime (k + 1) + m.delay.toNat = tickTime (k + 2) := carries.toNat_nextDelay
  refine ⟨?_, carries.nextDelay, due' + m.delay, pending_ticked due' m, ?_⟩
  · change (m.chip.oscillator.ticks + 1).toNat = _
    rw [UInt32.toNat_add, h.ticks]
    change (k % 4294967296 + 1) % 4294967296 = (k + 1) % 4294967296
    omega
  · rw [UInt64.toNat_add, at', Nat.add_assoc, delay]
    exact Nat.mod_eq_of_lt fits

theorem OnSchedule.atSecond (h : OnSchedule k m) :
    m.chip.oscillator.atSecond = (k % 32768 == 0) :=
  (onSchedule_iff.1 h).atSecond

/-- A machine on schedule stays so when it serves a tick that is due. -/
theorem OnSchedule.ticked (h : OnSchedule k m) {due : UInt64} (pending : m.Pending due)
    (le : due ≤ m.scheduler.now) (fits : m.scheduler.now.toNat + 1023 < UInt64.size) :
    OnSchedule (k + 1) (m.ticked due) := by
  obtain ⟨due', pending', at'⟩ := h.pending
  obtain rfl := pending.unique pending'
  have near : tickTime (k + 2) ≤ tickTime (k + 1) + 1023 := Oscillator.tickTime_succ_le (k + 1)
  have le' := UInt64.le_iff_toNat_le.1 le
  have next : 0 + tickTime (k + 2) < UInt64.size := by omega
  exact onSchedule_iff.2 ((onSchedule_iff.1 h).ticked pending next)

/-! ## All ticks that are due -/

/-- A machine on schedule catches up with the time, tick by tick. -/
theorem OnSchedule.serveUpTo (bound : Nat) (h : OnSchedule k m)
    (past : tickTime k ≤ m.scheduler.now.toNat)
    (enough : m.scheduler.now.toNat < tickTime (k + bound))
    (fits : m.scheduler.now.toNat + 1023 < UInt64.size) :
    ∃ n, UpToDate (k + n) (m.serveUpTo bound) ∧ m.ticksServed bound = marks k n ∧
      (m.serveUpTo bound).scheduler.now = m.scheduler.now := by
  induction bound generalizing k m with
  | zero => rw [Nat.add_zero] at enough; omega
  | succ bound ih =>
    obtain ⟨due, pending, at'⟩ := h.pending
    rcases UInt64.lt_or_le m.scheduler.now due with lt | le
    · have ahead := UInt64.lt_iff_toNat_lt.1 lt
      rw [at'] at ahead
      rw [serveUpTo_early pending lt, ticksServed_early pending lt]
      exact ⟨0, ⟨h, past, ahead⟩, rfl, rfl⟩
    · have next := h.ticked pending le fits
      have served := UInt64.le_iff_toNat_le.1 le
      rw [at'] at served
      obtain ⟨n, upToDate, log, now⟩ := ih next served
        (by rw [now_ticked, Nat.add_right_comm, Nat.add_assoc]; exact enough) fits
      rw [serveUpTo_due pending le, ticksServed_due pending le, next.atSecond, log, marks_cons]
      rw [Nat.add_right_comm, Nat.add_assoc] at upToDate
      exact ⟨n + 1, upToDate, rfl, now⟩

/-! ## A run -/

theorem now_wait (stop : UInt64) (m : Machine) :
    (m.wait stop).scheduler.now = min m.scheduler.nextDue stop := by
  change m.scheduler.now + (min m.scheduler.nextDue stop - m.scheduler.now) = _
  rw [UInt64.add_comm, UInt64.sub_add_cancel]

/-- Waiting changes the time and nothing else. -/
theorem OnSchedule.wait (h : OnSchedule k m) (stop : UInt64) : OnSchedule k (m.wait stop) :=
  ⟨h.ticks, h.carries, h.pending⟩

/-- A step of the loop goes to the next tick or to the end, and never back. -/
theorem UpToDate.step (h : UpToDate k m) {stop : UInt64} (lt : m.scheduler.now < stop)
    (fits : stop.toNat + 1023 < UInt64.size) :
    ∃ n, UpToDate (k + n) (m.step stop) ∧
      (m.wait stop).ticksServed ((m.wait stop).scheduler.now.toNat + 2) = marks k n ∧
      m.scheduler.now < (m.step stop).scheduler.now ∧ (m.step stop).scheduler.now ≤ stop := by
  obtain ⟨due, pending, at'⟩ := h.pending
  have now := now_wait stop m
  rw [Scheduler.nextDue_of_single pending] at now
  change _ = min due stop at now
  have ahead : m.scheduler.now < due := UInt64.lt_iff_toNat_lt.2 (by rw [at']; exact h.ahead)
  have later : m.scheduler.now < min due stop := by
    rcases Std.min_eq_or (a := due) (b := stop) with eq | eq <;> rw [eq] <;> assumption
  have le : min due stop ≤ stop := Std.min_le_right
  have later' := UInt64.lt_iff_toNat_lt.1 later
  have le' := UInt64.le_iff_toNat_le.1 le
  have past := h.past
  obtain ⟨n, upToDate, log, same⟩ := (h.wait stop).serveUpTo
    ((m.wait stop).scheduler.now.toNat + 2) (by rw [now]; omega)
    (by rw [now, tickTime_eq]; omega) (by rw [now]; omega)
  change (m.step stop).scheduler.now = _ at same
  rw [now] at same
  exact ⟨n, upToDate, log, by rw [same]; exact later, by rw [same]; exact le⟩

theorem UpToDate.runTo (bound : Nat) (h : UpToDate k m) {stop : UInt64}
    (le : m.scheduler.now ≤ stop) (enough : stop.toNat - m.scheduler.now.toNat ≤ bound)
    (fits : stop.toNat + 1023 < UInt64.size) :
    ∃ n, UpToDate (k + n) (m.runTo stop bound) ∧ m.ticksTo stop bound = marks k n ∧
      (m.runTo stop bound).scheduler.now = stop := by
  induction bound generalizing k m with
  | zero =>
    have le' := UInt64.le_iff_toNat_le.1 le
    have there : m.scheduler.now = stop := UInt64.toNat_inj.1 (by omega)
    exact ⟨0, h, rfl, there⟩
  | succ bound ih =>
    rw [Machine.runTo, ticksTo]
    split
    · next lt =>
      obtain ⟨n, upToDate, log, later, le⟩ := h.step lt fits
      have later' := UInt64.lt_iff_toNat_lt.1 later
      obtain ⟨n', upToDate', log', there⟩ := ih upToDate le (by omega)
      rw [log, log', marks_append]
      rw [Nat.add_assoc] at upToDate'
      exact ⟨n + n', upToDate', rfl, there⟩
    · next ge =>
      have there : m.scheduler.now = stop := UInt64.le_antisymm le (UInt64.not_lt.1 ge)
      exact ⟨0, h, rfl, there⟩

/-- A run keeps the machine up to date and ends when it should. -/
theorem UpToDate.run (h : UpToDate k m) {cycles : UInt64}
    (fits : m.scheduler.now.toNat + cycles.toNat + 1023 < UInt64.size) :
    ∃ n, UpToDate (k + n) (m.run cycles) ∧ m.ticksOfRun cycles = marks k n ∧
      (m.run cycles).scheduler.now.toNat = m.scheduler.now.toNat + cycles.toNat := by
  have stop : (m.scheduler.now + cycles).toNat = m.scheduler.now.toNat + cycles.toNat := by
    rw [UInt64.toNat_add]
    exact Nat.mod_eq_of_lt (by rw [UInt64.size] at fits; omega)
  have le : m.scheduler.now ≤ m.scheduler.now + cycles := UInt64.le_iff_toNat_le.2 (by omega)
  obtain ⟨n, upToDate, log, there⟩ := h.runTo (cycles.toNat + 1) le (by omega) (by omega)
  exact ⟨n, upToDate, log, by rw [← stop, ← there]; rfl⟩

/-! ## Whole histories -/

/-- A machine that has just been reset is on schedule, whatever it was before. -/
theorem upToDate_reset (m : Machine) : UpToDate 0 m.reset := by
  have rest := (Oscillator.carries_fromRest { m.chip.oscillator with ticks := 0 }).nextDelay
  have first : (0 + (Oscillator.fromRest {}).nextDelay.1).toNat = tickTime (0 + 1) := by decide
  have onSchedule : OnSchedule 0 m.reset := by
    unfold reset
    cases m.config.boot with
    | none => exact ⟨rfl, rest, _, rfl, first⟩
    | some t => exact ⟨rfl, rest, _, rfl, first⟩
  have now : m.reset.scheduler.now = 0 := rfl
  refine ⟨onSchedule, ?_, ?_⟩
  · rw [now]; decide
  · rw [now]; decide

end ClockChip.Machine

namespace ClockChip.Machine.Action

/-- Whether an action leaves the time to the runs: it neither starts it anew nor
restores another one. -/
def keepsTime : Action → Bool
  | .reset | .load _ => false
  | _ => true

/-- The cycles that pass in the course of an action. -/
def cycles : Action → Nat
  | .run cycles => cycles.toNat
  | _ => 0

/-- The cycles that pass in the course of some actions. -/
def totalCycles : List Action → Nat
  | [] => 0
  | a :: actions => a.cycles + totalCycles actions

end ClockChip.Machine.Action

namespace ClockChip.Machine

open Oscillator (tickTime tickRest tickTime_eq tickRest_eq)

variable {k : Nat} {m : Machine}

/-- Being up to date is a matter of the scheduler, the oscillator and the registration. -/
theorem UpToDate.congr {m' : Machine} (h : UpToDate k m) (scheduler : m'.scheduler = m.scheduler)
    (oscillator : m'.chip.oscillator = m.chip.oscillator)
    (tickHandle : m'.chip.tickHandle = m.chip.tickHandle) : UpToDate k m' := by
  refine ⟨⟨?_, ?_, ?_⟩, ?_, ?_⟩
  · rw [oscillator]; exact h.ticks
  · rw [oscillator]; exact h.carries
  · unfold Pending; rw [scheduler, tickHandle]; exact h.pending
  · rw [scheduler]; exact h.past
  · rw [scheduler]; exact h.ahead

/-- One action between runs, or a run. -/
theorem UpToDate.act (h : UpToDate k m) {a : Action} (keeps : a.keepsTime)
    (fits : m.scheduler.now.toNat + a.cycles + 1023 < UInt64.size) :
    ∃ n, UpToDate (k + n) (m.act a) ∧ m.ticksOf a = marks k n ∧
      (m.act a).scheduler.now.toNat = m.scheduler.now.toNat + a.cycles := by
  let stays (m' : Machine) : Prop := UpToDate k m' ∧ m'.scheduler.now = m.scheduler.now
  have wrote (w : Word) : stays { m with chip := m.chip.write w } :=
    ⟨h.congr rfl (Chip.oscillator_write _ w) (Chip.tickHandle_write _ w), rfl⟩
  cases a with
  | reset => cases keeps
  | load data => cases keeps
  | run cycles => exact h.run fits
  | setDateTime t => exact ⟨0, h.congr rfl rfl rfl, rfl, rfl⟩
  | install r => exact ⟨0, h.congr rfl rfl rfl, rfl, rfl⟩
  | setConsole console => exact ⟨0, h.congr rfl rfl rfl, rfl, rfl⟩
  | write16 address w =>
    obtain ⟨upToDate, now⟩ := write16_of (p := stays) ⟨h, rfl⟩ wrote address w
    exact ⟨0, upToDate, rfl, congrArg UInt64.toNat now⟩
  | write8 address b =>
    obtain ⟨upToDate, now⟩ := write8_of (p := stays) ⟨h, rfl⟩ wrote address b
    exact ⟨0, upToDate, rfl, congrArg UInt64.toNat now⟩

theorem UpToDate.play (actions : List Action) (h : UpToDate k m)
    (keep : ∀ a ∈ actions, a.keepsTime)
    (fits : m.scheduler.now.toNat + Action.totalCycles actions + 1023 < UInt64.size) :
    ∃ n, UpToDate (k + n) (m.play actions) ∧ m.ticksOfPlay actions = marks k n ∧
      (m.play actions).scheduler.now.toNat =
        m.scheduler.now.toNat + Action.totalCycles actions := by
  induction actions generalizing k m with
  | nil => exact ⟨0, h, rfl, rfl⟩
  | cons a actions ih =>
    rw [Action.totalCycles] at fits ⊢
    obtain ⟨keep, keeps⟩ := List.forall_mem_cons.1 keep
    obtain ⟨n, upToDate, log, now⟩ := h.act keep (by omega)
    obtain ⟨n', upToDate', log', now'⟩ := ih upToDate keeps (by omega)
    rw [ticksOfPlay_cons, log, log', marks_append]
    rw [Nat.add_assoc] at upToDate'
    exact ⟨n + n', upToDate', rfl, now'.trans (by omega)⟩

/-- No action but the runs changes the registers. -/
def OnlyRunsTouch : Machine → List Action → Prop
  | _, [] => True
  | m, a :: actions =>
    ((∃ cycles, a = .run cycles) ∨ (m.act a).chip.registers = m.chip.registers) ∧
      (m.act a).OnlyRunsTouch actions

/-- The ticks that complete a second are what changes the registers then. -/
theorem registers_play (actions : List Action) (m : Machine) (h : m.OnlyRunsTouch actions) :
    (m.play actions).chip.registers =
      Registers.countSecond^[(m.ticksOfPlay actions).count true] m.chip.registers := by
  induction actions generalizing m with
  | nil => rfl
  | cons a actions ih =>
    obtain ⟨here, rest⟩ := h
    have now : (m.act a).chip.registers =
        Registers.countSecond^[(m.ticksOf a).count true] m.chip.registers := by
      rcases here with ⟨cycles, rfl⟩ | kept
      · exact registers_run cycles m
      · cases a with
        | run cycles => exact registers_run cycles m
        | _ => exact kept
    rw [ticksOfPlay_cons, List.count_append, Nat.add_comm, Function.iterate_add_apply, ← now]
    exact ih (m.act a) rest

/-- The ticks that have fallen due by some time are as many seconds as have passed. -/
theorem seconds_of_ticks {k t : Nat} (past : tickTime k ≤ t) (ahead : t < tickTime (k + 1)) :
    k / 32768 = t / 33513982 := by
  rw [tickTime_eq] at past ahead
  omega

/-- The number of ticks by some time is the greatest that fits. -/
theorem isGreatest_of_ticks {k t : Nat} (past : tickTime k ≤ t) (ahead : t < tickTime (k + 1)) :
    IsGreatest {j | tickTime j ≤ t} k := by
  refine ⟨past, fun j due ↦ ?_⟩
  by_contra later
  have := Oscillator.tickTime_mono (Nat.lt_of_not_le later)
  exact absurd (Nat.lt_of_lt_of_le ahead this) (Nat.not_lt.2 due)

/-- From a reset on, with `t` cycles gone by in runs of any lengths and with anything
but resets and restored states between them, the machine has served exactly the ticks
that fall due by then, and exactly one of them for each second.  Its time, its count of
ticks, the rest of the last delay and the one event that waits are those of the
schedule, and if the host has kept away from the registers these have counted the
seconds and done nothing else. -/
theorem play_reset_on_schedule (m : Machine) (actions : List Action)
    (keep : ∀ a ∈ actions, a.keepsTime)
    (fits : Action.totalCycles actions + 1023 < UInt64.size) :
    let t := Action.totalCycles actions
    let log := m.reset.ticksOfPlay actions
    let k := log.length
    let after := m.reset.play actions
    IsGreatest {j | j * 33513982 / 32768 ≤ t} k ∧
      log.count true = t / 33513982 ∧
      (m.reset.OnlyRunsTouch actions →
        after.chip.registers = Registers.countSecond^[t / 33513982] m.reset.chip.registers) ∧
      after.scheduler.now.toNat = t ∧
      after.chip.oscillator.ticks.toNat = k % 4294967296 ∧
      after.chip.oscillator.remainder.toInt = ((k + 1) * 33513982 % 32768 : Nat) ∧
      ∃ due, after.scheduler.events = [⟨due, after.chip.tickHandle⟩] ∧
        due.toNat = (k + 1) * 33513982 / 32768 := by
  intro t log k after
  have start : m.reset.scheduler.now.toNat = 0 := rfl
  obtain ⟨n, upToDate, marked, now⟩ :=
    (upToDate_reset m).play actions keep (by rw [start, Nat.zero_add]; exact fits)
  rw [start, Nat.zero_add] at now
  rw [Nat.zero_add] at upToDate
  have length : k = n := by
    change (m.reset.ticksOfPlay actions).length = n
    rw [marked, length_marks]
  have past := upToDate.past
  have ahead := upToDate.ahead
  rw [now] at past ahead
  have seconds : log.count true = t / 33513982 := by
    rw [← seconds_of_ticks past ahead, ← count_marks, ← marked]
  obtain ⟨due, pending, at'⟩ := upToDate.pending
  rw [length]
  refine ⟨isGreatest_of_ticks past ahead, seconds, fun quiet ↦ ?_, now, upToDate.ticks,
    upToDate.carries, due, Queue.toList_eq_single.2 pending, at'⟩
  rw [← seconds]
  exact registers_play actions m.reset quiet

/-- A second in two runs that do not end with a tick. -/
theorem play_reset_one_second :
    let actions : List Action := [.run 1023, .setConsole .dsi, .run 33512959]
    (∀ a ∈ actions, a.keepsTime) ∧ Action.totalCycles actions + 1023 < UInt64.size ∧
      ((ofConfig {}).ticksOfPlay actions).count true = 1 ∧
      ((ofConfig {}).play actions).chip.registers =
        (ofConfig {}).chip.registers.countSecond ∧
      ((ofConfig {}).play actions).scheduler.now.toNat = 33513982 := by
  intro actions
  have keep : ∀ a ∈ actions, a.keepsTime := by decide
  have fits : Action.totalCycles actions + 1023 < UInt64.size := by decide
  have quiet : (ofConfig {}).OnlyRunsTouch actions :=
    ⟨.inl ⟨1023, rfl⟩, .inr rfl, .inl ⟨33512959, rfl⟩, trivial⟩
  obtain ⟨-, seconds, registers, now, -⟩ :=
    play_reset_on_schedule { chip := .powerOn .ds, config := {} } actions keep fits
  have start : reset { chip := .powerOn .ds, config := {} } = ofConfig {} := rfl
  have total : Action.totalCycles actions = 33513982 := by decide
  rw [start] at seconds registers now
  rw [total, Nat.div_self (by decide)] at seconds registers
  rw [Function.iterate_one] at registers
  rw [total] at now
  exact ⟨keep, fits, seconds, registers quiet, now⟩

end ClockChip.Machine
