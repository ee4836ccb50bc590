import ClockChip.Proofs.Outstanding

/-!
# Slices of time

A host lets a machine run in slices, and where it cuts does not matter.  A cut can fall
between two ticks, on one, or into a crowd of ticks that a restored remainder has put into
the past; in each case the loop of the first slice ends where the loop of the whole passes
by (`RunsTo.slice`).  A tick that is due at the cut is served at the end of the first slice,
at the time at which the whole serves it, and one that is due later is left to the second.

Both loops leave no choice (`Serves.unique`, `RunsTo.unique`), so that two runs which are
the loop of the whole are the same machine (`Reachable.run_run`).
-/

namespace ClockChip.Machine

variable {m m' m'' : Machine} {stop stop' : UInt64}

/-! ## No choice -/

/-- What is served is determined by what is due. -/
theorem Serves.unique (h : Serves m m') (h' : Serves m m'') : m' = m'' := by
  induction h with
  | done idle =>
    cases h' with
    | done => rfl
    | tick served rest =>
      rw [idle] at served
      cases served
  | tick served rest ih =>
    cases h' with
    | done idle =>
      rw [idle] at served
      cases served
    | tick served' rest' =>
      rw [served] at served'
      obtain ⟨rfl, rfl⟩ := Prod.mk.inj (Option.some.inj served')
      exact ih rest'

/-- So is the way to the end. -/
theorem RunsTo.unique {heads heads' : List Machine} (h : RunsTo stop heads m m')
    (h' : RunsTo stop heads' m m'') : m' = m'' := by
  induction h generalizing heads' with
  | done there =>
    cases h' with
    | done => rfl
    | turn before => exact absurd before there
  | turn before serves rest ih =>
    cases h' with
    | done there => exact absurd before there
    | turn before' serves' rest' =>
      obtain rfl := serves.unique serves'
      exact ih rest'

/-! ## Before the next event -/

/-- Before the next event is due nothing is. -/
theorem serveDue?_of_early (early : m.scheduler.now < m.scheduler.nextDue) :
    m.chip.serveDue? m.scheduler = none := by
  have nothing : m.scheduler.popDue? = none := by
    refine Scheduler.popDue?_eq_none_iff.2 fun e first ↦ ?_
    rwa [Scheduler.nextDue_eq, first] at early
  rw [Chip.serveDue?, nothing]
  rfl

theorem Serves.eq_of_early (h : Serves m m') (early : m.scheduler.now < m.scheduler.nextDue) :
    m' = m :=
  h.unique (.done (serveDue?_of_early early))

/-- A rest on the way leaves no trace. -/
theorem wait_wait (stop stop' : UInt64) (m : Machine) :
    (m.wait stop).wait stop' = m.wait stop' := by
  have now : (m.wait stop).scheduler.now + (min m.scheduler.nextDue stop' -
      (m.wait stop).scheduler.now) =
        m.scheduler.now + (min m.scheduler.nextDue stop' - m.scheduler.now) := by
    rw [UInt64.add_comm, UInt64.sub_add_cancel, UInt64.add_comm, UInt64.sub_add_cancel]
  exact congrArg (fun t ↦ { m with scheduler := m.scheduler.setTime t }) now

/-- Up to an event it does not matter where one is going. -/
theorem wait_of_nextDue_le (due : m.scheduler.nextDue ≤ stop) (le : stop ≤ stop') :
    m.wait stop = m.wait stop' := by
  have next : min m.scheduler.nextDue stop = min m.scheduler.nextDue stop' := by
    rw [Std.min_eq_if, Std.min_eq_if, if_pos due, if_pos (UInt64.le_trans due le)]
  rw [wait, wait, next]

/-! ## Cuts -/

/-- The loop to an earlier end is the beginning of the loop to a later one. -/
theorem RunsTo.slice {heads heads' : List Machine} (h : RunsTo stop heads m m')
    (h' : RunsTo stop' heads' m' m'') (le : stop ≤ stop') :
    ∃ heads'', RunsTo stop' heads'' m m'' := by
  induction h generalizing heads' with
  | done => exact ⟨heads', h'⟩
  | @turn m n m' heads before serves rest ih =>
    have before' : m.scheduler.now < stop' := UInt64.lt_of_lt_of_le before le
    rcases UInt64.le_or_lt m.scheduler.nextDue stop with due | early
    · -- the turn ends with an event, which comes before either end
      obtain ⟨heads'', runs⟩ := ih h'
      rw [wait_of_nextDue_le due le] at serves
      exact ⟨m :: heads'', .turn before' serves runs⟩
    · -- the turn ends at the cut, where nothing is due
      have at_cut : (m.wait stop).scheduler.now = stop := by
        rw [now_wait, Std.min_eq_if, if_neg (UInt64.not_le.2 early)]
      obtain rfl : n = m.wait stop := serves.eq_of_early (by rw [at_cut]; exact early)
      obtain rfl : m' = m.wait stop :=
        rest.unique (.done (by rw [at_cut]; exact UInt64.lt_irrefl stop))
      cases h' with
      | done there =>
        have same : stop = stop' :=
          UInt64.le_antisymm le (UInt64.not_lt.1 (by rwa [at_cut] at there))
        subst same
        exact ⟨m :: heads, .turn before serves rest⟩
      | @turn _ n' _ heads _ serves' rest' =>
        rw [wait_wait] at serves'
        exact ⟨m :: heads, .turn before' serves' rest'⟩

/-! ## Runs -/

/-- A run that stays away from the end of time is the loop to its end. -/
theorem Reachable.runsTo_run (h : Reachable m) (cycles : UInt64)
    (fits : m.scheduler.now.toNat + cycles.toNat + 65536 < UInt64.size) :
    (∃ heads, RunsTo (m.scheduler.now + cycles) heads m (m.run cycles)) ∧
      (m.run cycles).scheduler.now = m.scheduler.now + cycles := by
  obtain ⟨⟨heads, arrives⟩, -⟩ :=
    (h.punctual (by rw [InTime]; omega)).run (sumsOfRun_lt fits)
  exact ⟨⟨heads, arrives.runs⟩, arrives.now⟩

/-- Time can be cut anywhere.  Whatever has been done to a machine and whatever it has
restored, to run for some cycles and then for some more leaves the same machine as to run
for all of them at once: the same registers, session and oscillator, the same time, the same
tick waiting until the same time, and so the same stream when it is saved. -/
theorem Reachable.run_run (h : Reachable m) {a b : UInt64}
    (fits : m.scheduler.now.toNat + a.toNat + b.toNat + 65536 < UInt64.size) :
    (m.run a).run b = m.run (a + b) := by
  rw [UInt64.size] at fits
  have sum : (m.scheduler.now + a).toNat = m.scheduler.now.toNat + a.toNat := by
    rw [UInt64.toNat_add]
    exact Nat.mod_eq_of_lt (by omega)
  have sum' : (a + b).toNat = a.toNat + b.toNat := by
    rw [UInt64.toNat_add]
    exact Nat.mod_eq_of_lt (by omega)
  obtain ⟨⟨_, first⟩, now⟩ := h.runsTo_run a (by rw [UInt64.size]; omega)
  obtain ⟨⟨_, second⟩, -⟩ := (h.act (.run a)).runsTo_run b
    (by change (m.run a).scheduler.now.toNat + _ + _ < _; rw [now, sum, UInt64.size]; omega)
  obtain ⟨⟨_, whole⟩, -⟩ := h.runsTo_run (a + b) (by rw [sum', UInt64.size]; omega)
  change RunsTo ((m.run a).scheduler.now + b) _ (m.run a) ((m.run a).run b) at second
  rw [now, UInt64.add_assoc] at second
  have le : m.scheduler.now + a ≤ m.scheduler.now + (a + b) := by
    rw [UInt64.le_iff_toNat_le, UInt64.toNat_add _ (a + b), sum, sum']
    omega
  obtain ⟨_, both⟩ := first.slice second le
  exact both.unique whole

/-- The machine whose first tick leads far into the past catches up in the first slice and
serves one more tick in the second. -/
theorem Reachable.run_run_leapt :
    leapt.scheduler.now.toNat + (1 : UInt64).toNat + (1022 : UInt64).toNat + 65536 < UInt64.size ∧
      (leapt.ticksOfRun 1).length = 65 ∧ (leapt.ticksOfRun (1 + 1022)).length = 66 ∧
      (leapt.run 1).run 1022 = leapt.run (1 + 1022) := by
  have fits : leapt.scheduler.now.toNat + (1 : UInt64).toNat + (1022 : UInt64).toNat + 65536 <
      UInt64.size := by
    decide +kernel
  exact ⟨fits, by decide +kernel, by decide +kernel, reachable_leapt.run_run fits⟩

end ClockChip.Machine
