import ClockChip.Proofs.Alike

/-!
# Running to the end

A run goes from one due tick to the next, and in between it serves what is due.  Here the
two loops stand without the bounds that make them functions (`Serves`, `RunsTo`): a
derivation is a loop that ends.  From any machine whose next tick is not in the past
(`Punctual`) the run that is computed is the loop, time never goes back in it, and it ends
at the right time with nothing left that is due (`Punctual.run`), provided that no sum of
times overflows.

The first tick after a restored state is the one to look at, since the delay after it can
be anything: it may lead back into the past, and then the machine serves some sixty ticks
at once to catch up (`Pending.catchesUp`).
-/

namespace ClockChip.Machine

variable {m m' : Machine} {due : UInt64} {stop : UInt64}

/-! ## The loops -/

/-- What is due is served until nothing is due any more. -/
inductive Serves : Machine → Machine → Prop where
  | done {m : Machine} (idle : m.chip.serveDue? m.scheduler = none) : Serves m m
  | tick {m m' : Machine} {chip : Chip} {scheduler : Scheduler}
      (served : m.chip.serveDue? m.scheduler = some (chip, scheduler))
      (rest : Serves { m with chip, scheduler } m') : Serves m m'

/-- Time goes on to the next event or to the end, and what is due is served, until the end has
come.  The list has the machine at the start of each turn. -/
inductive RunsTo (stop : UInt64) : List Machine → Machine → Machine → Prop where
  | done {m : Machine} (there : ¬ m.scheduler.now < stop) : RunsTo stop [] m m
  | turn {m m' m'' : Machine} {heads : List Machine} (before : m.scheduler.now < stop)
      (serves : Serves (m.wait stop) m') (rest : RunsTo stop heads m' m'') :
      RunsTo stop (m :: heads) m m''

/-- Serving takes no time, and what is served was due. -/
theorem of_serveDue? {c c' : Chip} {s s' : Scheduler} (served : c.serveDue? s = some (c', s')) :
    s'.now = s.now ∧ s'.dispatched ≤ s.now := by
  obtain ⟨⟨handle, popped⟩, handedOut, eq⟩ := Option.map_eq_some_iff.1 served
  obtain ⟨-, rfl⟩ := Prod.mk.inj eq
  obtain ⟨-, le, same⟩ := Scheduler.events_of_popDue? handedOut
  have now : popped.now = s.now := by rw [same]
  exact ⟨now, le⟩

theorem Serves.now (h : Serves m m') : m'.scheduler.now = m.scheduler.now := by
  induction h with
  | done => rfl
  | tick served _ ih => exact ih.trans (of_serveDue? served).1

theorem now_serveUpTo (bound : Nat) (m : Machine) :
    (m.serveUpTo bound).scheduler.now = m.scheduler.now := by
  induction bound generalizing m with
  | zero => rfl
  | succ bound ih =>
    rw [serveUpTo]
    split
    · rfl
    · next chip scheduler served =>
      exact (ih { m with chip, scheduler }).trans (of_serveDue? served).1

/-- The loops of `RunsTo` in which time never goes back go through ever later times. -/
theorem RunsTo.pairwise {heads : List Machine} (h : RunsTo stop heads m m')
    (forth : ∀ head ∈ heads, head.scheduler.now ≤ min head.scheduler.nextDue stop) :
    (∀ head ∈ heads, m.scheduler.now ≤ head.scheduler.now) ∧
      heads.Pairwise fun head head' ↦ head.scheduler.now ≤ head'.scheduler.now := by
  induction h with
  | done => exact ⟨List.forall_mem_nil _, .nil⟩
  | @turn m m' m'' heads before serves rest ih =>
    obtain ⟨first, others⟩ := List.forall_mem_cons.1 forth
    obtain ⟨later, ordered⟩ := ih others
    have next : m.scheduler.now ≤ m'.scheduler.now := by
      rw [serves.now, now_wait]
      exact first
    have all : ∀ head ∈ heads, m.scheduler.now ≤ head.scheduler.now :=
      fun head mem ↦ UInt64.le_trans next (later head mem)
    exact ⟨List.forall_mem_cons.2 ⟨UInt64.le_refl _, all⟩, .cons all ordered⟩

/-! ## Sums of times -/

/-- The due times that are computed while `serveUpTo` serves ticks: for each the time for which
it was due and the delay after it, which may be negative. -/
def sumsServed : Nat → Machine → List Int
  | 0, _ => []
  | bound + 1, m =>
    match m.chip.serveDue? m.scheduler with
    | none => []
    | some (chip, scheduler) =>
      (scheduler.dispatched.toNat + m.delay.toInt64.toInt) ::
        sumsServed bound { m with chip, scheduler }

/-- The due times that are computed on the way to `stop`. -/
def sumsTo (stop : UInt64) : Nat → Machine → List Int
  | 0, _ => []
  | bound + 1, m =>
    if m.scheduler.now < stop then
      (m.wait stop).sumsServed ((m.wait stop).scheduler.now.toNat + 2) ++
        (m.step stop).sumsTo stop bound
    else []

theorem sumsServed_due (h : m.Pending due) (le : due ≤ m.scheduler.now) (bound : Nat) :
    m.sumsServed (bound + 1) =
      (due.toNat + m.delay.toInt64.toInt) :: (m.ticked due).sumsServed bound := by
  rw [sumsServed, h.serveDue?_of_le le]
  rfl

/-- A due time that is computed lies no further in the future than a delay. -/
theorem sumsServed_lt (bound : Nat) (m : Machine) :
    ∀ t ∈ m.sumsServed bound, t < m.scheduler.now.toNat + 65536 := by
  induction bound generalizing m with
  | zero => exact List.forall_mem_nil _
  | succ bound ih =>
    rw [sumsServed]
    split
    · exact List.forall_mem_nil _
    · next chip scheduler served =>
      obtain ⟨now, le⟩ := of_serveDue? served
      refine List.forall_mem_cons.2 ⟨?_, ?_⟩
      · have delay : m.delay.toInt64.toInt < 65536 := Oscillator.toInt_nextDelay_lt _
        have le' := UInt64.le_iff_toNat_le.1 le
        omega
      · rw [← now]
        exact ih { m with chip, scheduler }

theorem sumsTo_lt (bound : Nat) (m : Machine) :
    ∀ t ∈ m.sumsTo stop bound, t < stop.toNat + 65536 := by
  induction bound generalizing m with
  | zero => exact List.forall_mem_nil _
  | succ bound ih =>
    rw [sumsTo]
    split
    · have le : (m.wait stop).scheduler.now ≤ stop := by
        rw [now_wait]
        exact Std.min_le_right
      have le' := UInt64.le_iff_toNat_le.1 le
      refine List.forall_mem_append.2 ⟨fun t mem ↦ ?_, ih _⟩
      have bound := sumsServed_lt _ _ t mem
      omega
    · exact List.forall_mem_nil _

/-! ## Catching up -/

/-- At most the chip's next tick waits, and it is not in the past. -/
def Punctual (m : Machine) : Prop := ∃ due, m.Waiting due ∧ ∀ d ∈ due, m.scheduler.now ≤ d

/-- At most the chip's next tick waits, and it is in the future. -/
def Ahead (m : Machine) : Prop := ∃ due, m.Waiting due ∧ ∀ d ∈ due, m.scheduler.now < d

theorem Ahead.punctual (h : m.Ahead) : m.Punctual := by
  obtain ⟨due, waiting, ahead⟩ := h
  exact ⟨due, waiting, fun d mem ↦ UInt64.le_of_lt (ahead d mem)⟩

theorem Punctual.waits (h : m.Punctual) : ∃ due, m.Waiting due := by
  obtain ⟨due, waiting, -⟩ := h
  exact ⟨due, waiting⟩

/-- Everything that was due has been served. -/
structure CaughtUp (m m' : Machine) : Prop where
  serves : Serves m m'
  ahead : m'.Ahead

theorem CaughtUp.early (h : m.Pending due) (lt : m.scheduler.now < due) : CaughtUp m m where
  serves := .done (h.serveDue?_of_lt lt)
  ahead := by
    refine ⟨some due, h, ?_⟩
    rintro d ⟨⟩
    exact lt

theorem CaughtUp.tick (h : m.Pending due) (le : due ≤ m.scheduler.now)
    (rest : CaughtUp (m.ticked due) m') : CaughtUp m m' where
  serves := .tick (h.serveDue?_of_le le) rest.serves
  ahead := rest.ahead

/-- Once the remainder is regular every tick takes the machine a thousand cycles on. -/
theorem Pending.catchesUp (bound : Nat) (h : m.Pending due)
    (regular : m.chip.oscillator.Regular)
    (enough : m.scheduler.now.toNat < due.toNat + 1022 * bound)
    (fit : ∀ t ∈ m.sumsServed bound, t < UInt64.size) : CaughtUp m (m.serveUpTo bound) := by
  induction bound generalizing m due with
  | zero => exact .early h (UInt64.lt_iff_toNat_lt.2 enough)
  | succ bound ih =>
    rcases UInt64.lt_or_le m.scheduler.now due with lt | le
    · rw [serveUpTo_early h lt]
      exact .early h lt
    · rw [sumsServed_due h le] at fit
      obtain ⟨first, rest⟩ := List.forall_mem_cons.1 fit
      have ticked : m.chip.oscillator.tick.Regular := regular
      have signed : m.delay.toInt64.toInt = m.delay.toNat := ticked.fits.toInt_nextDelay
      have delay : m.delay.toNat = 1022 ∨ m.delay.toNat = 1023 := ticked.toNat_nextDelay
      have next : (due + m.delay).toNat = due.toNat + m.delay.toNat := by
        rw [UInt64.toNat_add]
        exact Nat.mod_eq_of_lt (by rw [signed, UInt64.size] at first; omega)
      rw [serveUpTo_due h le]
      exact .tick h le (ih (pending_ticked due m) (Oscillator.regular_nextDelay _)
        (by rw [now_ticked, next]; omega) rest)

/-- Whatever the remainder is, all that is due gets served, and there is enough time for it:
the first tick may lead anywhere, but the ones after it do not. -/
theorem Waiting.catchesUp {due : Option UInt64} (h : m.Waiting due)
    (fit : ∀ t ∈ m.sumsServed (m.scheduler.now.toNat + 2), t < UInt64.size) :
    CaughtUp m m.serveAll := by
  cases due with
  | none =>
    have idle : m.chip.serveDue? m.scheduler = none := by
      have empty : m.scheduler.queue = {} := h
      rw [Chip.serveDue?, Scheduler.popDue?, empty]
      rfl
    rw [serveAll, serveUpTo_idle h]
    exact ⟨.done idle, none, h, fun d mem ↦ absurd mem (Option.not_mem_none d)⟩
  | some due =>
    have pending : m.Pending due := h
    rw [serveAll]
    rcases UInt64.lt_or_le m.scheduler.now due with lt | le
    · rw [serveUpTo_early pending lt]
      exact .early pending lt
    · rw [sumsServed_due pending le] at fit
      obtain ⟨-, rest⟩ := List.forall_mem_cons.1 fit
      rw [serveUpTo_due pending le]
      refine .tick pending le ((pending_ticked due m).catchesUp _ (Oscillator.regular_nextDelay _)
        ?_ rest)
      rw [now_ticked]
      omega

/-- Waiting changes the time and not what waits. -/
theorem Waiting.wait {due : Option UInt64} (h : m.Waiting due) (stop : UInt64) :
    (m.wait stop).Waiting due := by
  cases due <;> exact h

/-! ## Arriving -/

/-- A loop that goes well: time goes back in no turn, and at the end it is `stop`. -/
structure Arrives (stop : UInt64) (heads : List Machine) (m m' : Machine) : Prop where
  runs : RunsTo stop heads m m'
  forth : ∀ head ∈ heads, head.scheduler.now ≤ min head.scheduler.nextDue stop
  now : m'.scheduler.now = stop

/-- A loop whose end has come. -/
theorem Arrives.ended (there : m.scheduler.now = stop) : Arrives stop [] m m where
  runs := .done (by rw [there]; exact UInt64.lt_irrefl stop)
  forth := List.forall_mem_nil _
  now := there

theorem le_never (t : UInt64) : t ≤ Scheduler.never :=
  UInt64.le_iff_toNat_le.2 (Nat.le_of_lt_succ t.toNat_lt)

/-- If the next tick is not in the past, time does not go back. -/
theorem Punctual.forth (h : m.Punctual) (le : m.scheduler.now ≤ stop) :
    m.scheduler.now ≤ min m.scheduler.nextDue stop := by
  obtain ⟨due, waiting, punctual⟩ := h
  rw [waiting.nextDue]
  refine Std.le_min_iff.2 ⟨?_, le⟩
  cases due with
  | none => exact le_never m.scheduler.now
  | some d => exact punctual d rfl

/-- If it is in the future, time goes on. -/
theorem Ahead.forth (h : m.Ahead) (lt : m.scheduler.now < stop) :
    m.scheduler.now < min m.scheduler.nextDue stop := by
  obtain ⟨due, waiting, ahead⟩ := h
  rw [waiting.nextDue]
  rcases Std.min_eq_or (a := due.getD Scheduler.never) (b := stop) with eq | eq
  · rw [eq]
    cases due with
    | none => exact UInt64.lt_of_lt_of_le lt (le_never stop)
    | some d => exact ahead d rfl
  · rw [eq]
    exact lt

/-- One turn of the loop. -/
theorem Waiting.turn {due : Option UInt64} (h : m.Waiting due)
    (fit : ∀ t ∈ (m.wait stop).sumsServed ((m.wait stop).scheduler.now.toNat + 2),
      t < UInt64.size) :
    CaughtUp (m.wait stop) (m.step stop) ∧
      (m.step stop).scheduler.now = min m.scheduler.nextDue stop := by
  have caughtUp : CaughtUp (m.wait stop) (m.step stop) := (h.wait stop).catchesUp fit
  exact ⟨caughtUp, caughtUp.serves.now.trans (now_wait stop m)⟩

/-- A turn in front of a loop. -/
theorem Arrives.turn {heads : List Machine} (punctual : m.Punctual)
    (before : m.scheduler.now < stop) (caughtUp : CaughtUp (m.wait stop) (m.step stop))
    (rest : Arrives stop heads (m.step stop) m') : Arrives stop (m :: heads) m m' where
  runs := .turn before caughtUp.serves rest.runs
  forth := List.forall_mem_cons.2 ⟨punctual.forth (UInt64.le_of_lt before), rest.forth⟩
  now := rest.now

/-- As long as the next tick is in the future every turn takes time. -/
theorem Ahead.runTo (bound : Nat) (h : m.Ahead) (le : m.scheduler.now ≤ stop)
    (enough : stop.toNat - m.scheduler.now.toNat ≤ bound)
    (fit : ∀ t ∈ m.sumsTo stop bound, t < UInt64.size) :
    ∃ heads, Arrives stop heads m (m.runTo stop bound) ∧ (m.runTo stop bound).Ahead := by
  induction bound generalizing m with
  | zero =>
    have le' := UInt64.le_iff_toNat_le.1 le
    have there : m.scheduler.now = stop := UInt64.toNat_inj.1 (by omega)
    exact ⟨[], .ended there, h⟩
  | succ bound ih =>
    rw [Machine.runTo]
    rw [sumsTo] at fit
    split
    · next before =>
      rw [if_pos before] at fit
      obtain ⟨first, rest⟩ := List.forall_mem_append.1 fit
      obtain ⟨due, waiting⟩ := h.punctual.waits
      obtain ⟨caughtUp, now⟩ := waiting.turn first
      have later := UInt64.lt_iff_toNat_lt.1 (h.forth before)
      have le : (m.step stop).scheduler.now ≤ stop := by rw [now]; exact Std.min_le_right
      obtain ⟨heads, arrives, ahead⟩ := ih caughtUp.ahead le (by rw [now]; omega) rest
      exact ⟨m :: heads, .turn h.punctual before caughtUp arrives, ahead⟩
    · next ended =>
      have there : m.scheduler.now = stop := UInt64.le_antisymm le (UInt64.not_lt.1 ended)
      exact ⟨[], .ended there, h⟩

/-- The sums of a run: the end, and the due times on the way. -/
def sumsOfRun (cycles : UInt64) (m : Machine) : List Int :=
  (m.scheduler.now.toNat + cycles.toNat) ::
    m.sumsTo (m.scheduler.now + cycles) (cycles.toNat + 1)

/-- A run that ends well before the end of time has no sum that overflows. -/
theorem sumsOfRun_lt {cycles : UInt64}
    (fits : m.scheduler.now.toNat + cycles.toNat + 65536 < UInt64.size) :
    ∀ t ∈ m.sumsOfRun cycles, t < UInt64.size := by
  have stop : (m.scheduler.now + cycles).toNat = m.scheduler.now.toNat + cycles.toNat := by
    rw [UInt64.toNat_add]
    exact Nat.mod_eq_of_lt (by rw [UInt64.size] at fits; omega)
  refine List.forall_mem_cons.2 ⟨by omega, fun t mem ↦ ?_⟩
  have bound := sumsTo_lt _ m t mem
  omega

/-- A run arrives, and if it takes any time, nothing is due at its end. -/
theorem Punctual.run (h : m.Punctual) {cycles : UInt64}
    (fit : ∀ t ∈ m.sumsOfRun cycles, t < UInt64.size) :
    (∃ heads, Arrives (m.scheduler.now + cycles) heads m (m.run cycles)) ∧
      (m.run cycles).scheduler.now.toNat = m.scheduler.now.toNat + cycles.toNat ∧
      (m.run cycles).Punctual ∧ (0 < cycles → (m.run cycles).Ahead) := by
  obtain ⟨sum, fit⟩ := List.forall_mem_cons.1 fit
  have stop : (m.scheduler.now + cycles).toNat = m.scheduler.now.toNat + cycles.toNat := by
    rw [UInt64.toNat_add]
    exact Nat.mod_eq_of_lt (by rw [UInt64.size] at sum; omega)
  rw [Machine.run, Machine.runTo]
  rw [sumsTo] at fit
  split
  · next before =>
    -- the first turn may take no time
    rw [if_pos before] at fit
    obtain ⟨first, rest⟩ := List.forall_mem_append.1 fit
    obtain ⟨due, waiting⟩ := h.waits
    obtain ⟨caughtUp, now⟩ := waiting.turn first
    have forth := UInt64.le_iff_toNat_le.1 (h.forth (UInt64.le_of_lt before))
    have le : (m.step (m.scheduler.now + cycles)).scheduler.now ≤ m.scheduler.now + cycles := by
      rw [now]
      exact Std.min_le_right
    obtain ⟨heads, arrives, ahead⟩ := caughtUp.ahead.runTo cycles.toNat le
      (by rw [now]; omega) rest
    refine ⟨⟨m :: heads, .turn h before caughtUp arrives⟩, ?_, ahead.punctual, fun _ ↦ ahead⟩
    rw [arrives.now, stop]
  · next ended =>
    have none : cycles.toNat = 0 := by
      rw [UInt64.lt_iff_toNat_lt] at ended
      omega
    have there : m.scheduler.now = m.scheduler.now + cycles := UInt64.toNat_inj.1 (by omega)
    refine ⟨⟨[], .ended there⟩, by omega, h, fun some ↦ ?_⟩
    rw [UInt64.lt_iff_toNat_lt, none] at some
    exact absurd some (Nat.lt_irrefl 0)

/-! ## After a loop that went wrong -/

/-- The latest time at which whatever is due can be served without an overflow is some
delay before the end of time. -/
def InTime (m : Machine) : Prop := m.scheduler.now.toNat + 65536 < UInt64.size

/-- Even if a loop has gone wrong before, its next turn leaves the next tick in the future, if
only it ends in time. -/
theorem Alike.ahead_step (h : Alike m m) (inTime : (m.step stop).InTime) :
    (m.step stop).Ahead := by
  obtain ⟨due, waiting, -⟩ := h.waiting
  have same : (m.wait stop).scheduler.now = (m.step stop).scheduler.now :=
    (now_serveUpTo _ _).symm
  have fit : ∀ t ∈ (m.wait stop).sumsServed ((m.wait stop).scheduler.now.toNat + 2),
      t < UInt64.size := by
    intro t mem
    have bound := sumsServed_lt _ _ t mem
    rw [InTime, ← same] at inTime
    omega
  exact (waiting.turn fit).1.ahead

theorem Alike.punctual_runTo (bound : Nat) (h : Alike m m) (kept : m.InTime → m.Punctual)
    (inTime : (m.runTo stop bound).InTime) : (m.runTo stop bound).Punctual := by
  induction bound generalizing m with
  | zero => exact kept inTime
  | succ bound ih =>
    rw [Machine.runTo] at inTime ⊢
    split at inTime
    · next before =>
      rw [if_pos before]
      exact ih (h.step stop) (fun early ↦ (h.ahead_step early).punctual) inTime
    · next ended =>
      rw [if_neg ended]
      exact kept inTime

end ClockChip.Machine
