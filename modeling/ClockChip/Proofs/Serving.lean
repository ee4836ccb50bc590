import ClockChip.Machine.Action
import ClockChip.Proofs.Bus
import Mathlib.Logic.Function.Iterate

/-!
# Serving ticks

Most of the time one event waits, the next tick of the chip's own registration
(`Pending`).  Serving it puts the next one in its place (`pending_ticked`), so that a
machine which serves what is due goes from tick to tick (`serveUpTo_due`) until one
is not due yet (`serveUpTo_early`).

What a machine does while it runs is written down as the list of the ticks that it
serves, with a mark on those that complete a second (`ticksOfRun`).  The chip's
registers count one second for each mark and are otherwise left alone
(`registers_run`), and the host's side of the chip does not notice (`sameBus_run`).
-/

namespace ClockChip

/-! ## A queue of one event -/

namespace Queue

/-- The queue in which one event waits. -/
def single (e : Event) : Queue := ⟨[{ event := e }]⟩

theorem toList_eq_single {q : Queue} {e : Event} : q.toList = [e] ↔ q = single e :=
  toList_eq_singleton_iff

@[simp] theorem head?_single (e : Event) : (single e).head? = some e := rfl

end Queue

namespace Scheduler

theorem nextDue_of_single {s : Scheduler} {e : Event} (h : s.queue = .single e) :
    s.nextDue = e.due := by
  rw [nextDue, h, Queue.head?_single]

theorem popDue?_of_single {s : Scheduler} {e : Event} (h : s.queue = .single e)
    (due : e.due ≤ s.now) :
    s.popDue? = some (e.handle, { s with queue := {}, dispatched := e.due }) := by
  rw [popDue?, h]
  exact if_pos due

theorem popDue?_of_early {s : Scheduler} {e : Event} (h : s.queue = .single e)
    (early : s.now < e.due) : s.popDue? = none := by
  rw [popDue?, h]
  exact if_neg (UInt64.not_le.2 early)

end Scheduler

namespace Machine

/-! ## One tick -/

/-- Nothing waits but the chip's next tick. -/
def Pending (due : UInt64) (m : Machine) : Prop :=
  m.scheduler.queue = .single ⟨due, m.chip.tickHandle⟩

/-- The machine after a tick that was due at `due`, and for which nothing else waited. -/
def ticked (due : UInt64) (m : Machine) : Machine :=
  let served := m.chip.tick { m.scheduler with queue := {}, dispatched := due }
  { m with chip := served.1, scheduler := served.2 }

/-- The cycles between a tick that is served now and the one after it. -/
def delay (m : Machine) : UInt64 := m.chip.oscillator.tick.nextDelay.1

@[simp] theorem now_ticked (due : UInt64) (m : Machine) :
    (m.ticked due).scheduler.now = m.scheduler.now := rfl

/-- The tick after this one is due a delay after this one was due, whatever the time. -/
theorem pending_ticked (due : UInt64) (m : Machine) :
    (m.ticked due).Pending (due + m.delay) := rfl

variable {m : Machine} {due : UInt64}

theorem Pending.serveDue?_of_le (h : m.Pending due) (le : due ≤ m.scheduler.now) :
    m.chip.serveDue? m.scheduler =
      some ((m.ticked due).chip, (m.ticked due).scheduler) := by
  rw [Chip.serveDue?, Scheduler.popDue?_of_single h le]
  rfl

theorem Pending.serveDue?_of_lt (h : m.Pending due) (lt : m.scheduler.now < due) :
    m.chip.serveDue? m.scheduler = none := by
  rw [Chip.serveDue?, Scheduler.popDue?_of_early h lt]
  rfl

theorem serveUpTo_due (h : m.Pending due) (le : due ≤ m.scheduler.now) (bound : Nat) :
    m.serveUpTo (bound + 1) = (m.ticked due).serveUpTo bound := by
  rw [serveUpTo, h.serveDue?_of_le le]
  rfl

theorem serveUpTo_early (h : m.Pending due) (lt : m.scheduler.now < due) (bound : Nat) :
    m.serveUpTo bound = m := by
  cases bound with
  | zero => rfl
  | succ bound => rw [serveUpTo, h.serveDue?_of_lt lt]

/-! ## The ticks of a run -/

/-- The ticks that `serveUpTo` serves: for each, whether it completes a second. -/
def ticksServed : Nat → Machine → List Bool
  | 0, _ => []
  | bound + 1, m =>
    match m.chip.serveDue? m.scheduler with
    | none => []
    | some (chip, scheduler) =>
      chip.oscillator.atSecond :: ticksServed bound { m with chip, scheduler }

/-- The machine when time has passed to the next event or to `stop`, and nothing has
been served yet. -/
def wait (stop : UInt64) (m : Machine) : Machine :=
  { m with scheduler := m.scheduler.advance (min m.scheduler.nextDue stop - m.scheduler.now) }

theorem step_eq (stop : UInt64) (m : Machine) : m.step stop = (m.wait stop).serveAll := rfl

/-- The ticks that are served on the way to `stop`. -/
def ticksTo (stop : UInt64) : Nat → Machine → List Bool
  | 0, _ => []
  | bound + 1, m =>
    if m.scheduler.now < stop then
      (m.wait stop).ticksServed ((m.wait stop).scheduler.now.toNat + 2) ++
        (m.step stop).ticksTo stop bound
    else []

/-- The ticks that are served in a run. -/
def ticksOfRun (cycles : UInt64) (m : Machine) : List Bool :=
  m.ticksTo (m.scheduler.now + cycles) (cycles.toNat + 1)

/-- The ticks that are served while a machine does something: only a run has any. -/
def ticksOf (m : Machine) : Action → List Bool
  | .run cycles => m.ticksOfRun cycles
  | _ => []

/-- The ticks that are served in the course of some actions. -/
def ticksOfPlay (m : Machine) (actions : List Action) : List Bool :=
  seenAlong ticksOf act m actions

theorem ticksOfPlay_cons (m : Machine) (a : Action) (actions : List Action) :
    m.ticksOfPlay (a :: actions) = m.ticksOf a ++ (m.act a).ticksOfPlay actions := rfl

theorem ticksServed_due (h : m.Pending due) (le : due ≤ m.scheduler.now) (bound : Nat) :
    m.ticksServed (bound + 1) =
      (m.ticked due).chip.oscillator.atSecond :: (m.ticked due).ticksServed bound := by
  rw [ticksServed, h.serveDue?_of_le le]
  rfl

theorem ticksServed_early (h : m.Pending due) (lt : m.scheduler.now < due) (bound : Nat) :
    m.ticksServed bound = [] := by
  cases bound with
  | zero => rfl
  | succ bound => rw [ticksServed, h.serveDue?_of_lt lt]

/-! ## What a run leaves alone -/

/-- The chip's side of the bus is as it was. -/
structure SameBus (m m' : Machine) : Prop where
  config : m'.config = m.config
  console : m'.chip.console = m.chip.console
  bus : m'.chip.bus = m.chip.bus
  session : m'.chip.session = m.chip.session

theorem SameBus.refl (m : Machine) : SameBus m m := ⟨rfl, rfl, rfl, rfl⟩

theorem SameBus.trans {m m' m'' : Machine} (h : SameBus m m') (h' : SameBus m' m'') :
    SameBus m m'' where
  config := h'.config.trans h.config
  console := h'.console.trans h.console
  bus := h'.bus.trans h.bus
  session := h'.session.trans h.session

theorem sameBus_of_serveDue? {m : Machine} {c : Chip} {s : Scheduler}
    (h : m.chip.serveDue? m.scheduler = some (c, s)) :
    SameBus m { m with chip := c, scheduler := s } := by
  obtain ⟨popped, -, eq⟩ := Option.map_eq_some_iff.1 h
  obtain ⟨rfl, -⟩ := Prod.mk.inj eq
  exact ⟨rfl, rfl, rfl, rfl⟩

theorem sameBus_serveUpTo (bound : Nat) (m : Machine) : SameBus m (m.serveUpTo bound) := by
  induction bound generalizing m with
  | zero => exact .refl m
  | succ bound ih =>
    rw [serveUpTo]
    cases served : m.chip.serveDue? m.scheduler with
    | none => exact .refl m
    | some after => exact (sameBus_of_serveDue? served).trans (ih _)

theorem sameBus_runTo (stop : UInt64) (bound : Nat) (m : Machine) :
    SameBus m (m.runTo stop bound) := by
  induction bound generalizing m with
  | zero => exact .refl m
  | succ bound ih =>
    have waited : SameBus m (m.wait stop) := ⟨rfl, rfl, rfl, rfl⟩
    rw [runTo]
    split
    · exact (waited.trans (sameBus_serveUpTo _ _)).trans (ih (m.step stop))
    · exact .refl m

/-- The host's side of the chip does not notice a run. -/
theorem sameBus_run (cycles : UInt64) (m : Machine) : SameBus m (m.run cycles) :=
  sameBus_runTo _ _ m

/-! ## What a run depends on -/

/-- The time and what drives it are the same. -/
structure SameTime (m m' : Machine) : Prop where
  scheduler : m'.scheduler = m.scheduler
  oscillator : m'.chip.oscillator = m.chip.oscillator
  tickHandle : m'.chip.tickHandle = m.chip.tickHandle

theorem SameTime.refl (m : Machine) : SameTime m m := ⟨rfl, rfl, rfl⟩

variable {m m' : Machine}

/-- The same ticks are served whatever the host does. -/
theorem SameTime.serveUpTo (bound : Nat) (h : SameTime m m') :
    SameTime (m.serveUpTo bound) (m'.serveUpTo bound) := by
  induction bound generalizing m m' with
  | zero => exact h
  | succ bound ih =>
    rw [Machine.serveUpTo, Machine.serveUpTo, Chip.serveDue?, Chip.serveDue?, h.scheduler]
    cases m.scheduler.popDue? with
    | none => exact h
    | some popped =>
      refine ih ⟨?_, ?_, h.tickHandle⟩
      · change Scheduler.addPeriodic _ _ _ = _
        rw [h.oscillator, h.tickHandle]
      · change m'.chip.oscillator.tick.nextDelay.2 = _
        rw [h.oscillator]
        rfl

theorem SameTime.runTo (stop : UInt64) (bound : Nat) (h : SameTime m m') :
    SameTime (m.runTo stop bound) (m'.runTo stop bound) := by
  induction bound generalizing m m' with
  | zero => exact h
  | succ bound ih =>
    have waited : SameTime (m.wait stop) (m'.wait stop) := by
      refine ⟨?_, h.oscillator, h.tickHandle⟩
      rw [wait, wait, h.scheduler]
    have stepped : SameTime (m.step stop) (m'.step stop) := by
      rw [step_eq, step_eq, serveAll, serveAll, waited.scheduler]
      exact waited.serveUpTo _
    rw [Machine.runTo, Machine.runTo, h.scheduler]
    split
    · exact ih stepped
    · exact h

theorem SameTime.run (h : SameTime m m') (cycles : UInt64) :
    SameTime (m.run cycles) (m'.run cycles) := by
  rw [Machine.run, Machine.run, h.scheduler]
  exact h.runTo _ _

/-! ## The registers of a run -/

/-- One tick counts a second if it completes one. -/
theorem registers_of_serveDue? {c c' : Chip} {s s' : Scheduler}
    (h : c.serveDue? s = some (c', s')) :
    c'.registers = Registers.countSecond^[[c'.oscillator.atSecond].count true] c.registers := by
  obtain ⟨popped, -, eq⟩ := Option.map_eq_some_iff.1 h
  obtain ⟨rfl, -⟩ := Prod.mk.inj eq
  change (if c.oscillator.tick.atSecond then c.registers.countSecond else c.registers) =
    Registers.countSecond^[[c.oscillator.tick.atSecond].count true] c.registers
  cases c.oscillator.tick.atSecond <;> rfl

theorem registers_serveUpTo (bound : Nat) (m : Machine) :
    (m.serveUpTo bound).chip.registers =
      Registers.countSecond^[(m.ticksServed bound).count true] m.chip.registers := by
  induction bound generalizing m with
  | zero => rfl
  | succ bound ih =>
    rw [serveUpTo, ticksServed]
    cases served : m.chip.serveDue? m.scheduler with
    | none => rfl
    | some after =>
      have first := registers_of_serveDue? served
      have rest := ih { m with chip := after.1, scheduler := after.2 }
      dsimp only at rest ⊢
      rw [rest, first, ← Function.iterate_add_apply, Nat.add_comm, ← List.count_append,
        List.singleton_append]

theorem registers_runTo (stop : UInt64) (bound : Nat) (m : Machine) :
    (m.runTo stop bound).chip.registers =
      Registers.countSecond^[(m.ticksTo stop bound).count true] m.chip.registers := by
  induction bound generalizing m with
  | zero => rfl
  | succ bound ih =>
    rw [runTo, ticksTo]
    split
    · rw [ih, step_eq, serveAll, registers_serveUpTo, ← Function.iterate_add_apply,
        List.count_append, Nat.add_comm]
      rfl
    · rfl

/-- A run counts as many seconds as its ticks complete and does nothing else to the
registers. -/
theorem registers_run (cycles : UInt64) (m : Machine) :
    (m.run cycles).chip.registers =
      Registers.countSecond^[(m.ticksOfRun cycles).count true] m.chip.registers :=
  registers_runTo _ _ m

end Machine

end ClockChip
