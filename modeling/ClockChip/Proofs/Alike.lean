import ClockChip.Proofs.Schedule
import ClockChip.Proofs.WellFormed

/-!
# Machines that nobody can tell apart

The registration of its ticks is the one thing in a machine that depends on what was
done before the last reset or outside of a restored state.  Two machines that differ in
it and in nothing else that the future depends on are alike (`Alike`), and whatever is
done to both of them they stay alike (`Alike.act`, `Alike.play`); in particular they go
on writing the same streams and showing the same words on the bus.

A reachable machine is alike to itself (`Reachable.alike`), which says of one machine
that nothing waits in its scheduler but at most its chip's own next tick.
-/

namespace ClockChip

/-! ## Registrations -/

namespace Chip

/-- The chip under another registration. -/
def withHandle (handle : Handle) (c : Chip) : Chip := { c with tickHandle := handle }

@[simp] theorem withHandle_self (c : Chip) : c.withHandle c.tickHandle = c := rfl

variable (handle : Handle) (c : Chip)

/-- The bus knows nothing of the registration. -/
theorem write_withHandle (w : Word) :
    (c.withHandle handle).write w = (c.write w).withHandle handle := by
  have bus : ((c.withHandle handle).write w).bus = (c.write w).bus := by
    rw [bus_write, bus_write]
    rfl
  have edge : Edge.of c.bus w = Edge.of c.bus w := rfl
  have same := write_within c c.bus c.oscillator handle edge
  change (c.withHandle handle).write w =
    (c.write w).within ((c.withHandle handle).write w).bus c.oscillator handle at same
  rw [same, bus, ← oscillator_write c w]
  rfl

end Chip

namespace Machine

/-! ## What waits -/

/-- Nothing waits, or nothing but the chip's next tick. -/
def Waiting (due : Option UInt64) (m : Machine) : Prop :=
  match due with
  | none => m.scheduler.queue = {}
  | some due => m.Pending due

variable {m m' : Machine}

theorem Waiting.nextDue {due : Option UInt64} (h : m.Waiting due) :
    m.scheduler.nextDue = due.getD Scheduler.never := by
  cases due with
  | none =>
    have empty : m.scheduler.queue = {} := h
    rw [Scheduler.nextDue, empty]
    rfl
  | some due => exact Scheduler.nextDue_of_single h

/-- A queue in which at most the chip's tick waits, as a list. -/
theorem Waiting.events {due : Option UInt64} (h : m.Waiting due) :
    m.scheduler.events = due.toList.map (⟨·, m.chip.tickHandle⟩) := by
  cases due with
  | none => exact Queue.toList_eq_nil_iff.2 h
  | some due => exact Queue.toList_eq_single.2 h

/-- The registration finds its tick. -/
theorem Waiting.find? {due : Option UInt64} (h : m.Waiting due) :
    m.scheduler.find? m.chip.tickHandle = due := by
  cases due with
  | none =>
    have empty : m.scheduler.queue = {} := h
    rw [Scheduler.find?, empty]
    rfl
  | some due =>
    have single : m.scheduler.queue = .single ⟨due, m.chip.tickHandle⟩ := h
    rw [Scheduler.find?_eq, Scheduler.events, Queue.toList_eq_single.2 single, List.find?_cons]
    rw [beq_self_eq_true]
    rfl

/-- Taking the chip's ticks back leaves nothing. -/
theorem Waiting.cancel {due : Option UInt64} (h : m.Waiting due) :
    (m.scheduler.cancel m.chip.tickHandle).queue = {} := by
  rw [← Queue.toList_eq_nil_iff]
  change (m.scheduler.cancel m.chip.tickHandle).events = []
  rw [Scheduler.events_cancel]
  cases due with
  | none =>
    have empty : m.scheduler.queue = {} := h
    rw [Scheduler.events, empty]
    rfl
  | some due =>
    have single : m.scheduler.queue = .single ⟨due, m.chip.tickHandle⟩ := h
    rw [Scheduler.events, Queue.toList_eq_single.2 single, List.filter_cons, bne_self_eq_false]
    rfl

theorem serveDue?_idle (h : m.Waiting none) : m.chip.serveDue? m.scheduler = none := by
  have empty : m.scheduler.queue = {} := h
  rw [Chip.serveDue?, Scheduler.popDue?, empty]
  rfl

/-- With nothing waiting nothing is served. -/
theorem serveUpTo_idle (h : m.Waiting none) (bound : Nat) : m.serveUpTo bound = m := by
  cases bound with
  | zero => rfl
  | succ bound => rw [serveUpTo, serveDue?_idle h]

/-! ## Alike machines -/

/-- Machines that differ in their registration only, as far as the future goes. -/
structure Alike (m m' : Machine) : Prop where
  config : m'.config = m.config
  chip : ∃ handle, m'.chip = m.chip.withHandle handle
  now : m'.scheduler.now = m.scheduler.now
  waiting : ∃ due, m.Waiting due ∧ m'.Waiting due

/-- The chips of alike machines do the same in a tick. -/
theorem Alike.ticked (h : Alike m m') (due : UInt64) :
    Alike (m.ticked due) (m'.ticked due) := by
  obtain ⟨handle, chip⟩ := h.chip
  have delay : m'.delay = m.delay := by
    rw [Machine.delay, chip]
    rfl
  refine ⟨h.config, ⟨handle, ?_⟩, h.now, some (due + m.delay), pending_ticked due m, ?_⟩
  · change (m'.chip.tick { m'.scheduler with queue := {}, dispatched := due }).1 = _
    rw [chip]
    rfl
  · rw [← delay]
    exact pending_ticked due m'

/-- Alike machines serve the same ticks. -/
theorem Alike.serveUpTo (bound : Nat) (h : Alike m m') :
    Alike (m.serveUpTo bound) (m'.serveUpTo bound) := by
  induction bound generalizing m m' with
  | zero => exact h
  | succ bound ih =>
    obtain ⟨due, waiting, waiting'⟩ := h.waiting
    cases due with
    | none =>
      rw [serveUpTo_idle waiting, serveUpTo_idle waiting']
      exact h
    | some due =>
      rcases UInt64.lt_or_le m.scheduler.now due with lt | le
      · rw [serveUpTo_early waiting lt, serveUpTo_early waiting' (by rw [h.now]; exact lt)]
        exact h
      · rw [serveUpTo_due waiting le, serveUpTo_due waiting' (by rw [h.now]; exact le)]
        exact ih (h.ticked due)

theorem Alike.wait (h : Alike m m') (stop : UInt64) : Alike (m.wait stop) (m'.wait stop) := by
  obtain ⟨due, waiting, waiting'⟩ := h.waiting
  refine ⟨h.config, h.chip, ?_, due, ?_, ?_⟩
  · rw [now_wait, now_wait, waiting.nextDue, waiting'.nextDue]
  · cases due <;> exact waiting
  · cases due <;> exact waiting'

theorem Alike.step (h : Alike m m') (stop : UInt64) : Alike (m.step stop) (m'.step stop) := by
  have waited := h.wait stop
  rw [step_eq, step_eq, serveAll, serveAll, waited.now]
  exact waited.serveUpTo _

theorem Alike.runTo (stop : UInt64) (bound : Nat) (h : Alike m m') :
    Alike (m.runTo stop bound) (m'.runTo stop bound) := by
  induction bound generalizing m m' with
  | zero => exact h
  | succ bound ih =>
    rw [Machine.runTo, Machine.runTo, h.now]
    split
    · exact ih (h.step stop)
    · exact h

theorem Alike.run (h : Alike m m') (cycles : UInt64) : Alike (m.run cycles) (m'.run cycles) := by
  rw [Machine.run, Machine.run, h.now]
  exact h.runTo _ _

/-- Whatever is done to the chips in disregard of their registration leaves the machines
alike. -/
theorem Alike.withChip (h : Alike m m') {f : Chip → Chip}
    (blind : ∀ handle c, f (c.withHandle handle) = (f c).withHandle handle) :
    Alike { m with chip := f m.chip } { m' with chip := f m'.chip } := by
  have keeps (c : Chip) : (f c).tickHandle = c.tickHandle := by
    have same := blind c.tickHandle c
    rw [Chip.withHandle_self] at same
    rw [same]
    rfl
  have stays {m : Machine} {due : Option UInt64} (waiting : m.Waiting due) :
      Waiting due { m with chip := f m.chip } := by
    cases due with
    | none => exact waiting
    | some due =>
      change m.scheduler.queue = .single ⟨due, (f m.chip).tickHandle⟩
      rw [keeps]
      exact waiting
  obtain ⟨handle, chip⟩ := h.chip
  obtain ⟨due, waiting, waiting'⟩ := h.waiting
  refine ⟨h.config, ⟨handle, ?_⟩, h.now, due, stays waiting, stays waiting'⟩
  change f m'.chip = _
  rw [chip, blind]

theorem Alike.write (h : Alike m m') (w : Word) :
    Alike { m with chip := m.chip.write w } { m' with chip := m'.chip.write w } :=
  h.withChip fun handle c ↦ c.write_withHandle handle w

/-- A reset forgets all in which the machines might have differed. -/
theorem Alike.reset (h : Alike m m') : Alike m.reset m'.reset := by
  obtain ⟨handle, chip⟩ := h.chip
  have first : ∀ m : Machine,
      m.reset.Waiting (some (0 + (Oscillator.fromRest {}).nextDelay.1)) := by
    intro m
    unfold Machine.reset
    cases m.config.boot <;> rfl
  refine ⟨?_, ⟨m'.reset.chip.tickHandle, ?_⟩, rfl, _, first m, first m'⟩
  · exact h.config
  · unfold Machine.reset
    rw [chip, h.config]
    cases m.config.boot <;> rfl

/-- When the tick of a restored snapshot is due. -/
def Snapshot.dueRestored (s : Snapshot) : Option UInt64 :=
  s.due.map fun due ↦ s.now + if s.now ≤ due then due - s.now else 0

/-- After a snapshot has been restored its tick waits and nothing else, if nothing but the
chip's own tick waited before. -/
theorem Waiting.restore {due : Option UInt64} (h : m.Waiting due) (s : Snapshot) :
    (m.restore s).Waiting s.dueRestored := by
  have cancelled := h.cancel
  unfold Machine.restore Snapshot.dueRestored
  cases s.due with
  | none => exact cancelled
  | some due =>
    change (m.scheduler.cancel m.chip.tickHandle).queue.insert _ = _
    rw [cancelled]
    rfl

@[simp] theorem chip_restore (s : Snapshot) (m : Machine) :
    (m.restore s).chip = m.chip.restore s.chip := rfl

@[simp] theorem now_restore (s : Snapshot) (m : Machine) :
    (m.restore s).scheduler.now = s.now := by
  unfold Machine.restore
  cases s.due <;> rfl

theorem Alike.restore (h : Alike m m') (s : Snapshot) : Alike (m.restore s) (m'.restore s) := by
  obtain ⟨handle, chip⟩ := h.chip
  obtain ⟨due, waiting, waiting'⟩ := h.waiting
  refine ⟨h.config, ⟨handle, ?_⟩, ?_, _, waiting.restore s, waiting'.restore s⟩
  · rw [chip_restore, chip]
    rfl
  · rw [now_restore, now_restore]

/-! ## Whole histories -/

/-- Whatever is done to alike machines, they stay alike. -/
theorem Alike.act (h : Alike m m') (a : Action) : Alike (m.act a) (m'.act a) := by
  obtain ⟨handle, chip⟩ := h.chip
  cases a with
  | reset => exact h.reset
  | run cycles => exact h.run cycles
  | write16 address w =>
    unfold Machine.act write16
    dsimp only
    split
    · exact h.write w
    · exact h
  | write8 address b =>
    have same : m'.chip.widen b = m.chip.widen b := by rw [chip]; rfl
    unfold Machine.act write8 Chip.writeByte
    dsimp only
    rw [same]
    split
    · exact h.write _
    · exact h
  | setDateTime t => exact h.withChip fun _ _ ↦ rfl
  | install r => exact h.withChip fun _ _ ↦ rfl
  | setConsole console =>
    exact h.withChip (f := fun c ↦ { c with console }) fun _ _ ↦ rfl
  | load data =>
    unfold Machine.act load
    dsimp only
    cases Snapshot.decode data with
    | error e => exact h
    | ok s => exact h.restore s

theorem Alike.play (h : Alike m m') (actions : List Action) :
    Alike (m.play actions) (m'.play actions) := by
  induction actions generalizing m m' with
  | nil => exact h
  | cons a actions ih => exact ih (h.act a)

theorem Alike.snapshot (h : Alike m m') : m'.snapshot = m.snapshot := by
  obtain ⟨handle, chip⟩ := h.chip
  obtain ⟨due, waiting, waiting'⟩ := h.waiting
  rw [Machine.snapshot, Machine.snapshot, waiting.find?, waiting'.find?, h.now, chip]
  rfl

/-- Alike machines write the same stream. -/
theorem Alike.save (h : Alike m m') : m'.save = m.save := by
  rw [Machine.save, Machine.save, h.snapshot]

/-- Alike machines show the same words. -/
theorem Alike.read16 (h : Alike m m') (address : UInt32) :
    m'.read16 address = m.read16 address := by
  obtain ⟨handle, chip⟩ := h.chip
  rw [Machine.read16, Machine.read16, chip]
  rfl

/-- In a machine that has come about in the ordinary way nothing waits but the tick of its
own chip. -/
theorem Reachable.alike (h : Reachable m) : Alike m m := by
  induction h with
  | start config =>
    have powered (m : Machine) (empty : m.scheduler.queue = {}) : Alike m m :=
      ⟨rfl, ⟨_, rfl⟩, rfl, none, empty, empty⟩
    exact (powered { chip := .powerOn config.console, config } rfl).reset
  | act _ a ih => exact ih.act a

theorem Reachable.waiting (h : Reachable m) : ∃ due, m.Waiting due := by
  obtain ⟨due, waiting, -⟩ := h.alike.waiting
  exact ⟨due, waiting⟩

end Machine

end ClockChip
