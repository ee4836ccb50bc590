import ClockChip.Queue

/-!
# The scheduler

Events wait in a queue until the time for which they are scheduled.  Times are
cycles of the bus clock since the last reset.

An event that repeats is scheduled relative to the time for which it was due and
not to the time at which it was handed out, so that a host that looks at the
queue late does not slow it down.
-/

namespace ClockChip

/-- The time, and what is waiting for it to pass. -/
structure Scheduler where
  queue : Queue := {}
  now : UInt64 := 0
  /-- The identity that the next registration gets. -/
  nextId : UInt64 := 0
  /-- When the event that was last handed out was due. -/
  dispatched : UInt64 := 0
deriving DecidableEq, Repr

namespace Scheduler

/-- The events that wait, the next one first. -/
def events (s : Scheduler) : List Event := s.queue.toList

/-- The due time of an event that is not there: later than everything. -/
def never : UInt64 := 0xFFFFFFFFFFFFFFFF

/-! ## Registration and time -/

/-- Forgets every event and starts time anew.  Registrations last. -/
def reset (s : Scheduler) : Scheduler := { nextId := s.nextId }

/-- Makes a handle that is different from those made before. -/
def register (name : String) (s : Scheduler) : Handle × Scheduler :=
  (⟨name, s.nextId⟩, { s with nextId := s.nextId + 1 })

/-- Lets time pass. -/
@[inline] def advance (cycles : UInt64) (s : Scheduler) : Scheduler := { s with now := s.now + cycles }

/-- Sets the time, whatever is waiting. -/
@[inline] def setTime (t : UInt64) (s : Scheduler) : Scheduler := { s with now := t }

/-! ## Scheduling -/

/-- Schedules an event for a time. -/
@[inline] def schedule (due : UInt64) (h : Handle) (s : Scheduler) : Scheduler :=
  { s with queue := s.queue.insert ⟨due, h⟩ }

/-- Schedules an event for some cycles from now. -/
@[inline] def add (delay : UInt64) (h : Handle) (s : Scheduler) : Scheduler :=
  s.schedule (s.now + delay) h

/-- Schedules an event for some cycles after the event that was handed out last
was due. -/
@[inline] def addPeriodic (delay : UInt64) (h : Handle) (s : Scheduler) : Scheduler :=
  s.schedule (s.dispatched + delay) h

/-- Takes back every event of a registration. -/
def cancel (h : Handle) (s : Scheduler) : Scheduler :=
  { s with queue := s.queue.filter fun e => e.handle.id != h.id }

@[simp] theorem events_schedule (due : UInt64) (h : Handle) (s : Scheduler) :
    (s.schedule due h).events = insertEvent ⟨due, h⟩ s.events :=
  Queue.toList_insert _ _

@[simp] theorem events_cancel (h : Handle) (s : Scheduler) :
    (s.cancel h).events = s.events.filter fun e => e.handle.id != h.id :=
  Queue.toList_filter _ _

/-! ## Looking and taking -/

/-- How many events wait. -/
def pending (s : Scheduler) : Nat := s.queue.size

/-- When the next event is due. -/
@[inline] def nextDue (s : Scheduler) : UInt64 :=
  match s.queue.head? with
  | none => never
  | some e => e.due

/-- When the next event of a registration is due. -/
def find? (h : Handle) (s : Scheduler) : Option UInt64 :=
  (s.queue.find? fun e => e.handle.id == h.id).map (·.due)

/-- Hands out the next event if it is due. -/
@[inline] def popDue? (s : Scheduler) : Option (Handle × Scheduler) :=
  match s.queue.pop? with
  | none => none
  | some (e, queue) =>
    if e.due ≤ s.now then some (e.handle, { s with queue, dispatched := e.due }) else none

theorem pending_eq (s : Scheduler) : s.pending = s.events.length :=
  (Queue.length_toList s.queue).symm

theorem nextDue_eq (s : Scheduler) : s.nextDue = (s.events.head?.map (·.due)).getD never := by
  rw [nextDue, events, Queue.head?_toList]
  cases s.queue.head? <;> rfl

theorem find?_eq (h : Handle) (s : Scheduler) :
    s.find? h = (s.events.find? fun e => e.handle.id == h.id).map (·.due) := by
  rw [find?, events, Queue.find?_toList]

/-- Nothing is handed out while nothing is due. -/
theorem popDue?_eq_none_iff {s : Scheduler} :
    s.popDue? = none ↔ ∀ e, s.events.head? = some e → s.now < e.due := by
  rw [popDue?, events]
  split
  · next h => simp [Queue.pop?_eq_none_iff.1 h]
  · next e queue h => simp [Queue.toList_of_pop? h]

/-- What is handed out was the first event and due, and the others stay. -/
theorem events_of_popDue? {s t : Scheduler} {h : Handle} (popped : s.popDue? = some (h, t)) :
    s.events = ⟨t.dispatched, h⟩ :: t.events ∧ t.dispatched ≤ s.now ∧
      t = { s with queue := t.queue, dispatched := t.dispatched } := by
  rw [popDue?] at popped
  split at popped
  · simp at popped
  · next e queue h =>
    split at popped
    · next due =>
      obtain ⟨rfl, rfl⟩ := Prod.mk.inj (Option.some.inj popped)
      exact ⟨Queue.toList_of_pop? h, due, rfl⟩
    · simp at popped

end Scheduler

end ClockChip
