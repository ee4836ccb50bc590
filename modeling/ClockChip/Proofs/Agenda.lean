import ClockChip.Scheduler
import Mathlib.Data.List.MinMax
import Mathlib.Data.Prod.Lex

/-!
# The scheduler as an agenda

What the scheduler promises can be said without its queue.  An `Agenda` keeps its entries in
no order; each of them remembers how many had been put down before it, and what is handed
out is looked for among all of them, the earliest first and the oldest of those that are
due together.

The scheduler does what an agenda does because its queue is at any time the order in which
the agenda would hand its entries out (`Lists`).  A new entry is younger than all that wait,
so that going past everything that is due no later puts it in its place
(`exists_insertEvent`), the next one is the head (`Lists.next?`), and taking some back leaves
the rest in order.  One operation keeps `Lists` and answers alike (`Lists.perform`), and by
induction so does any sequence of them (`Lists.inTurn`).
-/

namespace ClockChip

namespace Scheduler

/-! ## Operations -/

/-- What can be done to a scheduler. -/
inductive Op
  | register (name : String)
  | add (delay : UInt64) (h : Handle)
  | addPeriodic (delay : UInt64) (h : Handle)
  | cancel (h : Handle)
  | advance (cycles : UInt64)
  | pop
  | setTime (t : UInt64)
  | reset
deriving DecidableEq

/-- What comes back. -/
inductive Answer
  | registered (h : Handle)
  | popped (h? : Option Handle)
  | nothing
deriving DecidableEq

/-- An operation on a scheduler. -/
def perform (s : Scheduler) : Op → Answer × Scheduler
  | .register name => (.registered (s.register name).1, (s.register name).2)
  | .add delay h => (.nothing, s.add delay h)
  | .addPeriodic delay h => (.nothing, s.addPeriodic delay h)
  | .cancel h => (.nothing, s.cancel h)
  | .advance cycles => (.nothing, s.advance cycles)
  | .pop =>
    match s.popDue? with
    | none => (.popped none, s)
    | some (h, s) => (.popped (some h), s)
  | .setTime t => (.nothing, s.setTime t)
  | .reset => (.nothing, s.reset)

/-- Operations one after another, with what each of them answers. -/
def inTurn {σ : Type} (perform : σ → Op → Answer × σ) (s : σ) : List Op → List Answer × σ
  | [] => ([], s)
  | op :: ops =>
    let rest := inTurn perform (perform s op).2 ops
    ((perform s op).1 :: rest.1, rest.2)

/-- What can be asked. -/
structure Outlook where
  now : UInt64
  nextDue : UInt64
  pending : Nat
  find? : Handle → Option UInt64

/-- What a scheduler answers when it is asked. -/
def outlook (s : Scheduler) : Outlook := ⟨s.now, s.nextDue, s.pending, s.find?⟩

end Scheduler

/-! ## Agendas -/

/-- An event that waits, and how many were put down before it. -/
structure Agenda.Entry where
  due : UInt64
  number : Nat
  handle : Handle
deriving DecidableEq

namespace Agenda.Entry

/-- Earlier entries come first, and of those due together the older. -/
def key (e : Entry) : ℕ ×ₗ ℕ := toLex (e.due.toNat, e.number)

/-- The entry as the scheduler has it. -/
def event (e : Entry) : Event := ⟨e.due, e.handle⟩

theorem key_lt_iff {e f : Entry} :
    e.key < f.key ↔ e.due < f.due ∨ e.due = f.due ∧ e.number < f.number := by
  rw [key, key, Prod.Lex.toLex_lt_toLex, UInt64.lt_iff_toNat_lt, ← UInt64.toNat_inj]

/-- What comes first is due first. -/
theorem due_le_of_key_lt {e f : Entry} (h : e.key < f.key) : e.due ≤ f.due := by
  rcases key_lt_iff.1 h with lt | ⟨same, -⟩
  · exact UInt64.le_of_lt lt
  · exact UInt64.le_of_eq same

end Agenda.Entry

open Agenda (Entry)
open Scheduler (Op Answer Outlook inTurn)

/-- Entries in no particular order, and the time. -/
structure Agenda where
  entries : List Entry := []
  /-- How many entries have been put down so far. -/
  written : Nat := 0
  now : UInt64 := 0
  nextId : UInt64 := 0
  /-- When the entry that was last handed out was due. -/
  dispatched : UInt64 := 0

namespace Agenda

/-- Puts down an entry. -/
def write (due : UInt64) (h : Handle) (a : Agenda) : Agenda :=
  { a with entries := ⟨due, a.written, h⟩ :: a.entries, written := a.written + 1 }

/-- The entry that goes before all others. -/
def next? (a : Agenda) : Option Entry := a.entries.argmin Entry.key

/-- When the earliest of some entries is due. -/
def earliest? (es : List Entry) : Option UInt64 := (es.map Entry.due).min?

/-- An operation on an agenda. -/
def perform (a : Agenda) : Op → Answer × Agenda
  | .register name => (.registered ⟨name, a.nextId⟩, { a with nextId := a.nextId + 1 })
  | .add delay h => (.nothing, a.write (a.now + delay) h)
  | .addPeriodic delay h => (.nothing, a.write (a.dispatched + delay) h)
  | .cancel h =>
    (.nothing, { a with entries := a.entries.filter fun e ↦ e.handle.id ≠ h.id })
  | .advance cycles => (.nothing, { a with now := a.now + cycles })
  | .pop =>
    match a.next? with
    | none => (.popped none, a)
    | some e =>
      if e.due ≤ a.now then
        (.popped (some e.handle), { a with entries := a.entries.erase e, dispatched := e.due })
      else (.popped none, a)
  | .setTime t => (.nothing, { a with now := t })
  | .reset => (.nothing, { a with entries := [], now := 0, dispatched := 0 })

/-- What an agenda answers when it is asked. -/
def outlook (a : Agenda) : Outlook where
  now := a.now
  nextDue := (earliest? a.entries).getD 0xFFFFFFFFFFFFFFFF
  pending := a.entries.length
  find? h := earliest? (a.entries.filter fun e ↦ e.handle.id = h.id)

end Agenda

/-! ## The queue as the order of an agenda -/

/-- Entries in the order in which they are handed out. -/
def Agenda.Sorted (es : List Entry) : Prop := es.Pairwise fun e f ↦ e.key < f.key

open Agenda (Sorted)

/-- What comes first is due no later than what follows. -/
theorem Agenda.Sorted.due_le {e : Entry} {es : List Entry} (h : Sorted (e :: es)) {f : Entry}
    (mem : f ∈ e :: es) : e.due ≤ f.due := by
  rcases List.mem_cons.1 mem with rfl | mem
  · exact UInt64.le_refl _
  · exact Entry.due_le_of_key_lt ((List.pairwise_cons.1 h).1 f mem)

/-- The first of some entries in order, for whatever order they are kept in. -/
theorem Agenda.Sorted.argmin {e : Entry} {es entries : List Entry} (h : Sorted (e :: es))
    (perm : (e :: es).Perm entries) : entries.argmin Entry.key = some e := by
  have first : ∀ f ∈ entries, f = e ∨ e.key < f.key := by
    intro f mem
    rcases List.mem_cons.1 (perm.mem_iff.2 mem) with rfl | mem
    · exact .inl rfl
    · exact .inr ((List.pairwise_cons.1 h).1 f mem)
  refine List.argmin_eq_some_iff.2 ⟨perm.mem_iff.1 List.mem_cons_self, ?_, ?_⟩
  · intro f mem
    rcases first f mem with rfl | lt
    · exact le_refl _
    · exact le_of_lt lt
  · intro f mem le
    rcases first f mem with rfl | lt
    · exact Nat.le_refl _
    · exact absurd lt (not_lt_of_ge le)

/-- The first of some entries in order is due when the earliest of them is. -/
theorem Agenda.Sorted.earliest? {es entries : List Entry} (h : Sorted es) (perm : es.Perm entries) :
    Agenda.earliest? entries = es.head?.map Entry.due := by
  cases es with
  | nil => rw [← perm.nil_eq]; rfl
  | cons e es =>
    refine List.min?_eq_some_iff.2 ⟨List.mem_map_of_mem (perm.mem_iff.1 List.mem_cons_self), ?_⟩
    intro due mem
    obtain ⟨f, here, rfl⟩ := List.mem_map.1 mem
    exact h.due_le (perm.mem_iff.2 here)

/-- A new entry goes behind all that are due no later, since it is the youngest. -/
theorem exists_insertEvent {es : List Entry} (h : Sorted es) {e : Entry}
    (youngest : ∀ f ∈ es, f.number < e.number) :
    ∃ es' : List Entry, es'.Perm (e :: es) ∧ Sorted es' ∧
      insertEvent e.event (es.map Entry.event) = es'.map Entry.event := by
  induction es with
  | nil => exact ⟨[e], .refl _, List.pairwise_singleton _ _, rfl⟩
  | cons f fs ih =>
    obtain ⟨before, rest⟩ := List.pairwise_cons.1 h
    obtain ⟨older, youngest⟩ := List.forall_mem_cons.1 youngest
    rw [List.map_cons, insertEvent]
    by_cases le : f.due ≤ e.due
    · obtain ⟨es', perm, sorted, inserted⟩ := ih rest youngest
      have behind : f.key < e.key := by
        rcases UInt64.lt_or_eq_of_le le with lt | same
        · exact Entry.key_lt_iff.2 (.inl lt)
        · exact Entry.key_lt_iff.2 (.inr ⟨same, older⟩)
      refine ⟨f :: es', (perm.cons f).trans (.swap e f fs), ?_, ?_⟩
      · refine List.pairwise_cons.2 ⟨fun g mem ↦ ?_, sorted⟩
        rcases List.mem_cons.1 (perm.mem_iff.1 mem) with rfl | mem
        · exact behind
        · exact before g mem
      · exact (if_pos le).trans (congrArg (f.event :: ·) inserted)
    · have ahead : e.key < f.key := Entry.key_lt_iff.2 (.inl (UInt64.not_le.1 le))
      refine ⟨e :: f :: fs, .refl _, ?_, if_neg le⟩
      refine List.pairwise_cons.2 ⟨fun g mem ↦ ?_, h⟩
      rcases List.mem_cons.1 mem with rfl | mem
      · exact ahead
      · exact lt_trans ahead (before g mem)

/-- A scheduler keeps the entries of an agenda in the order in which they are handed out,
and has the time and the registrations of the agenda. -/
structure Lists (s : Scheduler) (a : Agenda) : Prop where
  events : ∃ es : List Entry, es.Perm a.entries ∧ Sorted es ∧ s.events = es.map Entry.event
  numbered : ∀ e ∈ a.entries, e.number < a.written
  now : s.now = a.now
  nextId : s.nextId = a.nextId
  dispatched : s.dispatched = a.dispatched

namespace Lists

variable {s : Scheduler} {a : Agenda}

theorem start : Lists {} {} :=
  ⟨⟨[], .refl _, .nil, rfl⟩, fun _ mem ↦ absurd mem List.not_mem_nil, rfl, rfl, rfl⟩

/-! ## Asking -/

/-- The head of the queue is the entry that the agenda hands out next. -/
theorem next? (h : Lists s a) : a.next?.map Entry.event = s.events.head? := by
  obtain ⟨es, perm, sorted, events⟩ := h.events
  rw [events, Agenda.next?]
  cases es with
  | nil => rw [← perm.nil_eq]; rfl
  | cons e es => rw [sorted.argmin perm]; rfl

/-- A scheduler and its agenda answer every question alike. -/
theorem outlook (h : Lists s a) : s.outlook = a.outlook := by
  obtain ⟨es, perm, sorted, events⟩ := h.events
  have nextDue : s.nextDue = a.outlook.nextDue := by
    rw [Scheduler.nextDue_eq, Agenda.outlook, sorted.earliest? perm, events, List.head?_map,
      Option.map_map]
    rfl
  have pending : s.pending = a.outlook.pending := by
    rw [Scheduler.pending_eq, events, List.length_map, perm.length_eq]
    rfl
  have find? (g : Handle) : s.find? g = a.outlook.find? g := by
    let ours : Entry → Bool := fun e ↦ e.handle.id = g.id
    have first : Agenda.earliest? (a.entries.filter ours) = (es.filter ours).head?.map Entry.due :=
      Sorted.earliest? (sorted.filter ours) (perm.filter ours)
    rw [Scheduler.find?_eq, events, List.find?_map, ← List.head?_filter, Option.map_map]
    exact first.symm
  rw [Scheduler.outlook, Agenda.outlook, h.now, nextDue, pending, funext find?]
  rfl

/-! ## Operating -/

theorem schedule (h : Lists s a) (due : UInt64) (g : Handle) :
    Lists (s.schedule due g) (a.write due g) := by
  obtain ⟨es, perm, sorted, events⟩ := h.events
  obtain ⟨es', perm', sorted', inserted⟩ := exists_insertEvent sorted
    (e := ⟨due, a.written, g⟩) fun f mem ↦ h.numbered f (perm.mem_iff.1 mem)
  refine ⟨⟨es', perm'.trans (perm.cons _), sorted', ?_⟩, ?_, h.now, h.nextId, h.dispatched⟩
  · rw [Scheduler.events_schedule, events]
    exact inserted
  · intro f mem
    rcases List.mem_cons.1 mem with rfl | mem
    · exact Nat.lt_succ_self _
    · exact Nat.lt_succ_of_lt (h.numbered f mem)

theorem cancel (h : Lists s a) (g : Handle) :
    Lists (s.cancel g) (a.perform (.cancel g)).2 := by
  obtain ⟨es, perm, sorted, events⟩ := h.events
  refine ⟨⟨_, perm.filter _, sorted.filter _, ?_⟩, ?_, h.now, h.nextId, h.dispatched⟩
  · rw [Scheduler.events_cancel, events, List.filter_map]
    refine congrArg (List.map Entry.event) (List.filter_congr fun e _ ↦ ?_)
    by_cases same : e.handle.id = g.id <;> simp [Entry.event, same]
  · intro f mem
    exact h.numbered f (List.mem_of_mem_filter mem)

/-- Both hand out the same, or nothing. -/
theorem pop (h : Lists s a) :
    (s.perform .pop).1 = (a.perform .pop).1 ∧ Lists (s.perform .pop).2 (a.perform .pop).2 := by
  have next := h.next?
  cases popped : s.popDue? with
  | none =>
    have early := Scheduler.popDue?_eq_none_iff.1 popped
    have idle : a.perform .pop = (.popped none, a) := by
      cases least : a.next? with
      | none => simp [Agenda.perform, least]
      | some e =>
        rw [least] at next
        have later : a.now < e.due := h.now ▸ early e.event next.symm
        simp [Agenda.perform, least, UInt64.not_le.2 later]
    simp only [Scheduler.perform, popped, idle, true_and]
    exact h
  | some taken =>
    obtain ⟨g, t⟩ := taken
    obtain ⟨events, due, same⟩ := Scheduler.events_of_popDue? popped
    obtain ⟨es, perm, sorted, listed⟩ := h.events
    rw [events] at listed
    cases es with
    | nil => cases listed
    | cons e es =>
      obtain ⟨head, rest⟩ := List.cons.inj listed
      obtain ⟨at', handle⟩ := Event.mk.inj head
      rw [at', h.now] at due
      have least : a.next? = some e := sorted.argmin perm
      have answer : a.perform .pop =
          (.popped (some g), { a with entries := a.entries.erase e, dispatched := e.due }) := by
        simp [Agenda.perform, least, due, handle]
      simp only [Scheduler.perform, popped, answer, true_and]
      have left := perm.erase e
      rw [List.erase_cons_head] at left
      refine ⟨⟨es, left, (List.pairwise_cons.1 sorted).2, rest⟩, ?_, ?_, ?_, at'⟩
      · intro f mem
        exact h.numbered f (List.mem_of_mem_erase mem)
      · rw [same]; exact h.now
      · rw [same]; exact h.nextId

/-- An operation answers alike and keeps the queue in the order of the agenda. -/
theorem perform (h : Lists s a) (op : Op) :
    (s.perform op).1 = (a.perform op).1 ∧ Lists (s.perform op).2 (a.perform op).2 := by
  cases op with
  | register name =>
    refine ⟨?_, h.events, h.numbered, h.now, congrArg (· + 1) h.nextId, h.dispatched⟩
    simp [Scheduler.perform, Scheduler.register, Agenda.perform, h.nextId]
  | add delay g =>
    refine ⟨rfl, ?_⟩
    change Lists (s.schedule (s.now + delay) g) (a.write (a.now + delay) g)
    rw [h.now]
    exact h.schedule (a.now + delay) g
  | addPeriodic delay g =>
    refine ⟨rfl, ?_⟩
    change Lists (s.schedule (s.dispatched + delay) g) (a.write (a.dispatched + delay) g)
    rw [h.dispatched]
    exact h.schedule (a.dispatched + delay) g
  | cancel g => exact ⟨rfl, h.cancel g⟩
  | advance cycles =>
    exact ⟨rfl, h.events, h.numbered, congrArg (· + cycles) h.now, h.nextId, h.dispatched⟩
  | pop => exact h.pop
  | setTime t => exact ⟨rfl, h.events, h.numbered, rfl, h.nextId, h.dispatched⟩
  | reset =>
    refine ⟨rfl, ⟨[], .refl _, .nil, rfl⟩, ?_, rfl, h.nextId, rfl⟩
    exact fun _ mem ↦ absurd mem List.not_mem_nil

/-- So does any sequence of operations. -/
theorem inTurn (h : Lists s a) (ops : List Op) :
    (Scheduler.inTurn Scheduler.perform s ops).1 = (Scheduler.inTurn Agenda.perform a ops).1 ∧
      Lists (Scheduler.inTurn Scheduler.perform s ops).2
        (Scheduler.inTurn Agenda.perform a ops).2 := by
  induction ops generalizing s a with
  | nil => exact ⟨rfl, h⟩
  | cons op ops ih =>
    obtain ⟨answer, lists⟩ := h.perform op
    obtain ⟨answers, lists⟩ := ih lists
    exact ⟨congrArg₂ List.cons answer answers, lists⟩

end Lists

end ClockChip
