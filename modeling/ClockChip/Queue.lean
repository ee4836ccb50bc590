/-!
# Queues of events

Events that wait, in the order in which they are handed out: by due time, and
events that are due at the same time in the order in which they were put in.

Equal events that follow each other are kept as one row, so that the work on a
queue depends on how many different events wait and not on how many there are.
`Queue.toList` spells the rows out, and what an operation does is said of that
list (`toList_insert`, `toList_of_pop?`, `toList_filter`, `find?_toList`).
-/

namespace ClockChip

/-- The registration of a kind of event. -/
structure Handle where
  name : String
  id : UInt64
deriving DecidableEq, Repr

namespace Handle

/-- A handle that no registration gives. -/
def unregistered : Handle := ⟨"default", 0xFFFFFFFFFFFFFFFF⟩

end Handle

/-- An event that waits. -/
structure Event where
  due : UInt64
  handle : Handle
deriving DecidableEq, Repr

/-! ## Lists of events -/

/-- Puts an event behind those that are due no later. -/
def insertEvent (e : Event) : List Event → List Event
  | [] => [e]
  | f :: fs => if f.due ≤ e.due then f :: insertEvent e fs else e :: f :: fs

/-- Inserting an event adds it and loses nothing. -/
theorem insertEvent_perm (e : Event) (es : List Event) : (insertEvent e es).Perm (e :: es) := by
  induction es with
  | nil => exact .refl _
  | cons f fs ih =>
    rw [insertEvent]
    split
    · exact (ih.cons f).trans (.swap e f fs)
    · exact .refl _

theorem mem_insertEvent {e f : Event} {es : List Event} :
    f ∈ insertEvent e es ↔ f = e ∨ f ∈ es := by
  rw [(insertEvent_perm e es).mem_iff, List.mem_cons]

/-- An event goes past all of some equal events, or in front of all of them. -/
theorem insertEvent_replicate_append (e f : Event) (n : Nat) (es : List Event) :
    insertEvent e (List.replicate (n + 1) f ++ es) =
      if f.due ≤ e.due then List.replicate (n + 1) f ++ insertEvent e es
      else e :: (List.replicate (n + 1) f ++ es) := by
  induction n with
  | zero => rfl
  | succ n ih =>
    rw [List.replicate_succ, List.cons_append, insertEvent, ih]
    split <;> rfl

/-! ## Rows -/

/-- Equal events that follow each other. -/
structure Row where
  event : Event
  /-- How many there are besides the first. -/
  more : Nat := 0
deriving DecidableEq, Repr

namespace Row

/-- The events of a row. -/
def toList (r : Row) : List Event := List.replicate (r.more + 1) r.event

/-- A row in front of others, in one with the first of them if it is of the same
event. -/
def before (r : Row) : List Row → List Row
  | [] => [r]
  | f :: fs =>
    if r.event = f.event then { f with more := r.more + 1 + f.more } :: fs else r :: f :: fs

theorem flatMap_toList_before (r : Row) (rs : List Row) :
    (r.before rs).flatMap toList = r.toList ++ rs.flatMap toList := by
  cases rs with
  | nil => simp [before]
  | cons f fs =>
    rw [before]
    split
    · next same =>
      have split : List.replicate (r.more + 1 + f.more + 1) f.event =
          List.replicate (r.more + 1) f.event ++ List.replicate (f.more + 1) f.event := by
        rw [List.replicate_append_replicate]
        rfl
      simp only [List.flatMap_cons, toList, same, split, List.append_assoc]
    · simp

/-- A new event among rows. -/
def insert (e : Event) : List Row → List Row
  | [] => [{ event := e }]
  | r :: rs =>
    if r.event.due ≤ e.due then r.before (insert e rs) else { event := e } :: r :: rs

theorem flatMap_toList_insert (e : Event) (rs : List Row) :
    (insert e rs).flatMap toList = insertEvent e (rs.flatMap toList) := by
  induction rs with
  | nil => rfl
  | cons r rs ih =>
    rw [insert, List.flatMap_cons, toList, insertEvent_replicate_append]
    split
    · rw [flatMap_toList_before, ih, toList]
    · rfl

end Row

/-! ## Queues -/

/-- Events that wait. -/
structure Queue where
  rows : List Row := []
deriving DecidableEq, Repr

namespace Queue

/-- The events, the next one first. -/
def toList (q : Queue) : List Event := q.rows.flatMap Row.toList

/-- Puts an event behind those that are due no later. -/
@[inline] def insert (e : Event) (q : Queue) : Queue := ⟨Row.insert e q.rows⟩

/-- The next event. -/
@[inline] def head? (q : Queue) : Option Event := q.rows.head?.map (·.event)

/-- Hands out the next event. -/
@[inline] def pop? (q : Queue) : Option (Event × Queue) :=
  match q.rows with
  | [] => none
  | ⟨e, 0⟩ :: rs => some (e, ⟨rs⟩)
  | ⟨e, n + 1⟩ :: rs => some (e, ⟨⟨e, n⟩ :: rs⟩)

/-- The first event with a property. -/
def find? (p : Event → Bool) (q : Queue) : Option Event :=
  (q.rows.find? fun r => p r.event).map (·.event)

/-- The events with a property. -/
def filter (p : Event → Bool) (q : Queue) : Queue := ⟨q.rows.filter fun r => p r.event⟩

/-- How many events wait. -/
def size (q : Queue) : Nat := q.rows.foldr (fun r n => r.more + 1 + n) 0

@[simp] theorem toList_insert (e : Event) (q : Queue) :
    (q.insert e).toList = insertEvent e q.toList :=
  Row.flatMap_toList_insert e q.rows

theorem toList_eq_nil_iff {q : Queue} : q.toList = [] ↔ q = {} := by
  obtain ⟨rows⟩ := q
  cases rows <;> simp [toList, Row.toList]

/-- A single event waits in one way only. -/
theorem toList_eq_singleton_iff {q : Queue} {e : Event} :
    q.toList = [e] ↔ q = ⟨[{ event := e }]⟩ := by
  obtain ⟨rows⟩ := q
  constructor
  · intro h
    match rows, h with
    | ⟨f, 0⟩ :: rs, h =>
      obtain ⟨rfl, rest⟩ := List.cons.inj h
      have empty : (⟨rs⟩ : Queue) = {} := toList_eq_nil_iff.1 rest
      rw [Queue.mk.inj empty]
    | ⟨f, n + 1⟩ :: rs, h => simp [toList, Row.toList, List.replicate_succ] at h
  · rintro h
    rw [h]
    rfl

theorem head?_toList (q : Queue) : q.toList.head? = q.head? := by
  obtain ⟨rows⟩ := q
  cases rows <;> simp [toList, head?, Row.toList, List.replicate_succ]

theorem pop?_eq_none_iff {q : Queue} : q.pop? = none ↔ q.toList = [] := by
  rw [toList_eq_nil_iff]
  obtain ⟨rows⟩ := q
  match rows with
  | [] => simp [pop?]
  | ⟨e, 0⟩ :: rs => simp [pop?]
  | ⟨e, n + 1⟩ :: rs => simp [pop?]

/-- The event that is handed out was the first, and the others stay. -/
theorem toList_of_pop? {q r : Queue} {e : Event} (h : q.pop? = some (e, r)) :
    q.toList = e :: r.toList := by
  obtain ⟨rows⟩ := q
  match rows, h with
  | ⟨f, 0⟩ :: rs, h =>
    simp only [pop?, Option.some.injEq, Prod.mk.injEq] at h
    obtain ⟨rfl, rfl⟩ := h
    rfl
  | ⟨f, n + 1⟩ :: rs, h =>
    simp only [pop?, Option.some.injEq, Prod.mk.injEq] at h
    obtain ⟨rfl, rfl⟩ := h
    rfl

theorem find?_toList (p : Event → Bool) (q : Queue) : q.toList.find? p = q.find? p := by
  obtain ⟨rows⟩ := q
  induction rows with
  | nil => rfl
  | cons r rs ih =>
    simp only [toList, find?, List.flatMap_cons, List.find?_append, List.find?_cons, Row.toList,
      List.find?_replicate] at ih ⊢
    cases h : p r.event <;> simp [ih]

theorem toList_filter (p : Event → Bool) (q : Queue) :
    (q.filter p).toList = q.toList.filter p := by
  obtain ⟨rows⟩ := q
  induction rows with
  | nil => rfl
  | cons r rs ih =>
    simp only [toList, filter, List.flatMap_cons, List.filter_append, List.filter_cons,
      Row.toList, List.filter_replicate] at ih ⊢
    cases h : p r.event <;> simp [ih, Row.toList]

theorem length_toList (q : Queue) : q.toList.length = q.size := by
  obtain ⟨rows⟩ := q
  induction rows with
  | nil => rfl
  | cons r rs ih => simp only [toList, size, List.flatMap_cons, List.length_append,
      List.foldr_cons, Row.toList, List.length_replicate] at ih ⊢; omega

end Queue

end ClockChip
