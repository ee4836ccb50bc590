import ClockChip.Proofs.Agenda
import ClockChip.Proofs.Observation

/-!
# What the scheduler hands out

Two promises of the scheduler that are about what has happened before.  Registrations count
upwards and a reset does not start them anew, so that none of them repeats before all
identities have been given away (`ids_inTurn`).

The times for which events were due never go back from one that is handed out to the next.
This needs time to run forward, so that it fails when the time is set, when everything
starts anew and when a sum wraps around.  What carries it is that nothing waits for a time
before the one that was last handed out, and that this one has come (`Anchored`): then an
event can be put neither in front of it relative to the time nor relative to itself.  A
scheduler need not be anchored before the first event is handed out, and is from then on
(`anchored_of_handedOut`, `Anchored.perform`).
-/

namespace ClockChip.Scheduler

open Agenda (Entry Sorted)

variable {s : Scheduler} {a : Agenda}

/-! ## Identities -/

/-- Whether an operation makes a registration. -/
def Op.registers : Op → Bool
  | .register _ => true
  | _ => false

/-- The registrations among some answers. -/
def registrations (answers : List Answer) : List Handle :=
  answers.filterMap fun
    | .registered h => some h
    | _ => none

theorem nextId_perform (s : Scheduler) (op : Op) :
    (s.perform op).2.nextId = if op.registers then s.nextId + 1 else s.nextId := by
  cases op with
  | pop =>
    cases popped : s.popDue? with
    | none => simp [perform, popped, Op.registers]
    | some taken =>
      obtain ⟨-, -, same⟩ := events_of_popDue? popped
      simp only [perform, popped, Op.registers, Bool.false_eq_true, if_false]
      rw [same]
  | _ => rfl

/-- Registrations count upwards from the next identity on, whatever is done between them. -/
theorem ids_inTurn (s : Scheduler) (ops : List Op)
    (fits : s.nextId.toNat + ops.countP Op.registers < UInt64.size) :
    (registrations (inTurn perform s ops).1).map (·.id.toNat) =
      List.range' s.nextId.toNat (ops.countP Op.registers) := by
  induction ops generalizing s with
  | nil => rfl
  | cons op ops ih =>
    have next := nextId_perform s op
    cases made : op.registers with
    | false =>
      rw [made, if_neg Bool.false_ne_true] at next
      rw [List.countP_cons_of_neg (by simp [made])] at fits ⊢
      rw [← next] at fits ⊢
      have silent : registrations (inTurn perform s (op :: ops)).1 =
          registrations (inTurn perform (s.perform op).2 ops).1 := by
        cases op with
        | register name => cases made
        | pop => cases popped : s.popDue? <;> simp [inTurn, perform, popped, registrations]
        | _ => rfl
      rw [silent]
      exact ih (s.perform op).2 fits
    | true =>
      cases op with
      | register name =>
        rw [List.countP_cons_of_pos made] at fits ⊢
        have later : (s.nextId + 1).toNat = s.nextId.toNat + 1 := by
          rw [UInt64.toNat_add]
          exact Nat.mod_eq_of_lt (by change _ < UInt64.size; simp only [UInt64.toNat_one]; omega)
        have rest := ih (s.register name).2 (by change (s.nextId + 1).toNat + _ < _; omega)
        rw [List.range'_succ, ← later]
        exact congrArg (s.nextId.toNat :: ·) rest
      | _ => cases made

/-! ## The order of dispatch -/

/-- Whether an operation lets time be: it neither sets it nor starts it anew. -/
def Op.letsTimeBe : Op → Bool
  | .setTime _ | .reset => false
  | _ => true

/-- Whether an operation computes a time that does not wrap around. -/
def Op.Fits (s : Scheduler) : Op → Prop
  | .add delay _ => s.now.toNat + delay.toNat < UInt64.size
  | .addPeriodic delay _ => s.dispatched.toNat + delay.toNat < UInt64.size
  | .advance cycles => s.now.toNat + cycles.toNat < UInt64.size
  | _ => True

instance Op.decidableFits (s : Scheduler) : (op : Op) → Decidable (op.Fits s)
  | .add _ _ | .addPeriodic _ _ | .advance _ => Nat.decLt _ _
  | .register _ | .cancel _ | .pop | .setTime _ | .reset => .isTrue trivial

/-- No sum wraps around in the course of some operations. -/
def AllFit (s : Scheduler) : List Op → Prop
  | [] => True
  | op :: ops => op.Fits s ∧ (s.perform op).2.AllFit ops

instance decidableAllFit (s : Scheduler) : (ops : List Op) → Decidable (s.AllFit ops)
  | [] => .isTrue trivial
  | op :: ops => @instDecidableAnd _ _ (op.decidableFits s) ((s.perform op).2.decidableAllFit ops)

/-- When the event was due that an operation hands out. -/
def handedOut? (s : Scheduler) (op : Op) : Option UInt64 :=
  match (s.perform op).1 with
  | .popped (some _) => some s.nextDue
  | _ => none

/-- When the events were due that some operations hand out. -/
def handedOut (s : Scheduler) (ops : List Op) : List UInt64 :=
  seenAlong (fun s op ↦ (s.handedOut? op).toList) (fun s op ↦ (s.perform op).2) s ops

theorem handedOut_cons (s : Scheduler) (op : Op) (ops : List Op) :
    s.handedOut (op :: ops) = (s.handedOut? op).toList ++ (s.perform op).2.handedOut ops := rfl

/-- The event that was last handed out was due by now, and all that wait are due no
earlier. -/
structure Anchored (s : Scheduler) : Prop where
  past : s.dispatched ≤ s.now
  ahead : ∀ e ∈ s.events, s.dispatched ≤ e.due

/-- A sum that does not wrap around is no earlier than what is added to. -/
theorem le_add_of_fits {t u d : UInt64} (le : t ≤ u) (fits : u.toNat + d.toNat < UInt64.size) :
    t ≤ u + d := by
  rw [UInt64.le_iff_toNat_le] at le ⊢
  rw [UInt64.toNat_add, Nat.mod_eq_of_lt fits]
  omega

theorem Anchored.schedule (h : s.Anchored) {due : UInt64} (later : s.dispatched ≤ due)
    (g : Handle) : (s.schedule due g).Anchored := by
  refine ⟨h.past, fun e mem ↦ ?_⟩
  rw [events_schedule] at mem
  rcases mem_insertEvent.1 mem with rfl | mem
  · exact later
  · exact h.ahead e mem

/-- After something has been handed out a scheduler is anchored at its due time. -/
theorem anchored_of_popDue? (lists : Lists s a) {t : Scheduler} {g : Handle}
    (popped : s.popDue? = some (g, t)) : t.Anchored ∧ t.dispatched = s.nextDue := by
  obtain ⟨events, due, same⟩ := events_of_popDue? popped
  have now : t.now = s.now := by rw [same]
  obtain ⟨es, -, sorted, listed⟩ := lists.events
  have ordered : s.events.Pairwise fun e f ↦ e.due ≤ f.due := by
    rw [listed]
    exact List.pairwise_map.2 (sorted.imp Entry.due_le_of_key_lt)
  rw [events] at ordered
  refine ⟨⟨now ▸ due, (List.pairwise_cons.1 ordered).1⟩, ?_⟩
  rw [nextDue_eq, events]
  rfl

theorem anchored_of_handedOut? (lists : Lists s a) {op : Op} {due : UInt64}
    (out : s.handedOut? op = some due) :
    (s.perform op).2.Anchored ∧ (s.perform op).2.dispatched = due := by
  cases op with
  | pop =>
    cases popped : s.popDue? with
    | none => simp [handedOut?, perform, popped] at out
    | some taken =>
      have anchored := anchored_of_popDue? lists popped
      simp only [handedOut?, perform, popped, Option.some.injEq] at out ⊢
      rw [← out]
      exact anchored
  | _ => cases out

/-- An operation keeps a scheduler anchored, and not at an earlier time. -/
theorem Anchored.perform (h : s.Anchored) (lists : Lists s a) {op : Op} (lets : op.letsTimeBe)
    (fits : op.Fits s) :
    (s.perform op).2.Anchored ∧ s.dispatched ≤ (s.perform op).2.dispatched := by
  cases op with
  | register name => exact ⟨⟨h.past, h.ahead⟩, UInt64.le_refl _⟩
  | add delay g => exact ⟨h.schedule (le_add_of_fits h.past fits) g, UInt64.le_refl _⟩
  | addPeriodic delay g =>
    exact ⟨h.schedule (le_add_of_fits (UInt64.le_refl _) fits) g, UInt64.le_refl _⟩
  | cancel g =>
    refine ⟨⟨h.past, fun e mem ↦ h.ahead e ?_⟩, UInt64.le_refl _⟩
    rw [Scheduler.perform, events_cancel] at mem
    exact List.mem_of_mem_filter mem
  | advance cycles => exact ⟨⟨le_add_of_fits h.past fits, h.ahead⟩, UInt64.le_refl _⟩
  | pop =>
    cases popped : s.popDue? with
    | none =>
      simp only [Scheduler.perform, popped]
      exact ⟨h, UInt64.le_refl _⟩
    | some taken =>
      obtain ⟨events, -, -⟩ := events_of_popDue? popped
      simp only [Scheduler.perform, popped]
      refine ⟨(anchored_of_popDue? lists popped).1, h.ahead ⟨taken.2.dispatched, taken.1⟩ ?_⟩
      rw [events]
      exact List.mem_cons_self
  | setTime t => cases lets
  | reset => cases lets

/-- Nothing is handed out that was due before the anchor. -/
theorem Anchored.le_handedOut (h : s.Anchored) (lists : Lists s a) {ops : List Op}
    (lets : ∀ op ∈ ops, op.letsTimeBe) (fits : s.AllFit ops) :
    ∀ due ∈ s.handedOut ops, s.dispatched ≤ due := by
  induction ops generalizing s a with
  | nil => exact fun _ mem ↦ absurd mem List.not_mem_nil
  | cons op ops ih =>
    obtain ⟨lets, restLet⟩ := List.forall_mem_cons.1 lets
    obtain ⟨fits, restFit⟩ := fits
    obtain ⟨anchored, le⟩ := h.perform lists lets fits
    intro due mem
    rcases List.mem_append.1 mem with now | later
    · obtain ⟨-, at'⟩ := anchored_of_handedOut? lists (Option.mem_toList.1 now)
      exact at' ▸ le
    · exact UInt64.le_trans le (ih anchored (lists.perform op).2 restLet restFit due later)

/-- What is handed out was never due before what had been handed out already. -/
theorem pairwise_handedOut (lists : Lists s a) {ops : List Op}
    (lets : ∀ op ∈ ops, op.letsTimeBe) (fits : s.AllFit ops) :
    (s.handedOut ops).Pairwise (· ≤ ·) := by
  induction ops generalizing s a with
  | nil => exact .nil
  | cons op ops ih =>
    have lists' := (lists.perform op).2
    obtain ⟨-, lets⟩ := List.forall_mem_cons.1 lets
    obtain ⟨-, fits⟩ := fits
    have rest := ih lists' lets fits
    cases out : s.handedOut? op with
    | none =>
      rw [handedOut_cons, out]
      exact rest
    | some due =>
      obtain ⟨anchored, at'⟩ := anchored_of_handedOut? lists out
      rw [handedOut_cons, out]
      exact List.pairwise_cons.2 ⟨at' ▸ anchored.le_handedOut lists' lets fits, rest⟩

/-! ## The whole contract -/

/-- From the start on, a scheduler and an agenda that are given the same operations give the
same answers and answer every question alike, and what waits in the scheduler is what is
left in the agenda, in the order of due times and of age.  As long as there are identities
no two registrations have the same, and none has that of the unregistered handle.  After
any operations whatever, and for as long as time is let be and no sum wraps around, the
times for which events were due that are handed out never go back. -/
theorem inTurn_agenda (ops : List Op) :
    let s := inTurn perform {} ops
    let a := inTurn Agenda.perform {} ops
    s.1 = a.1 ∧ s.2.outlook = a.2.outlook ∧
      (∃ es : List Entry, es.Perm a.2.entries ∧ Sorted es ∧ s.2.events = es.map Entry.event) ∧
      (ops.countP Op.registers < UInt64.size - 1 →
        (Handle.unregistered :: registrations s.1).Pairwise fun g h ↦ g.id ≠ h.id) ∧
      ∀ further : List Op, (∀ op ∈ further, op.letsTimeBe) → s.2.AllFit further →
        (s.2.handedOut further).Pairwise (· ≤ ·) := by
  intro s a
  obtain ⟨answers, lists⟩ := Lists.start.inTurn ops
  refine ⟨answers, lists.outlook, lists.events, fun few ↦ ?_, fun further lets fits ↦ ?_⟩
  · have start : ({} : Scheduler).nextId.toNat = 0 := rfl
    have ids := ids_inTurn {} ops (by rw [start, Nat.zero_add]; omega)
    rw [start] at ids
    refine List.pairwise_cons.2 ⟨fun h mem same ↦ ?_, ?_⟩
    · have id : h.id.toNat ∈ List.range' 0 (ops.countP Op.registers) := by
        rw [← ids]
        exact List.mem_map_of_mem mem
      have last : h.id.toNat = UInt64.size - 1 := by rw [← same]; rfl
      have below := (List.mem_range'_1.1 id).2
      omega
    · have distinct : ((registrations s.1).map (·.id.toNat)).Nodup := ids ▸ List.nodup_range'
      refine (List.pairwise_map.1 distinct).imp fun apart same ↦ apart ?_
      rw [same]
  · exact pairwise_handedOut lists lets fits

/-- Two events that are due together, a late one and a periodic one that is put in relative to
a time that has passed. -/
theorem inTurn_agenda_ties :
    let tick : Handle := ⟨"tick", 0⟩
    let alarm : Handle := ⟨"alarm", 1⟩
    let ops : List Op := [.register "tick", .reset, .register "alarm", .add 5 tick,
      .add 3 alarm, .add 3 tick, .setTime 9]
    let further : List Op := [.pop, .addPeriodic 1 tick, .pop, .advance 1, .pop, .pop, .pop]
    let s := inTurn perform {} ops
    ops.countP Op.registers < UInt64.size - 1 ∧ (∀ op ∈ further, op.letsTimeBe) ∧
      s.2.AllFit further ∧
      s.1 = (inTurn Agenda.perform {} ops).1 ∧
      (Handle.unregistered :: registrations s.1).Pairwise (fun g h ↦ g.id ≠ h.id) ∧
      s.2.handedOut further = [3, 3, 4, 5] ∧ (s.2.handedOut further).Pairwise (· ≤ ·) := by
  intro tick alarm ops further s
  have few : ops.countP Op.registers < UInt64.size - 1 := by decide
  have lets : ∀ op ∈ further, op.letsTimeBe := by decide
  have fits : s.2.AllFit further := by decide
  obtain ⟨answers, -, -, distinct, order⟩ := inTurn_agenda ops
  exact ⟨few, lets, fits, answers, distinct few, by decide, order further lets fits⟩

end ClockChip.Scheduler
