import ClockChip.Proofs.Accepting
import ClockChip.Proofs.Dispatch
import ClockChip.Proofs.Loading

/-!
# A chip among others

A machine has its scheduler for the chip alone and serves the chip's ticks when they are due.
Neither need be so.  On a board others register with the same scheduler and have events of
their own in it, the chip is reset while its ticks wait, it ticks without an event for it, and
events are taken out for nobody.

Two things hold of a chip whatever has been done on its board.  The cursors of its session are
inside their buffers (`cursors_play`).  And whatever waits in the scheduler is either an event
of one of the others or under the registration that the chip has at present (`Apart`).  A reset
gives the chip another registration, and keeps this true because it takes back all that is
under the one before; the registration that a chip has before its first reset is that of
nobody else.
-/

namespace ClockChip

open Scheduler (Op registrations)

/-- A chip, and a scheduler that it shares with others. -/
structure Board where
  chip : Chip
  scheduler : Scheduler := {}
  /-- The registrations that others have made. -/
  others : List Handle := []
deriving DecidableEq, Repr

/-- The registration that an operation on a scheduler is for, if it is made already. -/
def Scheduler.Op.handle? : Op → Option Handle
  | .add _ h | .addPeriodic _ h | .cancel h => some h
  | _ => none

namespace Board

/-- A chip that has just got power, on a board with nothing else. -/
def ofConsole (console : Console) : Board := { chip := .powerOn console }

/-- Something that is done on a board. -/
inductive Step where
  | reset
  | tick
  | write (w : Word)
  | writeByte (b : UInt8)
  | setDateTime (t : DateTime)
  | install (r : Registers)
  | setConsole (console : Console)
  /-- The chip is given the state in a stream of its own. -/
  | load (data : List UInt8)
  /-- The chip and the time are given the state in a stream of a machine. -/
  | loadMachine (data : List UInt8)
  /-- The scheduler is used, with no registration but those of the others. -/
  | scheduler (op : Op)
deriving DecidableEq

/-- Whether something makes a registration. -/
def Step.registers : Step → Bool
  | .reset => true
  | .scheduler op => op.registers
  | _ => false

/-- The board after something has been done.  A stream that is refused changes nothing. -/
def step (b : Board) : Step → Board
  | .reset =>
    let (chip, scheduler) := b.chip.reset b.scheduler
    { b with chip, scheduler }
  | .tick =>
    let (chip, scheduler) := b.chip.tick b.scheduler
    { b with chip, scheduler }
  | .write w => { b with chip := b.chip.write w }
  | .writeByte byte => { b with chip := b.chip.writeByte byte }
  | .setDateTime t => { b with chip := b.chip.setDateTime t }
  | .install r => { b with chip := b.chip.install r }
  | .setConsole console => { b with chip := { b.chip with console } }
  | .load data =>
    match b.chip.load data with
    | .ok (chip, _) => { b with chip }
    | .error _ => b
  | .loadMachine data =>
    match Machine.load data { chip := b.chip, scheduler := b.scheduler, config := {} } with
    | .ok m => { b with chip := m.chip, scheduler := m.scheduler }
    | .error _ => b
  | .scheduler op =>
    if op.handle?.all (· ∈ b.others) then
      { b with
        scheduler := (b.scheduler.perform op).2
        others := registrations [(b.scheduler.perform op).1] ++ b.others }
    else b

/-- The board after one thing after another. -/
def play (b : Board) (steps : List Step) : Board := steps.foldl step b

variable {b : Board} {n : Nat}

/-! ## Streams -/

theorem gives_readAlone :
    Savestate.Gives Chip.readAlone fun s ↦ s.session.Cursors ∧ s.registers.MinutesFit :=
  .after fun _ ↦ Chip.Snapshot.gives_inRange

/-- A chip is given a state by restoring it, or it is left as it is. -/
theorem step_load (b : Board) (data : List UInt8) :
    b.step (.load data) = b ∨
      ∃ s : Chip.Snapshot, (s.session.Cursors ∧ s.registers.MinutesFit) ∧
        b.step (.load data) = { b with chip := b.chip.restore s } := by
  unfold step
  dsimp only
  rw [Chip.load_eq]
  cases read : Chip.readAlone { data } with
  | ok s r => exact .inr ⟨s, gives_readAlone _ s r read, rfl⟩
  | error e r => exact .inl rfl

/-- So is a chip with its time. -/
theorem step_loadMachine (b : Board) (data : List UInt8) :
    b.step (.loadMachine data) = b ∨
      ∃ s : Machine.Snapshot, (s.chip.session.Cursors ∧ s.chip.registers.MinutesFit) ∧
        b.step (.loadMachine data) =
          let m := Machine.restore s { chip := b.chip, scheduler := b.scheduler, config := {} }
          { b with chip := m.chip, scheduler := m.scheduler } := by
  unfold step
  dsimp only
  rw [Machine.load]
  cases decoded : Machine.Snapshot.decode data with
  | ok s =>
    have fromStream := Machine.Snapshot.fromStream_of_decode decoded
    exact .inr ⟨s, ⟨fromStream.cursors, fromStream.minutes⟩, rfl⟩
  | error e => exact .inl rfl

/-! ## The scheduler -/

/-- An operation is done for a registration that the others have, or it is not done. -/
theorem step_scheduler (b : Board) (op : Op) :
    op.registers = false ∧ b.step (.scheduler op) = b ∨
      (∀ g, op.handle? = some g → g ∈ b.others) ∧
        b.step (.scheduler op) =
          { b with
            scheduler := (b.scheduler.perform op).2
            others := registrations [(b.scheduler.perform op).1] ++ b.others } := by
  unfold step
  dsimp only
  split
  · next theirs =>
    refine .inr ⟨fun g for' ↦ ?_, rfl⟩
    rw [for', Option.all_some] at theirs
    exact of_decide_eq_true theirs
  · next foreign =>
    refine .inl ⟨?_, rfl⟩
    cases op with
    | register name => exact absurd rfl foreign
    | _ => rfl

/-! ## Cursors -/

theorem cursors_step (h : b.chip.session.Cursors) (step : Step) :
    (b.step step).chip.session.Cursors := by
  cases step with
  | reset => exact .none
  | tick => exact h
  | write w => exact Chip.cursors_write h w
  | writeByte byte => exact Chip.cursors_write h _
  | setDateTime t => exact h
  | install r => exact h
  | setConsole console => exact h
  | load data =>
    rcases b.step_load data with eq | ⟨s, ⟨cursors, -⟩, eq⟩
    · rw [eq]; exact h
    · rw [eq]; exact cursors
  | loadMachine data =>
    rcases b.step_loadMachine data with eq | ⟨s, ⟨cursors, -⟩, eq⟩
    · rw [eq]; exact h
    · rw [eq]; exact cursors
  | scheduler op =>
    unfold Board.step
    dsimp only
    split <;> exact h

theorem cursors_play (h : b.chip.session.Cursors) (steps : List Step) :
    (b.play steps).chip.session.Cursors := by
  induction steps generalizing b with
  | nil => exact h
  | cons step steps ih => exact ih (cursors_step h step)

/-! ## Whose the events are -/

/-- There have been `n` registrations.  Everything that waits is under one of the others' or
under the chip's, and these are different ones. -/
structure Apart (n : Nat) (b : Board) : Prop where
  nextId : b.scheduler.nextId.toNat = n
  own : b.chip.tickHandle = .unregistered ∨ b.chip.tickHandle.id.toNat < n
  others : ∀ h ∈ b.others, h.id.toNat < n ∧ h.id ≠ b.chip.tickHandle.id
  events : ∀ e ∈ b.scheduler.events, e.handle = b.chip.tickHandle ∨ e.handle ∈ b.others

theorem apart_ofConsole (console : Console) : Apart 0 (ofConsole console) where
  nextId := rfl
  own := .inl rfl
  others := List.forall_mem_nil _
  events := List.forall_mem_nil _

/-- As long as no registration is made, only the events need to be looked at. -/
theorem Apart.congr (h : Apart n b) {c : Chip} {s : Scheduler}
    (tickHandle : c.tickHandle = b.chip.tickHandle) (nextId : s.nextId = b.scheduler.nextId)
    (events : ∀ e ∈ s.events,
      e ∈ b.scheduler.events ∨ e.handle = b.chip.tickHandle ∨ e.handle ∈ b.others) :
    Apart n { b with chip := c, scheduler := s } where
  nextId := by rw [nextId]; exact h.nextId
  own := by rw [tickHandle]; exact h.own
  others := by rw [tickHandle]; exact h.others
  events e mem := by
    rw [tickHandle]
    exact (events e mem).elim (h.events e) id

theorem Apart.withChip (h : Apart n b) {c : Chip} (tickHandle : c.tickHandle = b.chip.tickHandle) :
    Apart n { b with chip := c } :=
  h.congr tickHandle rfl fun _ ↦ .inl

/-- An event more. -/
theorem mem_schedule {s : Scheduler} {due : UInt64} {g : Handle} {e : Event}
    (whose : g = b.chip.tickHandle ∨ g ∈ b.others) (mem : e ∈ (s.schedule due g).events) :
    e ∈ s.events ∨ e.handle = b.chip.tickHandle ∨ e.handle ∈ b.others := by
  rw [Scheduler.events_schedule] at mem
  rcases mem_insertEvent.1 mem with rfl | mem
  · exact .inr whose
  · exact .inl mem

theorem mem_of_mem_cancel {s : Scheduler} {g : Handle} {e : Event}
    (mem : e ∈ (s.cancel g).events) : e ∈ s.events := by
  rw [Scheduler.events_cancel] at mem
  exact List.mem_of_mem_filter mem

/-- The new registration of the chip is nobody's, and nothing waits under the old one. -/
theorem Apart.reset (h : Apart n b) (fits : n + 1 < UInt64.size) :
    Apart (n + 1) (b.step .reset) := by
  have next : (b.scheduler.nextId + 1).toNat = n + 1 := by
    rw [UInt64.toNat_add, h.nextId]
    exact Nat.mod_eq_of_lt fits
  have own : (b.step .reset).chip.tickHandle.id = b.scheduler.nextId := rfl
  refine ⟨next, .inr ?_, fun g mem ↦ ⟨?_, ?_⟩, fun e mem ↦ ?_⟩
  · rw [own, h.nextId]
    exact Nat.lt_succ_self n
  · exact Nat.lt_succ_of_lt (h.others g mem).1
  · rw [own, ne_eq, ← UInt64.toNat_inj, h.nextId]
    exact Nat.ne_of_lt (h.others g mem).1
  · change e ∈ ((b.scheduler.cancel b.chip.tickHandle).schedule _ _).events at mem
    rw [Scheduler.events_schedule, Scheduler.events_cancel] at mem
    rcases mem_insertEvent.1 mem with rfl | mem
    · exact .inl rfl
    · obtain ⟨waited, other⟩ := List.mem_filter.1 mem
      rcases h.events e waited with own | others
      · rw [own, bne_self_eq_false] at other
        nomatch other
      · exact .inr others

/-- A registration is made that neither the chip nor another has. -/
theorem Apart.register (h : Apart n b) (fits : n + 1 < UInt64.size) (name : String) :
    Apart (n + 1) (b.step (.scheduler (.register name))) := by
  have next : (b.scheduler.nextId + 1).toNat = n + 1 := by
    rw [UInt64.toNat_add, h.nextId]
    exact Nat.mod_eq_of_lt fits
  refine ⟨next, h.own.imp_right Nat.lt_succ_of_lt, ?_, fun e mem ↦ ?_⟩
  · refine List.forall_mem_cons.2 ⟨⟨?_, fun same ↦ ?_⟩, fun g mem ↦ ?_⟩
    · change b.scheduler.nextId.toNat < n + 1
      rw [h.nextId]
      exact Nat.lt_succ_self n
    · change b.scheduler.nextId = b.chip.tickHandle.id at same
      rcases h.own with unregistered | before
      · rw [unregistered, ← UInt64.toNat_inj, h.nextId] at same
        change n = 18446744073709551615 at same
        rw [UInt64.size] at fits
        omega
      · rw [← same, h.nextId] at before
        exact absurd before (Nat.lt_irrefl n)
    · exact ⟨Nat.lt_succ_of_lt (h.others g mem).1, (h.others g mem).2⟩
  · exact (h.events e mem).imp_right (List.mem_cons_of_mem _)

/-- The others keep to their own registrations. -/
theorem Apart.scheduler (h : Apart n b) (op : Op) (fits : n + op.registers.toNat < UInt64.size) :
    Apart (n + op.registers.toNat) (b.step (.scheduler op)) := by
  rcases b.step_scheduler op with ⟨silent, eq⟩ | ⟨theirs, eq⟩
  · rw [silent, eq]
    exact h
  · cases op with
    | register name => exact h.register fits name
    | add delay g =>
      rw [eq]
      exact h.congr rfl rfl fun e ↦ mem_schedule (.inr (theirs g rfl))
    | addPeriodic delay g =>
      rw [eq]
      exact h.congr rfl rfl fun e ↦ mem_schedule (.inr (theirs g rfl))
    | cancel g =>
      rw [eq]
      exact h.congr rfl rfl fun e mem ↦ .inl (mem_of_mem_cancel mem)
    | pop =>
      rw [eq]
      unfold Scheduler.perform
      dsimp only
      cases popped : b.scheduler.popDue? with
      | none => exact h
      | some taken =>
        obtain ⟨events, -, same⟩ := Scheduler.events_of_popDue? popped
        have next : taken.2.nextId = b.scheduler.nextId := by rw [same]
        refine h.congr rfl next fun e mem ↦ .inl ?_
        rw [events]
        exact List.mem_cons_of_mem _ mem
    | reset =>
      rw [eq]
      exact h.congr rfl rfl fun e mem ↦ absurd mem List.not_mem_nil
    | _ =>
      rw [eq]
      exact h.congr rfl rfl fun e mem ↦ .inl mem

theorem Apart.step (h : Apart n b) (step : Step)
    (fits : n + step.registers.toNat < UInt64.size) :
    Apart (n + step.registers.toNat) (b.step step) := by
  cases step with
  | reset => exact h.reset fits
  | tick => exact h.congr rfl rfl fun e ↦ mem_schedule (.inl rfl)
  | write w => exact h.withChip (Chip.tickHandle_write _ w)
  | writeByte byte => exact h.withChip (Chip.tickHandle_write _ _)
  | setDateTime t => exact h.withChip rfl
  | install r => exact h.withChip rfl
  | setConsole console => exact h.withChip rfl
  | load data =>
    rcases b.step_load data with eq | ⟨s, -, eq⟩
    · rw [eq]; exact h
    · rw [eq]; exact h.withChip rfl
  | loadMachine data =>
    rcases b.step_loadMachine data with eq | ⟨s, -, eq⟩
    · rw [eq]; exact h
    · rw [eq]
      dsimp only
      unfold Machine.restore
      cases s.due with
      | none => exact h.congr rfl rfl fun e mem ↦ .inl (mem_of_mem_cancel mem)
      | some due =>
        refine h.congr rfl rfl fun e mem ↦ ?_
        exact (mem_schedule (.inl rfl) mem).imp_left mem_of_mem_cancel
  | scheduler op => exact h.scheduler op fits

theorem Apart.play (h : Apart n b) (steps : List Step)
    (fits : n + steps.countP Step.registers < UInt64.size) :
    Apart (n + steps.countP Step.registers) (b.play steps) := by
  induction steps generalizing b n with
  | nil => exact h
  | cons step steps ih =>
    have count : n + (step :: steps).countP Step.registers =
        n + step.registers.toNat + steps.countP Step.registers := by
      rw [List.countP_cons]
      cases step.registers with
      | true => rw [if_pos rfl, Bool.toNat_true, Nat.add_assoc, Nat.add_comm 1]
      | false => rw [if_neg Bool.false_ne_true, Bool.toNat_false, Nat.add_zero, Nat.add_zero]
    rw [count] at fits ⊢
    exact ih (h.step step (by omega)) fits

end Board

end ClockChip
