import ClockChip.Chip.Snapshot
import ClockChip.Machine.Basic

/-!
# Saving and loading the machine

A saved machine is a stream of two sections: the time with the due time of the
next tick, and the chip.  The due time of a tick that is not scheduled is written
as the latest time there is.  A stream that cannot be read leaves the machine as
it was, and the failure says in which section it was met.
-/

namespace ClockChip

namespace Machine

/-! ## Failures -/

/-- The part of the stream to which a failure is put down. -/
inductive Part where
  | scheduler
  | chip
deriving DecidableEq, Repr

namespace Part

/-- The part's name in a message. -/
def name : Part → String
  | scheduler => "scheduler section"
  | chip => "RTC section"

end Part

/-- Why a stream is refused. -/
structure LoadError where
  /-- The section in which the failure was met, if it says so. -/
  part : Option Part
  cause : Savestate.ReadError
deriving DecidableEq, Repr

namespace LoadError

/-- The texts of a failure, what failed before why. -/
def messages (e : LoadError) : List String :=
  e.part.toList.map Part.name ++ [e.cause.message]

end LoadError

/-! ## Snapshots -/

/-- What a stream holds of a machine. -/
structure Snapshot where
  now : UInt64
  /-- When the next tick is due. -/
  due : Option UInt64
  chip : Chip.Snapshot
deriving DecidableEq, Repr

/-- The tag of the scheduler's section: `SCHD`. -/
def sectionTag : Savestate.Tag := #v[0x53, 0x43, 0x48, 0x44]

/-- What is worth keeping of a machine. -/
def snapshot (m : Machine) : Snapshot where
  now := m.scheduler.now
  due := m.scheduler.find? m.chip.tickHandle
  chip := m.chip.snapshot

/-- Puts a snapshot back into a machine.  The tick that it schedules is one of
the machine's own registration, and is not due before the present. -/
def restore (s : Snapshot) (m : Machine) : Machine :=
  let scheduler := (m.scheduler.cancel m.chip.tickHandle).setTime s.now
  { m with
    chip := m.chip.restore s.chip
    scheduler := match s.due with
      | none => scheduler
      | some due =>
        scheduler.add (if s.now ≤ due then due - s.now else 0) m.chip.tickHandle }

namespace Snapshot

/-- The fields of a stream. -/
def fields (s : Snapshot) : List Savestate.Field :=
  .tag sectionTag :: .word64 s.now :: .word64 (s.due.getD Scheduler.never) :: s.chip.fields

/-- A read whose failure is put down to a part of the stream. -/
def within {α : Type} (part : Option Part) (read : Savestate.Read α) :
    EStateM LoadError Savestate.Reader α :=
  EStateM.adaptExcept (LoadError.mk part) read

open Savestate in
theorem within_of_ok {α : Type} {read : Read α} {r r' : Reader} {v : α} (part : Option Part)
    (h : read r = .ok v r') : within part read r = .ok v r' := by
  rw [within, EStateM.adaptExcept, h]

open Savestate in
theorem within_of_error {α : Type} {read : Read α} {r r' : Reader} {e : ReadError}
    (part : Option Part) (h : read r = .error e r') :
    within part read r = .error ⟨part, e⟩ r' := by
  rw [within, EStateM.adaptExcept, h]

open Savestate in
/-- Reads a stream from its header on. -/
def readFields : EStateM LoadError Savestate.Reader Snapshot := do
  within none Read.header
  within (some .scheduler) (Read.tag sectionTag)
  let now ← within none Read.word64
  let due ← within none Read.word64
  let chip ← within (some .chip) Chip.Snapshot.readFields
  return { now, due := if due = Scheduler.never then none else some due, chip }

/-- The snapshot in a byte string; what follows it does not matter. -/
def decode (data : List UInt8) : Except LoadError Snapshot :=
  match readFields { data } with
  | .ok s _ => .ok s
  | .error e _ => .error e

end Snapshot

/-! ## Streams -/

/-- The machine as a byte string. -/
def save (m : Machine) : List UInt8 := Savestate.encode m.snapshot.fields

/-- The machine with the state in a byte string. -/
def load (data : List UInt8) (m : Machine) : Except LoadError Machine :=
  (Snapshot.decode data).map fun s => m.restore s

/-- A stream is accepted only by restoring what it holds. -/
theorem load_eq_ok_iff {data : List UInt8} {m m' : Machine} :
    m.load data = .ok m' ↔ ∃ s, Snapshot.decode data = .ok s ∧ m' = m.restore s := by
  unfold load
  cases Snapshot.decode data with
  | error e =>
    constructor
    · rintro ⟨⟩
    · rintro ⟨_, ⟨⟩, _⟩
  | ok s =>
    constructor
    · rintro ⟨⟩
      exact ⟨s, rfl, rfl⟩
    · rintro ⟨_, ⟨⟩, rfl⟩
      rfl

/-- Whether a stream is refused, and why, is a matter of the stream. -/
theorem load_eq_error_iff {data : List UInt8} {m : Machine} {e : LoadError} :
    m.load data = .error e ↔ Snapshot.decode data = .error e := by
  unfold load
  cases Snapshot.decode data with
  | error e' =>
    constructor
    · intro refused
      exact congrArg Except.error (Except.error.inj refused)
    · intro failed
      exact congrArg Except.error (Except.error.inj failed)
  | ok s =>
    constructor
    · rintro ⟨⟩
    · rintro ⟨⟩

/-- The record that a load leaves when it succeeds. -/
def loadNotice : Notice := .stateLoaded Savestate.version

end Machine

end ClockChip
