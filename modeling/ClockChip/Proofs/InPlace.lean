import ClockChip.Proofs.Accepting

/-!
# Loading in place

A loader that is handed a machine changes it piece by piece, and when it fails nothing is
taken back.  Written down in this way (`Chip.fill`, `Machine.fill`) the loaders do all their
reading before they change anything, the chip's within the machine's (`AtOnce`), so that
what they leave behind when a stream is refused is the machine as they found it
(`Machine.fill_eq`, `Chip.fillAlone_eq`).
-/

namespace ClockChip

open Savestate

namespace Savestate

/-- A loader that changes what it loads while it reads.  A failure undoes nothing: what has
been changed before it stays changed. -/
abbrev Filling (ε σ : Type) := EStateM ε (σ × Reader)

namespace Filling

variable {ε σ α β : Type}

/-- Reads, and changes nothing but the reader. -/
def look (read : EStateM ε Reader α) : Filling ε σ α := fun (s, r) ↦
  match read r with
  | .ok v r' => .ok v (s, r')
  | .error e r' => .error e (s, r')

/-- Changes what is being loaded. -/
def alter (f : σ → σ) : Filling ε σ Unit := fun (s, r) ↦ .ok () (f s, r)

/-- The loader behaves as one that reads everything first and changes what it loads in one
go at the end. -/
def AtOnce (fill : Filling ε σ Unit) (read : EStateM ε Reader α) (restore : α → σ → σ) : Prop :=
  ∀ s r, fill (s, r) =
    match read r with
    | .ok v r' => .ok () (restore v s, r')
    | .error e r' => .error e (s, r')

/-- To look first does no harm. -/
theorem AtOnce.look_bind {x : EStateM ε Reader α} {f : α → Filling ε σ Unit}
    {g : α → EStateM ε Reader β} {restore : β → σ → σ} (h : ∀ v, AtOnce (f v) (g v) restore) :
    AtOnce (look x >>= f) (x >>= g) restore := by
  intro s r
  cases read : x r with
  | ok v r' =>
    have looked : look x (s, r) = .ok v (s, r') := by rw [look, read]
    rw [Read.bind_of_ok looked, Read.bind_of_ok read]
    exact h v s r'
  | error e r' =>
    have looked : look x (s, r) = .error e (s, r') := by rw [look, read]
    rw [Read.bind_of_error looked, Read.bind_of_error read]

end Filling

end Savestate

namespace Chip

open Filling

/-- Loads the chip's section into a chip, one part after another. -/
def fill : Filling ReadError Chip Unit := do
  look (Read.tag sectionTag)
  let bus ← look Read.word16
  let session ← look Session.readFields
  let registers ← look Registers.readFields
  let oscillator ← look Oscillator.readFields
  alter fun c ↦ { c with bus := bus.toBitVec }
  alter fun c ↦ { c with session }
  alter (install registers)
  alter fun c ↦ { c with oscillator }

theorem atOnce_fill : AtOnce fill Snapshot.readFields restore :=
  .look_bind fun _ ↦ .look_bind fun _ ↦ .look_bind fun _ ↦ .look_bind fun _ ↦
    .look_bind fun _ _ _ ↦ rfl

/-- Loads a stream that holds a chip alone, one part after another. -/
def fillAlone : Filling ReadError Chip Unit := do
  look Read.header
  fill

theorem atOnce_fillAlone : AtOnce fillAlone readAlone restore :=
  .look_bind fun _ ↦ atOnce_fill

end Chip

namespace Machine

open Filling Snapshot

/-- Loads the chip of a machine, and puts a failure down to its section. -/
def fillChip : Filling LoadError Machine Unit := fun (m, r) ↦
  match Chip.fill (m.chip, r) with
  | .ok () (chip, r') => .ok () ({ m with chip }, r')
  | .error e (chip, r') => .error ⟨some .chip, e⟩ ({ m with chip }, r')

/-- Loads a stream into a machine, one part after another. -/
def fill : Filling LoadError Machine Unit := do
  look (within none Read.header)
  look (within (some .scheduler) (Read.tag sectionTag))
  let now ← look (within none Read.word64)
  let due ← look (within none Read.word64)
  fillChip
  alter fun m ↦ { m with scheduler := m.scheduler.cancel m.chip.tickHandle }
  alter fun m ↦ { m with scheduler := m.scheduler.setTime now }
  if due ≠ Scheduler.never then
    alter fun m ↦
      { m with
        scheduler := m.scheduler.add (if now ≤ due then due - now else 0) m.chip.tickHandle }

/-- The scheduler changes after the chip has been loaded, by steps that cannot fail. -/
theorem atOnce_fill : AtOnce fill readFields restore := by
  refine .look_bind fun _ ↦ .look_bind fun _ ↦ .look_bind fun now ↦ .look_bind fun due m r ↦ ?_
  have chip := Chip.atOnce_fill m.chip r
  cases read : Chip.Snapshot.readFields r with
  | error e r' =>
    rw [read] at chip
    have filled : fillChip (m, r) = .error ⟨some .chip, e⟩ (m, r') := by rw [fillChip, chip]
    rw [Read.bind_of_error filled, Read.bind_of_error (within_of_error (some .chip) read)]
  | ok s r' =>
    rw [read] at chip
    have filled : fillChip (m, r) = .ok () ({ m with chip := m.chip.restore s }, r') := by
      rw [fillChip, chip]
    rw [Read.bind_of_ok filled, Read.bind_of_ok (within_of_ok (some .chip) read)]
    by_cases never : due = Scheduler.never
    · rw [if_pos never, if_neg (not_not_intro never)]
      rfl
    · rw [if_neg never, if_pos never]
      rfl

/-- Loading in place comes to the same as loading: what a failure leaves is the machine as
it was. -/
theorem fill_eq (m : Machine) (data : List UInt8) :
    ∃ r, fill (m, { data }) =
      match m.load data with
      | .ok m' => .ok () (m', r)
      | .error e => .error e (m, r) := by
  have once := atOnce_fill m { data }
  rw [load, decode]
  cases read : readFields { data } with
  | ok s r => exact ⟨r, by rw [once, read]; rfl⟩
  | error e r => exact ⟨r, by rw [once, read]; rfl⟩

end Machine

namespace Chip

theorem fillAlone_eq (c : Chip) (data : List UInt8) :
    ∃ r, fillAlone (c, { data }) =
      match c.load data with
      | .ok (c', r') => .ok () (c', r')
      | .error e => .error e (c, r) := by
  have once := atOnce_fillAlone c { data }
  rw [load_eq]
  cases read : readAlone { data } with
  | ok s r => exact ⟨r, by rw [once, read]⟩
  | error e r => exact ⟨r, by rw [once, read]⟩

end Chip

namespace Machine

open Snapshot

/-- A machine takes a stream if it is long enough and has the right bytes in the header and
in the two tags, whatever else it holds, and what is behind the last field does not matter.
A stream that is refused leaves the machine, part by part, as it was, and one that is too
short is refused for the first field that is not all there.  The same goes for a chip that
is loaded alone. -/
theorem load_all_or_nothing (m : Machine) (c : Chip) (data : List UInt8) :
    ((∃ m', m.load data = .ok m') ↔ Snapshot.Loadable data) ∧
      m.load (data.take 95) = m.load data ∧
      (∃ r, fill (m, { data }) =
        match m.load data with
        | .ok m' => .ok () (m', r)
        | .error e => .error e (m, r)) ∧
      (∀ part offset wanted, m.load data = .error ⟨part, .truncated offset wanted⟩ →
        fieldPlaces.find? (fun place ↦ data.length < place.1 + place.2) = some (offset, wanted) ∧
          (LoadError.mk part (.truncated offset wanted)).messages =
            (if 26 ≤ offset then ["RTC section"]
              else if offset = 6 then ["scheduler section"] else []) ++
              [(ReadError.truncated offset wanted).message]) ∧
      ((∃ c' r, c.load data = .ok (c', r)) ↔ Chip.Snapshot.Loadable data) ∧
      ∃ r, Chip.fillAlone (c, { data }) =
        match c.load data with
        | .ok (c', r') => .ok () (c', r')
        | .error e => .error e (c, r) := by
  refine ⟨m.loads_iff data, ?_, m.fill_eq data, fun part offset wanted refused ↦ ?_,
    c.loads_iff data, c.fillAlone_eq data⟩
  · rw [load, load, decode_take]
  · obtain ⟨found, rfl⟩ := truncated_of_decode (load_eq_error_iff.1 refused)
    refine ⟨found, ?_⟩
    unfold partAt LoadError.messages
    split
    · rfl
    · split <;> rfl

/-- A stream that breaks off in the middle of the chip's bus register. -/
theorem load_all_or_nothing_cut :
    let m := ofConfig {}
    let data := m.save.take 31
    ∃ r, fill (m, { data }) = .error ⟨some .chip, .truncated 30 2⟩ (m, r) ∧
      (LoadError.mk (some .chip) (.truncated 30 2)).messages =
        ["RTC section", "savestate truncated at offset 30 (wanted 2 bytes)"] := by
  intro m data
  have found : firstFault? stages data 0 = some (some .chip, .truncated 30 2) := by
    decide +kernel
  have failed : m.load data = .error ⟨some .chip, .truncated 30 2⟩ :=
    load_eq_error_iff.2 (decode_of_fault found)
  obtain ⟨-, -, ⟨r, filled⟩, truncated, -⟩ := load_all_or_nothing m m.chip data
  rw [failed] at filled
  exact ⟨r, filled, (truncated _ _ _ failed).2⟩

end Machine

end ClockChip
