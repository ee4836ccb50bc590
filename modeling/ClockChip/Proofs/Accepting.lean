import ClockChip.Proofs.Stages
import ClockChip.Proofs.Stream

/-!
# Which streams are accepted

The loaders follow the stages of their sections, of which only the header and the two tags
look at what they take.  So a stream is accepted if it is long enough and has the right
bytes at these places, whatever stands everywhere else (`Machine.loads_iff`,
`Chip.loads_iff`), and what is behind the last field has no influence (`decode_take`).  A
stream that is too short is refused for the first field that is not all there
(`truncated_of_decode`).
-/

namespace ClockChip

open Savestate

/-! ## Sections -/

namespace Session

theorem follows_readFields : Follows asIs readFields (widths.map (.any ())) :=
  follows_word8.bind fun _ ↦ follows_word32.bind fun _ ↦ follows_word32.bind fun _ ↦
    (follows_bytes 8).bind fun _ ↦ follows_word32.bind fun _ ↦ follows_word32.bind fun _ ↦
    follows_word8.map

end Session

namespace Registers

theorem follows_readFields : Follows asIs readFields (widths.map (.any ())) :=
  follows_word8.bind fun _ ↦ follows_word8.bind fun _ ↦ (follows_bytes 7).bind fun _ ↦
    (follows_bytes 3).bind fun _ ↦ (follows_bytes 3).bind fun _ ↦ follows_word8.bind fun _ ↦
    follows_word8.bind fun _ ↦ follows_word8.bind fun _ ↦ follows_word8.bind fun _ ↦
    (follows_bytes 3).bind fun _ ↦ (follows_bytes 3).bind fun _ ↦ follows_word32.map

end Registers

theorem Oscillator.follows_readFields : Follows asIs readFields (widths.map (.any ())) :=
  follows_word32.bind fun _ ↦ follows_word32.map

namespace Chip.Snapshot

/-- The stages of the chip's section. -/
def stages : List (Stage Unit) :=
  .exactly () sectionTag (.wrongTag sectionTag) ::
    (2 :: (Session.widths ++ Registers.widths ++ Oscillator.widths)).map (.any ())

/-- What the chip's section has to be. -/
theorem firstFault?_eq_none_iff {data : List UInt8} {offset : Nat} :
    firstFault? stages data offset = none ↔
      offset + 69 ≤ data.length ∧ (data.drop offset).take 4 = sectionTag.toList := by
  have width : totalWidth ((2 :: (Session.widths ++ Registers.widths ++ Oscillator.widths)).map
      (Stage.any ())) = 65 := by rfl
  rw [stages, firstFault?_exactly_eq_none_iff]
  constructor
  · rintro ⟨⟨fits, tag⟩, fine⟩
    have enough := (firstFault?_anys_eq_none_iff () _ fits).1 fine
    rw [width] at enough
    exact ⟨enough, tag⟩
  · rintro ⟨enough, tag⟩
    have fits : offset + 4 ≤ data.length := by omega
    refine ⟨⟨fits, tag⟩, (firstFault?_anys_eq_none_iff () _ fits).2 ?_⟩
    rw [width]
    exact enough

theorem follows_readFields : Follows asIs readFields stages :=
  (follows_tag sectionTag).bind fun _ ↦ follows_word16.bind fun _ ↦
    Session.follows_readFields.bind fun _ ↦ Registers.follows_readFields.bind fun _ ↦
    Oscillator.follows_readFields.map

end Chip.Snapshot

namespace Machine.Snapshot

theorem follows_within {α : Type} {read : Read α} {stages : List (Stage Unit)}
    (part : Option Part) (h : Follows asIs read stages) :
    Follows LoadError.mk (within part read) (stages.map (.relabel part)) where
  reads r fine := by
    rw [firstFault?_relabel, Option.map_eq_none_iff] at fine
    obtain ⟨v, version, reads⟩ := h.reads r fine
    refine ⟨v, version, fun rest ↦ ?_⟩
    rw [within_of_ok part (reads rest), totalWidth_relabel]
  refuses r label e found := by
    rw [firstFault?_relabel] at found
    obtain ⟨⟨_, e⟩, first, eq⟩ := Option.map_eq_some_iff.1 found
    obtain ⟨rfl, rfl⟩ := Prod.mk.inj eq
    obtain ⟨r', failed⟩ := h.refuses r () e first
    exact ⟨r', within_of_error part failed⟩

/-- The stages of a whole stream, with the section to which a failure is put down. -/
def stages : List (Stage (Option Part)) :=
  headerStages.map (.relabel none) ++
    .exactly (some .scheduler) sectionTag (.wrongTag sectionTag) :: .any none 8 :: .any none 8 ::
    Chip.Snapshot.stages.map (.relabel (some .chip))

/-- What a whole stream has to be. -/
theorem firstFault?_eq_none_iff {data : List UInt8} :
    firstFault? stages data 0 = none ↔
      95 ≤ data.length ∧ data.take 4 = magic.toList ∧ (data.drop 4).take 2 = [1, 0] ∧
        (data.drop 6).take 4 = sectionTag.toList ∧
        (data.drop 26).take 4 = Chip.sectionTag.toList := by
  have offset : 0 + totalWidth (headerStages.map (.relabel (none : Option Part))) = 6 := rfl
  rw [stages, firstFault?_append, offset, Option.or_eq_none_iff, firstFault?_relabel,
    Option.map_eq_none_iff, firstFault?_header_eq_none_iff, firstFault?_exactly_eq_none_iff,
    firstFault?_any_eq_none_iff, firstFault?_any_eq_none_iff, firstFault?_relabel,
    Option.map_eq_none_iff, Chip.Snapshot.firstFault?_eq_none_iff]
  constructor
  · rintro ⟨⟨_, magic, version⟩, ⟨_, scheduler⟩, _, _, enough, chip⟩
    exact ⟨enough, magic, version, scheduler, chip⟩
  · rintro ⟨enough, magic, version, scheduler, chip⟩
    refine ⟨⟨?_, magic, version⟩, ⟨?_, scheduler⟩, ?_, ?_, enough, chip⟩
    all_goals omega

theorem follows_readFields : Follows LoadError.mk readFields stages :=
  (follows_within none follows_header).bind fun _ ↦
    (follows_within (some .scheduler) (follows_tag sectionTag)).bind fun _ ↦
    (follows_within none follows_word64).bind fun _ ↦
    (follows_within none follows_word64).bind fun _ ↦
    (follows_within (some .chip) Chip.Snapshot.follows_readFields).map

/-- A stream in which no stage has a fault is read, and its tail does not matter. -/
theorem decode_of_fine {data : List UInt8} (fine : firstFault? stages data 0 = none) :
    ∃ s, ∀ rest, decode (data ++ rest) = .ok s := by
  obtain ⟨s, version, reads⟩ := follows_readFields.reads { data } fine
  refine ⟨s, fun rest ↦ ?_⟩
  rw [decode, reads rest]

/-- A stream with a fault is refused for the first one. -/
theorem decode_of_fault {data : List UInt8} {part : Option Part} {e : ReadError}
    (found : firstFault? stages data 0 = some (part, e)) : decode data = .error ⟨part, e⟩ := by
  obtain ⟨r', failed⟩ := follows_readFields.refuses { data } part e found
  rw [decode, failed]

theorem decode_eq_error_iff {data : List UInt8} {e : LoadError} :
    decode data = .error e ↔ firstFault? stages data 0 = some (e.part, e.cause) := by
  constructor
  · intro failed
    cases first : firstFault? stages data 0 with
    | none =>
      obtain ⟨s, ok⟩ := decode_of_fine first
      rw [← List.append_nil data, ok] at failed
      cases failed
    | some fault =>
      rw [decode_of_fault first] at failed
      obtain rfl := Except.error.inj failed
      rfl
  · exact decode_of_fault

/-- Nothing behind the last field has any influence. -/
theorem decode_take (data : List UInt8) : decode (data.take 95) = decode data := by
  rcases Nat.lt_or_ge data.length 95 with short | enough
  · rw [List.take_of_length_le (Nat.le_of_lt short)]
  · have taken : (data.take 95).length = 95 := List.length_take_of_le enough
    have fits : 0 + totalWidth stages ≤ (data.take 95).length := Nat.le_of_eq taken.symm
    have same := firstFault?_append_data fits (data.drop 95)
    rw [List.take_append_drop] at same
    cases first : firstFault? stages (data.take 95) 0 with
    | none =>
      obtain ⟨s, ok⟩ := decode_of_fine first
      have alone := ok []
      have whole := ok (data.drop 95)
      rw [List.append_nil] at alone
      rw [List.take_append_drop] at whole
      rw [alone, whole]
    | some fault => rw [decode_of_fault first, decode_of_fault (same.trans first)]

/-- Where each of some fields begins and how many bytes it takes. -/
def placesFrom : Nat → List Nat → List (Nat × Nat)
  | _, [] => []
  | offset, width :: widths => (offset, width) :: placesFrom (offset + width) widths

/-- The fields of a stream, the magic and the version first. -/
def fieldPlaces : List (Nat × Nat) := placesFrom 0 (4 :: 2 :: widths)

/-- The part of a stream to which it is put down that the field at an offset is missing. -/
def partAt (offset : Nat) : Option Part :=
  if 26 ≤ offset then some .chip else if offset = 6 then some .scheduler else none

theorem places_stages :
    places stages 0 = fieldPlaces.map fun place ↦ (place.1, place.2, partAt place.1) := by
  decide

/-- When a stream is too short, the first field that goes beyond it is complained of. -/
theorem truncated_of_decode {data : List UInt8} {part : Option Part} {offset wanted : Nat}
    (failed : decode data = .error ⟨part, .truncated offset wanted⟩) :
    fieldPlaces.find? (fun place ↦ data.length < place.1 + place.2) = some (offset, wanted) ∧
      part = partAt offset := by
  have found := find?_places_of_truncated (decode_eq_error_iff.1 failed)
  rw [places_stages, List.find?_map, Option.map_eq_some_iff] at found
  obtain ⟨⟨offset', wanted'⟩, found, eq⟩ := found
  obtain ⟨rfl, rfl, rfl⟩ : offset' = offset ∧ wanted' = wanted ∧ partAt offset' = part := by
    simpa only [Prod.mk.injEq] using eq
  exact ⟨found, rfl⟩

end Machine.Snapshot

/-! ## Loading -/

namespace Machine

open Snapshot

/-- What a stream has to be for a machine to take it. -/
structure Snapshot.Loadable (data : List UInt8) : Prop where
  length : 95 ≤ data.length
  magic : data.take 4 = Savestate.magic.toList
  version : (data.drop 4).take 2 = [1, 0]
  scheduler : (data.drop 6).take 4 = sectionTag.toList
  chip : (data.drop 26).take 4 = Chip.sectionTag.toList

theorem loads_iff (m : Machine) (data : List UInt8) :
    (∃ m', m.load data = .ok m') ↔ Snapshot.Loadable data := by
  have agree : firstFault? stages data 0 = none ↔ Loadable data := by
    rw [firstFault?_eq_none_iff]
    constructor
    · rintro ⟨length, magic, version, scheduler, chip⟩
      exact ⟨length, magic, version, scheduler, chip⟩
    · rintro ⟨length, magic, version, scheduler, chip⟩
      exact ⟨length, magic, version, scheduler, chip⟩
  rw [← agree, ← follows_readFields.ok_iff { data }, load, decode]
  cases readFields { data } with
  | ok s r => exact ⟨fun _ ↦ ⟨s, r, rfl⟩, fun _ ↦ ⟨m.restore s, rfl⟩⟩
  | error e r =>
    constructor
    · rintro ⟨m', loaded⟩
      cases loaded
    · rintro ⟨s, r', found⟩
      cases found

end Machine

namespace Chip

/-- Reads a stream that holds a chip alone. -/
def readAlone : Read Snapshot := do
  Read.header
  Snapshot.readFields

theorem load_eq (data : List UInt8) (c : Chip) :
    c.load data =
      match readAlone { data } with
      | .ok s r => .ok (c.restore s, r)
      | .error e _ => .error e := by
  cases header : Read.header { data } with
  | error e r =>
    have failed : readAlone { data } = .error e r := Read.bind_of_error header
    rw [failed, load, Reader.ofBytes, header]
    rfl
  | ok u r =>
    have read : readAlone { data } = Snapshot.readFields r := Read.bind_of_ok header
    rw [read, load, Reader.ofBytes, header]
    change (match Snapshot.readFields r with | .ok s r => _ | .error e _ => _) = _
    cases Snapshot.readFields r with
    | ok s r => rfl
    | error e r => rfl

theorem follows_readAlone : Follows asIs readAlone (headerStages ++ Snapshot.stages) :=
  follows_header.bind fun _ ↦ Snapshot.follows_readFields

/-- What a stream has to be for a chip alone to take it. -/
structure Snapshot.Loadable (data : List UInt8) : Prop where
  length : 75 ≤ data.length
  magic : data.take 4 = Savestate.magic.toList
  version : (data.drop 4).take 2 = [1, 0]
  chip : (data.drop 6).take 4 = sectionTag.toList

theorem loads_iff (c : Chip) (data : List UInt8) :
    (∃ c' r, c.load data = .ok (c', r)) ↔ Snapshot.Loadable data := by
  have agree : firstFault? (headerStages ++ Snapshot.stages) data 0 = none ↔
      Snapshot.Loadable data := by
    have offset : 0 + totalWidth headerStages = 6 := rfl
    rw [firstFault?_append, Option.or_eq_none_iff, firstFault?_header_eq_none_iff, offset,
      Snapshot.firstFault?_eq_none_iff]
    constructor
    · rintro ⟨⟨_, magic, version⟩, length, chip⟩
      exact ⟨length, magic, version, chip⟩
    · rintro ⟨length, magic, version, chip⟩
      exact ⟨⟨by omega, magic, version⟩, length, chip⟩
  rw [← agree, ← follows_readAlone.ok_iff { data }, load_eq]
  cases readAlone { data } with
  | ok s r => exact ⟨fun _ ↦ ⟨s, r, rfl⟩, fun _ ↦ ⟨c.restore s, r, rfl⟩⟩
  | error e r =>
    constructor
    · rintro ⟨c', r', loaded⟩
      cases loaded
    · rintro ⟨s, r', found⟩
      cases found

end Chip

end ClockChip
