import ClockChip.Savestate.Reader

/-!
# Stages of a reader

A reader of a stream is some thirty reads in a row, and each of them can end it.  What it
does is said of the list of its stages: a stage takes a number of bytes, and it may find
them wrong.  A read follows such a list (`Follows`) when it succeeds exactly where no stage
of the list has a fault, and otherwise fails with the fault that comes first
(`firstFault?`); reads in a row follow their stages in a row (`Follows.bind`).

What the faults are is a question about lists and numbers: stages that take any bytes need
only have them, and a stage that looks at what it takes needs these bytes at its place.
-/

namespace ClockChip.Savestate

/-! ## Stages -/

/-- A step of a reader: so many bytes, which may turn out to be wrong. -/
structure Stage (ι : Type) where
  label : ι
  width : Nat
  wrong? : Vector UInt8 width → Option ReadError := fun _ ↦ none
  /-- Bytes that are there are not missing. -/
  present : ∀ bs offset wanted, wrong? bs ≠ some (.truncated offset wanted) := by nofun

variable {ι κ ε α β : Type}

namespace Stage

/-- A stage that takes any bytes. -/
def any (label : ι) (width : Nat) : Stage ι := { label, width }

/-- A stage that takes these bytes and complains of all others. -/
def exactly (label : ι) {n : Nat} (t : Vector UInt8 n) (complaint : Vector UInt8 n → ReadError)
    (present : ∀ found offset wanted, complaint found ≠ .truncated offset wanted := by nofun) :
    Stage ι where
  label
  width := n
  wrong? found := if found = t then none else some (complaint found)
  present := by
    intro found offset wanted
    split
    · nofun
    · exact mt Option.some.inj (present found offset wanted)

/-- The stage under another label. -/
def relabel (label : κ) (s : Stage ι) : Stage κ := { s with label }

/-- What is wrong with a stream at the place of a stage, if anything is. -/
def fault? (s : Stage ι) (data : List UInt8) (offset : Nat) : Option ReadError :=
  if h : offset + s.width ≤ data.length then s.wrong? (Reader.next { data, offset } s.width h)
  else some (.truncated offset s.width)

theorem fault?_of_fits {s : Stage ι} {data : List UInt8} {offset : Nat}
    (h : offset + s.width ≤ data.length) :
    s.fault? data offset = s.wrong? (Reader.next { data, offset } s.width h) :=
  dif_pos h

theorem fault?_of_missing {s : Stage ι} {data : List UInt8} {offset : Nat}
    (h : data.length < offset + s.width) :
    s.fault? data offset = some (.truncated offset s.width) :=
  dif_neg (Nat.not_le.2 h)

end Stage

/-- The bytes that some stages take. -/
def totalWidth : List (Stage ι) → Nat
  | [] => 0
  | s :: stages => s.width + totalWidth stages

/-- The first fault that some stages find, with the label of the stage that finds it. -/
def firstFault? : List (Stage ι) → List UInt8 → Nat → Option (ι × ReadError)
  | [], _, _ => none
  | s :: stages, data, offset =>
    match s.fault? data offset with
    | some e => some (s.label, e)
    | none => firstFault? stages data (offset + s.width)

theorem firstFault?_cons_eq_none_iff {s : Stage ι} {stages : List (Stage ι)} {data : List UInt8}
    {offset : Nat} :
    firstFault? (s :: stages) data offset = none ↔
      s.fault? data offset = none ∧ firstFault? stages data (offset + s.width) = none := by
  rw [firstFault?]
  cases s.fault? data offset with
  | some e => exact ⟨nofun, nofun⟩
  | none => exact ⟨fun fine ↦ ⟨rfl, fine⟩, And.right⟩

theorem totalWidth_append (stages stages' : List (Stage ι)) :
    totalWidth (stages ++ stages') = totalWidth stages + totalWidth stages' := by
  induction stages with
  | nil => rw [List.nil_append, totalWidth, Nat.zero_add]
  | cons s stages ih => rw [List.cons_append, totalWidth, totalWidth, ih, Nat.add_assoc]

theorem firstFault?_append (stages stages' : List (Stage ι)) (data : List UInt8) (offset : Nat) :
    firstFault? (stages ++ stages') data offset =
      (firstFault? stages data offset).or
        (firstFault? stages' data (offset + totalWidth stages)) := by
  induction stages generalizing offset with
  | nil => rfl
  | cons s stages ih =>
    rw [List.cons_append, firstFault?, firstFault?]
    cases s.fault? data offset with
    | some e => rfl
    | none =>
      have width : offset + s.width + totalWidth stages = offset + totalWidth (s :: stages) :=
        Nat.add_assoc _ _ _
      dsimp only
      rw [ih, width]

/-- Labels only say where a fault was found. -/
theorem firstFault?_relabel (label : κ) (stages : List (Stage ι)) (data : List UInt8)
    (offset : Nat) :
    firstFault? (stages.map (Stage.relabel label)) data offset =
      (firstFault? stages data offset).map fun fault ↦ (label, fault.2) := by
  induction stages generalizing offset with
  | nil => rfl
  | cons s stages ih =>
    have same : (s.relabel label).fault? data offset = s.fault? data offset := rfl
    rw [List.map_cons, firstFault?, firstFault?, same]
    cases s.fault? data offset with
    | some e => rfl
    | none => exact ih (offset + s.width)

theorem totalWidth_relabel (label : κ) (stages : List (Stage ι)) :
    totalWidth (stages.map (Stage.relabel label)) = totalWidth stages := by
  induction stages with
  | nil => rfl
  | cons s stages ih => exact congrArg (s.width + ·) ih

/-! ## Reads that follow stages -/

/-- A read that takes what these stages take and finds what they find.  What it makes of
the bytes does not depend on what comes behind them. -/
structure Follows (report : ι → ReadError → ε) (read : EStateM ε Reader α)
    (stages : List (Stage ι)) : Prop where
  reads : ∀ r : Reader, firstFault? stages r.data r.offset = none → ∃ v version, ∀ rest,
    read { r with data := r.data ++ rest } =
      .ok v ⟨r.data ++ rest, r.offset + totalWidth stages, version⟩
  refuses : ∀ (r : Reader) label e, firstFault? stages r.data r.offset = some (label, e) →
    ∃ r', read r = .error (report label e) r'

variable {report : ι → ReadError → ε} {stages stages' : List (Stage ι)}

theorem Follows.read {read : EStateM ε Reader α} (h : Follows report read stages) {r : Reader}
    (fine : firstFault? stages r.data r.offset = none) :
    ∃ v version, read r = .ok v ⟨r.data, r.offset + totalWidth stages, version⟩ := by
  obtain ⟨v, version, reads⟩ := h.reads r fine
  have alone := reads []
  rw [List.append_nil] at alone
  exact ⟨v, version, alone⟩

/-- A read that follows stages succeeds exactly where they find no fault. -/
theorem Follows.ok_iff {read : EStateM ε Reader α} (h : Follows report read stages) (r : Reader) :
    (∃ v r', read r = .ok v r') ↔ firstFault? stages r.data r.offset = none := by
  constructor
  · rintro ⟨v, r', ok⟩
    cases first : firstFault? stages r.data r.offset with
    | none => rfl
    | some fault =>
      obtain ⟨r'', failed⟩ := h.refuses r _ _ first
      cases ok.symm.trans failed
  · intro fine
    obtain ⟨v, version, ok⟩ := h.read fine
    exact ⟨v, _, ok⟩

theorem Follows.pure (v : α) : Follows report (Pure.pure v) [] where
  reads r _ := ⟨v, r.version, fun _ ↦ rfl⟩
  refuses _ _ _ := nofun

theorem Follows.bind {x : EStateM ε Reader α} {f : α → EStateM ε Reader β}
    (hx : Follows report x stages) (hf : ∀ a, Follows report (f a) stages') :
    Follows report (x >>= f) (stages ++ stages') where
  reads r fine := by
    rw [firstFault?_append, Option.or_eq_none_iff] at fine
    obtain ⟨a, version, first⟩ := hx.reads r fine.1
    obtain ⟨v, version', second⟩ :=
      (hf a).reads ⟨r.data, r.offset + totalWidth stages, version⟩ fine.2
    refine ⟨v, version', fun rest ↦ ?_⟩
    rw [Read.bind_of_ok (first rest), second rest, totalWidth_append, Nat.add_assoc]
  refuses r label e found := by
    rw [firstFault?_append] at found
    cases first : firstFault? stages r.data r.offset with
    | some fault =>
      rw [first] at found
      obtain rfl := Option.some.inj found
      obtain ⟨r', failed⟩ := hx.refuses r label e first
      exact ⟨r', Read.bind_of_error failed⟩
    | none =>
      rw [first] at found
      obtain ⟨a, version, ok⟩ := hx.read first
      obtain ⟨r', failed⟩ := (hf a).refuses ⟨r.data, _, version⟩ label e found
      exact ⟨r', (Read.bind_of_ok ok).trans failed⟩

theorem Follows.map {x : EStateM ε Reader α} {f : α → β} (hx : Follows report x stages) :
    Follows report (x >>= fun a ↦ Pure.pure (f a)) stages := by
  have both := hx.bind fun a ↦ .pure (f a)
  rwa [List.append_nil] at both

/-- The report of a plain read: its failures are as they are. -/
abbrev asIs : Unit → ReadError → ReadError := fun _ e ↦ e

/-- What is there is not changed by what comes behind it. -/
theorem Reader.next_append {r : Reader} {n : Nat} (fits : r.offset + n ≤ r.data.length)
    {rest : List UInt8} (fits' : r.offset + n ≤ (r.data ++ rest).length) :
    Reader.next { r with data := r.data ++ rest } n fits' = r.next n fits := by
  apply Vector.toArray_inj.1
  apply Array.toList_inj.1
  change ((r.data ++ rest).drop r.offset).take n = (r.data.drop r.offset).take n
  rw [List.drop_append_of_le_length (Nat.le_of_add_right_le fits),
    List.take_append_of_le_length (by rw [List.length_drop]; omega)]

/-- A read that takes bytes and goes on with them, unless they are wrong. -/
theorem Follows.checked {n : Nat} (wrong? : Vector UInt8 n → Option ReadError)
    (present : ∀ bs offset wanted, wrong? bs ≠ some (.truncated offset wanted))
    {f : Vector UInt8 n → Read β} {stages : List (Stage Unit)}
    (goesOn : ∀ bs, wrong? bs = none → Follows asIs (f bs) stages)
    (stops : ∀ bs e, wrong? bs = some e → ∀ r, ∃ r', f bs r = .error e r') :
    Follows asIs (Read.bytes n >>= f) ({ label := (), width := n, wrong?, present } :: stages) := by
  have bound {r : Reader} (fits : r.offset + n ≤ r.data.length) :
      (Read.bytes n >>= f) r = f (r.next n fits) (r.skip n) :=
    Read.bind_of_ok (Read.bytes_of_le fits)
  constructor
  · intro r fine
    rcases Nat.lt_or_ge r.data.length (r.offset + n) with missing | fits
    · rw [firstFault?, Stage.fault?_of_missing missing] at fine
      cases fine
    · rw [firstFault?, Stage.fault?_of_fits fits] at fine
      dsimp only at fine
      cases right : wrong? (Reader.next { data := r.data, offset := r.offset } n fits) with
      | some e => rw [right] at fine; cases fine
      | none =>
        rw [right] at fine
        obtain ⟨v, version, reads⟩ := (goesOn _ right).reads (r.skip n) fine
        refine ⟨v, version, fun rest ↦ ?_⟩
        have fits' : r.offset + n ≤ (r.data ++ rest).length := by
          rw [List.length_append]
          exact Nat.le_trans fits (Nat.le_add_right _ _)
        rw [bound fits', Reader.next_append fits]
        exact (reads rest).trans (by rw [totalWidth, Reader.skip, Nat.add_assoc])
  · intro r label e found
    rcases Nat.lt_or_ge r.data.length (r.offset + n) with missing | fits
    · rw [firstFault?, Stage.fault?_of_missing missing] at found
      obtain ⟨-, rfl⟩ := Prod.mk.inj (Option.some.inj found)
      exact ⟨r, Read.bind_of_error (Read.bytes_of_lt missing)⟩
    · rw [firstFault?, Stage.fault?_of_fits fits] at found
      dsimp only at found
      rw [bound fits]
      cases right : wrong? (Reader.next { data := r.data, offset := r.offset } n fits) with
      | some e' =>
        rw [right] at found
        obtain ⟨-, rfl⟩ := Prod.mk.inj (Option.some.inj found)
        exact stops _ _ right _
      | none =>
        rw [right] at found
        exact (goesOn _ right).refuses (r.skip n) label e found

/-- A read that goes on with the expected bytes only. -/
theorem Follows.exactly {n : Nat} {t : Vector UInt8 n} {complaint : Vector UInt8 n → ReadError}
    {present : ∀ found offset wanted, complaint found ≠ .truncated offset wanted}
    {f : Vector UInt8 n → Read β} {stages : List (Stage Unit)}
    (goesOn : Follows asIs (f t) stages)
    (stops : ∀ found, found ≠ t → ∀ r, ∃ r', f found r = .error (complaint found) r') :
    Follows asIs (Read.bytes n >>= f) (.exactly () t complaint present :: stages) := by
  refine .checked _ _ (fun found right ↦ ?_) fun found e wrong r ↦ ?_
  · split at right
    · next same =>
      rw [same]
      exact goesOn
    · cases right
  · split at wrong
    · cases wrong
    · next other =>
      obtain rfl := Option.some.inj wrong
      exact stops found other r

/-! ## Where the faults are -/

/-- What the stages take decides; what comes behind it does not matter. -/
theorem firstFault?_append_data {stages : List (Stage ι)} {data : List UInt8} {offset : Nat}
    (enough : offset + totalWidth stages ≤ data.length) (rest : List UInt8) :
    firstFault? stages (data ++ rest) offset = firstFault? stages data offset := by
  induction stages generalizing offset with
  | nil => rfl
  | cons s stages ih =>
    rw [totalWidth, ← Nat.add_assoc] at enough
    have fits : offset + s.width ≤ data.length := Nat.le_of_add_right_le enough
    have fits' : offset + s.width ≤ (data ++ rest).length := by
      rw [List.length_append]
      exact Nat.le_trans fits (Nat.le_add_right _ _)
    have same : s.fault? (data ++ rest) offset = s.fault? data offset := by
      rw [Stage.fault?_of_fits fits, Stage.fault?_of_fits fits']
      exact congrArg s.wrong? (Reader.next_append (r := { data, offset }) fits fits')
    rw [firstFault?, firstFault?, same, ih enough]

theorem Reader.next_eq_iff {r : Reader} {n : Nat} (fits : r.offset + n ≤ r.data.length)
    {bs : Vector UInt8 n} :
    r.next n fits = bs ↔ (r.data.drop r.offset).take n = bs.toList := by
  rw [← Vector.toArray_inj, ← Array.toList_inj]
  rfl

theorem Stage.fault?_eq_none_iff {s : Stage ι} {data : List UInt8} {offset : Nat} :
    s.fault? data offset = none ↔
      ∃ h : offset + s.width ≤ data.length,
        s.wrong? (Reader.next { data, offset } s.width h) = none := by
  rcases Nat.lt_or_ge data.length (offset + s.width) with missing | fits
  · rw [fault?_of_missing missing]
    exact ⟨nofun, fun ⟨fits, _⟩ ↦ absurd fits (Nat.not_le.2 missing)⟩
  · rw [fault?_of_fits fits]
    exact ⟨fun right ↦ ⟨fits, right⟩, fun ⟨_, right⟩ ↦ right⟩

theorem firstFault?_exactly_eq_none_iff {label : ι} {n : Nat} {t : Vector UInt8 n}
    {complaint : Vector UInt8 n → ReadError}
    {present : ∀ found offset wanted, complaint found ≠ .truncated offset wanted}
    {stages : List (Stage ι)} {data : List UInt8} {offset : Nat} :
    firstFault? (.exactly label t complaint present :: stages) data offset = none ↔
      (offset + n ≤ data.length ∧ (data.drop offset).take n = t.toList) ∧
        firstFault? stages data (offset + n) = none := by
  rw [firstFault?_cons_eq_none_iff, Stage.fault?_eq_none_iff]
  refine and_congr_left fun _ ↦ ⟨?_, ?_⟩
  · rintro ⟨fits, right⟩
    refine ⟨fits, (Reader.next_eq_iff (r := { data, offset }) fits).1 ?_⟩
    by_cases same : Reader.next { data, offset } n fits = t
    · exact same
    · exact absurd ((if_neg same).symm.trans right) nofun
  · rintro ⟨fits, same⟩
    exact ⟨fits, if_pos ((Reader.next_eq_iff (r := { data, offset }) fits).2 same)⟩

theorem firstFault?_any_eq_none_iff {label : ι} {n : Nat} {stages : List (Stage ι)}
    {data : List UInt8} {offset : Nat} :
    firstFault? (.any label n :: stages) data offset = none ↔
      offset + n ≤ data.length ∧ firstFault? stages data (offset + n) = none := by
  rw [firstFault?_cons_eq_none_iff, Stage.fault?_eq_none_iff]
  exact and_congr_left fun _ ↦ ⟨fun ⟨fits, _⟩ ↦ fits, fun fits ↦ ⟨fits, rfl⟩⟩

/-- Stages that take any bytes need only have them. -/
theorem firstFault?_anys_eq_none_iff (label : ι) (widths : List Nat) {data : List UInt8}
    {offset : Nat} (le : offset ≤ data.length) :
    firstFault? (widths.map (.any label)) data offset = none ↔
      offset + totalWidth (widths.map (Stage.any label)) ≤ data.length := by
  induction widths generalizing offset with
  | nil => exact ⟨fun _ ↦ le, fun _ ↦ rfl⟩
  | cons w widths ih =>
    rw [List.map_cons, firstFault?_any_eq_none_iff, totalWidth, ← Nat.add_assoc]
    constructor
    · rintro ⟨fits, fine⟩
      exact (ih fits).1 fine
    · intro le
      have fits : offset + w ≤ data.length := Nat.le_of_add_right_le le
      exact ⟨fits, (ih fits).2 le⟩

/-- Where each of some stages begins, how many bytes it takes and what it is labelled. -/
def places : List (Stage ι) → Nat → List (Nat × Nat × ι)
  | [], _ => []
  | s :: stages, offset => (offset, s.width, s.label) :: places stages (offset + s.width)

/-- A fault that is the end of the stream is that of the first stage which goes beyond it. -/
theorem find?_places_of_truncated {stages : List (Stage ι)} {data : List UInt8}
    {start offset wanted : Nat} {label : ι}
    (found : firstFault? stages data start = some (label, .truncated offset wanted)) :
    (places stages start).find? (fun p ↦ data.length < p.1 + p.2.1) =
      some (offset, wanted, label) := by
  induction stages generalizing start with
  | nil => cases found
  | cons s stages ih =>
    rw [firstFault?] at found
    rw [places, List.find?_cons]
    rcases Nat.lt_or_ge data.length (start + s.width) with missing | fits
    · rw [Stage.fault?_of_missing missing] at found
      obtain ⟨rfl, eq⟩ := Prod.mk.inj (Option.some.inj found)
      obtain ⟨rfl, rfl⟩ := ReadError.truncated.inj eq
      rw [decide_eq_true missing]
    · rw [Stage.fault?_of_fits fits] at found
      rw [decide_eq_false (Nat.not_lt.2 fits)]
      cases right : s.wrong? (Reader.next { data, offset := start } s.width fits) with
      | none =>
        rw [right] at found
        exact ih found
      | some e =>
        rw [right] at found
        obtain ⟨-, rfl⟩ := Prod.mk.inj (Option.some.inj found)
        exact absurd right (s.present _ _ _)

/-! ## Fields -/

theorem follows_bytes (n : Nat) : Follows asIs (Read.bytes n) [.any () n] := by
  have bound := Follows.checked (n := n) (f := Pure.pure) (fun _ ↦ none) nofun
    (fun bs _ ↦ .pure bs) nofun
  rwa [bind_pure] at bound

theorem follows_number (n : Nat) : Follows asIs (Read.number n) [.any () n] :=
  (follows_bytes n).map

theorem follows_word8 : Follows asIs Read.word8 [.any () 1] := (follows_number 1).map

theorem follows_word16 : Follows asIs Read.word16 [.any () 2] := (follows_number 2).map

theorem follows_word32 : Follows asIs Read.word32 [.any () 4] := (follows_number 4).map

theorem follows_word64 : Follows asIs Read.word64 [.any () 8] := (follows_number 8).map

theorem follows_tag (t : Tag) : Follows asIs (Read.tag t) [.exactly () t (.wrongTag t)] := by
  refine .exactly ?_ fun found other r ↦ ⟨r, ?_⟩
  · rw [if_pos rfl]
    exact .pure ()
  · rw [if_neg other]
    rfl

/-! ## The header -/

/-- The one version that is known, as a stream has it. -/
theorem version_known_iff (bs : Vector UInt8 2) :
    ¬(UInt16.ofNat (LittleEndian.decode bs.toList) = 0 ∨
        UInt16.ofNat (LittleEndian.decode bs.toList) > version) ↔ bs = #v[1, 0] := by
  obtain ⟨⟨bytes⟩, length⟩ := bs
  obtain ⟨low, high, rfl⟩ : ∃ low high, bytes = [low, high] := by
    match bytes, length with
    | [low, high], _ => exact ⟨low, high, rfl⟩
  have low_lt := low.toNat_lt
  have high_lt := high.toNat_lt
  have value : (UInt16.ofNat (LittleEndian.decode [low, high])).toNat =
      low.toNat + 256 * high.toNat := by
    rw [UInt16.toNat_ofNat', LittleEndian.decode, LittleEndian.decode, LittleEndian.decode]
    omega
  constructor
  · intro known
    obtain ⟨pos, le⟩ := not_or.1 known
    have pos' := mt UInt16.toNat_inj.1 pos
    have le' := UInt16.le_iff_toNat_le.1 (UInt16.not_lt.1 le)
    change (UInt16.ofNat (LittleEndian.decode [low, high])).toNat ≠ 0 at pos'
    change (UInt16.ofNat (LittleEndian.decode [low, high])).toNat ≤ 1 at le'
    have low_one : low = 1 := UInt8.toNat_inj.1 (show low.toNat = 1 by omega)
    have high_zero : high = 0 := UInt8.toNat_inj.1 (show high.toNat = 0 by omega)
    rw [Vector.mk.injEq, low_one, high_zero]
  · intro same
    obtain ⟨rfl, rfl⟩ : low = 1 ∧ high = 0 := by simpa using same
    exact (by decide : ¬(UInt16.ofNat (LittleEndian.decode [1, 0]) = 0 ∨
      UInt16.ofNat (LittleEndian.decode [1, 0]) > version))

/-- The stages of the header: the magic, and the version that is known. -/
def headerStages : List (Stage Unit) :=
  [.exactly () magic .wrongMagic,
    .exactly () #v[1, 0] fun found ↦
      .unsupportedVersion (UInt16.ofNat (LittleEndian.decode found.toList))]

/-- To note the version takes no bytes. -/
theorem follows_setVersion (v : UInt16) :
    Follows asIs (modify fun r ↦ { r with version := v } : Read Unit) [] where
  reads _ _ := ⟨(), v, fun _ ↦ rfl⟩
  refuses _ _ _ := nofun

theorem follows_header : Follows asIs Read.header headerStages := by
  refine .exactly ?_ fun found other r ↦ ⟨r, ?_⟩
  · rw [if_neg (not_not_intro rfl)]
    simp only [Read.word16, Read.number, bind_assoc, pure_bind]
    refine .exactly ?_ fun found other r ↦ ⟨r, ?_⟩
    · rw [if_neg ((version_known_iff _).2 rfl)]
      exact follows_setVersion _
    · rw [if_pos (Decidable.not_not.1 (mt (version_known_iff found).1 other))]
      rfl
  · rw [if_pos other]
    rfl

/-- What the header has to be. -/
theorem firstFault?_header_eq_none_iff {data : List UInt8} :
    firstFault? headerStages data 0 = none ↔
      6 ≤ data.length ∧ data.take 4 = magic.toList ∧ (data.drop 4).take 2 = [1, 0] := by
  rw [headerStages, firstFault?_exactly_eq_none_iff, firstFault?_exactly_eq_none_iff]
  constructor
  · rintro ⟨⟨_, magic⟩, ⟨length, version⟩, _⟩
    exact ⟨length, magic, version⟩
  · rintro ⟨length, magic, version⟩
    exact ⟨⟨by omega, magic⟩, ⟨length, version⟩, rfl⟩

end ClockChip.Savestate
