import ClockChip.Proofs.Stages
import ClockChip.Proofs.Stream

/-!
# Asking for fields

Nothing in a stream says what its fields are, so a reader is asked for one kind of field
after another (`Ask`), and a failure does not keep it from being asked again (`askAll`).
What it does when it is asked depends on whether the bytes are there.  If they are, it moves
past them and answers with what they say, which for a tag may be that it is another one
(`ask_of_fits`); if not, it says where it stands and how much it wanted, and stays
(`ask_of_missing`).

Whoever asks for the fields of a stream in the order in which they were written gets them
back, as far as they lie inside what there is of the stream (`askAll_of_inside`).
-/

namespace ClockChip.Savestate

/-! ## Numbers of a width -/

namespace LittleEndian

/-- How many numbers can be written in so many bytes. -/
def numbers : Nat → Nat
  | 0 => 1
  | width + 1 => 256 * numbers width

/-- What does not fit into the bytes is not written. -/
theorem encode_mod (width n : Nat) : encode width (n % numbers width) = encode width n := by
  induction width generalizing n with
  | zero => rfl
  | succ width ih =>
    rw [encode, encode, numbers, Nat.mod_mul_right_mod, Nat.mod_mul_right_div_self, ih]

end LittleEndian

/-! ## Asks -/

/-- What a reader can be asked for. -/
inductive Ask where
  | tag (expected : Tag)
  | word8
  | word16
  | word32
  | word64
  | bytes (n : Nat)
deriving DecidableEq, Repr

/-- What to ask for to get a field like this one. -/
def Field.ask : Field → Ask
  | tag t => .tag t
  | word8 _ => .word8
  | word16 _ => .word16
  | word32 _ => .word32
  | word64 _ => .word64
  | bytes bs => .bytes bs.length

namespace Ask

/-- The number of bytes that are asked for. -/
def width : Ask → Nat
  | tag _ => 4
  | word8 => 1
  | word16 => 2
  | word32 => 4
  | word64 => 8
  | bytes n => n

/-- Reads what is asked for. -/
def read : Ask → Read Field
  | tag expected => do
    Read.tag expected
    return .tag expected
  | word8 => return .word8 (← Read.word8)
  | word16 => return .word16 (← Read.word16)
  | word32 => return .word32 (← Read.word32)
  | word64 => return .word64 (← Read.word64)
  | bytes n => return .bytes (← Read.bytes n).toList

/-- What bytes are the answer to an ask: the field of its kind which they encode, or, where a
tag is expected, another tag. -/
inductive Answers : Ask → List UInt8 → Except ReadError Field → Prop where
  | field (f : Field) : Answers f.ask f.encode (.ok f)
  | otherTag {expected found : Tag} (other : found ≠ expected) :
    Answers (tag expected) found.toList (.error (.wrongTag expected found))

end Ask

namespace Reader

/-- Asks for a field: the answer, and the reader that can be asked again. -/
def ask (a : Ask) (r : Reader) : Except ReadError Field × Reader :=
  match a.read r with
  | .ok f r => (.ok f, r)
  | .error e r => (.error e, r)

/-- Asks for one field after another, whatever the answers are. -/
def askAll : List Ask → Reader → List (Except ReadError Field) × Reader
  | [], r => ([], r)
  | a :: as, r =>
    let (answer, r) := r.ask a
    let (answers, r) := r.askAll as
    (answer :: answers, r)

end Reader

@[simp] theorem Field.width_ask (f : Field) : f.ask.width = f.size := by
  cases f <;> rfl

/-! ## Where the bytes are not there -/

theorem Ask.read_of_missing (a : Ask) {r : Reader} (short : r.data.length < r.offset + a.width) :
    a.read r = .error (.truncated r.offset a.width) r := by
  have missing : Read.bytes a.width r = .error (.truncated r.offset a.width) r :=
    Read.bytes_of_lt short
  cases a with
  | tag expected => exact Read.bind_of_error (Read.bind_of_error missing)
  | bytes n => exact Read.bind_of_error missing
  | _ => exact Read.bind_of_error (Read.bind_of_error (Read.bind_of_error missing))

/-- A reader that has not got the bytes says so and stays where it is. -/
theorem Reader.ask_of_missing (a : Ask) {r : Reader}
    (short : r.data.length < r.offset + a.width) :
    r.ask a = (.error (.truncated r.offset a.width), r) := by
  rw [ask, a.read_of_missing short]

/-! ## Where they are -/

theorem takes_ask (f : Field) : Takes f.ask.read f.encode f := by
  cases f with
  | tag t => exact (takes_tag t).map (f := fun _ ↦ Field.tag t)
  | word8 v => exact (takes_word8 v).map (f := Field.word8)
  | word16 v => exact (takes_word16 v).map (f := Field.word16)
  | word32 v => exact (takes_word32 v).map (f := Field.word32)
  | word64 v => exact (takes_word64 v).map (f := Field.word64)
  | bytes bs => exact (takes_bytes ⟨bs.toArray, rfl⟩).map (f := fun bs ↦ Field.bytes bs.toList)

/-- Any bytes answer an ask for so many of them. -/
theorem Ask.exists_answers (a : Ask) {bs : List UInt8} (length : bs.length = a.width) :
    ∃ answer, a.Answers bs answer := by
  have number {width : Nat} (h : bs.length = width) :
      LittleEndian.encode width (LittleEndian.decode bs % LittleEndian.numbers width) = bs := by
    rw [LittleEndian.encode_mod, ← h, LittleEndian.encode_decode]
  cases a with
  | tag expected =>
    have found : ∃ found : Tag, found.toList = bs := ⟨⟨bs.toArray, length⟩, rfl⟩
    obtain ⟨found, rfl⟩ := found
    by_cases same : found = expected
    · subst same
      exact ⟨_, .field (.tag found)⟩
    · exact ⟨_, .otherTag same⟩
  | word8 =>
    obtain ⟨b, rfl⟩ := List.length_eq_one_iff.1 length
    exact ⟨_, .field (.word8 b)⟩
  | word16 =>
    have encodes : (Field.word16 (UInt16.ofNat (LittleEndian.decode bs))).encode = bs :=
      number length
    rw [← encodes]
    exact ⟨_, .field (.word16 _)⟩
  | word32 =>
    have encodes : (Field.word32 (UInt32.ofNat (LittleEndian.decode bs))).encode = bs :=
      number length
    rw [← encodes]
    exact ⟨_, .field (.word32 _)⟩
  | word64 =>
    have encodes : (Field.word64 (UInt64.ofNat (LittleEndian.decode bs))).encode = bs :=
      number length
    rw [← encodes]
    exact ⟨_, .field (.word64 _)⟩
  | bytes n =>
    obtain rfl : bs.length = n := length
    exact ⟨_, .field (.bytes bs)⟩

/-- A reader in front of bytes moves past them and gives the answer that they are. -/
theorem Ask.Answers.ask {a : Ask} {bs : List UInt8} {answer : Except ReadError Field}
    (h : a.Answers bs answer) (before rest : List UInt8) (version : UInt16) :
    Reader.ask a ⟨before ++ (bs ++ rest), before.length, version⟩ =
      (answer, ⟨before ++ (bs ++ rest), before.length + bs.length, version⟩) := by
  cases h with
  | field f => rw [Reader.ask, takes_ask f before rest version]
  | @otherTag expected found other =>
    have taken := takes_bytes found before rest version
    have complains : (Ask.tag expected).read
        ⟨before ++ (found.toList ++ rest), before.length, version⟩ =
          .error (.wrongTag expected found)
            ⟨before ++ (found.toList ++ rest), before.length + found.toList.length, version⟩ := by
      refine Read.bind_of_error ((Read.bind_of_ok taken).trans ?_)
      rw [if_neg other]
      rfl
    rw [Reader.ask, complains]

namespace Reader

/-- A reader that has the bytes moves past them, and answers with what they say. -/
theorem ask_of_fits (a : Ask) {r : Reader} (fits : r.offset + a.width ≤ r.data.length) :
    ∃ answer, a.Answers ((r.data.drop r.offset).take a.width) answer ∧
      r.ask a = (answer, r.skip a.width) := by
  have length : ((r.data.drop r.offset).take a.width).length = a.width := by
    rw [List.length_take, List.length_drop]
    omega
  have before : (r.data.take r.offset).length = r.offset :=
    List.length_take_of_le (Nat.le_of_add_right_le fits)
  have parts : r.data.take r.offset ++ ((r.data.drop r.offset).take a.width ++
      (r.data.drop r.offset).drop a.width) = r.data := by
    rw [List.take_append_drop, List.take_append_drop]
  obtain ⟨answer, answers⟩ := a.exists_answers length
  have asked := answers.ask (r.data.take r.offset) ((r.data.drop r.offset).drop a.width) r.version
  rw [parts, before, length] at asked
  exact ⟨answer, answers, asked⟩

/-! ## One after another -/

/-- The offset is not beyond the end. -/
def Inside (r : Reader) : Prop := r.offset ≤ r.data.length

/-- Whatever is asked for, the reader stays inside the same stream. -/
theorem Inside.ask {r : Reader} (h : r.Inside) (a : Ask) :
    (r.ask a).2.Inside ∧ (r.ask a).2.data = r.data := by
  rcases Nat.lt_or_ge r.data.length (r.offset + a.width) with short | fits
  · rw [ask_of_missing a short]
    exact ⟨h, rfl⟩
  · obtain ⟨answer, -, asked⟩ := ask_of_fits a fits
    rw [asked]
    exact ⟨fits, rfl⟩

theorem Inside.askAll {r : Reader} (h : r.Inside) (asks : List Ask) :
    (r.askAll asks).2.Inside ∧ (r.askAll asks).2.data = r.data := by
  induction asks generalizing r with
  | nil => exact ⟨h, rfl⟩
  | cons a asks ih =>
    obtain ⟨inside, data⟩ := h.ask a
    obtain ⟨inside', data'⟩ := ih inside
    exact ⟨inside', data'.trans data⟩

/-- Fields that stand in a row are read in a row. -/
theorem askAll_fields (fields : List Field) (before rest : List UInt8) (version : UInt16) :
    askAll (fields.map Field.ask)
        ⟨before ++ (fields.flatMap Field.encode ++ rest), before.length, version⟩ =
      (fields.map .ok, ⟨before ++ (fields.flatMap Field.encode ++ rest),
        before.length + (fields.flatMap Field.encode).length, version⟩) := by
  induction fields generalizing before with
  | nil => rfl
  | cons f fields ih =>
    have first := (Ask.Answers.field f).ask before (fields.flatMap Field.encode ++ rest) version
    have others := ih (before ++ f.encode)
    rw [List.append_assoc, List.length_append] at others
    rw [List.flatMap_cons, List.append_assoc, List.map_cons, askAll, first]
    dsimp only
    rw [others, List.length_append, Nat.add_assoc]
    rfl

/-! ## From the header on -/

/-- A reader of a stream that begins with the header stands behind it. -/
theorem ofBytes_header (rest : List UInt8) :
    ofBytes (header ++ rest) = .ok ⟨header ++ rest, header.length, 1⟩ := by
  rw [ofBytes, header_encode]
  rfl

/-- So do all readers. -/
theorem inside_ofBytes {data : List UInt8} {r : Reader} (h : ofBytes data = .ok r) :
    r.Inside ∧ r.data = data := by
  unfold ofBytes at h
  split at h
  · next v r' read =>
    obtain rfl := Except.ok.inj h
    have fine := (follows_header.ok_iff { data }).1 ⟨_, _, read⟩
    obtain ⟨v', version, same⟩ := follows_header.read fine
    rw [read] at same
    obtain ⟨-, rfl⟩ := EStateM.Result.ok.inj same
    exact ⟨(firstFault?_header_eq_none_iff.1 fine).1, rfl⟩
  · nomatch h

/-- As far as the fields of a stream lie inside a piece of it they are read back. -/
theorem askAll_of_inside {fields : List Field} {data : List UInt8}
    (inside : encode fields <+: data) :
    ofBytes data = .ok ⟨data, header.length, 1⟩ ∧
      askAll (fields.map Field.ask) ⟨data, header.length, 1⟩ =
        (fields.map .ok, ⟨data, (encode fields).length, 1⟩) := by
  obtain ⟨rest, rfl⟩ := inside
  rw [encode, List.append_assoc, List.length_append]
  exact ⟨ofBytes_header _, askAll_fields fields header rest 1⟩

end Reader

open Reader in
/-- Whatever fields are written, a reader that is asked for them in their order gives them back
and has then read everything.  In any piece of the stream that has at least the header it gives
back those in front, as far as they lie inside; asked for the next one it says where that one
begins and how much it takes, and stays there, so that it answers to whatever it is asked for
next with the bytes from there on, if they are enough.  And in no data at all does any asking
take a reader beyond the end. -/
theorem askAll_encode (fields : List Field) :
    (∃ r, ofBytes (encode fields) = .ok r ∧ r.version = 1 ∧
      (r.askAll (fields.map Field.ask)).1 = fields.map .ok ∧
      (r.askAll (fields.map Field.ask)).2.isEmpty = true) ∧
    (∀ data, data <+: encode fields → 6 ≤ data.length →
      ∃ r, ofBytes data = .ok r ∧ r.version = 1 ∧
        ∀ inside outside, fields = inside ++ outside →
          let start := (encode inside).length
          let asked := r.askAll (inside.map Field.ask)
          start ≤ data.length →
            asked.1 = inside.map .ok ∧ asked.2.offset = start ∧
            ∀ f later, outside = f :: later → data.length < start + f.size →
              asked.2.ask f.ask = (.error (.truncated start f.size), asked.2) ∧
              ∀ a, start + a.width ≤ data.length →
                ∃ answer, a.Answers ((data.drop start).take a.width) answer ∧
                  asked.2.ask a = (answer, asked.2.skip a.width)) ∧
    ∀ data r, ofBytes data = .ok r → ∀ asks, (r.askAll asks).2.offset ≤ data.length := by
  refine ⟨?_, ?_, ?_⟩
  · obtain ⟨opened, asked⟩ := askAll_of_inside (List.prefix_refl (encode fields))
    refine ⟨_, opened, rfl, ?_, ?_⟩
    · rw [asked]
    · rw [asked]
      exact decide_eq_true (Nat.le_refl _)
  · intro data piece length
    have headed : encode [] <+: data :=
      List.prefix_of_prefix_length_le (List.prefix_append header _) piece length
    refine ⟨_, (askAll_of_inside headed).1, rfl, ?_⟩
    intro inside outside parts start asked fits
    have front : encode inside <+: data := by
      refine List.prefix_of_prefix_length_le ?_ piece fits
      rw [parts, encode, encode, List.flatMap_append, ← List.append_assoc]
      exact List.prefix_append _ _
    have read : asked = _ := (askAll_of_inside front).2
    refine ⟨by rw [read], by rw [read], fun f later _ short ↦ ⟨?_, fun a enough ↦ ?_⟩⟩
    · rw [read]
      rw [← f.width_ask] at short ⊢
      exact ask_of_missing f.ask short
    · rw [read]
      exact ask_of_fits a (r := ⟨data, start, 1⟩) enough
  · intro data r opened asks
    obtain ⟨inside, same⟩ := inside_ofBytes opened
    obtain ⟨inside', same'⟩ := inside.askAll asks
    rw [Inside, same', same] at inside'
    exact inside'

/-- A section with a field of each kind. -/
def assorted : List Field :=
  [.tag #v[0x54, 0x45, 0x53, 0x54], .word8 0x12, .word16 0x3456, .word32 0x789ABCDE,
    .word64 0xFFFFFFFFFFFFFFFF, .bytes [1, 2, 3]]

open Reader in
/-- Cut off after two of the four bytes of its fourth field, it gives back the first three; the
fourth is missed where it begins, and two bytes are still to be had there. -/
theorem askAll_encode_cut :
    ∃ r, ofBytes ((encode assorted).take 15) = .ok r ∧
      (r.askAll [.tag #v[0x54, 0x45, 0x53, 0x54], .word8, .word16]).1 =
        [.ok (.tag #v[0x54, 0x45, 0x53, 0x54]), .ok (.word8 0x12), .ok (.word16 0x3456)] ∧
      let missed := (r.askAll [.tag #v[0x54, 0x45, 0x53, 0x54], .word8, .word16]).2
      missed.ask .word32 = (.error (.truncated 13 4), missed) ∧
        ∃ answer, Ask.word16.Answers [0xDE, 0xBC] answer ∧
          missed.ask .word16 = (answer, missed.skip 2) := by
  obtain ⟨-, pieces, -⟩ := askAll_encode assorted
  obtain ⟨r, opened, -, asked⟩ :=
    pieces ((encode assorted).take 15) (List.take_prefix _ _) (by decide)
  obtain ⟨read, -, next⟩ := asked (assorted.take 3) (assorted.drop 3) rfl (by decide)
  obtain ⟨missed, further⟩ := next _ _ rfl (by decide)
  exact ⟨r, opened, read, missed, further .word16 (by decide)⟩

end ClockChip.Savestate
