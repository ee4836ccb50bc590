import ClockChip.Machine.Snapshot

/-!
# Reading back what was written

A reader is asked for fields in the order in which they were written, so reading back
is said of one read at a time: `Takes read bs v` means that wherever `read` stands in
front of the bytes `bs` it takes exactly these and gives `v`, whatever lies before and
behind them.  Reads in a row take their bytes in a row (`Takes.bind`), and with one
lemma for each kind of field the sections follow along their definitions
(`takes_session`, `takes_registers`, `takes_oscillator`, `takes_chip`).

What comes back is what was written with the cursors and the minute counter brought into
their range (`Snapshot.clamped`), for a snapshot with any contents at all.
-/

namespace ClockChip.Savestate

/-- In front of these bytes the read takes them, and no more, and gives this value. -/
def Takes {ε α : Type} (read : EStateM ε Reader α) (bs : List UInt8) (v : α) : Prop :=
  ∀ before rest version, read ⟨before ++ (bs ++ rest), before.length, version⟩ =
    .ok v ⟨before ++ (bs ++ rest), before.length + bs.length, version⟩

variable {ε α β : Type}

theorem Takes.pure (v : α) : Takes (Pure.pure v : EStateM ε Reader α) [] v :=
  fun _ _ _ ↦ rfl

/-- Reads in a row take their bytes in a row. -/
theorem Takes.bind {x : EStateM ε Reader α} {f : α → EStateM ε Reader β} {bs cs : List UInt8}
    {v : α} {w : β} (hx : Takes x bs v) (hf : Takes (f v) cs w) :
    Takes (x >>= f) (bs ++ cs) w := by
  intro before rest version
  have first := hx before (cs ++ rest) version
  have second := hf (before ++ bs) rest version
  rw [List.append_assoc, List.length_append] at second
  rw [List.append_assoc, Read.bind_of_ok first, second, List.length_append, Nat.add_assoc]

theorem Takes.map {x : EStateM ε Reader α} {f : α → β} {bs : List UInt8} {v : α}
    (hx : Takes x bs v) : Takes (x >>= fun a ↦ Pure.pure (f a)) bs (f v) := by
  have both := hx.bind (f := fun a ↦ Pure.pure (f a)) (.pure (f v))
  rwa [List.append_nil] at both

/-! ## Fields -/

theorem takes_bytes {n : Nat} (bs : Vector UInt8 n) : Takes (Read.bytes n) bs.toList bs := by
  intro before rest version
  have length : bs.toList.length = n := Vector.length_toList
  have fits : before.length + n ≤ (before ++ (bs.toList ++ rest)).length := by
    rw [List.length_append, List.length_append, length, ← Nat.add_assoc]
    exact Nat.le_add_right _ _
  have found : (before ++ (bs.toList ++ rest)).drop before.length = bs.toList ++ rest :=
    List.drop_left
  rw [Read.bytes_of_le (r := ⟨before ++ (bs.toList ++ rest), before.length, version⟩) fits,
    Reader.skip, length]
  congr 1
  apply Vector.toArray_inj.1
  apply Array.toList_inj.1
  change ((before ++ (bs.toList ++ rest)).drop before.length).take n = bs.toList
  rw [found]
  exact List.take_left' length

theorem takes_number (n k : Nat) :
    Takes (Read.number n) (LittleEndian.encode n k)
      (LittleEndian.decode (LittleEndian.encode n k)) := by
  have bytes := takes_bytes (n := n)
    ⟨(LittleEndian.encode n k).toArray, LittleEndian.length_encode n k⟩
  exact bytes.map (f := fun bs ↦ LittleEndian.decode bs.toList)

theorem takes_word8 (v : UInt8) : Takes Read.word8 (Field.word8 v).encode v := by
  have number := (takes_bytes #v[v]).map (f := fun bs ↦ LittleEndian.decode bs.toList)
  have word := number.map (f := UInt8.ofNat)
  rwa [show LittleEndian.decode #v[v].toList = v.toNat from rfl, UInt8.ofNat_toNat] at word

theorem takes_word16 (v : UInt16) : Takes Read.word16 (Field.word16 v).encode v := by
  have word := (takes_number 2 v.toNat).map (f := UInt16.ofNat)
  rwa [LittleEndian.decode_encode_two, UInt16.ofNat_toNat] at word

theorem takes_word32 (v : UInt32) : Takes Read.word32 (Field.word32 v).encode v := by
  have word := (takes_number 4 v.toNat).map (f := UInt32.ofNat)
  rwa [LittleEndian.decode_encode_four, UInt32.ofNat_toNat] at word

theorem takes_word64 (v : UInt64) : Takes Read.word64 (Field.word64 v).encode v := by
  have word := (takes_number 8 v.toNat).map (f := UInt64.ofNat)
  rwa [LittleEndian.decode_encode_eight, UInt64.ofNat_toNat] at word

theorem takes_tag (t : Tag) : Takes (Read.tag t) (Field.tag t).encode () := by
  have checked :
      Takes (if t = t then Pure.pure () else throw (.wrongTag t t) : Read Unit) [] () := by
    rw [if_pos rfl]
    exact .pure ()
  have both := (takes_bytes t).bind
    (f := fun found ↦ if found = t then Pure.pure () else throw (.wrongTag t found)) checked
  rwa [List.append_nil] at both

/-- The header stands at the beginning, and reading it finds out the version. -/
theorem header_encode (rest : List UInt8) :
    Read.header { data := header ++ rest } = .ok () ⟨header ++ rest, header.length, version⟩ :=
  rfl

end ClockChip.Savestate

/-! ## Sections -/

namespace ClockChip

open Savestate

namespace Session

/-- The session with its cursors in their ranges. -/
def clamped (s : Session) : Session :=
  { s with
    inputBit := s.inputBit % 8
    outputBit := s.outputBit % 8
    outputPos := min s.outputPos 7 }

theorem takes_session (s : Session) :
    Takes Session.readFields (s.fields.flatMap Field.encode) s.clamped :=
  (takes_word8 s.input).bind <| (takes_word32 s.inputBit).bind <|
    (takes_word32 s.inputPos).bind <| (takes_bytes s.output).bind <|
    (takes_word32 s.outputBit).bind <| (takes_word32 s.outputPos).bind <|
    (takes_word8 s.command).bind <| .pure _

/-- The bytes that each field of a session takes. -/
def widths : List Nat := [1, 4, 4, 8, 4, 4, 1]

theorem size_fields (s : Session) : s.fields.map Field.size = widths := by
  simp only [fields, List.map_cons, List.map_nil, Field.size, Vector.length_toList, widths]

end Session

namespace Registers

/-- The registers with the minute counter in its range. -/
def clamped (r : Registers) : Registers := { r with minuteCount := r.minuteCount &&& minuteMask }

theorem takes_registers (r : Registers) :
    Takes Registers.readFields (r.fields.flatMap Field.encode) r.clamped :=
  (takes_word8 ⟨r.status1⟩).bind <| (takes_word8 ⟨r.status2⟩).bind <|
    (takes_bytes r.calendar.toBytes).bind <| (takes_bytes r.alarm1).bind <|
    (takes_bytes r.alarm2).bind <| (takes_word8 r.clockAdjust).bind <|
    (takes_word8 r.free).bind <| (takes_word8 r.fout1).bind <| (takes_word8 r.fout2).bind <|
    (takes_bytes r.alarmDate1).bind <| (takes_bytes r.alarmDate2).bind <|
    (takes_word32 r.minuteCount).bind <| .pure _

/-- The bytes that each field of a register file takes. -/
def widths : List Nat := [1, 1, 7, 3, 3, 1, 1, 1, 1, 3, 3, 4]

theorem size_fields (r : Registers) : r.fields.map Field.size = widths := by
  simp only [fields, List.map_cons, List.map_nil, Field.size, Vector.length_toList, widths]

end Registers

namespace Oscillator

theorem takes_oscillator (o : Oscillator) :
    Takes Oscillator.readFields (o.fields.flatMap Field.encode) o := by
  have same : (⟨o.ticks, o.remainder.toUInt32.toInt32⟩ : Oscillator) = o := by
    rw [Int32.toInt32_toUInt32]
  rw [← same]
  exact (takes_word32 o.remainder.toUInt32).bind <| (takes_word32 o.ticks).bind <| .pure _

/-- The bytes that each field of an oscillator takes. -/
def widths : List Nat := [4, 4]

end Oscillator

namespace Chip.Snapshot

/-- The snapshot as it comes back from a stream. -/
def clamped (s : Snapshot) : Snapshot :=
  { s with session := s.session.clamped, registers := s.registers.clamped }

theorem takes_chip (s : Snapshot) :
    Takes Snapshot.readFields (s.fields.flatMap Field.encode) s.clamped := by
  rw [Snapshot.fields, List.flatMap_cons, List.flatMap_cons, List.flatMap_append,
    List.flatMap_append, List.append_assoc, ← List.append_nil (s.oscillator.fields.flatMap _)]
  exact (takes_tag sectionTag).bind <| (takes_word16 ⟨s.bus⟩).bind <|
    (Session.takes_session s.session).bind <| (Registers.takes_registers s.registers).bind <|
    (Oscillator.takes_oscillator s.oscillator).bind <| .pure _

/-- The bytes that each field of the chip's section takes. -/
def widths : List Nat := 4 :: 2 :: (Session.widths ++ Registers.widths ++ Oscillator.widths)

theorem size_fields (s : Snapshot) : s.fields.map Field.size = widths := by
  rw [fields, List.map_cons, List.map_cons, List.map_append, List.map_append,
    Session.size_fields, Registers.size_fields]
  rfl

end Chip.Snapshot

namespace Machine.Snapshot

/-- The snapshot as it comes back from a stream, where the latest time there is stands for
no tick at all. -/
def clamped (s : Snapshot) : Snapshot :=
  { s with
    due := if s.due = some Scheduler.never then none else s.due
    chip := s.chip.clamped }

/-- To put a failure down to a part of the stream changes no read that succeeds. -/
theorem takes_within {α : Type} {read : Read α} {bs : List UInt8} {v : α} (part : Option Part)
    (h : Takes read bs v) : Takes (within part read) bs v := by
  intro before rest version
  exact within_of_ok part (h before rest version)

/-- The due time as it comes back. -/
theorem due_clamped (s : Snapshot) :
    (if s.due.getD Scheduler.never = Scheduler.never then none
      else some (s.due.getD Scheduler.never)) = s.clamped.due := by
  unfold clamped
  cases s.due with
  | none => rfl
  | some due =>
    dsimp only [Option.getD_some]
    by_cases never : due = Scheduler.never
    · rw [if_pos never, if_pos (congrArg some never)]
    · rw [if_neg never, if_neg (mt Option.some.inj never)]

/-- The bytes that each field behind the header takes. -/
def widths : List Nat := 4 :: 8 :: 8 :: Chip.Snapshot.widths

/-- Each stream has its fields at the same places. -/
theorem size_fields (s : Snapshot) : s.fields.map Field.size = widths := by
  rw [fields, List.map_cons, List.map_cons, List.map_cons, Chip.Snapshot.size_fields]
  rfl

theorem length_encode (s : Snapshot) : (encode s.fields).length = 95 := by
  rw [encode, List.length_append, List.length_flatMap]
  simp only [Field.length_encode]
  change header.length + (s.fields.map Field.size).sum = 95
  rw [size_fields]
  rfl

/-- What is read behind the header. -/
def readBody : EStateM LoadError Reader Snapshot := do
  within (some .scheduler) (Read.tag sectionTag)
  let now ← within none Read.word64
  let due ← within none Read.word64
  let chip ← within (some .chip) Chip.Snapshot.readFields
  return { now, due := if due = Scheduler.never then none else some due, chip }

theorem readFields_eq : readFields = within none Read.header >>= fun _ ↦ readBody := rfl

theorem takes_body (s : Snapshot) :
    Takes readBody (s.fields.flatMap Field.encode) s.clamped := by
  have value : s.clamped = ⟨s.now, if s.due.getD Scheduler.never = Scheduler.never then none
      else some (s.due.getD Scheduler.never), s.chip.clamped⟩ := by
    rw [due_clamped]
    rfl
  rw [value, fields, List.flatMap_cons, List.flatMap_cons, List.flatMap_cons,
    ← List.append_nil (s.chip.fields.flatMap _)]
  exact (takes_within (some .scheduler) (takes_tag sectionTag)).bind <|
    (takes_within none (takes_word64 s.now)).bind <|
    (takes_within none (takes_word64 (s.due.getD Scheduler.never))).bind <|
    (takes_within (some .chip) s.chip.takes_chip).bind <| .pure _

/-- A stream gives back the snapshot that was written, whatever it holds and whatever
follows it. -/
theorem decode_encode (s : Snapshot) (rest : List UInt8) :
    decode (encode s.fields ++ rest) = .ok s.clamped := by
  have body := s.takes_body header rest version
  have first := header_encode (s.fields.flatMap Field.encode ++ rest)
  have start : readFields { data := header ++ (s.fields.flatMap Field.encode ++ rest) } =
      readBody ⟨header ++ (s.fields.flatMap Field.encode ++ rest), header.length, version⟩ := by
    rw [readFields_eq, Read.bind_of_ok (within_of_ok none first)]
  rw [decode, encode, List.append_assoc, start, body]

theorem decode_encode_alone (s : Snapshot) : decode (encode s.fields) = .ok s.clamped := by
  have decoded := s.decode_encode []
  rwa [List.append_nil] at decoded

end Machine.Snapshot

end ClockChip
