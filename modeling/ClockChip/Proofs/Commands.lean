import ClockChip.Proofs.Outstanding
import ClockChip.Proofs.Sampling

/-!
# Bytes that are commands

The first byte of a frame is a command and those behind it are data.  The chip tells them apart
by the number of bytes that it has received in the frame, which it keeps in thirty-two bits.
So it is not the first byte alone: a byte is a command exactly if the number of those before
it is a multiple of 2³² (`frame_exact`).

A host that only sends does not get that far in a reasonable time.  A stream does at once, as
the number is restored as it is, while the cursors beside it are brought into their ranges.
From a stream in which it is the last number that there is, one byte of data leads to a
position at which the byte that follows is taken as a command in the middle of the frame
(`overrun_not_kept`).
-/

namespace ClockChip

namespace Chip

variable {c : Chip} {w : Word} {b : UInt8}

/-! ## A byte -/

/-- The word completes a byte, and this is a command or data according to the position. -/
theorem write_takes (handed : c.handed? w = some b) :
    (c.write w).session.inputPos = c.session.inputPos + 1 ∧
      (c.write w).session.command =
        (if c.session.inputPos = 0 then Command.normalize c.console b else c.session.command) ∧
      (c.write w).registers =
        (if c.session.inputPos = 0 then c.command b else c.store b).registers := by
  let emptied : Chip := { c with session := { c.session with input := 0, inputBit := 0 } }
  obtain ⟨_, received⟩ := emptied.session_receive b
  -- what a byte does to the registers has nothing to do with the one that is collected
  have access : emptied.byteAccess? b = c.byteAccess? b := rfl
  have registers : (emptied.receive b).registers = (c.receive b).registers := by
    rw [registers_receive, registers_receive, access]
  rw [write_of_handed handed]
  refine ⟨congrArg Session.inputPos received, congrArg Session.command received, ?_⟩
  exact registers

/-- A bit that does not complete a byte leaves the position and the command. -/
theorem kept_of_shiftIn {s s' : Session} {bit : Bool} (shifted : s.shiftIn bit = (none, s')) :
    s'.inputPos = s.inputPos ∧ s'.command = s.command := by
  unfold Session.shiftIn at shifted
  split at shifted
  · obtain rfl := (Prod.mk.inj shifted).2
    exact ⟨rfl, rfl⟩
  · nomatch shifted

/-- So does any word that completes none, as long as the chip is selected. -/
theorem write_between (held : Wire.select.isSet c.bus = true) (holds : Wire.select.isSet w = true)
    (handed : c.handed? w = none) :
    (c.write w).session.inputPos = c.session.inputPos ∧
      (c.write w).session.command = c.session.command := by
  cases sent : Wire.bitToChip? w with
  | none =>
    obtain ⟨_, _, _, _, wrote⟩ := ((SameInput.refl c).write_of_none held holds sent).1
    rw [wrote]
    exact ⟨rfl, rfl⟩
  | some bit =>
    obtain ⟨_, _, _, _, wrote⟩ := ((SameInput.refl c).write_of_bit held holds sent).1
    have edge : Edge.of c.bus w = .toChip bit := by rw [Edge.of_held held holds, sent]
    rw [handed?, sampled?, edge] at handed
    have shifted : c.session.shiftIn bit = (none, (c.session.shiftIn bit).2) :=
      Prod.ext handed rfl
    have kept := kept_of_shiftIn shifted
    rw [wrote, takeBit, shifted]
    exact kept

/-! ## Bytes of a frame -/

/-- The chip has been selected for as long as it has received `n` bytes, and before these it was
at a position and had a command. -/
structure Counted (position : Nat) (command : UInt8) (n : Nat) (c : Chip) : Prop where
  held : Wire.select.isSet c.bus = true
  inputPos : c.session.inputPos.toNat = (position + n) % UInt32.size
  command : 0 < position → position + n ≤ UInt32.size → c.session.command = command

theorem counted_self (held : Wire.select.isSet c.bus = true) :
    Counted c.session.inputPos.toNat c.session.command 0 c where
  held := held
  inputPos := (Nat.mod_eq_of_lt c.session.inputPos.toNat_lt).symm
  command _ _ := rfl

variable {position n : Nat} {command : UInt8}

theorem Counted.same {c' : Chip} (h : Counted position command n c) (bus : c'.bus = c.bus)
    (session : c'.session = c.session) : Counted position command n c' where
  held := by rw [bus]; exact h.held
  inputPos := by rw [session]; exact h.inputPos
  command := by rw [session]; exact h.command

/-- The next byte is a command if the number of bytes comes round. -/
theorem Counted.inputPos_eq_zero_iff (h : Counted position command n c) :
    c.session.inputPos = 0 ↔ (position + n) % UInt32.size = 0 := by
  rw [← h.inputPos, ← UInt32.toNat_inj]
  rfl

/-- A word that leaves the chip selected completes a byte or none. -/
theorem Counted.write (h : Counted position command n c) (holds : Wire.select.isSet w = true) :
    Counted position command (n + (c.handed? w).toList.length) (c.write w) := by
  have held : Wire.select.isSet (c.write w).bus = true := (select_write c w).trans holds
  cases handed : c.handed? w with
  | none =>
    obtain ⟨inputPos, named⟩ := write_between h.held holds handed
    exact ⟨held, by rw [inputPos]; exact h.inputPos, by rw [named]; exact h.command⟩
  | some b =>
    obtain ⟨inputPos, named, -⟩ := write_takes handed
    refine ⟨held, ?_, fun within fits ↦ ?_⟩
    · rw [inputPos, UInt32.toNat_add, h.inputPos]
      exact (Nat.mod_add_mod (position + n) UInt32.size 1)
    · have fits : position + n + 1 ≤ UInt32.size := fits
      -- the count has not come round yet, so the byte is data
      have data : (position + n) % UInt32.size ≠ 0 := by
        rw [Nat.mod_eq_of_lt fits]
        omega
      rw [named, if_neg (mt h.inputPos_eq_zero_iff.1 data)]
      exact h.command within (Nat.le_of_succ_le fits)

end Chip

namespace Machine

open Chip (Counted)

/-! ## Frames of a machine -/

/-- The word that an action writes to the chip. -/
def word? (m : Machine) : Action → Option Word
  | .write16 address w => if address = chipAddress then some w else none
  | .write8 address b => if address = chipAddress then some (m.chip.widen b) else none
  | _ => none

/-- The byte that an action completes. -/
def handed? (m : Machine) (a : Action) : Option UInt8 := (m.word? a).bind (m.chip.handed? ·)

/-- The bytes that the chip receives in the course of some actions. -/
def received (m : Machine) (actions : List Action) : List UInt8 :=
  seenAlong (fun m a ↦ (m.handed? a).toList) act m actions

/-- Whether an action leaves the chip selected if it writes to it. -/
def Action.holdsSelect : Action → Prop
  | .write16 address w => address = chipAddress → Wire.select.isSet w = true
  | .write8 address b => address = chipAddress → Wire.select.isSet (b.toBitVec.setWidth 16) = true
  | _ => True

/-- A frame goes on: the chip stays selected and is not reset, and no other session is restored. -/
structure Action.StaysInFrame (a : Action) : Prop where
  holds : a.holdsSelect
  leaves : a.leavesTicks

variable {m : Machine} {a : Action} {actions : List Action} {position n : Nat} {command : UInt8}

theorem act_of_word {w : Word} (word : m.word? a = some w) :
    (m.act a).chip = m.chip.write w := by
  cases a with
  | write16 address w' =>
    obtain ⟨here, wrote⟩ := Option.ite_none_right_eq_some.1 word
    obtain rfl := Option.some.inj wrote
    exact congrArg Machine.chip (if_pos here)
  | write8 address b =>
    obtain ⟨here, wrote⟩ := Option.ite_none_right_eq_some.1 word
    obtain rfl := Option.some.inj wrote
    exact congrArg Machine.chip (if_pos here)
  | _ => nomatch word

/-- In a frame a word is written to the chip, or its side of the bus is as it was. -/
theorem Action.StaysInFrame.cases (h : a.StaysInFrame) (m : Machine) :
    (∃ w, m.word? a = some w ∧ Wire.select.isSet w = true) ∨
      m.word? a = none ∧ (m.act a).chip.bus = m.chip.bus ∧
        (m.act a).chip.session = m.chip.session := by
  obtain ⟨holds, noReset, refused⟩ := h
  cases a with
  | reset => exact absurd rfl noReset
  | run cycles =>
    have same := sameBus_run cycles m
    exact .inr ⟨rfl, same.bus, same.session⟩
  | write16 address w =>
    by_cases here : address = chipAddress
    · exact .inl ⟨w, if_pos here, holds here⟩
    · have same : m.act (.write16 address w) = m := if_neg here
      rw [same]
      exact .inr ⟨if_neg here, rfl, rfl⟩
  | write8 address b =>
    by_cases here : address = chipAddress
    · have lines := Wire.lines_lowByte b.toBitVec m.chip.bus
      have select := (congrArg Wire.Lines.select lines).trans (holds here)
      exact .inl ⟨m.chip.widen b, if_pos here, select⟩
    · have same : m.act (.write8 address b) = m := if_neg here
      rw [same]
      exact .inr ⟨if_neg here, rfl, rfl⟩
  | load data =>
    cases decoded : Snapshot.decode data with
    | ok s => exact absurd decoded (refused data s rfl)
    | error e =>
      rw [act_load_of_error decoded]
      exact .inr ⟨rfl, rfl, rfl⟩
  | _ => exact .inr ⟨rfl, rfl, rfl⟩

theorem counted_act (h : Counted position command n m.chip) (stays : a.StaysInFrame) :
    Counted position command (n + (m.handed? a).toList.length) (m.act a).chip := by
  rcases stays.cases m with ⟨w, word, holds⟩ | ⟨silent, bus, session⟩
  · rw [handed?, word, act_of_word word]
    exact h.write holds
  · rw [handed?, silent]
    exact h.same bus session

theorem counted_play (h : Counted position command 0 m.chip)
    (stay : ∀ a ∈ actions, a.StaysInFrame) :
    Counted position command (m.received actions).length (m.play actions).chip := by
  refine seenAlong_induction
    (motive := fun bytes (m : Machine) ↦ Counted position command bytes.length m.chip) h ?_
  intro bytes m a mem counted
  rw [List.length_append]
  exact counted_act counted (stay a mem)

/-- As long as a frame goes on, the position is the number of bytes that it has had, in thirty-two
bits.  The next byte is taken as a command if that is nought, and stored as data if it is not.
So from the second byte on the command stays until the number has come round. -/
theorem frame_exact (held : Wire.select.isSet m.chip.bus = true)
    (stay : ∀ a ∈ actions, a.StaysInFrame) :
    let before := m.chip.session.inputPos.toNat + (m.received actions).length
    let c := (m.play actions).chip
    c.session.inputPos.toNat = before % 4294967296 ∧
      (∀ a b, (m.play actions).handed? a = some b →
        let c' := ((m.play actions).act a).chip
        c'.session.command =
            (if before % 4294967296 = 0 then Command.normalize c.console b
              else c.session.command) ∧
          c'.registers =
            (if before % 4294967296 = 0 then c.command b else c.store b).registers) ∧
      (0 < m.chip.session.inputPos.toNat → before ≤ 4294967296 →
        c.session.command = m.chip.session.command) := by
  intro before c
  have counted := counted_play (Chip.counted_self held) stay
  refine ⟨counted.inputPos, fun a b handed ↦ ?_, counted.command⟩
  obtain ⟨w, word, handed⟩ := Option.bind_eq_some_iff.1 handed
  obtain ⟨-, command, registers⟩ := Chip.write_takes handed
  have first : c.session.inputPos = 0 ↔ before % 4294967296 = 0 := counted.inputPos_eq_zero_iff
  rw [act_of_word word]
  exact ⟨command.trans (if_congr first rfl rfl),
    registers.trans (congrArg Chip.registers (if_congr first rfl rfl))⟩

/-- A host that keeps the chip selected stays in the frame. -/
theorem stay_words {ws : List Word} (holds : ∀ w ∈ ws, Wire.select.isSet w = true) :
    ∀ a ∈ ws.map (Action.write16 chipAddress), a.StaysInFrame := by
  refine List.forall_mem_map.2 fun w mem ↦ ⟨fun _ ↦ holds w mem, ?_⟩
  exact Action.leavesTicks_of_ne nofun nofun

/-- A machine that has been sent the command of a frame, which writes the date. -/
def commanded : Machine :=
  (ofConfig {}).play ((Wire.start ++ Wire.sendByte 0x26).map (.write16 chipAddress))

/-- What it holds, but for the position: it is the last one that there is. -/
def overrun : Snapshot :=
  { commanded.snapshot with
    chip :=
      { commanded.snapshot.chip with
        session := { commanded.snapshot.chip.session with inputPos := 0xFFFFFFFF } } }

/-- The machine into which that has been loaded. -/
def overrunning : Machine := commanded.restore overrun

theorem load_overrun : commanded.load (Savestate.encode overrun.fields) = .ok overrunning := by
  have same : overrun.clamped = overrun := by decide +kernel
  have decoded := overrun.decode_encode_alone
  rw [same] at decoded
  exact load_eq_ok_iff.2 ⟨overrun, decoded, rfl⟩

theorem reachable_overrunning : Reachable overrunning := by
  have sent : Reachable commanded := (Reachable.start {}).play _
  exact sent.load load_overrun

/-- A byte and all of a second one but its last bit. -/
def almostTwo : List Action :=
  (Wire.sendByte 0x00 ++ (Wire.sendByte 0xA6).take 14).map (.write16 chipAddress)

/-- After a byte of data the position is nought, and the byte behind it is taken as a command. -/
theorem frame_exact_overrunning :
    let last : Action := .write16 chipAddress 0x0015
    commanded.load (Savestate.encode overrun.fields) = .ok overrunning ∧
      overrunning.received almostTwo = [0x00] ∧
      (overrunning.play almostTwo).chip.session.inputPos.toNat = 0 ∧
      (overrunning.play almostTwo).chip.session.command = 0x26 ∧
      (overrunning.play almostTwo).handed? last = some 0xA6 ∧
      ((overrunning.play almostTwo).act last).chip.session.command = 0xA6 := by
  intro last
  have held : Wire.select.isSet overrunning.chip.bus = true := by decide +kernel
  have stay : ∀ a ∈ almostTwo, a.StaysInFrame :=
    stay_words (List.forall_mem_append.2 ⟨Wire.select_sendByte 0x00,
      fun w mem ↦ Wire.select_sendByte 0xA6 w (List.mem_of_mem_take mem)⟩)
  have received : overrunning.received almostTwo = [0x00] := by decide +kernel
  have handed : (overrunning.play almostTwo).handed? last = some 0xA6 := by decide +kernel
  have exactly := frame_exact held stay
  rw [received] at exactly
  obtain ⟨position, next, kept⟩ := exactly
  -- with one byte more the number of bytes has come round
  have round : (overrunning.chip.session.inputPos.toNat + [(0x00 : UInt8)].length) % 4294967296 =
      0 := by
    decide +kernel
  have command := kept (by decide +kernel) (by decide +kernel)
  have named := (next last 0xA6 handed).1
  rw [if_pos round] at named
  exact ⟨load_overrun, received, position.trans round, command.trans (by decide +kernel), handed,
    named.trans (by decide +kernel)⟩

/-- It is not so that a byte which is not the first one of its frame is never a command: in
this frame the second byte after the load is one. -/
theorem overrun_not_kept :
    ¬∀ m actions, Reachable m → Wire.select.isSet m.chip.bus = true →
      0 < m.chip.session.inputPos.toNat → (∀ a ∈ actions, a.StaysInFrame) →
        (m.play actions).chip.session.command = m.chip.session.command := by
  intro always
  have holds : ∀ w ∈ Wire.send [0x00, 0xA6], Wire.select.isSet w = true := by
    rw [Wire.send_eq]
    exact Wire.select_sendBits _
  have kept := always overrunning _ reachable_overrunning (by decide +kernel) (by decide +kernel)
    (stay_words holds)
  let actions : List Action := (Wire.send [0x00, 0xA6]).map (.write16 chipAddress)
  have changed : (overrunning.play actions).chip.session.command ≠
      overrunning.chip.session.command := by
    decide +kernel
  exact changed kept

end Machine

end ClockChip
