import ClockChip.Machine.Display
import ClockChip.Proofs.Frames
import ClockChip.Proofs.Reading

/-!
# Transfers at a standstill

A host that makes a transfer that reads and lets no time pass meanwhile gets the bytes of
the group, and leaves the chip in a state that depends on what it has asked for and on the
registers, and on nothing that was on the bus before (`readGroup_eq`).  Of the session it is the
receiving half that is known from the bits that went to the chip (`SameInput`), and
the sending half from the bits that came back (`Sending`).

So a host that is restored in the middle of anything, and a host that has made more
transfers than another, are where they would have been after the next transfer; all that
they may differ in meanwhile is what `withBus` changes.
-/

namespace ClockChip

namespace Wire

/-- A host that asks for bits sends none. -/
theorem bitsToChip_receive (n : Nat) : bitsToChip (receive n) = [] := by
  rw [receive]
  induction 8 * n with
  | zero => rfl
  | succ k ih => rw [List.replicate_succ, List.flatten_cons, bitsToChip_append, ih]; rfl

end Wire

namespace Session

/-- The session when the answer to a command has been sent to its `n`-th byte. -/
def afterRead (command : UInt8) (answer : List UInt8) (n : Nat) : Session :=
  { ({} : Session).load answer with
    inputPos := 1
    outputPos := UInt32.ofNat (min n 7)
    command }

theorem cursors_afterRead (command : UInt8) (answer : List UInt8) (n : Nat) :
    (afterRead command answer n).Cursors where
  inputBit := show (0 : UInt32) < 8 by decide
  outputBit := show (0 : UInt32) < 8 by decide
  outputPos := by
    change UInt32.ofNat (min n 7) ≤ 7
    rw [UInt32.le_iff_toNat_le, UInt32.toNat_ofNat']
    simp only [UInt32.reduceToNat]
    omega

end Session

namespace Machine

open Wire

/-! ## Writing words -/

theorem chip_play_words (ws : List Word) (m : Machine) :
    m.play (ws.map (.write16 chipAddress)) = { m with chip := m.chip.writeAll ws } := by
  induction ws generalizing m with
  | nil => rfl
  | cons w ws ih => exact (ih _).trans (by rw [act, write16_chip, Chip.writeAll_cons])

theorem readings_words (ws : List Word) (m : Machine) :
    m.readings (ws.map (.write16 chipAddress)) = (m.chip.trace ws).1 := by
  induction ws generalizing m with
  | nil => rfl
  | cons w ws ih =>
    have first : m.act (.write16 chipAddress w) = { m with chip := m.chip.write w } :=
      m.write16_chip w
    rw [List.map_cons, readings_cons, first, ih, readingsOf, read16_chip]
    rfl

/-- No tick falls between words that are written one after another. -/
theorem ticksOfPlay_words (ws : List Word) (m : Machine) :
    m.ticksOfPlay (ws.map (.write16 chipAddress)) = [] := by
  induction ws generalizing m with
  | nil => rfl
  | cons w ws ih => exact ih _

theorem registers_words {ws : List Word} {m : Machine}
    (only : m.OnlyRunsTouch (ws.map (.write16 chipAddress))) :
    (m.play (ws.map (.write16 chipAddress))).chip.registers = m.chip.registers := by
  rw [registers_play _ m only, ticksOfPlay_words]
  rfl

/-! ## A transfer that reads -/

section

variable (m : Machine) (b : UInt8) (n : Nat)

/-- What the chip is sending when the host has its bytes, and what the host makes of them. -/
theorem sending_read (reads : Command.isRead (Command.normalize m.chip.console b) = true) :
    let group := Command.group? m.chip.console (Command.normalize m.chip.console b)
    let asked := m.chip.writeAll (start ++ sendByte b)
    Chip.Sending (m.chip.session.start.load (m.chip.registers.answer group)).output (8 * n)
        (asked.writeAll (receive n)) ∧
      pack (samples (asked.trace (receive n)).1) =
        (m.chip.registers.answer group ++ List.replicate n 0).take n := by
  intro group asked
  -- up to the last bit of the command, that bit, and the rest
  let first := (start ++ (sendByte b).take 14).map (Action.write16 chipAddress)
  have paced : Paced (start ++ (sendByte b).take 14) first := .of_words _
  obtain ⟨collected, only⟩ := paced.asking (b := b) m
  have registers : (m.play first).chip.registers = m.chip.registers := registers_words only
  have console : (m.play first).chip.console = m.chip.console := paced.console_play m
  obtain ⟨answers, -⟩ := collected.write_command (by rw [console]; exact reads)
  rw [console, registers] at answers
  have ready := (answers.clockHigh (b.toBitVec.getLsbD 7)).1
  have whole : asked = ((m.play first).chip.write (clockLow (b.toBitVec.getLsbD 7))).write
      (clockHigh (b.toBitVec.getLsbD 7)) := by
    rw [chip_play_words]
    rfl
  rw [← whole] at ready
  obtain ⟨sending, -, bits⟩ :=
    Paced.sending (k := 8 * n) (m := { m with chip := asked }) (.of_words _) ready
  rw [chip_play_words, Nat.zero_add] at sending
  rw [readings_words] at bits
  refine ⟨sending, ?_⟩
  have answer : Chip.byteAt (m.chip.session.start.load (m.chip.registers.answer group)).output =
      fun k ↦ (m.chip.registers.answer group)[k]?.getD 0 :=
    funext (Chip.byteAt_load _ (Registers.length_answer_le _ _))
  rw [← Chip.map_getD_range', ← answer, ← Chip.pack_sentBits]
  exact congrArg pack bits

/-- What the chip has taken in of the transfer is the command. -/
theorem sameInput_read :
    Chip.SameInput ({ m.chip with session := m.chip.session.start }.receive b)
      (m.chip.writeAll (start ++ sendByte b ++ receive n)) := by
  have holds : ∀ w ∈ sendByte b ++ receive n, select.isSet w = true :=
    List.forall_mem_append.2 ⟨select_sendByte b, select_receive n⟩
  have taken : bitsToChip (sendByte b ++ receive n) = bits b := by
    rw [bitsToChip_append, sendByte_eq, bitsToChip_sendBits, bitsToChip_receive, List.append_nil]
  have inputs :=
    (Chip.writeAll_held (Chip.held_start m.chip) holds (Chip.sameInput_start m.chip)).1
  rw [taken, (Chip.atByte_start m.chip).takeBits_bits] at inputs
  rw [List.append_assoc, Chip.writeAll_append]
  exact inputs

/-- A transfer that reads gives the bytes of the group, and leaves everything that is not of
the registers or of the time as the transfer itself has made it. -/
theorem readGroup_eq (reads : Command.isRead (Command.normalize m.chip.console b) = true) :
    let command := Command.normalize m.chip.console b
    let group := Command.group? m.chip.console command
    let answer := m.chip.registers.answer group
    m.readGroup b n =
      ((answer ++ List.replicate n 0).take n,
        { m with
          chip :=
            { m.chip with
              bus := released
              session := .afterRead command answer n
              registers := m.chip.registers.answered group } }) := by
  intro command group answer
  obtain ⟨sending, bytes⟩ := sending_read m b n reads
  obtain ⟨bus, output, outputBit, outputPos, same⟩ := sameInput_read m b n
  rw [← Chip.writeAll_append, same] at sending
  have sent : output = (({} : Session).load answer).output := sending.output
  have last : outputBit = 0 := sending.outputBit.trans (by rw [Nat.mul_mod_right]; rfl)
  have position : outputPos = UInt32.ofNat (min n 7) :=
    sending.outputPos.trans (by rw [Nat.mul_div_cancel_left n (by decide)])
  have chip : m.chip.writeAll (start ++ sendByte b ++ receive n) =
      { m.chip with
        bus
        session := .afterRead command answer n
        registers := m.chip.registers.answered group } := by
    rw [same, Chip.receive_read (c := { m.chip with session := m.chip.session.start }) rfl reads,
      sent, last, position]
    rfl
  refine Prod.ext bytes ?_
  change { m with chip :=
    ((m.chip.writeAll (start ++ sendByte b)).trace (receive n)).2.writeAll stop } = _
  rw [Chip.trace_snd, ← Chip.writeAll_append (start ++ sendByte b), chip, stop,
    Chip.writeAll_cons, Chip.write_released]
  rfl

end

end Machine

/-- The bytes that a transfer of a chip gives. -/
theorem Chip.readTransfer_bytes (c : Chip) {b : UInt8} {g : Group} (n : Nat)
    (reads : Command.isRead (Command.normalize c.console b) = true)
    (addressed : Command.group? c.console (Command.normalize c.console b) = some g) :
    (c.readTransfer b n).1 = (c.registers.read g ++ List.replicate n 0).take n := by
  have read := congrArg Prod.fst (Machine.readGroup_eq { chip := c, config := {} } b n reads)
  dsimp only at read
  rw [addressed] at read
  exact read

end ClockChip
