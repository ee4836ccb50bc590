import ClockChip.Proofs.Frames
import ClockChip.Proofs.Groups
import ClockChip.Proofs.Reading

/-!
# Data for the registers

After the command of a frame every further byte is data.  As long as the bytes can be
counted, the group that the command addresses takes them one after another from its first
position on (`registers_receiveAll`), so that a transfer is a single write of the whole
group (`writeTransfer_group`), however its command was ordered and wherever in a byte
it ends.  Its accesses are the stores of its data and nothing else
(`accesses_writeTransfer`).

The chip does not look at the direction of the command for this.  A host that goes on
sending after a command that reads writes to the group that it has read
(`registers_afterRead`).
-/

namespace ClockChip

namespace Wire

/-- The words of a transfer that writes: a command, data, and some bits more that do not
make a byte. -/
def writeTransfer (cmd : UInt8) (bs : List UInt8) (extra : List Bool) : List Word :=
  start ++ send (cmd :: bs) ++ extra.flatMap sendBit ++ stop

/-- In between the chip is selected and takes bits only. -/
theorem writeTransfer_eq (cmd : UInt8) (bs : List UInt8) (extra : List Bool) :
    writeTransfer cmd bs extra =
      start ++ ((cmd :: bs).flatMap bits ++ extra).flatMap sendBit ++ stop := by
  rw [writeTransfer, send_eq, List.flatMap_append, List.append_assoc start]

end Wire

namespace Registers

/-- The registers when data has come for what a command addresses, if it is anything. -/
def sent (group : Option Group) (bs : List UInt8) (r : Registers) : Registers :=
  match group with
  | none => r
  | some g => r.writeGroup g bs

/-- No data is no write. -/
theorem sent_nil (group : Option Group) (r : Registers) : r.sent group [] = r := by
  cases group with
  | none => rfl
  | some g => exact (r.writeFrom_eq_writeGroup g []).symm

end Registers

namespace Chip

open Wire

variable {c : Chip}

/-! ## Bytes after the first -/

/-- The command of a frame that writes is kept and does nothing yet. -/
theorem receive_write {b : UInt8} (first : c.session.inputPos = 0)
    (writes : Command.isRead (Command.normalize c.console b) = false) :
    c.receive b =
      { c with
        session :=
          { c.session with inputPos := 1, command := Command.normalize c.console b } } := by
  rw [receive, if_pos first, Chip.command, if_neg (by rw [writes]; decide), first]
  rfl

section

variable {p : Nat}

/-- A position that can be counted is not that of the command. -/
theorem inputPos_data (position : c.session.inputPos = UInt32.ofNat p) (data : 1 ≤ p)
    (countable : p < UInt32.size) : c.session.inputPos.toNat = p ∧ c.session.inputPos ≠ 0 := by
  have inside : c.session.inputPos.toNat = p := by
    rw [position]
    exact UInt32.toNat_ofNat_of_lt countable
  refine ⟨inside, fun first ↦ ?_⟩
  rw [first] at inside
  simp only [UInt32.reduceToNat] at inside
  omega

/-- A byte of data is stored, and the position goes on. -/
theorem receive_data (position : c.session.inputPos = UInt32.ofNat p) (data : 1 ≤ p)
    (countable : p < UInt32.size) (b : UInt8) :
    c.receive b =
      { c with
        registers := (c.store b).registers
        session := { c.session with inputPos := UInt32.ofNat (p + 1) } } := by
  rw [receive, if_neg (inputPos_data position data countable).2, store_frame, UInt32.ofNat_add,
    ← position]
  rfl

/-- Further bytes go to the group that the command addresses, whatever its direction. -/
theorem registers_receiveAll {bs : List UInt8}
    (position : c.session.inputPos = UInt32.ofNat p) (data : 1 ≤ p)
    (countable : p + bs.length ≤ UInt32.size) :
    (c.receiveAll bs).registers =
      match Command.group? c.console c.session.command with
      | none => c.registers
      | some g => c.registers.writeFrom g p bs := by
  induction bs generalizing c p with
  | nil =>
    split <;> rfl
  | cons b bs ih =>
    rw [List.length_cons] at countable
    have received := receive_data position data (by omega) b
    have rest := ih (c := c.receive b) (p := p + 1) (by rw [received]) (by omega) (by omega)
    change ((c.receive b).receiveAll bs).registers = _
    rw [rest, received, Chip.store]
    dsimp only
    cases Command.group? c.console c.session.command with
    | none => rfl
    | some g =>
      dsimp only
      rw [(inputPos_data position data (by omega)).1]
      rfl

/-- They are the stores of the bytes, one after another. -/
theorem byteAccesses_data {bs : List UInt8} {g : Group}
    (addressed : Command.group? c.console c.session.command = some g)
    (position : c.session.inputPos = UInt32.ofNat p) (data : 1 ≤ p)
    (countable : p + bs.length ≤ UInt32.size) :
    c.byteAccesses bs = bs.mapIdx fun i b ↦ .store g (i + p) b := by
  induction bs generalizing c p with
  | nil => rfl
  | cons b bs ih =>
    rw [List.length_cons] at countable
    have received := receive_data position data (by omega) b
    obtain ⟨inside, later⟩ := inputPos_data position data (by omega)
    have access : c.byteAccess? b = some (.store g p b) := by
      rw [byteAccess?, if_neg later, addressed, inside]
      rfl
    have rest := ih (c := c.receive b) (p := p + 1) (by rw [received]; exact addressed)
      (by rw [received]) (by omega) (by omega)
    change (c.byteAccess? b).toList ++ (c.receive b).byteAccesses bs = _
    rw [access, rest, List.mapIdx_cons, Nat.zero_add]
    simp only [Nat.add_right_comm _ 1 p]
    rfl

end

/-- Data right after the command. -/
theorem registers_data {bs : List UInt8} (position : c.session.inputPos = 1)
    (countable : bs.length < UInt32.size) :
    (c.receiveAll bs).registers =
      c.registers.sent (Command.group? c.console c.session.command) bs := by
  rw [registers_receiveAll (p := 1) position (Nat.le_refl 1) (by omega)]
  cases Command.group? c.console c.session.command with
  | none => rfl
  | some g => exact Registers.writeFrom_eq_writeGroup g bs c.registers

/-! ## Transfers that write -/

/-- A transfer that writes is one write of the group that its command addresses. -/
theorem registers_writeTransfer (c : Chip) {b : UInt8} {bs : List UInt8} {extra : List Bool}
    (writes : Command.isRead (Command.normalize c.console b) = false)
    (countable : bs.length < UInt32.size) (incomplete : extra.length < 8) :
    (c.writeAll (writeTransfer b bs extra)).registers =
      c.registers.sent (Command.group? c.console (Command.normalize c.console b)) bs := by
  have first : (c.session.start).inputPos = 0 := rfl
  have received := receive_write (b := b) (c := { c with session := c.session.start }) first writes
  rw [writeTransfer_eq, writeAll_append, registers_stop, registers_frame c (select_sendBits _),
    bitsToChip_sendBits, pack_bytes_append _ incomplete]
  change (({ c with session := c.session.start }.receive b).receiveAll bs).registers = _
  rw [received]
  exact registers_data rfl countable

/-- The accesses of a transfer that writes are the stores of its data, one after another. -/
theorem accesses_writeTransfer (c : Chip) {b : UInt8} {bs : List UInt8} {extra : List Bool}
    {g : Group} (writes : Command.isRead (Command.normalize c.console b) = false)
    (addressed : Command.group? c.console (Command.normalize c.console b) = some g)
    (countable : bs.length < UInt32.size) (incomplete : extra.length < 8) :
    c.accesses (writeTransfer b bs extra) = bs.mapIdx fun i d ↦ .store g (i + 1) d := by
  have first : (c.session.start).inputPos = 0 := rfl
  have received := receive_write (b := b) (c := { c with session := c.session.start }) first writes
  have command : { c with session := c.session.start }.byteAccess? b = none := by
    rw [byteAccess?, if_pos first, commandAccess?, if_neg (by rw [writes]; decide)]
  rw [writeTransfer_eq, accesses_append, accesses_stop, List.append_nil,
    accesses_frame c (select_sendBits _), bitsToChip_sendBits, pack_bytes_append _ incomplete]
  change (byteAccess? _ b).toList ++
    ({ c with session := c.session.start }.receive b).byteAccesses bs = _
  rw [command, received]
  exact byteAccesses_data addressed rfl (Nat.le_refl 1) (by omega)

/-- Whatever the state in which a host finds the chip, and wherever in a byte it lets go of
it again, a transfer that writes leaves what comes of writing the bytes of data to the group
that the command addresses, as many as the group takes.  A command that addresses no group,
and one for the minute counter, leave the registers alone.  The order of the bits of the
command does not matter, and registers that do not belong to the group stay, but for what a
write of status register 1 does. -/
theorem writeTransfer_group (c : Chip) (b : UInt8) (bs : List UInt8) (extra : List Bool)
    (writes : Command.isRead (Command.normalize c.console b) = false)
    (countable : bs.length < UInt32.size) (incomplete : extra.length < 8) :
    let r := c.registers
    let group := Command.group? c.console (Command.normalize c.console b)
    let after := (c.writeAll (writeTransfer b bs extra)).registers
    (∀ cmd g, Command.group? c.console cmd = some g →
      Command.normalize c.console cmd = cmd ∧
        Command.normalize c.console ⟨cmd.toBitVec.reverse⟩ = cmd) ∧
    (∀ b', Command.normalize c.console b' = Command.normalize c.console b →
      (c.writeAll (writeTransfer b' bs extra)).registers = after) ∧
    (group = none ∨ group = some .minuteCount → after = r) ∧
    ∀ g, group = some g →
      after = r.writeFrom g 1 (bs.take (r.width g)) ∧
      after = r.writeGroup g bs ∧
      (g ≠ .status1 → after = r.withGroup g after) ∧
      (g = .status1 → ∀ d, bs.head? = some d →
        (Status1.reset.isSet d.toBitVec = true →
          after = { Registers.cleared with status1 := d.toBitVec &&& Status1.writable }) ∧
        (Status1.reset.isSet d.toBitVec = false →
          after =
            { r with
              status1 := (r.status1 &&& Status1.reported) ||| (d.toBitVec &&& Status1.writable)
              calendar :=
                if after.hourMode = r.hourMode then r.calendar
                else
                  { r.calendar with
                    hour := (r.calendar.convertHour after.hourMode).hour } })) := by
  intro r group after
  have sent : after = r.sent group bs := registers_writeTransfer c writes countable incomplete
  refine ⟨fun cmd g ↦ Command.normalize_of_group c.console cmd, ?_, ?_, ?_⟩
  · intro b' same
    rw [registers_writeTransfer c (by rw [same]; exact writes) countable incomplete, same, sent]
  · rintro (none | minutes)
    · rw [sent, none]
      rfl
    · rw [sent, minutes]
      rfl
  · intro g addressed
    have written : after = r.writeGroup g bs := by
      rw [sent, addressed]
      rfl
    refine ⟨?_, written, ?_, ?_⟩
    · rw [Registers.writeFrom_take, Registers.writeFrom_eq_writeGroup, written]
    · intro other
      rw [written]
      exact Registers.writeGroup_frame other bs r
    · rintro rfl d head
      have status : after = r.writeStatus1 d := by
        rw [written, Registers.writeGroup, head]
        rfl
      rw [status]
      exact ⟨fun reset ↦ Registers.writeStatus1_reset reset r,
        fun kept ↦ Registers.writeStatus1_kept kept r⟩

/-- The chip of a machine that has just been switched on. -/
def switchedOn : Chip := (Machine.ofConfig {}).chip

/-- The time is set with one byte too many and three bits of another. -/
theorem writeTransfer_group_time :
    (switchedOn.writeAll
        (writeTransfer 0x66 [0x08, 0x30, 0x15, 0x99] [true, false, true])).registers =
      switchedOn.registers.writeFrom .time 1 [0x08, 0x30, 0x15] ∧
    (switchedOn.writeAll
        (writeTransfer 0x66 [0x08, 0x30, 0x15, 0x99] [true, false, true])).registers.calendar =
      ⟨0x00, 0x01, 0x01, 0x00, 0x08, 0x30, 0x15⟩ := by
  obtain ⟨-, -, -, group⟩ := writeTransfer_group switchedOn 0x66 [0x08, 0x30, 0x15, 0x99]
    [true, false, true] (by decide +kernel) (by decide) (by decide)
  obtain ⟨within, -⟩ := group .time (by decide +kernel)
  have taken : ([0x08, 0x30, 0x15, 0x99] : List UInt8).take (switchedOn.registers.width .time) =
      [0x08, 0x30, 0x15] := rfl
  rw [taken] at within
  exact ⟨within, by decide +kernel⟩

/-! ## Bytes after a command that reads -/

/-- A frame that begins with a command that reads: the answer is made, and all bytes after it
are data. -/
theorem registers_readFrame (c : Chip) {b : UInt8} {ws : List Word}
    (reads : Command.isRead (Command.normalize c.console b) = true)
    (holds : ∀ w ∈ ws, select.isSet w = true)
    (countable : (pack (bitsToChip ws)).length < UInt32.size) :
    ((c.writeAll (start ++ sendByte b)).writeAll ws).registers =
      (c.registers.answered (Command.group? c.console (Command.normalize c.console b))).sent
        (Command.group? c.console (Command.normalize c.console b)) (pack (bitsToChip ws)) := by
  have held : ∀ w ∈ sendByte b ++ ws, select.isSet w = true :=
    List.forall_mem_append.2 ⟨select_sendByte b, holds⟩
  have bytes : pack (bitsToChip (sendByte b ++ ws)) = b :: pack (bitsToChip ws) := by
    rw [bitsToChip_append, sendByte_eq, bitsToChip_sendBits, pack_bits_append]
  have received := receive_read (b := b) (c := { c with session := c.session.start }) rfl reads
  rw [← writeAll_append, List.append_assoc, registers_frame c held, bytes]
  change (({ c with session := c.session.start }.receive b).receiveAll _).registers = _
  rw [received]
  exact registers_data rfl countable

/-- A command that reads is done with when its answer is in the buffer.  What the host sends
after it in the same frame, in between asking for bits or not, goes to the group that has been
read as if the command were one that writes: the bytes that its bits can be packed into are
data for this group.  Nothing else that is written before the chip is released changes a
register. -/
theorem registers_afterRead (c : Chip) (b : UInt8) (ws : List Word)
    (reads : Command.isRead (Command.normalize c.console b) = true)
    (holds : ∀ w ∈ ws, select.isSet w = true)
    (countable : (pack (bitsToChip ws)).length < UInt32.size) :
    let group := Command.group? c.console (Command.normalize c.console b)
    let asked := c.writeAll (start ++ sendByte b)
    asked.registers = c.registers.answered group ∧
      (asked.writeAll ws).registers = asked.registers.sent group (pack (bitsToChip ws)) ∧
      ((bitsToChip ws).length < 8 → (asked.writeAll ws).registers = asked.registers) := by
  intro group asked
  have before : asked.registers = c.registers.answered group := by
    have nothing := registers_readFrame c reads (List.forall_mem_nil _) (by decide)
    rw [writeAll_nil] at nothing
    rw [nothing]
    exact Registers.sent_nil group _
  have after : (asked.writeAll ws).registers =
      asked.registers.sent group (pack (bitsToChip ws)) := by
    rw [before]
    exact registers_readFrame c reads holds countable
  refine ⟨before, after, ?_⟩
  intro short
  rw [after, pack_short short]
  exact Registers.sent_nil group _

/-- The host reads the date and time, asks for seven bytes, and then sends one: it is taken for
the year. -/
theorem registers_afterRead_year :
    ((switchedOn.writeAll (start ++ sendByte 0xA6)).writeAll
        (Wire.receive 7 ++ sendByte 0x26)).registers =
      (switchedOn.writeAll (start ++ sendByte 0xA6)).registers.writeGroup .dateTime [0x26] ∧
    (switchedOn.writeAll (start ++ sendByte 0xA6)).registers.calendar.year = 0x00 ∧
    ((switchedOn.writeAll (start ++ sendByte 0xA6)).writeAll
        (Wire.receive 7 ++ sendByte 0x26)).registers.calendar.year = 0x26 := by
  have held : ∀ w ∈ Wire.receive 7 ++ sendByte 0x26, select.isSet w = true :=
    List.forall_mem_append.2 ⟨select_receive 7, select_sendByte 0x26⟩
  have group : Command.group? switchedOn.console (Command.normalize switchedOn.console 0xA6) =
      some .dateTime := by
    decide +kernel
  have bytes : pack (bitsToChip (Wire.receive 7 ++ sendByte 0x26)) = [0x26] := by decide +kernel
  obtain ⟨-, after, -⟩ := registers_afterRead switchedOn 0xA6 (Wire.receive 7 ++ sendByte 0x26)
    (by decide +kernel) held (by rw [bytes]; decide)
  rw [group, bytes] at after
  exact ⟨after, by decide +kernel, by decide +kernel⟩

/-- So it is not the case that nothing a host writes after a command that reads can change a
register. -/
theorem afterRead_not_kept :
    ¬ ∀ m : Machine, m.Reachable → ∀ (b : UInt8) (ws : List Word),
      Command.isRead (Command.normalize m.chip.console b) = true →
      (∀ w ∈ ws, select.isSet w = true) →
      ((m.chip.writeAll (start ++ sendByte b)).writeAll ws).registers =
        (m.chip.writeAll (start ++ sendByte b)).registers := by
  intro kept
  have same := kept (Machine.ofConfig {}) (.start {}) 0xA6 (sendByte 0x26) (by decide +kernel)
    (select_sendByte 0x26)
  have year : ((switchedOn.writeAll (start ++ sendByte 0xA6)).writeAll
      (sendByte 0x26)).registers.calendar.year ≠
      (switchedOn.writeAll (start ++ sendByte 0xA6)).registers.calendar.year := by
    decide +kernel
  exact year (congrArg (fun r : Registers ↦ r.calendar.year) same)

end Chip

end ClockChip
