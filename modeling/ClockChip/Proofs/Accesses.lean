import ClockChip.Machine.Action
import ClockChip.Proofs.Observation

/-!
# The access that a write of the bus register is

Most writes of the bus register move a wire and nothing more.  The one that brings
the last bit of a byte can be an *access* of the register file: a group is read, or a
byte is stored at a place of one.  Which access it is follows from the bus register,
the session and the console, and the registers have no say in it (`access?`).

So a write can be taken apart.  The registers undergo the access and nothing else
(`registers_write`), and everything else comes out the same with any other registers
that the access reads the same from (`write_withRegisters`).  Words that are written one
after another are a list of accesses (`accesses`), which is the same with any registers as
long as nothing is read (`accesses_withRegisters`).  A read puts what it has read at the
front of the buffer (`output_write`).
-/

namespace ClockChip

/-- The group is one of the extended class, which the later console alone has. -/
def Group.extended : Group → Bool
  | .minuteCount | .fout1 | .fout2 | .alarmDate1 | .alarmDate2 => true
  | _ => false

/-- What the host does to the register file by a byte that it sends. -/
inductive Access where
  | read (g : Group)
  | store (g : Group) (position : Nat) (b : UInt8)
deriving DecidableEq, Repr

namespace Access

/-- The group that is read or stored in. -/
def group : Access → Group
  | read g => g
  | store g _ _ => g

/-- The access clears every register: it is a first byte for status register 1 with the
lowest bit set. -/
def clears : Access → Bool
  | store .status1 position b => position == 1 && Status1.reset.isSet b.toBitVec
  | _ => false

theorem clears_of_ne {position : Nat} (later : position ≠ 1) (b : UInt8) :
    (store .status1 position b).clears = false := by
  rw [clears, beq_false_of_ne later, Bool.false_and]

end Access

namespace Registers

/-- The registers after an access, if there is one. -/
def accessed (r : Registers) : Option Access → Registers
  | none => r
  | some (.read g) => r.acknowledge g
  | some (.store g position b) => r.write g position b

/-- Register files from which an access reads the same. -/
def SameAnswer (access : Option Access) (r r' : Registers) : Prop :=
  ∀ g, access = some (.read g) → r'.read g = r.read g

end Registers

namespace Chip

variable {c : Chip} {r : Registers}

/-! ## Which access it is -/

/-- The access that a command is: one that writes does nothing by itself. -/
def commandAccess? (c : Chip) (b : UInt8) : Option Access :=
  let cmd := Command.normalize c.console b
  if Command.isRead cmd then (Command.group? c.console cmd).map .read else none

/-- The access that a byte from the host is. -/
def byteAccess? (c : Chip) (b : UInt8) : Option Access :=
  if c.session.inputPos = 0 then c.commandAccess? b
  else (Command.group? c.console c.session.command).map (.store · c.session.inputPos.toNat b)

/-- The access that goes with what a write means. -/
def edgeAccess? (c : Chip) : Edge → Option Access
  | .toChip bit => (c.session.shiftIn bit).1.bind c.byteAccess?
  | _ => none

/-- The access that a write of the bus register is. -/
def access? (w : Word) (c : Chip) : Option Access := c.edgeAccess? (.of c.bus w)

/-- A byte that is complete leaves the rest of the session as it was. -/
theorem session_of_shiftIn {bit : Bool} {b : UInt8} {s s' : Session}
    (shifted : s.shiftIn bit = (some b, s')) : s' = { s with input := 0, inputBit := 0 } := by
  unfold Session.shiftIn at shifted
  split at shifted
  · nomatch shifted
  · exact (Prod.mk.inj shifted).2.symm

/-- The last bit of a byte is the access that the byte is. -/
theorem edgeAccess?_of_shiftIn {bit : Bool} {b : UInt8} {s : Session}
    (shifted : c.session.shiftIn bit = (some b, s)) :
    c.edgeAccess? (.toChip bit) = { c with session := s }.byteAccess? b := by
  unfold edgeAccess?
  dsimp only
  rw [shifted, session_of_shiftIn shifted]
  rfl

/-- A bit before the last is no access. -/
theorem edgeAccess?_of_incomplete {bit : Bool} {s : Session}
    (shifted : c.session.shiftIn bit = (none, s)) : c.edgeAccess? (.toChip bit) = none := by
  unfold edgeAccess?
  dsimp only
  rw [shifted]
  rfl

/-! ## What the registers do not decide -/

open Registers (SameAnswer)

theorem answer_withRegisters
    (same : SameAnswer ((Command.group? c.console c.session.command).map .read) c.registers r) :
    { c with registers := r }.answer =
      { c.answer with
        registers := r.accessed ((Command.group? c.console c.session.command).map .read) } := by
  unfold answer
  dsimp only
  cases group : Command.group? c.console c.session.command with
  | none => rfl
  | some g =>
    have read : r.read g = c.registers.read g := same g (by rw [group]; rfl)
    dsimp only
    rw [read]
    rfl

theorem store_withRegisters (b : UInt8) :
    { c with registers := r }.store b =
      { c.store b with
        registers := r.accessed ((Command.group? c.console c.session.command).map
          (.store · c.session.inputPos.toNat b)) } := by
  unfold store
  dsimp only
  cases Command.group? c.console c.session.command <;> rfl

theorem command_withRegisters {b : UInt8} (same : SameAnswer (c.commandAccess? b) c.registers r) :
    { c with registers := r }.command b =
      { c.command b with registers := r.accessed (c.commandAccess? b) } := by
  unfold command
  unfold commandAccess? at same ⊢
  dsimp only at same ⊢
  split at same
  · next reads =>
    rw [if_pos reads, if_pos reads, if_pos reads]
    exact answer_withRegisters (c := { c with session.command := _ }) same
  · next writes =>
    rw [if_neg writes, if_neg writes, if_neg writes]
    rfl

theorem receive_withRegisters {b : UInt8} (same : SameAnswer (c.byteAccess? b) c.registers r) :
    { c with registers := r }.receive b =
      { c.receive b with registers := r.accessed (c.byteAccess? b) } := by
  unfold receive
  unfold byteAccess? at same ⊢
  dsimp only
  split at same
  · next first => rw [if_pos first, if_pos first, if_pos first, command_withRegisters same]
  · next later => rw [if_neg later, if_neg later, if_neg later, store_withRegisters]

theorem serve_withRegisters {edge : Edge} (same : SameAnswer (c.edgeAccess? edge) c.registers r) :
    { c with registers := r }.serve edge =
      { c.serve edge with registers := r.accessed (c.edgeAccess? edge) } := by
  cases edge with
  | idle => rfl
  | start => rfl
  | toChip bit =>
    unfold serve takeBit
    dsimp only
    split
    · next s shifted =>
      unfold edgeAccess?
      dsimp only
      rw [shifted]
      rfl
    · next b s shifted =>
      rw [edgeAccess?_of_shiftIn shifted] at same ⊢
      exact receive_withRegisters (c := { c with session := s }) same
  | fromChip =>
    unfold serve giveBit
    dsimp only
    split <;> rfl

/-- With other registers, from which the access reads the same, a write differs in what it
makes of the registers only. -/
theorem write_withRegisters {w : Word} (same : SameAnswer (c.access? w) c.registers r) :
    { c with registers := r }.write w =
      { c.write w with registers := r.accessed (c.access? w) } :=
  congrArg (latch w) (serve_withRegisters same)

/-- A write does to the registers what its access does. -/
theorem registers_write (w : Word) (c : Chip) :
    (c.write w).registers = c.registers.accessed (c.access? w) :=
  congrArg registers (write_withRegisters (c := c) (r := c.registers) fun _ _ ↦ rfl)

/-- So does a byte from the host. -/
theorem registers_receive (b : UInt8) (c : Chip) :
    (c.receive b).registers = c.registers.accessed (c.byteAccess? b) :=
  congrArg registers (receive_withRegisters (c := c) (r := c.registers) fun _ _ ↦ rfl)

/-! ## One access after another -/

/-- If each step does to the registers what its access does, they undergo the accesses one
after another. -/
theorem registers_along {α : Type} {access? : Chip → α → Option Access} {step : Chip → α → Chip}
    (one : ∀ c a, (step c a).registers = c.registers.accessed (access? c a)) (as : List α)
    (c : Chip) :
    (as.foldl step c).registers =
      (seenAlong (fun c a ↦ (access? c a).toList) step c as).foldl
        (fun r a ↦ r.accessed (some a)) c.registers := by
  refine foldl_seenAlong registers (fun c a ↦ ?_) c as
  rw [one]
  cases access? c a <;> rfl

/-- The accesses that words are. -/
def accesses (ws : List Word) (c : Chip) : List Access :=
  seenAlong (fun c w ↦ (c.access? w).toList) (fun c w ↦ c.write w) c ws

theorem accesses_cons (w : Word) (ws : List Word) (c : Chip) :
    c.accesses (w :: ws) = (c.access? w).toList ++ (c.write w).accesses ws := rfl

theorem accesses_append (ws ws' : List Word) (c : Chip) :
    c.accesses (ws ++ ws') = c.accesses ws ++ (c.writeAll ws).accesses ws' :=
  seenAlong_append c ws ws'

/-- Words do to the registers what their accesses do. -/
theorem registers_writeAll (ws : List Word) (c : Chip) :
    (c.writeAll ws).registers =
      (c.accesses ws).foldl (fun r a ↦ r.accessed (some a)) c.registers :=
  registers_along (fun c w ↦ registers_write w c) ws c

/-- Where nothing is read, the accesses are the same with any other registers. -/
theorem accesses_withRegisters {ws : List Word} (unread : ∀ g, .read g ∉ c.accesses ws) :
    { c with registers := r }.accesses ws = c.accesses ws := by
  induction ws generalizing c r with
  | nil => rfl
  | cons w ws ih =>
    rw [accesses_cons] at unread
    have same : SameAnswer (c.access? w) c.registers r := by
      intro g read
      refine absurd ?_ (unread g)
      rw [read]
      exact List.mem_cons_self
    rw [accesses_cons, accesses_cons, write_withRegisters same,
      ih fun g mem ↦ unread g (List.mem_append_right _ mem)]
    rfl

/-! ## What is read -/

theorem byteAccess?_eq_read {b : UInt8} {g : Group} (read : c.byteAccess? b = some (.read g)) :
    c.session.inputPos = 0 ∧ Command.isRead (Command.normalize c.console b) = true ∧
      Command.group? c.console (Command.normalize c.console b) = some g := by
  unfold byteAccess? at read
  split at read
  · next first =>
    unfold commandAccess? at read
    dsimp only at read
    split at read
    · next reads =>
      obtain ⟨g', group, eq⟩ := Option.map_eq_some_iff.1 read
      exact ⟨first, reads, group.trans (congrArg some (Access.read.inj eq))⟩
    · nomatch read
  · obtain ⟨_, -, eq⟩ := Option.map_eq_some_iff.1 read
    nomatch eq

theorem output_receive {b : UInt8} {g : Group} (read : c.byteAccess? b = some (.read g)) :
    (c.receive b).session.output = (c.session.load (c.registers.read g)).output := by
  obtain ⟨first, reads, group⟩ := byteAccess?_eq_read read
  unfold receive command answer
  dsimp only
  rw [if_pos first, if_pos reads, group]
  rfl

/-- What is read stands at the front of the buffer. -/
theorem output_write {w : Word} {g : Group} (read : c.access? w = some (.read g)) :
    (c.write w).session.output = (c.session.load (c.registers.read g)).output := by
  unfold access? at read
  unfold write
  change (c.serve (.of c.bus w)).session.output = _
  cases edge : Edge.of c.bus w with
  | toChip bit =>
    rw [edge] at read
    obtain ⟨b, completed, -⟩ := Option.bind_eq_some_iff.1 read
    have shifted : c.session.shiftIn bit = (some b, (c.session.shiftIn bit).2) :=
      Prod.ext completed rfl
    have received := output_receive ((edgeAccess?_of_shiftIn shifted).symm.trans read)
    unfold serve takeBit
    dsimp only
    rw [shifted]
    refine received.trans ?_
    rw [session_of_shiftIn shifted]
    rfl
  | _ =>
    rw [edge] at read
    nomatch read

end Chip

/-! ## Through the address space -/

namespace Machine

/-- The access that an action is, if it is a write that reaches the chip. -/
def access? (m : Machine) : Action → Option Access
  | .write16 address w => if address = chipAddress then m.chip.access? w else none
  | .write8 address b => if address = chipAddress then m.chip.access? (m.chip.widen b) else none
  | _ => none

theorem registers_write16 (m : Machine) (address : UInt32) (w : Word) :
    (m.write16 address w).chip.registers =
      m.chip.registers.accessed (m.access? (.write16 address w)) := by
  unfold write16 access?
  dsimp only
  split
  · exact Chip.registers_write w m.chip
  · rfl

theorem registers_write8 (m : Machine) (address : UInt32) (b : UInt8) :
    (m.write8 address b).chip.registers =
      m.chip.registers.accessed (m.access? (.write8 address b)) := by
  unfold write8 access?
  dsimp only
  split
  · exact Chip.registers_write _ m.chip
  · rfl

/-- What is read stands at the front of the buffer, whichever write it is. -/
theorem output_act {m : Machine} {a : Action} {g : Group} (read : m.access? a = some (.read g)) :
    (m.act a).chip.session.output =
      (m.chip.session.load (m.chip.registers.read g)).output := by
  unfold access? at read
  split at read
  · next address w =>
    split at read
    · next here =>
      rw [act, write16, if_pos here]
      exact Chip.output_write read
    · nomatch read
  · next address b =>
    split at read
    · next here =>
      rw [act, write8, if_pos here]
      exact Chip.output_write read
    · nomatch read
  · nomatch read

end Machine

end ClockChip
