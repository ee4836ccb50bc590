import ClockChip.Proofs.Accesses

/-!
# What a write of the bus register can do

Whatever word is written, the chip's console, its oscillator and the registration
of its ticks stay (`write_frame`), and the register then holds that word, but for a data
line that the chip drives (`bus_write`).  What the registers and the session make of it
depends on the meaning of the word and on nothing else in the register, and not on the
time base (`write_within`).

The registers change in one of two ways, by the acknowledgement of a group that is read or
by a byte that is stored in a group (`touched_write`), which goes to status register 1, to
the calendar, or past both (`write_cases`), and the cursors of the session stay inside
their buffers (`cursors_write`).  The address space adds nothing to that: a write of either
width reaches the chip or nothing at all (`write16_of`, `write8_of`).
-/

namespace ClockChip

namespace Chip

variable (c : Chip)

/-! ## What stays -/

theorem answer_frame :
    c.answer = { c with session := c.answer.session, registers := c.answer.registers } := by
  unfold answer
  split <;> rfl

theorem store_frame (b : UInt8) : c.store b = { c with registers := (c.store b).registers } := by
  unfold store
  split <;> rfl

theorem receive_frame (b : UInt8) :
    c.receive b =
      { c with session := (c.receive b).session, registers := (c.receive b).registers } := by
  unfold receive command
  split
  · dsimp only
    split
    · rw [answer_frame]
    · rfl
  · rw [store_frame]

/-- A byte moves the position on and may be the command, and beside these the session has a new
answer at most. -/
theorem session_receive (b : UInt8) :
    ∃ output, (c.receive b).session =
      { c.session with
        output
        inputPos := c.session.inputPos + 1
        command := if c.session.inputPos = 0 then Command.normalize c.console b
          else c.session.command } := by
  unfold receive
  dsimp only
  by_cases first : c.session.inputPos = 0
  · rw [if_pos first, if_pos first]
    unfold command answer
    dsimp only
    split
    · split <;> exact ⟨_, rfl⟩
    · exact ⟨_, rfl⟩
  · rw [if_neg first, if_neg first, store_frame]
    exact ⟨_, rfl⟩

/-- A write reaches the bus register, the session and the registers only. -/
theorem write_frame (w : Word) :
    c.write w =
      { c with
        bus := (c.write w).bus
        session := (c.write w).session
        registers := (c.write w).registers } := by
  unfold write
  cases Edge.of c.bus w with
  | idle => rfl
  | start => rfl
  | toChip bit =>
    unfold serve takeBit
    dsimp only
    split
    · rfl
    · rw [receive_frame]; rfl
  | fromChip =>
    unfold serve giveBit
    dsimp only
    split <;> rfl

@[simp] theorem console_write (w : Word) : (c.write w).console = c.console := by
  rw [write_frame]

@[simp] theorem console_writeAll (ws : List Word) : (c.writeAll ws).console = c.console := by
  induction ws generalizing c with
  | nil => rfl
  | cons w ws ih => rw [writeAll_cons, ih, console_write]

@[simp] theorem oscillator_write (w : Word) : (c.write w).oscillator = c.oscillator := by
  rw [write_frame]

@[simp] theorem tickHandle_write (w : Word) : (c.write w).tickHandle = c.tickHandle := by
  rw [write_frame]

/-! ## The word in the register -/

theorem bus_takeBit (bit : Bool) : (c.takeBit bit).bus = c.bus := by
  unfold takeBit
  split
  · rfl
  · rw [receive_frame]

theorem data_giveBit :
    Wire.data.isSet c.giveBit.bus =
      (c.session.shiftOut?.map Prod.fst).getD (Wire.data.isSet c.bus) := by
  unfold giveBit
  cases c.session.shiftOut? with
  | none => rfl
  | some given => exact BitRange.isSet_put (w := 16) (by decide) given.1 c.bus

/-- The bit on the data line after a write that leaves it to the chip. -/
def driven (w : Word) : Bool :=
  match Edge.of c.bus w with
  | .fromChip => (c.session.shiftOut?.map Prod.fst).getD (Wire.data.isSet c.bus)
  | _ => Wire.data.isSet c.bus

/-- The register holds the word that is written, but for the data line if that is not the
host's. -/
theorem bus_write (w : Word) :
    (c.write w).bus = if Wire.output.isSet w then w else Wire.data.put (c.driven w) w := by
  have line : Wire.data.isSet (c.serve (.of c.bus w)).bus = c.driven w := by
    unfold driven
    cases Edge.of c.bus w with
    | idle => rfl
    | start => rfl
    | toChip bit => exact congrArg Wire.data.isSet (bus_takeBit c bit)
    | fromChip => exact data_giveBit c
  unfold write latch
  dsimp only
  rw [line]

/-- The select line is always the host's. -/
theorem select_write (w : Word) : Wire.select.isSet (c.write w).bus = Wire.select.isSet w := by
  rw [bus_write]
  split
  · rfl
  · rw [Wire.select, BitRange.isSet_bit, BitRange.isSet_bit, Wire.data,
      BitRange.getLsbD_put, if_neg (by decide)]

/-- The data line is that of whoever drives it. -/
theorem data_write (w : Word) :
    Wire.data.isSet (c.write w).bus =
      if Wire.output.isSet w then Wire.data.isSet w else c.driven w := by
  rw [bus_write]
  split
  · rfl
  · exact BitRange.isSet_put (w := 16) (by decide) _ w

/-! ## What a write does not depend on -/

section

variable (bus : Word) (oscillator : Oscillator) (tickHandle : Handle)

/-- The chip in other surroundings: with another word in the bus register, another time base
and another registration. -/
def within : Chip := { c with bus, oscillator, tickHandle }

theorem answer_within :
    (c.within bus oscillator tickHandle).answer = c.answer.within bus oscillator tickHandle := by
  unfold answer within
  dsimp only
  split <;> rfl

theorem store_within (b : UInt8) :
    (c.within bus oscillator tickHandle).store b =
      (c.store b).within bus oscillator tickHandle := by
  unfold store within
  dsimp only
  split <;> rfl

theorem command_within (b : UInt8) :
    (c.within bus oscillator tickHandle).command b =
      (c.command b).within bus oscillator tickHandle := by
  have answered := answer_within { c with session.command := Command.normalize c.console b }
    bus oscillator tickHandle
  have same : Command.normalize (c.within bus oscillator tickHandle).console b =
    Command.normalize c.console b := rfl
  unfold command
  dsimp only
  rw [same]
  split
  · exact answered
  · rfl

theorem receive_within (b : UInt8) :
    (c.within bus oscillator tickHandle).receive b =
      (c.receive b).within bus oscillator tickHandle := by
  have same : (c.within bus oscillator tickHandle).session = c.session := rfl
  unfold receive
  rw [same, command_within, store_within]
  split <;> rfl

theorem takeBit_within (bit : Bool) :
    (c.within bus oscillator tickHandle).takeBit bit =
      (c.takeBit bit).within bus oscillator tickHandle := by
  have same : (c.within bus oscillator tickHandle).session.shiftIn bit =
    c.session.shiftIn bit := rfl
  unfold takeBit
  rw [same]
  rcases c.session.shiftIn bit with ⟨_ | b, session⟩
  · rfl
  · exact receive_within { c with session } bus oscillator tickHandle b

/-- What a write means does the same in any surroundings, but for the data line. -/
theorem serve_within (e : Edge) :
    (c.within bus oscillator tickHandle).serve e =
      (c.serve e).within ((c.within bus oscillator tickHandle).serve e).bus oscillator
        tickHandle := by
  cases e with
  | idle => rfl
  | start => rfl
  | toChip bit =>
    have taken := takeBit_within c bus oscillator tickHandle bit
    unfold serve
    dsimp only
    rw [taken]
    rfl
  | fromChip =>
    have same : (c.within bus oscillator tickHandle).session = c.session := rfl
    unfold serve giveBit
    dsimp only
    rw [same]
    split <;> rfl

/-- A word that means the same does the same in any surroundings, but for what the bus register
holds then. -/
theorem write_within {w w' : Word} (same : Edge.of bus w' = Edge.of c.bus w) :
    (c.within bus oscillator tickHandle).write w' =
      (c.write w).within ((c.within bus oscillator tickHandle).write w').bus oscillator
        tickHandle := by
  have edge : Edge.of (c.within bus oscillator tickHandle).bus w' = Edge.of c.bus w := same
  have served := serve_within c bus oscillator tickHandle (Edge.of c.bus w)
  unfold write
  rw [edge, served]
  rfl

end

end Chip

/-! ## Registers -/

namespace Registers

/-- What a write of the bus register makes of a register file. -/
inductive Touched (r : Registers) : Registers → Prop where
  | kept : Touched r r
  | acknowledged (g : Group) : Touched r (r.acknowledge g)
  | written (g : Group) (position : Nat) (b : UInt8) : Touched r (r.write g position b)

/-- Register files that differ in what stands beside the clock: the second status register,
the alarms and the outputs. -/
structure SameClock (r r' : Registers) : Prop where
  status1 : r'.status1 = r.status1
  calendar : r'.calendar = r.calendar
  minuteCount : r'.minuteCount = r.minuteCount

theorem sameClock_writeAlarm1 (position : Nat) (b : UInt8) (r : Registers) :
    SameClock r (r.writeAlarm1 position b) := by
  unfold writeAlarm1
  split
  · exact ⟨rfl, rfl, rfl⟩
  · split <;> exact ⟨rfl, rfl, rfl⟩

/-- Three groups reach the clock, the others go past it. -/
theorem sameClock_write {g : Group} (status : g ≠ .status1) (date : g ≠ .dateTime)
    (time : g ≠ .time) (position : Nat) (b : UInt8) (r : Registers) :
    SameClock r (r.write g position b) := by
  cases g with
  | status1 => exact absurd rfl status
  | dateTime => exact absurd rfl date
  | time => exact absurd rfl time
  | alarm1 => exact sameClock_writeAlarm1 position b r
  | alarm2 => exact ⟨rfl, rfl, rfl⟩
  | minuteCount => exact ⟨rfl, rfl, rfl⟩
  | alarmDate1 => exact ⟨rfl, rfl, rfl⟩
  | alarmDate2 => exact ⟨rfl, rfl, rfl⟩
  | _ =>
    unfold write
    dsimp only
    split <;> exact ⟨rfl, rfl, rfl⟩

/-- A byte for a group goes to status register 1, to the calendar, or past the clock. -/
theorem write_cases (g : Group) (position : Nat) (b : UInt8) (r : Registers) :
    r.write g position b = r.writeStatus1 b ∨
      (∃ place, r.write g position b = r.writeCalendar place b) ∨
      SameClock r (r.write g position b) := by
  cases g with
  | status1 =>
    unfold write
    dsimp only
    split
    · exact .inl rfl
    · exact .inr (.inr ⟨rfl, rfl, rfl⟩)
  | dateTime => exact .inr (.inl ⟨position, rfl⟩)
  | time => exact .inr (.inl ⟨position + 4, rfl⟩)
  | _ => exact .inr (.inr (sameClock_write (by decide) (by decide) (by decide) position b r))

end Registers

namespace Chip

open Registers (Touched)

theorem touched_write (c : Chip) (w : Word) : Touched c.registers (c.write w).registers := by
  rw [registers_write]
  match c.access? w with
  | none => exact .kept
  | some (.read g) => exact .acknowledged g
  | some (.store g position b) => exact .written g position b

end Chip

/-! ## Cursors -/

namespace Session

/-- The cursors are inside what they point into. -/
structure Cursors (s : Session) : Prop where
  inputBit : s.inputBit < 8
  outputBit : s.outputBit < 8
  outputPos : s.outputPos ≤ 7

theorem Cursors.start (s : Session) : s.start.Cursors where
  inputBit := show (0 : UInt32) < 8 by decide
  outputBit := show (0 : UInt32) < 8 by decide
  outputPos := show (0 : UInt32) ≤ 7 by decide

theorem Cursors.load {s : Session} (h : s.Cursors) (bs : List UInt8) : (s.load bs).Cursors :=
  ⟨h.inputBit, h.outputBit, h.outputPos⟩

theorem Cursors.shiftIn {s : Session} (h : s.Cursors) (bit : Bool) : (s.shiftIn bit).2.Cursors := by
  unfold Session.shiftIn
  split
  · next inside => exact ⟨inside, h.outputBit, h.outputPos⟩
  · exact ⟨show (0 : UInt32) < 8 by decide, h.outputBit, h.outputPos⟩

theorem Cursors.advance {s : Session} (h : s.Cursors) : s.advance.Cursors := by
  unfold Session.advance
  split
  · next inside => exact ⟨h.inputBit, inside, h.outputPos⟩
  · refine ⟨h.inputBit, show (0 : UInt32) < 8 by decide, ?_⟩
    dsimp
    split
    · next before =>
      rw [UInt32.lt_iff_toNat_lt] at before
      rw [UInt32.le_iff_toNat_le, UInt32.toNat_add]
      simp only [UInt32.reduceToNat] at *
      omega
    · exact h.outputPos

end Session

namespace Chip

open Session (Cursors)

variable {c : Chip}

theorem cursors_answer (h : c.session.Cursors) : c.answer.session.Cursors := by
  unfold answer
  split
  · exact h
  · exact h.load _

theorem cursors_receive (h : c.session.Cursors) (b : UInt8) : (c.receive b).session.Cursors := by
  unfold receive command
  have moved : ∀ {s : Session}, s.Cursors → Cursors { s with inputPos := s.inputPos + 1 } :=
    fun hs ↦ ⟨hs.inputBit, hs.outputBit, hs.outputPos⟩
  split
  · dsimp only
    have named : Cursors { c.session with command := Command.normalize c.console b } :=
      ⟨h.inputBit, h.outputBit, h.outputPos⟩
    split
    · exact moved (cursors_answer (c := { c with session.command := _ }) named)
    · exact moved named
  · rw [store_frame]
    exact moved h

/-- Whatever is written, the cursors stay where they may be. -/
theorem cursors_write (h : c.session.Cursors) (w : Word) : (c.write w).session.Cursors := by
  unfold write
  cases Edge.of c.bus w with
  | idle => exact h
  | start => exact .start _
  | toChip bit =>
    have shifted := h.shiftIn bit
    unfold serve takeBit
    dsimp only
    split
    · next eq => rw [eq] at shifted; exact shifted
    · next eq => rw [eq] at shifted; exact cursors_receive (c := { c with session := _ }) shifted _
  | fromChip =>
    unfold serve giveBit Session.shiftOut?
    dsimp only
    split
    · exact h
    · next eq =>
      obtain ⟨b, -, sent⟩ := Option.map_eq_some_iff.1 eq
      obtain ⟨-, rfl⟩ := Prod.mk.inj sent
      exact h.advance

end Chip

/-! ## The address space -/

namespace Machine

variable {m : Machine} {p : Machine → Prop}

/-- What holds when nothing is written and when the chip is written holds when anything
is. -/
theorem write16_of (kept : p m) (wrote : ∀ w, p { m with chip := m.chip.write w })
    (address : UInt32) (w : Word) : p (m.write16 address w) := by
  unfold write16
  split
  · exact wrote w
  · exact kept

theorem write8_of (kept : p m) (wrote : ∀ w, p { m with chip := m.chip.write w })
    (address : UInt32) (b : UInt8) : p (m.write8 address b) := by
  unfold write8
  split
  · exact wrote _
  · exact kept

end Machine

end ClockChip
