import ClockChip.Proofs.Board
import ClockChip.Proofs.Extended

/-!
# The lines of a word

The bus register has sixteen bits, of which the chip looks at four: the three wires, and the
one that says who drives the data line.  Two histories of writes that move the same lines are
therefore the same to it, whatever is in the other bits and whichever width they are written
with; and while the chip is selected, a word that leaves the clock high might as well not be
written (`Retouched`).

What makes this less than obvious is that the register is read back by the next write: the
select line to see whether a frame begins, the data line for as long as the chip drives it, and
the whole upper half by a write of the lower one.  Two chips whose registers differ anywhere
but in the select line `Match`; a write of the same lines keeps them so (`Matches.write`), and
when it asks for a bit they answer with the same one (`Matches.data_write`).  For this there must
be a bit to answer with, and there is since the cursors are in their ranges whatever has been
done to the chip.
-/

namespace ClockChip

namespace Wire

/-- The lines that a word moves. -/
structure Lines where
  data : Bool
  clock : Bool
  select : Bool
  /-- The data line is the host's. -/
  output : Bool
deriving DecidableEq, Repr

/-- What the chip looks at in a word. -/
def lines (w : Word) : Lines := ⟨data.isSet w, clock.isSet w, select.isSet w, output.isSet w⟩

namespace Lines

/-- The clock is high while the chip is selected. -/
def rests (l : Lines) : Bool := l.select && l.clock

/-- The host asks a chip for a bit if it is selected already. -/
def asks (l : Lines) : Bool := l.select && !l.clock && !l.output

/-- Nothing is asked for while the clock is high. -/
theorem asks_of_rests {l : Lines} (rests : l.rests) : l.asks = false := by
  have high : l.clock = true := (Bool.and_eq_true_iff.1 rests).2
  rw [asks, high, Bool.not_true, Bool.and_false, Bool.false_and]

end Lines

/-- The lines are in the lower half. -/
theorem lines_of_low {w w' : Word} (low : w'.setWidth 8 = w.setWidth 8) : lines w' = lines w := by
  have bit (i : Nat) (lt : i < 8) : w'.getLsbD i = w.getLsbD i := by
    have same := congrArg (BitVec.getLsbD · i) low
    simpa only [BitVec.getLsbD_setWidth, lt, decide_true, Bool.true_and] using same
  rw [lines, lines, data, clock, select, output]
  simp only [BitRange.isSet_bit, bit 0 (by decide), bit 1 (by decide), bit 2 (by decide),
    bit 4 (by decide)]

/-- An 8-bit write replaces the lower half and nothing else. -/
theorem getLsbD_lowByte (b : BitVec 8) (w : Word) (i : Nat) :
    (lowByte.setByte b w).getLsbD i = if i < 8 then b.getLsbD i else w.getLsbD i := by
  rw [lowByte.setByte_eq_set rfl, lowByte.getLsbD_set (Nat.le_refl 8)]
  by_cases low : i < 8
  · rw [if_pos low, if_pos ⟨Nat.zero_le i, Nat.le_of_lt_succ low⟩]
    rfl
  · rw [if_neg low, if_neg fun inside ↦ low (Nat.lt_succ_of_le inside.2)]

theorem lines_lowByte (b : BitVec 8) (w : Word) :
    lines (lowByte.setByte b w) = lines (b.setWidth 16) := by
  refine lines_of_low (BitVec.eq_of_getLsbD_eq fun i lt ↦ ?_)
  rw [BitVec.getLsbD_setWidth, BitVec.getLsbD_setWidth, getLsbD_lowByte, if_pos lt,
    BitVec.getLsbD_setWidth, decide_eq_true lt, decide_eq_true (Nat.lt_of_lt_of_le lt (by decide)),
    Bool.true_and, Bool.true_and]

/-- The half of a word that an 8-bit write does not reach. -/
def upper (w : Word) : BitVec 8 := w.extractLsb' 8 8

theorem upper_eq {w w' : Word} (high : ∀ i, 8 ≤ i → w'.getLsbD i = w.getLsbD i) :
    upper w' = upper w := by
  refine BitVec.eq_of_getLsbD_eq fun i lt ↦ ?_
  rw [upper, upper, BitVec.getLsbD_extractLsb', BitVec.getLsbD_extractLsb',
    high (8 + i) (Nat.le_add_right 8 i)]

theorem upper_lowByte (b : BitVec 8) (w : Word) : upper (lowByte.setByte b w) = upper w :=
  upper_eq fun i high ↦ by rw [getLsbD_lowByte, if_neg (Nat.not_lt.2 high)]

theorem upper_put_data (b : Bool) (w : Word) : upper (data.put b w) = upper w :=
  upper_eq fun i high ↦ by
    have zero : i ≠ 0 := Nat.ne_of_gt (Nat.lt_of_lt_of_le (by decide) high)
    rw [data, BitRange.getLsbD_put]
    exact if_neg zero

end Wire

open Wire (Lines lines)

namespace Edge

variable {latched latched' w w' : Word}

/-- What a word means follows from its lines and from the select line before it. -/
theorem of_lines (held : Wire.select.isSet latched' = Wire.select.isSet latched)
    (same : lines w' = lines w) : of latched' w' = of latched w := by
  obtain ⟨data, clock, select, output⟩ := Lines.mk.inj same
  unfold of
  rw [held, data, clock, select, output]

theorem of_rests (held : Wire.select.isSet latched = true) (rests : (lines w).rests) :
    of latched w = .idle := by
  obtain ⟨select, clock⟩ := Bool.and_eq_true_iff.1 rests
  change Wire.select.isSet w = true at select
  change Wire.clock.isSet w = true at clock
  unfold of
  rw [held, select, clock]
  rfl

theorem of_asks (held : Wire.select.isSet latched = true) (asks : (lines w).asks) :
    of latched w = .fromChip := by
  unfold Lines.asks at asks
  simp only [Bool.and_eq_true, Bool.not_eq_true'] at asks
  obtain ⟨⟨select, clock⟩, output⟩ := asks
  change Wire.select.isSet w = true at select
  change Wire.clock.isSet w = false at clock
  change Wire.output.isSet w = false at output
  unfold of
  rw [held, select, clock, output]
  rfl

end Edge

namespace Session

/-- There is always a bit to send. -/
theorem Cursors.shiftOut? {s : Session} (h : s.Cursors) : ∃ given, s.shiftOut? = some given := by
  have inside : s.outputPos.toNat < 8 := by
    have le := UInt32.le_iff_toNat_le.1 h.outputPos
    exact Nat.lt_succ_of_le le
  rw [Session.shiftOut?, Vector.getElem?_eq_getElem inside]
  exact ⟨_, rfl⟩

end Session

/-! ## Uses that move lines -/

/-- The lines that a use moves, if it is a write. -/
def Use.lines? : Use → Option Lines
  | .write w => some (lines w)
  | .writeByte b => some (lines (b.toBitVec.setWidth 16))
  | .tick => none

namespace Chip

variable {c c' : Chip} {u u' : Use} {l : Lines}

/-- A use that moves lines writes a word with these lines. -/
theorem exists_write (moves : u.lines? = some l) (c : Chip) (s : Scheduler) :
    ∃ w, lines w = l ∧ use (c, s) u = (c.write w, s) := by
  cases u with
  | write w => exact ⟨w, Option.some.inj moves, rfl⟩
  | writeByte b =>
    exact ⟨c.widen b, (Wire.lines_lowByte b.toBitVec c.bus).trans (Option.some.inj moves), rfl⟩
  | tick => nomatch moves

/-- The bit on the data line after a use by which the host asks for it. -/
def polledBit? (state : Chip × Scheduler) (u : Use) : Option Bool :=
  if u.lines?.any Lines.asks && Wire.select.isSet state.1.bus then
    some (Wire.data.isSet (use state u).1.bus)
  else none

/-- The bits that a host gets while it uses a chip. -/
def polled (state : Chip × Scheduler) (us : List Use) : List Bool :=
  seenAlong (fun state u ↦ (polledBit? state u).toList) use state us

theorem polled_cons (state : Chip × Scheduler) (u : Use) (us : List Use) :
    polled state (u :: us) = (polledBit? state u).toList ++ polled (use state u) us := rfl

theorem polledBit?_of_lines (moves : u.lines? = some l) (state : Chip × Scheduler) :
    polledBit? state u =
      if l.asks && Wire.select.isSet state.1.bus then some (Wire.data.isSet (use state u).1.bus)
      else none := by
  rw [polledBit?, moves]
  rfl

/-- Lines that ask for nothing get nothing. -/
theorem polledBit?_of_asks (moves : u.lines? = some l) (silent : l.asks = false)
    (state : Chip × Scheduler) : polledBit? state u = none := by
  rw [polledBit?_of_lines moves, silent, Bool.false_and]
  rfl

/-! ## Chips that match -/

/-- Chips that differ in the bus register, but not in the select line, and in what drives their
oscillators, but not in how often they have ticked. -/
structure Matches (c c' : Chip) : Prop where
  within : ∃ bus oscillator tickHandle, c' = c.within bus oscillator tickHandle
  held : Wire.select.isSet c'.bus = Wire.select.isSet c.bus
  ticks : c'.oscillator.ticks = c.oscillator.ticks

theorem Matches.refl (c : Chip) : Matches c c := ⟨⟨_, _, _, rfl⟩, rfl, rfl⟩

theorem Matches.session (h : Matches c c') : c'.session = c.session := by
  obtain ⟨⟨_, _, _, rfl⟩, -, -⟩ := h
  rfl

theorem Matches.registers (h : Matches c c') : c'.registers = c.registers := by
  obtain ⟨⟨_, _, _, rfl⟩, -, -⟩ := h
  rfl

/-- Words that move the same lines do the same. -/
theorem Matches.write (h : Matches c c') {w w' : Word} (same : lines w' = lines w) :
    Matches (c.write w) (c'.write w') := by
  obtain ⟨⟨bus, oscillator, tickHandle, rfl⟩, held, ticks⟩ := h
  refine ⟨⟨_, _, _, write_within c bus oscillator tickHandle (Edge.of_lines held same)⟩, ?_, ?_⟩
  · rw [select_write, select_write]
    exact congrArg Lines.select same
  · rw [oscillator_write, oscillator_write]
    exact ticks

/-- So do ticks, at whatever time. -/
theorem Matches.tick (h : Matches c c') (s s' : Scheduler) :
    Matches (c.tick s).1 (c'.tick s').1 := by
  obtain ⟨⟨bus, oscillator, tickHandle, rfl⟩, held, ticks⟩ := h
  have ticks : oscillator.ticks = c.oscillator.ticks := ticks
  have second : oscillator.tick.atSecond = c.oscillator.tick.atSecond := by
    unfold Oscillator.tick Oscillator.atSecond
    dsimp only
    rw [ticks]
  refine ⟨⟨bus, oscillator.tick.nextDelay.2, tickHandle, ?_⟩, held, ?_⟩
  · unfold Chip.tick Chip.within
    dsimp only
    rw [second]
  · exact congrArg (· + 1) ticks

/-- A word that leaves the clock high does nothing to a chip that is selected. -/
theorem Matches.rest (h : Matches c c') (held : Wire.select.isSet c'.bus = true) {w : Word}
    (rests : (lines w).rests) : Matches c (c'.write w) := by
  have select : Wire.select.isSet w = true := (Bool.and_eq_true_iff.1 rests).1
  have idle : c'.write w = c'.latch w := by
    rw [Chip.write, Edge.of_rests held rests]
    rfl
  obtain ⟨within, held', ticks⟩ := h
  refine ⟨?_, ?_, by rw [oscillator_write]; exact ticks⟩
  · obtain ⟨bus, oscillator, tickHandle, rfl⟩ := within
    rw [idle]
    exact ⟨_, oscillator, tickHandle, rfl⟩
  · rw [select_write, select, ← held', held]

theorem Matches.symm (h : Matches c c') : Matches c' c := by
  obtain ⟨⟨bus, oscillator, tickHandle, rfl⟩, held, ticks⟩ := h
  exact ⟨⟨c.bus, c.oscillator, c.tickHandle, rfl⟩, held.symm, ticks.symm⟩

/-- A host that asks both for a bit gets the same one. -/
theorem Matches.data_write (h : Matches c c') (cursors : c.session.Cursors)
    (held : Wire.select.isSet c.bus = true) {w w' : Word} (same : lines w' = lines w)
    (asks : (lines w).asks) :
    Wire.data.isSet (c'.write w').bus = Wire.data.isSet (c.write w).bus := by
  have output : Wire.output.isSet w = false := by
    unfold Lines.asks at asks
    simp only [Bool.and_eq_true, Bool.not_eq_true'] at asks
    exact asks.2
  have output' : Wire.output.isSet w' = false := (congrArg Lines.output same).trans output
  have held' : Wire.select.isSet c'.bus = true := h.held.trans held
  obtain ⟨given, gives⟩ := cursors.shiftOut?
  rw [Chip.data_write, Chip.data_write, output, output', driven, driven, Edge.of_asks held asks,
    Edge.of_asks held' (same ▸ asks), h.session, gives]
  rfl

/-! ## Histories -/

/-- Two sequences of uses of a chip, which is selected at the beginning or not, that differ in
nothing that the chip looks at. -/
inductive Retouched : Bool → List Use → List Use → Prop where
  | done {held : Bool} : Retouched held [] []
  | tick {held : Bool} {us us' : List Use} (rest : Retouched held us us') :
      Retouched held (.tick :: us) (.tick :: us')
  /-- Writes that move the same lines, of either width. -/
  | write {held : Bool} {l : Lines} {u u' : Use} {us us' : List Use} (moves : u.lines? = some l)
      (moves' : u'.lines? = some l) (rest : Retouched l.select us us') :
      Retouched held (u :: us) (u' :: us')
  /-- While the chip is selected, a write that leaves the clock high is put in. -/
  | put {l : Lines} {u' : Use} {us us' : List Use} (moves : u'.lines? = some l) (rests : l.rests)
      (rest : Retouched true us us') : Retouched true us (u' :: us')
  /-- Such a write is taken out. -/
  | take {l : Lines} {u : Use} {us us' : List Use} (moves : u.lines? = some l) (rests : l.rests)
      (rest : Retouched true us us') : Retouched true (u :: us) us'

/-- The uses themselves are one of the two. -/
theorem Retouched.refl (held : Bool) (us : List Use) : Retouched held us us := by
  induction us generalizing held with
  | nil => exact .done
  | cons u us ih =>
    cases u with
    | write w => exact .write rfl rfl (ih _)
    | writeByte b => exact .write rfl rfl (ih _)
    | tick => exact .tick (ih held)

theorem cursors_use (cursors : c.session.Cursors) (s : Scheduler) (u : Use) :
    (use (c, s) u).1.session.Cursors := by
  cases u with
  | write w => exact cursors_write cursors w
  | writeByte b => exact cursors_write cursors _
  | tick => exact cursors

/-- Uses that move the same lines do the same and give the same bit. -/
theorem Matches.moves (h : Matches c c') (cursors : c.session.Cursors) (moves : u.lines? = some l)
    (moves' : u'.lines? = some l) (s s' : Scheduler) :
    Matches (use (c, s) u).1 (use (c', s') u').1 ∧
      polledBit? (c', s') u' = polledBit? (c, s) u ∧
      Wire.select.isSet (use (c, s) u).1.bus = l.select := by
  obtain ⟨w, rfl, wrote⟩ := exists_write moves c s
  obtain ⟨w', same, wrote'⟩ := exists_write moves' c' s'
  rw [polledBit?_of_lines moves, polledBit?_of_lines moves', wrote, wrote', h.held]
  refine ⟨h.write same, ?_, select_write c w⟩
  split
  · next asks =>
    obtain ⟨asks, held⟩ := Bool.and_eq_true_iff.1 asks
    exact congrArg some (h.data_write cursors held same asks)
  · rfl

theorem Matches.rests (h : Matches c c') (held : Wire.select.isSet c'.bus = true)
    (moves : u.lines? = some l) (rests : l.rests) (s' : Scheduler) :
    Matches c (use (c', s') u).1 := by
  obtain ⟨w, rfl, wrote⟩ := exists_write moves c' s'
  rw [wrote]
  exact h.rest held rests

theorem Matches.retouched {held : Bool} {us us' : List Use} (edits : Retouched held us us')
    (h : Matches c c') (cursors : c.session.Cursors) (start : Wire.select.isSet c.bus = held)
    (s s' : Scheduler) :
    Matches (uses (c, s) us).1 (uses (c', s') us').1 ∧
      polled (c', s') us' = polled (c, s) us := by
  induction edits generalizing c c' s s' with
  | done => exact ⟨h, rfl⟩
  | tick rest ih => exact ih (h.tick s s') cursors start _ _
  | write moves moves' rest ih =>
    obtain ⟨next, bit, select⟩ := h.moves cursors moves moves' s s'
    obtain ⟨after, bits⟩ := ih next (cursors_use cursors s _) select _ _
    refine ⟨after, ?_⟩
    rw [polled_cons, polled_cons, bit]
    exact congrArg _ bits
  | put moves rests rest ih =>
    have held' := h.held.trans start
    obtain ⟨after, bits⟩ := ih (h.rests held' moves rests s') cursors start s _
    refine ⟨after, ?_⟩
    rw [polled_cons, polledBit?_of_asks moves (Lines.asks_of_rests rests)]
    exact bits
  | take moves rests rest ih =>
    have next := (h.symm.rests start moves rests s).symm
    have start' := next.held.symm.trans (h.held.trans start)
    obtain ⟨after, bits⟩ := ih next (cursors_use cursors s _) start' _ s'
    refine ⟨after, bits.trans ?_⟩
    rw [polled_cons, polledBit?_of_asks moves (Lines.asks_of_rests rests)]
    rfl

/-! ## The upper half -/

theorem upper_write (c : Chip) (w : Word) : Wire.upper (c.write w).bus = Wire.upper w := by
  rw [bus_write]
  split
  · rfl
  · exact Wire.upper_put_data _ w

/-- Neither an 8-bit write nor a tick reaches the upper half. -/
theorem upper_use (narrow : ∀ w, u ≠ .write w) (c : Chip) (s : Scheduler) :
    Wire.upper (use (c, s) u).1.bus = Wire.upper c.bus := by
  cases u with
  | write w => exact absurd rfl (narrow w)
  | writeByte b => exact (upper_write c _).trans (Wire.upper_lowByte b.toBitVec c.bus)
  | tick => rfl

theorem upper_readings {us : List Use} (narrow : ∀ w, .write w ∉ us) (c : Chip) (s : Scheduler) :
    ∀ w ∈ readings (c, s) us, Wire.upper w = Wire.upper c.bus := by
  induction us generalizing c s with
  | nil => exact List.forall_mem_nil _
  | cons u us ih =>
    have first := upper_use (fun w same ↦ narrow w (same ▸ List.mem_cons_self)) c s
    refine List.forall_mem_cons.2 ⟨first, fun w mem ↦ ?_⟩
    have rest := ih (fun w mem ↦ narrow w (List.mem_cons_of_mem u mem)) _ _ w mem
    exact rest.trans first

end Chip

namespace Board

open Chip (uses readings polled Retouched)

/-- The chip looks at the wires and at the side that drives the data line, and at nothing else
in the bus register.  Whatever has been done to a chip, two sequences of uses that move the
same lines, in words of any sort and any width and but for words that leave the clock high
while it is selected, leave it with the same session and the same registers, and to each write
that asks for a bit it answers with the same one.  And an 8-bit write never changes the upper
half of the register. -/
theorem uses_retouched (console : Console) (history : List Step) (s : Scheduler) :
    let c := ((ofConsole console).play history).chip
    (∀ us us', Retouched (Wire.select.isSet c.bus) us us' →
      (uses (c, s) us').1.session = (uses (c, s) us).1.session ∧
        (uses (c, s) us').1.registers = (uses (c, s) us).1.registers ∧
        polled (c, s) us' = polled (c, s) us) ∧
      ∀ us, (∀ w, .write w ∉ us) →
        ∀ w ∈ readings (c, s) us, Wire.upper w = Wire.upper c.bus := by
  intro c
  have cursors : c.session.Cursors := cursors_play .none history
  refine ⟨fun us us' edits ↦ ?_, fun us narrow ↦ Chip.upper_readings narrow c s⟩
  obtain ⟨same, bits⟩ := (Chip.Matches.refl c).retouched edits cursors rfl s s
  exact ⟨same.session, same.registers, bits⟩

/-- A chip that has been asked for the date of the year 2023. -/
def asked : List Step :=
  .setDateTime ⟨2023, 1, 31, 12, 0, 0⟩ :: (Wire.start ++ Wire.sendByte 0xA6).map .write

/-- Three bits of the year are asked for, and once more in words that carry other things, with
one that is put in and one that is left out. -/
theorem uses_retouched_asked :
    let c := ((ofConsole .ds).play asked).chip
    let us : List Use := [.write 0x0004, .write 0x0006, .write 0x0004, .write 0x0006, .write 0x0004]
    let us' : List Use :=
      [.write 0xFFEC, .writeByte 0x17, .writeByte 0x06, .write 0x0004, .writeByte 0xEC]
    Retouched (Wire.select.isSet c.bus) us us' ∧ polled (c, {}) us = [true, true, false] ∧
      polled (c, {}) us' = [true, true, false] ∧
      (uses (c, {}) us').1.session = (uses (c, {}) us).1.session ∧
      ∀ w ∈ readings (c, {}) [.writeByte 0x17, .writeByte 0x04],
        Wire.upper w = Wire.upper c.bus := by
  intro c us us'
  have held : Wire.select.isSet c.bus = true := by decide +kernel
  have edits : Retouched (Wire.select.isSet c.bus) us us' := by
    rw [held]
    exact .write rfl rfl (.put rfl rfl (.write rfl rfl (.write rfl rfl
      (.take rfl rfl (.write rfl rfl .done)))))
  obtain ⟨edited, narrow⟩ := uses_retouched .ds asked {}
  obtain ⟨session, -, bits⟩ := edited us us' edits
  have three : polled (c, {}) us = [true, true, false] := by decide +kernel
  exact ⟨edits, three, bits.trans three, session, narrow _ (by simp)⟩

end Board

end ClockChip
