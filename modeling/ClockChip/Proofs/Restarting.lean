import ClockChip.Proofs.Lines

/-!
# Starting anew on a board

A chip that is reset takes back its ticks and schedules one.  It takes back what is under its
registration, and that this is all of its ticks and nothing of the others' is a matter of the
whole history of its board (`Board.Apart`): ticks wait that no reset has asked for, some of them
from before the chip was registered at all, and it has had as many registrations as resets.

The bus register is not reset, and the select line in it may be high although the session is a
new one.  This does not show: of two chips with new sessions, whatever their bus registers hold,
a host that begins with the clock not low gets the same answers (`Chip.uses_begins`), since to
begin a frame is to make the session new.
-/

namespace ClockChip

/-! ## Events among others -/

variable {p : Event → Bool} {e : Event} {es : List Event}

theorem filter_insertEvent_of_false (other : p e = false) (es : List Event) :
    (insertEvent e es).filter p = es.filter p := by
  induction es with
  | nil => rw [insertEvent, List.filter_cons, other]; rfl
  | cons f fs ih =>
    rw [insertEvent]
    split
    · rw [List.filter_cons, List.filter_cons, ih]
    · rw [List.filter_cons, other]
      rfl

theorem filter_insertEvent_of_none (own : p e = true) (none : ∀ f ∈ es, p f = false) :
    (insertEvent e es).filter p = [e] := by
  have alone : (e :: es).filter p = [e] := by
    rw [List.filter_cons, own, if_pos rfl, List.filter_eq_nil_iff.2]
    intro f mem
    rw [none f mem]
    exact Bool.false_ne_true
  exact List.perm_singleton.1 (alone ▸ (insertEvent_perm e es).filter p)

/-! ## To begin -/

/-- A host can begin with these lines: the clock is not low while the chip is selected. -/
def Wire.Lines.begins (l : Wire.Lines) : Bool := !l.select || l.clock

/-- Nothing is asked for to begin with. -/
theorem Wire.Lines.asks_of_begins {l : Wire.Lines} (begins : l.begins) : l.asks = false := by
  rw [Lines.begins, Bool.or_eq_true, Bool.not_eq_true'] at begins
  rcases begins with free | high
  · rw [asks, free, Bool.false_and, Bool.false_and]
  · rw [asks, high, Bool.not_true, Bool.and_false, Bool.false_and]

/-- It may or may not begin a frame. -/
theorem Edge.of_begins (latched : Word) {w : Word} (begins : (Wire.lines w).begins) :
    of latched w = .idle ∨ of latched w = .start := by
  rw [Wire.Lines.begins, Bool.or_eq_true, Bool.not_eq_true'] at begins
  change Wire.select.isSet w = false ∨ Wire.clock.isSet w = true at begins
  unfold of
  rcases begins with free | high
  · rw [free]
    exact .inl rfl
  · rw [high]
    cases Wire.select.isSet w <;> cases Wire.select.isSet latched <;> simp

namespace Chip

variable {c c' : Chip}

/-! ## Chips that look the same -/

/-- Chips that match, down to the data line. -/
structure SameFace (c c' : Chip) : Prop extends Matches c c' where
  data : Wire.data.isSet c'.bus = Wire.data.isSet c.bus

theorem SameFace.write (h : SameFace c c') {w w' : Word} (same : Wire.lines w' = Wire.lines w) :
    SameFace (c.write w) (c'.write w') := by
  refine ⟨h.toMatches.write same, ?_⟩
  have output : Wire.output.isSet w' = Wire.output.isSet w := congrArg Wire.Lines.output same
  have data : Wire.data.isSet w' = Wire.data.isSet w := congrArg Wire.Lines.data same
  rw [data_write, data_write, output, data, driven, driven, Edge.of_lines h.held same, h.session,
    h.data]

theorem SameFace.use (h : SameFace c c') (s s' : Scheduler) (u : Use) :
    SameFace (use (c, s) u).1 (Chip.use (c', s') u).1 := by
  cases u with
  | write w => exact h.write rfl
  | writeByte b =>
    exact h.write ((Wire.lines_lowByte _ _).trans (Wire.lines_lowByte _ _).symm)
  | tick => exact ⟨h.toMatches.tick s s', h.data⟩

/-- A host sees the same on the data line of both after each use. -/
theorem SameFace.uses (h : SameFace c c') (s s' : Scheduler) (us : List Use) :
    SameFace (uses (c, s) us).1 (Chip.uses (c', s') us).1 ∧
      (readings (c', s') us).map Wire.data.isSet = (readings (c, s) us).map Wire.data.isSet := by
  induction us generalizing c c' s s' with
  | nil => exact ⟨h, rfl⟩
  | cons u us ih =>
    have next := h.use s s' u
    obtain ⟨after, lines⟩ := ih next _ _
    refine ⟨after, ?_⟩
    rw [readings_cons, readings_cons, List.map_cons, List.map_cons, next.data]
    exact congrArg _ lines

/-! ## Chips with new sessions -/

/-- What a reset makes of a chip and its scheduler. -/
theorem reset_eq (c : Chip) (s : Scheduler) :
    c.reset s =
      ({ c with
          session := {}
          oscillator := { ticks := 0, remainder := 33513982 % 32768 }
          tickHandle := ⟨"RTC Tick", s.nextId⟩ },
        ((s.cancel c.tickHandle).register "RTC Tick").2.add 1022 ⟨"RTC Tick", s.nextId⟩) := by
  have first : (⟨0, 0⟩ : Oscillator).nextDelay = (1022, ⟨0, 33513982 % 32768⟩) := by decide
  have rest : { c.oscillator with ticks := 0 }.fromRest = ⟨0, 0⟩ := rfl
  unfold reset
  rw [rest, first]
  rfl

/-- A new session stays new when a frame begins, so that only the register changes. -/
theorem write_begins (new : c.session = {}) {w : Word} (begins : (Wire.lines w).begins) :
    c.write w = c.latch w := by
  have served : c.serve (.of c.bus w) = c := by
    rcases Edge.of_begins c.bus begins with idle | start
    · rw [idle]
      rfl
    · rw [start]
      change { c with session := c.session.start } = c
      have same : c.session.start = c.session := by
        rw [new]
        rfl
      rw [same]
  rw [write, served]

/-- When a host begins, chips with new sessions match, whatever is in their bus registers. -/
theorem matches_begins (new : c.session = {}) (new' : c'.session = {})
    (console : c'.console = c.console) (registers : c'.registers = c.registers)
    (ticks : c'.oscillator.ticks = c.oscillator.ticks) {u : Use} {l : Wire.Lines}
    (moves : u.lines? = some l) (begins : l.begins) (s s' : Scheduler) :
    Matches (use (c, s) u).1 (use (c', s') u).1 ∧
      (l.output → SameFace (use (c, s) u).1 (use (c', s') u).1) := by
  obtain ⟨w, rfl, wrote⟩ := exists_write moves c s
  obtain ⟨w', same, wrote'⟩ := exists_write moves c' s'
  have within : ∃ bus oscillator tickHandle,
      c'.write w' = (c.write w).within bus oscillator tickHandle := by
    rw [write_begins new begins, write_begins new' (same ▸ begins)]
    refine ⟨(c'.latch w').bus, c'.oscillator, c'.tickHandle, ?_⟩
    obtain ⟨console', bus', session', registers', oscillator', tickHandle'⟩ := c'
    subst console registers new'
    rw [Chip.within, latch, latch, new]
  have held : Wire.select.isSet (c'.write w').bus = Wire.select.isSet (c.write w).bus := by
    rw [select_write, select_write]
    exact congrArg Wire.Lines.select same
  have matched : Matches (c.write w) (c'.write w') :=
    ⟨within, held, by rw [oscillator_write, oscillator_write]; exact ticks⟩
  rw [wrote, wrote']
  refine ⟨matched, fun output ↦ ⟨matched, ?_⟩⟩
  have output' : Wire.output.isSet w' = true := (congrArg Wire.Lines.output same).trans output
  rw [data_write, data_write, if_pos output', if_pos (show Wire.output.isSet w = true from output)]
  exact congrArg Wire.Lines.data same

/-- From then on a host gets the same bits from both and leaves the same in them, and it finds
the same on the data line after each use if that line is its own when it begins. -/
theorem uses_begins (new : c.session = {}) (new' : c'.session = {})
    (console : c'.console = c.console) (registers : c'.registers = c.registers)
    (ticks : c'.oscillator.ticks = c.oscillator.ticks) {u : Use} {l : Wire.Lines}
    (moves : u.lines? = some l) (begins : l.begins) (us : List Use) (s s' : Scheduler) :
    polled (c', s') (u :: us) = polled (c, s) (u :: us) ∧
      (uses (c', s') (u :: us)).1.session = (uses (c, s) (u :: us)).1.session ∧
      (uses (c', s') (u :: us)).1.registers = (uses (c, s) (u :: us)).1.registers ∧
      (l.output → (readings (c', s') (u :: us)).map Wire.data.isSet =
        (readings (c, s) (u :: us)).map Wire.data.isSet) := by
  obtain ⟨matched, face⟩ := matches_begins new new' console registers ticks moves begins s s'
  have cursors : c.session.Cursors := by
    rw [new]
    exact .none
  obtain ⟨whole, bits⟩ := matched.retouched (.refl _ us) (cursors_use cursors s u) rfl
    (use (c, s) u).2 (use (c', s') u).2
  refine ⟨?_, whole.session, whole.registers, fun output ↦ ?_⟩
  · have silent := Wire.Lines.asks_of_begins begins
    rw [polled_cons, polled_cons, polledBit?_of_asks moves silent, polledBit?_of_asks moves silent]
    exact bits
  · have begun := face output
    rw [readings_cons, readings_cons, List.map_cons, List.map_cons, begun.data]
    exact congrArg _ (begun.uses _ _ us).2

end Chip

namespace Board

open Chip (uses readings polled)

variable {b : Board} {n : Nat}

/-- The chip's own registration is none of the others'. -/
theorem Apart.not_mem (h : Apart n b) : b.chip.tickHandle ∉ b.others :=
  fun mem ↦ (h.others _ mem).2 rfl

/-- What a reset takes back is what is not the others'. -/
theorem Apart.filter_events (h : Apart n b) :
    (b.scheduler.events.filter fun e ↦ e.handle.id != b.chip.tickHandle.id) =
      b.scheduler.events.filter (·.handle ∈ b.others) := by
  refine List.filter_congr fun e mem ↦ ?_
  rcases h.events e mem with own | theirs
  · rw [own, bne_self_eq_false, decide_eq_false h.not_mem]
  · rw [decide_eq_true theirs, bne_iff_ne]
    exact (h.others _ theirs).2

/-- What waits after a reset. -/
theorem Apart.events_reset (h : Apart n b) :
    (b.step .reset).scheduler.events =
      insertEvent ⟨b.scheduler.now + 1022, (b.step .reset).chip.tickHandle⟩
        (b.scheduler.events.filter (·.handle ∈ b.others)) := by
  rw [← h.filter_events, ← Scheduler.events_cancel, ← Scheduler.events_schedule, Board.step,
    Chip.reset_eq]
  rfl

/-- The new registration is none that the others have. -/
theorem Apart.id_reset_ne (h : Apart n b) {g : Handle} (mem : g ∈ b.others) :
    g.id ≠ (b.step .reset).chip.tickHandle.id := by
  intro same
  have earlier := (h.others g mem).1
  have next : (b.step .reset).chip.tickHandle.id = b.scheduler.nextId := rfl
  rw [same, next, h.nextId] at earlier
  exact Nat.lt_irrefl _ earlier

/-- Whatever has been done on a board, a reset of the chip leaves all that the others wait for
and in its order, and of the chip's ticks the one that is due a delay from now, under a
registration that nobody else has.  It makes the session and the oscillator new, and leaves the
rest of the chip.  A host that then begins, by a write of either width, gets the same bits as
if the chip had just got power with these registers, and leaves the same session and the same
registers; and if the data line is its own when it begins, it finds the same on that line after
each use. -/
theorem reset_rearms (console : Console) (history : List Step)
    (few : history.countP Step.registers < UInt64.size) :
    let b := (ofConsole console).play history
    let after := b.step .reset
    (∀ e ∈ b.scheduler.events, e.handle ∉ b.others → e.handle = b.chip.tickHandle) ∧
      after.scheduler.events =
        insertEvent ⟨b.scheduler.now + 1022, after.chip.tickHandle⟩
          (b.scheduler.events.filter (·.handle ∈ b.others)) ∧
      after.scheduler.events.filter (·.handle ∉ b.others) =
        [⟨b.scheduler.now + 1022, after.chip.tickHandle⟩] ∧
      after.scheduler.events.filter (·.handle ∈ b.others) =
        b.scheduler.events.filter (·.handle ∈ b.others) ∧
      after.others = b.others ∧ (∀ h ∈ b.others, h.id ≠ after.chip.tickHandle.id) ∧
      after.scheduler.now = b.scheduler.now ∧
      after.chip =
        { b.chip with
          session := {}
          oscillator := { ticks := 0, remainder := 33513982 % 32768 }
          tickHandle := after.chip.tickHandle } ∧
      ∀ u us l, u.lines? = some l → l.begins → ∀ s s',
        let fresh := { Chip.powerOn b.chip.console with registers := b.chip.registers }
        polled (after.chip, s) (u :: us) = polled (fresh, s') (u :: us) ∧
          (uses (after.chip, s) (u :: us)).1.session = (uses (fresh, s') (u :: us)).1.session ∧
          (uses (after.chip, s) (u :: us)).1.registers =
            (uses (fresh, s') (u :: us)).1.registers ∧
          (l.output → (readings (after.chip, s) (u :: us)).map Wire.data.isSet =
            (readings (fresh, s') (u :: us)).map Wire.data.isSet) := by
  intro b after
  have apart : Apart _ b :=
    (apart_ofConsole console).play history (by rw [Nat.zero_add]; exact few)
  have events := apart.events_reset
  have new : after.chip.tickHandle ∉ b.others := fun mem ↦ apart.id_reset_ne mem rfl
  have chip : after.chip =
      { b.chip with
        session := {}
        oscillator := { ticks := 0, remainder := 33513982 % 32768 }
        tickHandle := after.chip.tickHandle } := congrArg Prod.fst (Chip.reset_eq _ _)
  refine ⟨fun e mem foreign ↦ (apart.events e mem).resolve_right foreign, events, ?_, ?_, rfl,
    fun g mem ↦ apart.id_reset_ne mem, rfl, chip, fun u us l moves begins s s' ↦ ?_⟩
  · refine (congrArg _ events).trans ?_
    refine filter_insertEvent_of_none (decide_eq_true new) fun e mem ↦ ?_
    have theirs := of_decide_eq_true (List.mem_filter.1 mem).2
    exact decide_eq_false (not_not_intro theirs)
  · refine (congrArg _ events).trans ?_
    rw [filter_insertEvent_of_false (decide_eq_false new), List.filter_filter]
    simp only [Bool.and_self]
  · intro fresh
    have session : after.chip.session = {} := rfl
    exact Chip.uses_begins (c := fresh) rfl session rfl rfl rfl moves begins us s' s

/-- The registration of a timer that is on the board with the chip. -/
def timer : Handle := ⟨"timer", 0⟩

/-- A board on which the chip has ticked before and after its first reset, the timer waits for
two things, and the host has stopped in the middle of a frame. -/
def interrupted : List Step :=
  [.scheduler (.register "timer"), .tick, .reset, .tick, .tick, .scheduler (.add 5 timer),
    .scheduler (.add 3000 timer), .scheduler (.advance 100),
    .setDateTime ⟨2023, 1, 31, 12, 0, 0⟩] ++
    (Wire.start ++ (Wire.sendByte 0xA6).take 7).map .write

theorem reset_rearms_interrupted :
    let b := (ofConsole .dsi).play interrupted
    let after := b.step .reset
    interrupted.countP Step.registers < UInt64.size ∧ b.scheduler.pending = 5 ∧
      Wire.select.isSet b.chip.bus = true ∧ b.chip.session ≠ {} ∧
      after.scheduler.events =
        [⟨5, timer⟩, ⟨1122, ⟨"RTC Tick", 2⟩⟩, ⟨3000, timer⟩] ∧
      after.chip.session = {} ∧
      polled (after.chip, {}) ((Wire.start ++ Wire.sendByte 0xA6 ++ Wire.receive 1).map .write) =
        polled ({ Chip.powerOn .dsi with registers := b.chip.registers }, {})
          ((Wire.start ++ Wire.sendByte 0xA6 ++ Wire.receive 1).map .write) := by
  intro b after
  have few : interrupted.countP Step.registers < UInt64.size := by decide
  obtain ⟨-, events, -, -, -, -, -, chip, transfer⟩ := reset_rearms .dsi interrupted few
  have session : after.chip.session = {} := congrArg Chip.session chip
  have listed : after.scheduler.events =
      [⟨5, timer⟩, ⟨1122, ⟨"RTC Tick", 2⟩⟩, ⟨3000, timer⟩] :=
    events.trans (by decide +kernel)
  have begun := transfer (.write Wire.released)
    (([Wire.selected] ++ Wire.sendByte 0xA6 ++ Wire.receive 1).map .write) _ rfl rfl {} {}
  exact ⟨few, by decide +kernel, by decide +kernel, by decide +kernel, listed, session, begun.1⟩

end Board

end ClockChip
