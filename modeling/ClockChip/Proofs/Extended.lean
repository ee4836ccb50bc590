import ClockChip.Proofs.Accesses
import ClockChip.Proofs.Groups

/-!
# The registers that a plain console does not have

The register file is one for both consoles.  The minute counter, the two frequency outputs
and the two alarm dates are there on the earlier console too, but no command reaches them:
the groups of the extended class are the later console's, and a byte whose high half names
that class in the opposite order is not turned round (`extended_of_access?`).

Two chips of the earlier console that differ in these registers only are therefore the
same to the host, whatever it writes and however often the oscillator ticks in between
(`uses_withExtended`).  Nor does anything that is written get into them, but that a reset
through status register 1 clears them with all others (`extended_write`).
-/

namespace ClockChip

/-! ## The extended registers -/

/-- What only the commands of the extended class reach. -/
structure Extended where
  fout1 : UInt8
  fout2 : UInt8
  alarmDate1 : Vector UInt8 3
  alarmDate2 : Vector UInt8 3
  minuteCount : UInt32
deriving DecidableEq, Repr

namespace Registers

/-- The extended registers of a register file. -/
def extended (r : Registers) : Extended where
  fout1 := r.fout1
  fout2 := r.fout2
  alarmDate1 := r.alarmDate1
  alarmDate2 := r.alarmDate2
  minuteCount := r.minuteCount

/-- The register file with other extended registers. -/
def withExtended (x : Extended) (r : Registers) : Registers :=
  { r with
    fout1 := x.fout1
    fout2 := x.fout2
    alarmDate1 := x.alarmDate1
    alarmDate2 := x.alarmDate2
    minuteCount := x.minuteCount }

@[simp] theorem withExtended_extended (r : Registers) : r.withExtended r.extended = r := rfl

@[simp] theorem extended_withExtended (x : Extended) (r : Registers) :
    (r.withExtended x).extended = x :=
  rfl

end Registers

namespace Chip

/-- The chip with other extended registers. -/
def withExtended (x : Extended) (c : Chip) : Chip :=
  { c with registers := c.registers.withExtended x }

end Chip

/-! ## Commands -/

/-- On the earlier console no command addresses an extended group. -/
theorem Command.extended_of_group? {b : UInt8} {g : Group} (addressed : group? .ds b = some g) :
    g.extended = false := by
  have base : ∀ i : Fin 8, baseGroups[i].extended = false := by decide
  unfold group? at addressed
  split at addressed
  · obtain rfl := Option.some.inj addressed
    exact base _
  · rw [if_neg fun extended ↦ nomatch extended.2] at addressed
    nomatch addressed

namespace Chip

variable {c : Chip}

theorem extended_of_byteAccess? (ds : c.console = .ds) {b : UInt8} {access : Access}
    (byte : c.byteAccess? b = some access) : access.group.extended = false := by
  unfold byteAccess? commandAccess? at byte
  rw [ds] at byte
  dsimp only at byte
  split at byte
  · split at byte
    · obtain ⟨g, addressed, rfl⟩ := Option.map_eq_some_iff.1 byte
      exact Command.extended_of_group? addressed
    · nomatch byte
  · obtain ⟨g, addressed, rfl⟩ := Option.map_eq_some_iff.1 byte
    exact Command.extended_of_group? addressed

/-- On the earlier console no write of the bus register is an access of an extended group. -/
theorem extended_of_access? (ds : c.console = .ds) {w : Word} {access : Access}
    (written : c.access? w = some access) : access.group.extended = false := by
  unfold access? edgeAccess? at written
  split at written
  · obtain ⟨b, -, byte⟩ := Option.bind_eq_some_iff.1 written
    exact extended_of_byteAccess? ds byte
  · nomatch written

end Chip

/-! ## Registers -/

namespace Registers

variable {g : Group}

theorem read_withExtended (plain : g.extended = false) (x : Extended) (r : Registers) :
    (r.withExtended x).read g = r.read g := by
  cases g with
  | minuteCount => nomatch plain
  | fout1 => nomatch plain
  | fout2 => nomatch plain
  | alarmDate1 => nomatch plain
  | alarmDate2 => nomatch plain
  | _ => rfl

theorem acknowledge_withExtended (g : Group) (x : Extended) (r : Registers) :
    (r.withExtended x).acknowledge g = (r.acknowledge g).withExtended x := by
  cases g <;> rfl

/-- Status register 1 does not look at the extended registers, and its lowest bit clears
them. -/
theorem writeStatus1_withExtended (b : UInt8) (x : Extended) (r : Registers) :
    (r.withExtended x).writeStatus1 b =
      (r.writeStatus1 b).withExtended
        (if Status1.reset.isSet b.toBitVec then cleared.extended else x) := by
  by_cases reset : Status1.reset.isSet b.toBitVec = true
  · rw [writeStatus1_reset reset, writeStatus1_reset reset, if_pos reset]
    rfl
  · have base : (r.withExtended x).withStatus1 b = (r.withStatus1 b).withExtended x := by
      rw [withStatus1, withStatus1, if_neg reset, if_neg reset]
      rfl
    have mode : ((r.withStatus1 b).withExtended x).hourMode = (r.withStatus1 b).hourMode := rfl
    rw [writeStatus1_eq, writeStatus1_eq, base, mode, if_neg reset]
    change (if _ = r.hourMode then _ else _) = _
    split <;> rfl

/-- A byte for any group of the base class goes past the extended registers, but for the one
that clears them. -/
theorem write_withExtended (plain : g.extended = false) (position : Nat) (b : UInt8)
    (x : Extended) (r : Registers) :
    (r.withExtended x).write g position b =
      (r.write g position b).withExtended
        (if (Access.store g position b).clears then cleared.extended else x) := by
  cases g with
  | minuteCount => nomatch plain
  | fout1 => nomatch plain
  | fout2 => nomatch plain
  | alarmDate1 => nomatch plain
  | alarmDate2 => nomatch plain
  | status1 =>
    unfold write
    dsimp only
    by_cases first : position = 1
    · rw [if_pos first, if_pos first, writeStatus1_withExtended, first]
      rfl
    · rw [if_neg first, if_neg first, Access.clears_of_ne first]
      rfl
  | alarm1 =>
    unfold write writeAlarm1
    dsimp only
    change (if Status2.alarm1Date.isSet r.status2 then _ else _) = _
    split
    · rfl
    · split <;> rfl
  | dateTime => rfl
  | time => rfl
  | alarm2 => rfl
  | _ =>
    unfold write
    dsimp only
    split <;> rfl

end Registers

/-- The extended registers after an access of a group of the base class. -/
def Extended.after (access : Option Access) (x : Extended) : Extended :=
  if access.any Access.clears then Registers.cleared.extended else x

namespace Registers

variable {access : Option Access}

theorem accessed_withExtended (plain : ∀ a, access = some a → a.group.extended = false)
    (x : Extended) (r : Registers) :
    (r.withExtended x).accessed access = (r.accessed access).withExtended (x.after access) := by
  match access with
  | none => rfl
  | some (.read g) => exact acknowledge_withExtended g x r
  | some (.store g position b) => exact write_withExtended (plain _ rfl) position b x r

theorem extended_accessed (plain : ∀ a, access = some a → a.group.extended = false)
    (r : Registers) : (r.accessed access).extended = r.extended.after access := by
  have same := accessed_withExtended plain r.extended r
  rw [withExtended_extended] at same
  rw [same, extended_withExtended]

end Registers

/-! ## Chips -/

/-- What happens to a chip: its bus register is written, or its oscillator ticks. -/
inductive Use where
  | write (w : Word)
  | writeByte (b : UInt8)
  | tick
deriving DecidableEq, Repr

namespace Chip

variable {c : Chip}

/-- The chip, and the scheduler that it lives on, after a use. -/
def use (state : Chip × Scheduler) : Use → Chip × Scheduler
  | .write w => (state.1.write w, state.2)
  | .writeByte b => (state.1.writeByte b, state.2)
  | .tick => state.1.tick state.2

/-- The chip and its scheduler after one use after another. -/
def uses (state : Chip × Scheduler) (us : List Use) : Chip × Scheduler := us.foldl use state

/-- What the host can read in the bus register after each use. -/
def readings (state : Chip × Scheduler) (us : List Use) : List Word :=
  seenAlong (fun state u ↦ [(use state u).1.bus]) use state us

theorem readings_cons (state : Chip × Scheduler) (u : Use) (us : List Use) :
    readings state (u :: us) = (use state u).1.bus :: readings (use state u) us := rfl

/-- A write does the same whatever the extended registers hold, and leaves them there. -/
theorem write_withExtended (ds : c.console = .ds) (x : Extended) (w : Word) :
    (c.withExtended x).write w = (c.write w).withExtended (x.after (c.access? w)) := by
  have plain : ∀ a, c.access? w = some a → a.group.extended = false :=
    fun _ ↦ extended_of_access? ds
  have same : Registers.SameAnswer (c.access? w) c.registers (c.registers.withExtended x) :=
    fun g read ↦ Registers.read_withExtended (plain (.read g) read) x c.registers
  rw [withExtended, write_withRegisters same, Registers.accessed_withExtended plain,
    withExtended, registers_write]

/-- On the earlier console a write changes the extended registers by clearing them or not at
all. -/
theorem extended_write (ds : c.console = .ds) (w : Word) :
    (c.write w).registers.extended = c.registers.extended.after (c.access? w) := by
  rw [registers_write]
  exact Registers.extended_accessed (fun _ ↦ extended_of_access? ds) c.registers

/-- A tick does the same whatever the extended registers hold and whatever else is
scheduled. -/
theorem tick_withExtended (x : Extended) (s s' : Scheduler) :
    ∃ x', ((c.withExtended x).tick s').1 = (c.tick s).1.withExtended x' := by
  cases second : c.oscillator.tick.atSecond with
  | true =>
    refine ⟨{ x with minuteCount := (c.registers.withExtended x).countSecond.minuteCount }, ?_⟩
    unfold tick withExtended
    dsimp only
    rw [second]
    rfl
  | false =>
    refine ⟨x, ?_⟩
    unfold tick withExtended
    dsimp only
    rw [second]
    rfl

/-- One use does the same to both chips, but for the extended registers. -/
theorem use_withExtended (ds : c.console = .ds) (x : Extended) (s s' : Scheduler) (u : Use) :
    (∃ x', (use (c.withExtended x, s') u).1 = (use (c, s) u).1.withExtended x') ∧
      (s' = s → (use (c.withExtended x, s') u).2 = (use (c, s) u).2) := by
  cases u with
  | write w => exact ⟨⟨_, write_withExtended ds x w⟩, id⟩
  | writeByte b => exact ⟨⟨_, write_withExtended ds x (c.widen b)⟩, id⟩
  | tick =>
    refine ⟨tick_withExtended x s s', ?_⟩
    rintro rfl
    rfl

theorem console_use (state : Chip × Scheduler) (u : Use) :
    (use state u).1.console = state.1.console := by
  cases u with
  | write w => exact console_write state.1 w
  | writeByte b => exact console_write state.1 _
  | tick => rfl

/-- All uses do the same to both chips, but for the extended registers. -/
theorem agree_uses (ds : c.console = .ds) (x : Extended) (s s' : Scheduler) (us : List Use) :
    readings (c.withExtended x, s') us = readings (c, s) us ∧
      (∃ x', (uses (c.withExtended x, s') us).1 = (uses (c, s) us).1.withExtended x') ∧
      (s' = s → (uses (c.withExtended x, s') us).2 = (uses (c, s) us).2) := by
  induction us generalizing c x s s' with
  | nil => exact ⟨rfl, ⟨x, rfl⟩, id⟩
  | cons u us ih =>
    obtain ⟨⟨x', chip⟩, scheduler⟩ := use_withExtended ds x s s' u
    have other : use (c.withExtended x, s') u =
        ((use (c, s) u).1.withExtended x', (use (c.withExtended x, s') u).2) :=
      Prod.ext chip rfl
    have ds' : (use (c, s) u).1.console = .ds := (console_use (c, s) u).trans ds
    obtain ⟨words, chips, schedulers⟩ :=
      ih ds' x' (use (c, s) u).2 (use (c.withExtended x, s') u).2
    rw [← other] at words chips schedulers
    refine ⟨?_, chips, fun same ↦ schedulers (scheduler same)⟩
    have bus : (use (c.withExtended x, s') u).1.bus = (use (c, s) u).1.bus := by
      rw [chip]
      rfl
    rw [readings_cons, readings_cons, bus, words]

/-- On the earlier console the extended registers might as well not be there.  Of two chips
that differ in them alone, the host reads the same in the bus register after each of any
writes of either width, with ticks of the oscillator among them, and the chips differ in
nothing else afterwards.  And a write leaves these registers as they are, or it is the first
byte for status register 1 with the lowest bit set, and clears them. -/
theorem uses_withExtended (ds : c.console = .ds) :
    (∀ x s s' us,
      readings (c.withExtended x, s') us = readings (c, s) us ∧
        (∃ x', (uses (c.withExtended x, s') us).1 = (uses (c, s) us).1.withExtended x') ∧
        (s' = s → (uses (c.withExtended x, s') us).2 = (uses (c, s) us).2)) ∧
      (∀ w, (c.write w).registers.extended =
        if (c.access? w).any Access.clears then Registers.cleared.extended
        else c.registers.extended) ∧
      ∀ b, (c.writeByte b).registers.extended =
        if (c.access? (c.widen b)).any Access.clears then Registers.cleared.extended
        else c.registers.extended :=
  ⟨agree_uses ds, extended_write ds, fun b ↦ extended_write ds (c.widen b)⟩

/-- A minute counter and a frequency output that the earlier console holds and does not show:
the commands that would read the one and write the other do nothing. -/
theorem uses_withExtended_hidden :
    let c := powerOn .ds
    let x : Extended :=
      { Registers.cleared.extended with minuteCount := 0x123456, fout1 := 0x78 }
    let us : List Use :=
      (Wire.start ++ Wire.sendByte 0x8E ++ Wire.receive 1).map .write ++ [.tick] ++
        (Wire.start ++ Wire.send [0x4E, 0x55]).map .write
    c.console = .ds ∧ readings (c.withExtended x, {}) us = readings (c, {}) us ∧
      (uses (c.withExtended x, {}) us).1.registers.extended = x := by
  intro c x us
  exact ⟨rfl, ((uses_withExtended (c := c) rfl).1 x {} {} us).1, by decide +kernel⟩

end Chip

end ClockChip
