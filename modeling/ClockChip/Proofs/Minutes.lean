import ClockChip.Proofs.Board
import ClockChip.Proofs.Counting
import ClockChip.Proofs.Transfer
import ClockChip.Proofs.Writing

/-!
# The minute counter

The minute counter goes on whenever the second register comes round, and it has no other tie to
the calendar: it takes a second register that can show a second for it to count exactly, and
nothing of the hour, the day or the date (`counts_iterate`).

Of what a host can send there is one byte that reaches it, the first one for status register 1
if it clears everything.  A command that is for the counter itself stores nothing.  So the
counter is known after any writes from the accesses that they are (`minuteCount_play`), and after
a frame from its bytes (`minuteCount_frame`).  It never leaves its twenty-four bits, if it is not
installed so (`minutesFit_play`), and the three bytes that are read of it are therefore the whole
of it.
-/

namespace ClockChip

open Bcd (value)

/-! ## Seconds and minutes -/

/-- The second register shows the next second whatever else is carried, and a minute ends after
the fifty-ninth. -/
theorem Calendar.second_countSecond {c : Calendar} (h : Bcd.InRange 0x00 0x59 c.second)
    (mode : HourMode) :
    Bcd.InRange 0x00 0x59 (c.countSecond mode).second ∧
      value (c.countSecond mode).second = (value c.second + 1) % 60 ∧
      c.endsMinute = decide (value c.second = 59) := by
  rcases sixty h with ⟨past, top⟩ | ⟨inside, next, step, below⟩
  · have ends : c.endsMinute = true := decide_eq_true past
    have zero : (c.countSecond mode).second = 0 := by
      rw [countSecond, if_pos ends, second_countMinute]
    rw [zero, ends, top]
    exact ⟨sixty_zero, rfl, rfl⟩
  · have goesOn : c.endsMinute = false := decide_eq_false inside
    have second : (c.countSecond mode).second = Bcd.increment c.second := by
      rw [countSecond, goesOn, if_neg Bool.false_ne_true]
    rw [second, goesOn, decide_eq_false (by omega)]
    exact ⟨next, by omega, rfl⟩

namespace Registers

variable {r : Registers}

theorem minuteCount_countSecond (minutes : r.minuteCount.toNat < 0x1000000)
    (second : Bcd.InRange 0x00 0x59 r.calendar.second) :
    r.countSecond.minuteCount.toNat =
      (r.minuteCount.toNat + (value r.calendar.second + 1) / 60) % 0x1000000 := by
  have ends := (Calendar.second_countSecond second r.hourMode).2.2
  have inMinute : value r.calendar.second ≤ 59 := second.value_le (by decide)
  rw [countSecond]
  dsimp only
  rw [ends]
  by_cases last : value r.calendar.second = 59
  · rw [if_pos (decide_eq_true last), toNat_minuteMask, UInt32.toNat_add, last]
    change (r.minuteCount.toNat + 1) % 0x100000000 % 0x1000000 = _
    omega
  · rw [if_neg (by rw [decide_eq_true_iff]; exact last)]
    omega

/-- After any number of seconds, the second register and the minute counter together are what
has been counted. -/
theorem counts_iterate (minutes : r.minuteCount.toNat < 0x1000000)
    (second : Bcd.InRange 0x00 0x59 r.calendar.second) (n : Nat) :
    Bcd.InRange 0x00 0x59 (countSecond^[n] r).calendar.second ∧
      value (countSecond^[n] r).calendar.second = (value r.calendar.second + n) % 60 ∧
      (countSecond^[n] r).minuteCount.toNat =
        (r.minuteCount.toNat + (value r.calendar.second + n) / 60) % 0x1000000 := by
  induction n with
  | zero =>
    have inMinute : value r.calendar.second ≤ 59 := second.value_le (by decide)
    rw [Function.iterate_zero_apply]
    exact ⟨second, by omega, by omega⟩
  | succ n ih =>
    obtain ⟨second', shown, counted⟩ := ih
    obtain ⟨next, step, -⟩ := Calendar.second_countSecond second' (countSecond^[n] r).hourMode
    change value (countSecond^[n] r).countSecond.calendar.second = _ at step
    have fits : (countSecond^[n] r).minuteCount.toNat < 0x1000000 := by
      rw [counted]
      exact Nat.mod_lt _ (by decide)
    have minute := minuteCount_countSecond fits second'
    rw [shown] at step minute
    rw [counted] at minute
    rw [Function.iterate_succ_apply']
    exact ⟨next, by omega, by omega⟩

/-! ## What is sent and what is read -/

/-- Only the first byte of data for status register 1 reaches the minute counter. -/
theorem minuteCount_sent (group : Option Group) (bs : List UInt8) (r : Registers) :
    (r.sent group bs).minuteCount =
      if group == some .status1 && bs.head?.any (Status1.reset.isSet ·.toBitVec) then 0
      else r.minuteCount := by
  by_cases status : group = some .status1
  · rw [status]
    cases bs with
    | nil => rfl
    | cons d ds => exact minuteCount_writeStatus1 d r
  · rw [beq_false_of_ne status, Bool.false_and, if_neg Bool.false_ne_true]
    match group with
    | none => rfl
    | some g =>
      have other : g ≠ .status1 := fun same ↦ status (congrArg some same)
      rw [sent, writeGroup_frame other]
      cases g <;> rfl

/-- The bytes that are read of the minute counter are its digits to the base of 256. -/
theorem minuteBytes_eq (minutes : r.minuteCount.toNat < 0x1000000) :
    ∃ high middle low, r.minuteBytes = [high, middle, low] ∧
      high.toNat * 65536 + middle.toNat * 256 + low.toNat = r.minuteCount.toNat := by
  refine ⟨_, _, _, r.minuteBytes_eq_contents, ?_⟩
  simp only [UInt8.toNat_ofNat']
  omega

end Registers

namespace Command

variable {command : UInt8}

/-- The command that reads the minute counter, in either order of its bits. -/
def ReadsMinutes (command : UInt8) : Prop := command = 0x8E ∨ command = 0x71

theorem ReadsMinutes.normalize (h : ReadsMinutes command) : normalize .dsi command = 0x8E := by
  rcases h with rfl | rfl <;> decide

end Command

namespace Chip

open Wire

variable {c : Chip}

/-- Whether the bytes of a frame are a command for status register 1 and first data that clears
everything. -/
def clearedBy (c : Chip) : List UInt8 → Bool
  | [] => false
  | command :: data =>
    Command.group? c.console (Command.normalize c.console command) == some .status1 &&
      data.head?.any (Status1.reset.isSet ·.toBitVec)

/-- A command by itself leaves the minute counter alone, and the next byte is the first of
data. -/
theorem receive_first {b : UInt8} (first : c.session.inputPos = 0) :
    (c.receive b).session.inputPos = 1 ∧ (c.receive b).console = c.console ∧
      (c.receive b).session.command = Command.normalize c.console b ∧
      (c.receive b).registers.minuteCount = c.registers.minuteCount := by
  cases reads : Command.isRead (Command.normalize c.console b) with
  | false =>
    rw [receive_write first reads]
    exact ⟨rfl, rfl, rfl, rfl⟩
  | true =>
    rw [receive_read first reads]
    refine ⟨rfl, rfl, rfl, ?_⟩
    cases Command.group? c.console (Command.normalize c.console b) with
    | none => rfl
    | some g => cases g <;> rfl

/-- After a frame, from wherever the chip is selected and whatever else is in it than bits for
the chip, the minute counter is what its bytes make of it. -/
theorem minuteCount_frame (c : Chip) {ws : List Word} (holds : ∀ w ∈ ws, select.isSet w = true)
    (countable : (pack (bitsToChip ws)).length ≤ UInt32.size) :
    (c.writeAll (start ++ ws)).registers.minuteCount =
      if c.clearedBy (pack (bitsToChip ws)) then 0 else c.registers.minuteCount := by
  rw [registers_frame c holds]
  cases bytes : pack (bitsToChip ws) with
  | nil => rfl
  | cons b bs =>
    rw [bytes] at countable
    have first : c.session.start.inputPos = 0 := rfl
    obtain ⟨position, console, command, kept⟩ :=
      receive_first (c := { c with session := c.session.start }) (b := b) first
    rw [receiveAll, List.foldl_cons, ← receiveAll,
      registers_data position (by rw [List.length_cons] at countable; omega), console, command,
      Registers.minuteCount_sent, kept]
    rfl

/-- A transfer that reads the minute counter gives its bytes. -/
theorem readTransfer_minutes {command : UInt8} (console : c.console = .dsi)
    (reads : Command.ReadsMinutes command) :
    (c.readTransfer command 3).1 = c.registers.minuteBytes := by
  have natural : Command.normalize c.console command = 0x8E := by
    rw [console]
    exact reads.normalize
  have group : Command.group? c.console 0x8E = some .minuteCount := by
    rw [console]
    decide +kernel
  exact c.readTransfer_bytes 3 (by rw [natural]; decide) (by rw [natural]; exact group)

end Chip

namespace Board

/-! ## The counter on a board -/

/-- Something that neither lets time pass for the chip nor gives it other registers. -/
def Step.timeless : Step → Bool
  | .tick | .install _ | .load _ | .loadMachine _ => false
  | _ => true

/-- No minute counter is installed that does not fit. -/
def Step.FitMinutes : Step → Prop
  | .install r => r.minuteCount.toNat < 0x1000000
  | _ => True

/-- The access that a step is, if it is a write. -/
def access? (b : Board) : Step → Option Access
  | .write w => b.chip.access? w
  | .writeByte byte => b.chip.access? (b.chip.widen byte)
  | _ => none

/-- The accesses that steps are, one after another. -/
def accesses (b : Board) (steps : List Step) : List Access :=
  seenAlong (fun b step ↦ (b.access? step).toList) step b steps

variable {b : Board}

theorem minuteCount_step {step : Step} (timeless : step.timeless) :
    (b.step step).chip.registers.minuteCount =
      if (b.access? step).any Access.clears then 0 else b.chip.registers.minuteCount := by
  cases step with
  | tick => nomatch timeless
  | install r => nomatch timeless
  | load data => nomatch timeless
  | loadMachine data => nomatch timeless
  | write w =>
    change (b.chip.write w).registers.minuteCount = _
    rw [Chip.registers_write, Registers.minuteCount_accessed]
    rfl
  | writeByte byte =>
    change (b.chip.write _).registers.minuteCount = _
    rw [Chip.registers_write, Registers.minuteCount_accessed]
    rfl
  | scheduler op =>
    unfold Board.step
    dsimp only
    split <;> rfl
  | _ => rfl

/-- The minute counter stays, or some access has cleared it. -/
theorem minuteCount_play {steps : List Step} (timeless : ∀ step ∈ steps, step.timeless) :
    (b.play steps).chip.registers.minuteCount =
      if (b.accesses steps).any Access.clears then 0 else b.chip.registers.minuteCount := by
  refine seenAlong_induction
    (motive := fun accesses (b' : Board) ↦ b'.chip.registers.minuteCount =
      if accesses.any Access.clears then 0 else b.chip.registers.minuteCount) rfl ?_
  intro accesses b' step mem same
  have one : (b'.access? step).toList.any Access.clears =
      (b'.access? step).any Access.clears := by
    cases b'.access? step with
    | none => rfl
    | some access => exact Bool.or_false _
  rw [minuteCount_step (timeless step mem), same, List.any_append, one]
  cases (b'.access? step).any Access.clears with
  | false => rw [Bool.or_false]; rfl
  | true => rw [Bool.or_true]; rfl

theorem minutesFit_step (h : b.chip.registers.MinutesFit) {step : Step} (fit : step.FitMinutes) :
    (b.step step).chip.registers.MinutesFit := by
  cases step with
  | reset => exact h
  | tick =>
    change (if b.chip.oscillator.tick.atSecond then b.chip.registers.countSecond
      else b.chip.registers).MinutesFit
    split
    · exact h.countSecond
    · exact h
  | write w =>
    change (b.chip.write w).registers.MinutesFit
    rw [Chip.registers_write]
    exact h.accessed _
  | writeByte byte =>
    change (b.chip.write _).registers.MinutesFit
    rw [Chip.registers_write]
    exact h.accessed _
  | setDateTime t => exact h
  | install r => exact Registers.minutesFit_iff.2 fit
  | setConsole console => exact h
  | load data =>
    rcases b.step_load data with eq | ⟨s, ⟨-, minutes⟩, eq⟩
    · rw [eq]; exact h
    · rw [eq]; exact minutes
  | loadMachine data =>
    rcases b.step_loadMachine data with eq | ⟨s, ⟨-, minutes⟩, eq⟩
    · rw [eq]; exact h
    · rw [eq]; exact minutes
  | scheduler op =>
    unfold Board.step
    dsimp only
    split <;> exact h

theorem minutesFit_play (h : b.chip.registers.MinutesFit) {steps : List Step}
    (fit : ∀ step ∈ steps, step.FitMinutes) : (b.play steps).chip.registers.MinutesFit := by
  induction steps generalizing b with
  | nil => exact h
  | cons step steps ih =>
    obtain ⟨first, rest⟩ := List.forall_mem_cons.1 fit
    exact ih (minutesFit_step h first) rest

open Wire in
/-- The minute counter counts minutes and nothing else.  Whatever else the registers hold, the
counter is after any number of seconds what it was and the minutes that the second register
makes of them, in twenty-four bits.  Over any steps in which no time passes and no other
registers come, it is kept, unless one of the accesses that they are is a first byte for status
register 1 that clears everything, which makes it nought; in the words of one frame, unless its
bytes are such a command and such data.  And whatever has been done with the chip, the three
bytes that a host reads on the later console are the whole of it. -/
theorem minuteCount_exact (b : Board) (minutes : b.chip.registers.minuteCount.toNat < 0x1000000) :
    let r := b.chip.registers
    (Bcd.InRange 0x00 0x59 r.calendar.second → ∀ n,
      (Registers.countSecond^[n] r).minuteCount.toNat =
        (r.minuteCount.toNat + (value r.calendar.second + n) / 60) % 0x1000000) ∧
    (∀ steps : List Step, (∀ step ∈ steps, step.timeless) →
      (b.play steps).chip.registers.minuteCount =
        if (b.accesses steps).any Access.clears then 0 else r.minuteCount) ∧
    (∀ ws : List Word, (∀ w ∈ ws, select.isSet w = true) →
      (pack (bitsToChip ws)).length ≤ UInt32.size →
      (b.chip.writeAll (start ++ ws)).registers.minuteCount =
        if b.chip.clearedBy (pack (bitsToChip ws)) then 0 else r.minuteCount) ∧
    ∀ steps : List Step, (∀ step ∈ steps, step.FitMinutes) →
      let c := (b.play steps).chip
      c.console = .dsi → ∀ command, Command.ReadsMinutes command →
        ∃ high middle low, (c.readTransfer command 3).1 = [high, middle, low] ∧
          high.toNat * 65536 + middle.toNat * 256 + low.toNat = c.registers.minuteCount.toNat := by
  intro r
  refine ⟨fun second n ↦ (Registers.counts_iterate minutes second n).2.2,
    fun steps timeless ↦ minuteCount_play timeless,
    fun ws holds countable ↦ b.chip.minuteCount_frame holds countable, ?_⟩
  intro steps fit c console command reads
  have fits := minutesFit_play (Registers.minutesFit_iff.2 minutes) fit
  rw [Chip.readTransfer_minutes console reads]
  exact Registers.minuteBytes_eq (Registers.minutesFit_iff.1 fits)

/-- The last second of a minute, after the last minute that can be counted, on a date that there
is not. -/
def brimful : Board :=
  { ofConsole .dsi with
    chip :=
      { Chip.powerOn .dsi with
        registers :=
          { Registers.cleared with
            calendar := { month := 0x02, day := 0x31, hour := 0x99, second := 0x59 }
            minuteCount := 0xFFFFFF } } }

/-- A new date, and a transfer to the minute counter. -/
def rejected : List Step :=
  .setDateTime ⟨2024, 2, 29, 12, 0, 0⟩ ::
    (Wire.start ++ Wire.send [0x0E, 0x12, 0x34, 0x56] ++ Wire.stop).map .write

/-- The counter comes round at the end of the minute.  It is not written by a transfer of its
own, it is cleared by one that is sent with the bits of the command in the opposite order, and
it is read as it is. -/
theorem minuteCount_exact_brimful :
    (Registers.countSecond^[1] brimful.chip.registers).minuteCount.toNat = 0 ∧
      (brimful.play rejected).chip.registers.minuteCount = 0xFFFFFF ∧
      (brimful.chip.writeAll (Wire.start ++ Wire.send [0x60, 0x01])).registers.minuteCount = 0 ∧
      ∃ high middle low,
        ((brimful.play rejected).chip.readTransfer 0x71 3).1 = [high, middle, low] ∧
          high.toNat * 65536 + middle.toNat * 256 + low.toNat =
            (brimful.play rejected).chip.registers.minuteCount.toNat := by
  have fit : ∀ step ∈ rejected, step.FitMinutes :=
    List.forall_mem_cons.2 ⟨trivial, List.forall_mem_map.2 fun _ _ ↦ trivial⟩
  have holds : ∀ w ∈ Wire.send [0x60, 0x01], Wire.select.isSet w = true := by
    rw [Wire.send_eq]
    exact Wire.select_sendBits _
  have bytes : Wire.pack (Wire.bitsToChip (Wire.send [0x60, 0x01])) = [0x60, 0x01] := by
    decide +kernel
  obtain ⟨counts, kept, frame, read⟩ := minuteCount_exact brimful (by decide)
  refine ⟨(counts (by decide) 1).trans (by decide), ?_, ?_, ?_⟩
  · rw [kept rejected (by decide +kernel)]
    decide +kernel
  · rw [frame _ holds (by rw [bytes]; decide), bytes]
    decide +kernel
  · exact read rejected fit (by decide +kernel) 0x71 (.inr rfl)

end Board

end ClockChip
