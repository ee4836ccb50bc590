import ClockChip.Proofs.Schedule
import ClockChip.Proofs.Shifting

/-!
# Reading a group

A host reads a group of registers by some two dozen writes and more, and between any two of
them it may let the machine run for as long as it likes (`Paced`), so that the clock goes on
in the middle of a transfer.  The chip does not mind: a transfer is taken apart at the last bit
of its command (`Paced.transfer`), and with one lemma for each phase (`Paced.start`,
`Paced.collecting`, `Paced.sending`) the command arrives as it was sent (`Paced.asking`), and
the answer, which is copied from the registers when that bit arrives, is sent from the copy
(`Paced.answering`).  `Paced.answered` puts the two parts together.

What a host is to get is written down from its side: the command byte of each group
(`Group.readCommand`) and the bytes that it finds there (`Registers.contents`).  That the chip
takes these commands for these groups is `Command.group?_eq_some_iff`, and that these are the
bytes which it sends is `Registers.read_eq_contents`.
-/

namespace ClockChip

/-! ## What a host is to get -/

/-- The command that reads a group, in its natural order. -/
def Group.readCommand : Group → UInt8
  | .status1 => 0x86
  | .alarm1 => 0x96
  | .dateTime => 0xA6
  | .clockAdjust => 0xB6
  | .status2 => 0xC6
  | .alarm2 => 0xD6
  | .time => 0xE6
  | .free => 0xF6
  | .minuteCount => 0x8E
  | .alarmDate1 => 0x9E
  | .fout2 => 0xAE
  | .fout1 => 0xCE
  | .alarmDate2 => 0xDE

namespace Command

/-- A command that reads addresses the group whose command it is, if the console has it. -/
theorem group?_eq_some_iff {console : Console} {cmd : UInt8} (reads : isRead cmd = true)
    (g : Group) :
    group? console cmd = some g ↔
      cmd = g.readCommand ∧ (g.extended = true → console = .dsi) := by
  have all : ∀ v : BitVec 8, isRead ⟨v⟩ = true →
      (group? console ⟨v⟩ = some g ↔
        (⟨v⟩ : UInt8) = g.readCommand ∧ (g.extended = true → console = .dsi)) := by
    cases console <;> cases g <;> decide +kernel
  exact all cmd.toBitVec reads

/-- A command that addresses a group may come in its natural order or in the opposite one. -/
theorem normalize_of_group (console : Console) (cmd : UInt8) {g : Group}
    (addressed : group? console cmd = some g) :
    normalize console cmd = cmd ∧ normalize console ⟨cmd.toBitVec.reverse⟩ = cmd := by
  have all : ∀ v : BitVec 8, (group? console ⟨v⟩).isSome →
      normalize console ⟨v⟩ = ⟨v⟩ ∧ normalize console ⟨v.reverse⟩ = ⟨v⟩ := by
    cases console <;> decide +kernel
  exact all cmd.toBitVec (by rw [UInt8.ofBitVec_toBitVec, addressed]; rfl)

/-- So may the command that reads a group. -/
theorem normalize_readCommand {console : Console} {g : Group}
    (has : g.extended = true → console = .dsi) :
    normalize console g.readCommand = g.readCommand ∧
      normalize console ⟨g.readCommand.toBitVec.reverse⟩ = g.readCommand := by
  have reads : isRead g.readCommand = true := by cases g <;> rfl
  exact normalize_of_group console _ ((group?_eq_some_iff reads g).2 ⟨rfl, has⟩)

end Command

namespace Registers

/-- The bytes of a group as a host finds them. -/
def contents (g : Group) (r : Registers) : List UInt8 :=
  match g with
  | .status1 => [⟨r.status1⟩]
  | .status2 => [⟨r.status2⟩]
  | .dateTime =>
    [r.calendar.year, r.calendar.month, r.calendar.day, r.calendar.weekday, r.calendar.hour,
      r.calendar.minute, r.calendar.second]
  | .time => [r.calendar.hour, r.calendar.minute, r.calendar.second]
  -- all three, or only the last
  | .alarm1 =>
    if r.status2.getLsbD 2 then r.alarm1.toList else [r.alarm1.get ⟨2, Nat.lt_add_one 2⟩]
  | .alarm2 => r.alarm2.toList
  | .clockAdjust => [r.clockAdjust]
  | .free => [r.free]
  -- the low twenty-four bits, from the top
  | .minuteCount =>
    [UInt8.ofNat (r.minuteCount.toNat / 65536), UInt8.ofNat (r.minuteCount.toNat / 256),
      UInt8.ofNat r.minuteCount.toNat]
  | .fout1 => [r.fout1]
  | .fout2 => [r.fout2]
  | .alarmDate1 => r.alarmDate1.toList
  | .alarmDate2 => r.alarmDate2.toList

/-- The counter goes out from the top. -/
theorem minuteBytes_eq_contents (r : Registers) : r.minuteBytes = r.contents .minuteCount := by
  have high : (r.minuteCount >>> 16).toNat = r.minuteCount.toNat / 65536 :=
    (UInt32.toNat_shiftRight _ _).trans (Nat.shiftRight_eq_div_pow _ 16)
  have middle : (r.minuteCount >>> 8).toNat = r.minuteCount.toNat / 256 :=
    (UInt32.toNat_shiftRight _ _).trans (Nat.shiftRight_eq_div_pow _ 8)
  rw [contents, ← high, ← middle]
  rfl

/-- A read sends the bytes of its group. -/
theorem read_eq_contents (g : Group) (r : Registers) : r.read g = r.contents g := by
  cases g with
  | alarm1 =>
    have flag : Status2.alarm1Date.isSet r.status2 = r.status2.getLsbD 2 := BitRange.isSet_bit _ _
    rw [read, contents, flag]
    rfl
  | minuteCount => exact r.minuteBytes_eq_contents
  | _ => rfl

/-- Only a read of status register 1 changes anything: the upper half of that register is
cleared. -/
theorem answered_eq (group : Option Group) (r : Registers) :
    r.answered group =
      if group = some .status1 then { r with status1 := r.status1 &&& 0x0F } else r := by
  rcases group with _ | g
  · rfl
  · cases g <;> rfl

end Registers

namespace Machine

/-! ## Writes at leisure -/

/-- The host makes these writes to the chip, one after another, and lets the machine run
before, between and after them as it likes. -/
inductive Paced : List Word → List Action → Prop where
  | done : Paced [] []
  | run {ws : List Word} {actions : List Action} (cycles : UInt64) (h : Paced ws actions) :
    Paced ws (.run cycles :: actions)
  | write {ws : List Word} {actions : List Action} (w : Word) (h : Paced ws actions) :
    Paced (w :: ws) (.write16 chipAddress w :: actions)

/-- Whether an action is a run. -/
def Action.isRun : Action → Bool
  | .run _ => true
  | _ => false

/-- What the host reads off the bus register when an action has led to `m`: it looks at it
after each write. -/
def readingsOf (m : Machine) : Action → List Word
  | .write16 _ _ => [m.read16 chipAddress]
  | _ => []

/-- What the host reads off the bus register in the course of some actions. -/
def readings (m : Machine) (actions : List Action) : List Word :=
  seenAlong (fun m a ↦ (m.act a).readingsOf a) act m actions

variable {m : Machine} {vs ws : List Word} {w : Word} {actions actions' : List Action}

theorem readings_cons (m : Machine) (a : Action) (actions : List Action) :
    m.readings (a :: actions) = (m.act a).readingsOf a ++ (m.act a).readings actions := rfl

theorem readings_append (m : Machine) (actions actions' : List Action) :
    m.readings (actions ++ actions') =
      m.readings actions ++ (m.play actions).readings actions' :=
  seenAlong_append m actions actions'

theorem OnlyRunsTouch.append (h : m.OnlyRunsTouch actions)
    (h' : (m.play actions).OnlyRunsTouch actions') : m.OnlyRunsTouch (actions ++ actions') := by
  induction actions generalizing m with
  | nil => exact h'
  | cons a actions ih => exact ⟨h.1, ih h.2 h'⟩

theorem write16_chip (m : Machine) (w : Word) :
    m.write16 chipAddress w = { m with chip := m.chip.write w } :=
  if_pos rfl

theorem read16_chip (m : Machine) : m.read16 chipAddress = m.chip.bus := if_pos rfl

namespace Paced

/-- The writes with no runs between them. -/
theorem of_words (ws : List Word) : Paced ws (ws.map (.write16 chipAddress)) := by
  induction ws with
  | nil => exact .done
  | cons w ws ih => exact .write w ih

theorem append (h : Paced vs actions) (h' : Paced ws actions') :
    Paced (vs ++ ws) (actions ++ actions') := by
  induction h with
  | done => exact h'
  | run cycles _ ih => exact .run cycles ih
  | write w _ ih => exact .write w ih

/-- Up to the first write there are runs only. -/
theorem cons_inv (h : Paced (w :: ws) actions) :
    ∃ pauses rest, actions = pauses ++ .write16 chipAddress w :: rest ∧
      Paced [] pauses ∧ Paced ws rest := by
  induction actions with
  | nil => cases h
  | cons a actions ih =>
    cases h with
    | run cycles h =>
      obtain ⟨pauses, rest, rfl, paused, paced⟩ := ih h
      exact ⟨.run cycles :: pauses, rest, rfl, .run cycles paused, paced⟩
    | write w h => exact ⟨[], actions, rfl, .done, h⟩

theorem append_inv (h : Paced (vs ++ ws) actions) :
    ∃ first second, actions = first ++ second ∧ Paced vs first ∧ Paced ws second := by
  induction vs generalizing actions with
  | nil => exact ⟨[], actions, rfl, .done, h⟩
  | cons v vs ih =>
    obtain ⟨pauses, rest, rfl, paused, paced⟩ := h.cons_inv
    obtain ⟨first, second, rfl, paced, paced'⟩ := ih paced
    exact ⟨pauses ++ .write16 chipAddress v :: first, second, by rw [List.append_assoc]; rfl,
      paused.append (.write v paced), paced'⟩

/-- Nobody on the bus notices the runs. -/
theorem pauses (h : Paced [] actions) (m : Machine) :
    SameBus m (m.play actions) ∧ m.OnlyRunsTouch actions ∧ m.readings actions = [] := by
  induction actions generalizing m with
  | nil => exact ⟨.refl m, trivial, rfl⟩
  | cons a actions ih =>
    cases h with
    | run cycles h =>
      obtain ⟨same, only, quiet⟩ := ih h (m.run cycles)
      exact ⟨(sameBus_run cycles m).trans same, ⟨.inl ⟨cycles, rfl⟩, only⟩, quiet⟩

theorem length_readings (h : Paced ws actions) (m : Machine) :
    (m.readings actions).length = ws.length := by
  induction h generalizing m with
  | done => rfl
  | run cycles _ ih => exact ih (m.run cycles)
  | write w _ ih => exact congrArg (· + 1) (ih (m.write16 chipAddress w))

theorem console_play (h : Paced ws actions) (m : Machine) :
    (m.play actions).chip.console = m.chip.console := by
  induction h generalizing m with
  | done => rfl
  | run cycles _ ih => exact (ih (m.run cycles)).trans (sameBus_run cycles m).console
  | write w _ ih =>
    refine (ih (m.write16 chipAddress w)).trans ?_
    rw [write16_chip]
    exact m.chip.console_write w

/-- The time goes on as if nothing were written. -/
theorem sameTime (h : Paced ws actions) {m' : Machine} (same : SameTime m m') :
    SameTime (m.play (actions.filter Action.isRun)) (m'.play actions) := by
  induction h generalizing m m' with
  | done => exact same
  | run cycles _ ih => exact ih (same.run cycles)
  | write w _ ih =>
    have wrote : SameTime m (m'.write16 chipAddress w) := by
      rw [write16_chip]
      exact ⟨same.scheduler, (m'.chip.oscillator_write w).trans same.oscillator,
        (m'.chip.tickHandle_write w).trans same.tickHandle⟩
    exact ih wrote

/-- Some actions begin with a write of `w`, before which `m` has become `before`, and go on
with `rest` from `after`. -/
structure Begins (m : Machine) (w : Word) (actions : List Action) (before after : Machine)
    (rest : List Action) : Prop where
  sameBus : SameBus m before
  wrote : after.chip = before.chip.write w
  play : m.play actions = after.play rest
  readings : m.readings actions = after.chip.bus :: after.readings rest
  onlyRunsTouch : after.chip.registers = before.chip.registers → after.OnlyRunsTouch rest →
    m.OnlyRunsTouch actions

/-- The next write reaches the chip as if nothing had happened in the meantime. -/
theorem begins (h : Paced (w :: ws) actions) (m : Machine) :
    ∃ before after rest, Begins m w actions before after rest ∧ Paced ws rest := by
  obtain ⟨pauses, rest, rfl, paused, paced⟩ := h.cons_inv
  obtain ⟨same, only, quiet⟩ := paused.pauses m
  refine ⟨m.play pauses, (m.play pauses).write16 chipAddress w, rest, ⟨same, ?_, ?_, ?_, ?_⟩, paced⟩
  · rw [write16_chip]
  · rw [play_append]
    rfl
  · rw [readings_append, quiet, List.nil_append, readings_cons, ← read16_chip]
    rfl
  · exact fun kept rests ↦ only.append ⟨.inr kept, rests⟩

end Paced

/-! ## The phases of a transfer -/

open Chip (Collecting Sending sentBit byteAt)

variable {b : UInt8} {s : Session} {out : Vector UInt8 8}

theorem SameBus.collecting {m' : Machine} (same : SameBus m m') {i : Nat}
    (h : Collecting b i s m.chip) : Collecting b i s m'.chip where
  selected := by rw [same.bus]; exact h.selected
  session := same.session.trans h.session

theorem SameBus.sending {m' : Machine} (same : SameBus m m') {j : Nat}
    (h : Sending out j m.chip) : Sending out j m'.chip where
  selected := by rw [same.bus]; exact h.selected
  output := by rw [same.session]; exact h.output
  outputBit := by rw [same.session]; exact h.outputBit
  outputPos := by rw [same.session]; exact h.outputPos

/-- Whatever went on before, the chip is ready for a command when it has been selected anew. -/
theorem Paced.start (h : Paced Wire.start actions) (m : Machine) (b : UInt8) :
    Collecting b 0 m.chip.session.start (m.play actions).chip ∧ m.OnlyRunsTouch actions := by
  obtain ⟨before, after, rest, first, h⟩ := h.begins m
  obtain ⟨before', after', rest', second, h⟩ := h.begins after
  obtain ⟨same, only, -⟩ := h.pauses after'
  have released : after.chip.bus = Wire.released := by
    rw [first.wrote, Chip.write_of_edge (Edge.of_released _), Chip.bus_latch _ rfl]
  have session : after.chip.session = m.chip.session := by
    rw [first.wrote, Chip.write_of_edge (Edge.of_released _), ← first.sameBus.session]
    rfl
  have free : Wire.select.isSet before'.chip.bus = false := by
    rw [second.sameBus.bus, released]
    rfl
  have wrote := second.wrote
  rw [Chip.write_of_edge (Edge.of_selected free)] at wrote
  have selected : Collecting b 0 m.chip.session.start after'.chip := by
    refine ⟨?_, ?_⟩
    · rw [wrote, Chip.bus_latch _ rfl]
      rfl
    · rw [wrote, Chip.lowBits_zero, ← session, ← second.sameBus.session]
      rfl
  refine ⟨?_, first.onlyRunsTouch ?_ (second.onlyRunsTouch ?_ only)⟩
  · rw [first.play, second.play]
    exact same.collecting selected
  · rw [first.wrote, Chip.write_of_edge (Edge.of_released _)]
    rfl
  · rw [wrote]
    rfl

/-- Bits before the last one of a byte are collected. -/
theorem Paced.collecting {i k : Nat} (le : i + k ≤ 7)
    (h : Paced ((List.range' i k).flatMap fun i ↦ Wire.sendBit (b.toBitVec.getLsbD i)) actions)
    (collecting : Collecting b i s m.chip) :
    Collecting b (i + k) s (m.play actions).chip ∧ m.OnlyRunsTouch actions := by
  induction k generalizing i m actions with
  | zero =>
    obtain ⟨same, only, -⟩ := h.pauses m
    exact ⟨same.collecting collecting, only⟩
  | succ k ih =>
    rw [List.range'_succ, List.flatMap_cons, Wire.sendBit_eq] at h
    obtain ⟨before, after, rest, low, h⟩ := h.begins m
    obtain ⟨before', after', rest', high, h⟩ := h.begins after
    obtain ⟨taken, kept⟩ := (low.sameBus.collecting collecting).clockLow (by omega)
    rw [← low.wrote] at taken kept
    obtain ⟨stays, kept'⟩ := (high.sameBus.collecting taken).clockHigh (b.toBitVec.getLsbD i)
    rw [← high.wrote] at stays kept'
    obtain ⟨collected, only⟩ := ih (by omega) h stays
    rw [Nat.add_assoc, Nat.add_comm 1 k] at collected
    refine ⟨?_, low.onlyRunsTouch kept (high.onlyRunsTouch kept' only)⟩
    rw [low.play, high.play]
    exact collected

/-- The host gets the bits of the buffer one after another. -/
theorem Paced.sending {j k : Nat} (h : Paced (List.replicate k Wire.pollBit).flatten actions)
    (sending : Sending out j m.chip) :
    Sending out (j + k) (m.play actions).chip ∧ m.OnlyRunsTouch actions ∧
      Wire.samples (m.readings actions) = (List.range' j k).map (sentBit out) := by
  induction k generalizing j m actions with
  | zero =>
    obtain ⟨same, only, quiet⟩ := h.pauses m
    exact ⟨same.sending sending, only, by rw [quiet]; rfl⟩
  | succ k ih =>
    rw [List.replicate_succ, List.flatten_cons] at h
    obtain ⟨before, after, rest, low, h⟩ := h.begins m
    obtain ⟨before', after', rest', high, h⟩ := h.begins after
    obtain ⟨sent, kept, bit⟩ := (low.sameBus.sending sending).poll
    rw [← low.wrote] at sent kept bit
    obtain ⟨stays, kept', bit'⟩ := (high.sameBus.sending sent).polled
    rw [← high.wrote] at stays kept' bit'
    obtain ⟨sent, only, samples⟩ := ih h stays
    rw [Nat.add_assoc, Nat.add_comm 1 k] at sent
    refine ⟨?_, low.onlyRunsTouch kept (high.onlyRunsTouch kept' only), ?_⟩
    · rw [low.play, high.play]
      exact sent
    · rw [low.readings, high.readings, Wire.samples, samples, bit', high.sameBus.bus, bit,
        List.range'_succ, List.map_cons]

/-! ## A transfer as a whole -/

/-- Just before the last bit of the first byte. -/
theorem Paced.asking (h : Paced (Wire.start ++ (Wire.sendByte b).take 14) actions) (m : Machine) :
    Collecting b 7 m.chip.session.start (m.play actions).chip ∧ m.OnlyRunsTouch actions := by
  obtain ⟨first, second, rfl, starting, collecting⟩ := h.append_inv
  rw [Wire.take_sendByte] at collecting
  obtain ⟨ready, only⟩ := starting.start m b
  obtain ⟨collected, only'⟩ := collecting.collecting (Nat.le_refl 7) ready
  rw [play_append]
  exact ⟨collected, only.append only'⟩

/-- From the last bit of a command that reads to the end of the transfer. -/
theorem Paced.answering {bit : Bool} {n : Nat}
    (h : Paced (Wire.clockHigh bit :: (Wire.receive n ++ Wire.stop)) actions)
    (sending : Sending out 0 m.chip) :
    Wire.pack (Wire.samples ((m.readings actions).drop 1)) =
        (List.range' 0 n).map (byteAt out) ∧
      m.OnlyRunsTouch actions := by
  obtain ⟨before, after, rest, high, h⟩ := h.begins m
  obtain ⟨ready, kept⟩ := (high.sameBus.sending sending).clockHigh bit
  rw [← high.wrote] at ready kept
  obtain ⟨first, second, rfl, receiving, stopping⟩ := h.append_inv
  obtain ⟨-, only, samples⟩ := receiving.sending ready
  obtain ⟨before', after', rest', stop, ended⟩ := stopping.begins (after.play first)
  obtain ⟨-, only', -⟩ := ended.pauses after'
  have released : after'.chip.registers = before'.chip.registers := by
    rw [stop.wrote, Chip.write_of_edge (Edge.of_released _)]
    rfl
  refine ⟨?_, high.onlyRunsTouch kept (only.append (stop.onlyRunsTouch released only'))⟩
  have pairs : (after.readings first).length % 2 = 0 := by
    rw [receiving.length_readings, Wire.length_receive]
    omega
  have last : Wire.samples ((after.play first).readings second) = [] := by
    obtain ⟨w, single⟩ := List.length_eq_one_iff.1 (stopping.length_readings (after.play first))
    rw [single]
    rfl
  rw [high.readings, List.drop_one, List.tail_cons, readings_append, Wire.samples_append pairs,
    samples, last, List.append_nil]
  exact Chip.pack_sentBits out 0 n

/-- A transfer that reads is taken apart at the last bit of its command.  The pauses before that
bit belong to what comes before it. -/
theorem Paced.transfer {n : Nat}
    (h : Paced (Wire.start ++ Wire.sendByte b ++ Wire.receive n ++ Wire.stop) actions) :
    let bit := b.toBitVec.getLsbD 7
    ∃ asking answering,
      actions = asking ++ .write16 chipAddress (Wire.clockLow bit) :: answering ∧
        Paced (Wire.start ++ (Wire.sendByte b).take 14) asking ∧
        Paced (Wire.clockHigh bit :: (Wire.receive n ++ Wire.stop)) answering := by
  intro bit
  have words : Wire.start ++ Wire.sendByte b ++ Wire.receive n ++ Wire.stop =
      (Wire.start ++ (Wire.sendByte b).take 14) ++
        Wire.clockLow bit :: (Wire.clockHigh bit :: (Wire.receive n ++ Wire.stop)) := by
    rw [List.append_assoc (_ ++ _)]
    rfl
  rw [words] at h
  obtain ⟨first, second, rfl, starts, ends⟩ := h.append_inv
  obtain ⟨pauses, answering, rfl, paused, answers⟩ := ends.cons_inv
  have asks := starts.append paused
  rw [List.append_nil] at asks
  exact ⟨first ++ pauses, answering, (List.append_assoc _ _ _).symm, asks, answers⟩

/-- The last bit of a command that reads copies the answer, which is sent after it. -/
theorem Paced.answered {n : Nat} {asking answering : List Action}
    (asks : Paced (Wire.start ++ (Wire.sendByte b).take 14) asking)
    (answers :
      Paced (Wire.clockHigh (b.toBitVec.getLsbD 7) :: (Wire.receive n ++ Wire.stop)) answering)
    (reads : Command.isRead (Command.normalize m.chip.console b) = true) :
    let group := Command.group? m.chip.console (Command.normalize m.chip.console b)
    let lastBit := Action.write16 chipAddress (Wire.clockLow (b.toBitVec.getLsbD 7))
    let r := (m.play asking).chip.registers
    Wire.pack (Wire.samples ((m.readings (asking ++ lastBit :: answering)).drop 18)) =
        (r.answer group ++ List.replicate n 0).take n ∧
      (m.play (asking ++ lastBit :: answering)).chip.registers =
        Registers.countSecond^[(((m.play asking).act lastBit).ticksOfPlay answering).count true]
          (r.answered group) := by
  intro group lastBit r
  obtain ⟨collected, -⟩ := asks.asking (b := b) m
  have console : (m.play asking).chip.console = m.chip.console := asks.console_play m
  have wrote : ((m.play asking).act lastBit).chip =
      (m.play asking).chip.write (Wire.clockLow (b.toBitVec.getLsbD 7)) :=
    congrArg chip ((m.play asking).write16_chip _)
  obtain ⟨sending, answered⟩ := collected.write_command (by rw [console]; exact reads)
  rw [console, ← wrote] at sending answered
  obtain ⟨bytes, only⟩ := answers.answering sending
  constructor
  · have got : (m.readings (asking ++ lastBit :: answering)).drop 18 =
        (((m.play asking).act lastBit).readings answering).drop 1 := by
      have before : (m.readings asking).length = 16 := asks.length_readings m
      rw [readings_append, List.drop_append, before,
        List.drop_eq_nil_of_le (by rw [before]; decide)]
      rfl
    have answer : byteAt (m.chip.session.start.load (r.answer group)).output =
        fun k ↦ (r.answer group)[k]?.getD 0 :=
      funext (Chip.byteAt_load _ (Registers.length_answer_le _ _))
    rw [got, bytes, answer, Chip.map_getD_range']
  · have played : m.play (asking ++ lastBit :: answering) =
        ((m.play asking).act lastBit).play answering := play_append m _ _
    rw [played, registers_play answering _ only, answered]

/-- However long the host takes over a transfer that reads, it gets the bytes of the group as
they were when the last bit of the command arrived, and zeros after that.  The group is that
of the command, in whichever order its bits were sent, and of a command that addresses no
group on this console the host gets zeros only.  The registers count the seconds of the runs,
and if status register 1 was read its upper half is cleared, but nothing else happens to
them, and the time is that of the runs alone. -/
theorem readTransfer_snapshot (m : Machine) (b : UInt8) (n : Nat) {actions : List Action}
    (reads : Command.isRead (Command.normalize m.chip.console b) = true)
    (paced : Paced (Wire.start ++ Wire.sendByte b ++ Wire.receive n ++ Wire.stop) actions) :
    let cmd := Command.normalize m.chip.console b
    let group := Command.group? m.chip.console cmd
    let received := Wire.pack (Wire.samples ((m.readings actions).drop 18))
    let lastBit := Action.write16 chipAddress (Wire.clockLow (b.toBitVec.getLsbD 7))
    (∀ g : Group, (g.extended = true → m.chip.console = .dsi) →
      Command.normalize m.chip.console g.readCommand = g.readCommand ∧
        Command.normalize m.chip.console ⟨g.readCommand.toBitVec.reverse⟩ = g.readCommand) ∧
    (∀ g, group = some g ↔
      cmd = g.readCommand ∧ (g.extended = true → m.chip.console = .dsi)) ∧
    ∃ asking answering, actions = asking ++ lastBit :: answering ∧
      Paced (Wire.start ++ (Wire.sendByte b).take 14) asking ∧
      let asked := m.play asking
      let r := asked.chip.registers
      (∀ g, group = some g → received = (r.contents g ++ List.replicate n 0).take n) ∧
        (group = none → received = List.replicate n 0) ∧
        r = Registers.countSecond^[(m.ticksOfPlay asking).count true] m.chip.registers ∧
        (m.play actions).chip.registers =
          Registers.countSecond^[((asked.act lastBit).ticksOfPlay answering).count true]
            (if group = some .status1 then { r with status1 := r.status1 &&& 0x0F } else r) ∧
        SameTime (m.play (actions.filter Action.isRun)) (m.play actions) := by
  intro cmd group received lastBit
  have time := paced.sameTime (.refl m)
  obtain ⟨asking, answering, rfl, asks, answers⟩ := paced.transfer
  refine ⟨fun g ↦ Command.normalize_readCommand, Command.group?_eq_some_iff reads,
    asking, answering, rfl, asks, ?_⟩
  intro asked r
  obtain ⟨-, only⟩ := asks.asking (b := b) m
  obtain ⟨gets, registers⟩ := asks.answered answers reads
  have gets : received = (r.answer group ++ List.replicate n 0).take n := gets
  refine ⟨fun g addressed ↦ ?_, fun none ↦ ?_, registers_play _ m only, ?_, time⟩
  · rw [gets, addressed, ← r.read_eq_contents g]
    rfl
  · rw [gets, none]
    exact List.take_of_length_le (Nat.le_of_eq List.length_replicate)
  · rw [registers, Registers.answered_eq]

/-- A machine in the last second of the year, of which one tick is left. -/
def lastTickOfYear : Machine :=
  let m := ofConfig { console := .dsi, boot := some ⟨2023, 12, 31, 23, 59, 59⟩ }
  { m with chip := { m.chip with oscillator.ticks := 32767 } }

/-- The date and time are asked for in the old year, with the command in the opposite order,
and sent in the new one. -/
theorem readTransfer_snapshot_newYear :
    let words := Wire.start ++ Wire.sendByte 0x65 ++ Wire.receive 8 ++ Wire.stop
    let actions : List Action :=
      (words.take 50).map (.write16 chipAddress) ++
        .run 2000 :: (words.drop 50).map (.write16 chipAddress)
    ∃ asking, Paced (Wire.start ++ (Wire.sendByte 0x65).take 14) asking ∧
      Wire.pack (Wire.samples ((lastTickOfYear.readings actions).drop 18)) =
        ((lastTickOfYear.play asking).chip.registers.contents .dateTime ++
          List.replicate 8 0).take 8 ∧
      Wire.pack (Wire.samples ((lastTickOfYear.readings actions).drop 18)) =
        [0x23, 0x12, 0x31, 0x00, 0x51, 0x59, 0x59, 0x00] ∧
      (lastTickOfYear.play actions).chip.registers.calendar =
        ⟨0x24, 0x01, 0x01, 0x01, 0x00, 0x00, 0x00⟩ := by
  intro words actions
  have paced : Paced words actions := by
    have parts := (Paced.of_words (words.take 50)).append
      (.run 2000 (.of_words (words.drop 50)))
    rwa [List.take_append_drop] at parts
  obtain ⟨-, -, asking, answering, -, asks, got, -⟩ :=
    readTransfer_snapshot lastTickOfYear 0x65 8 (by decide +kernel) paced
  exact ⟨asking, asks, got .dateTime (by decide +kernel), by decide +kernel, by decide +kernel⟩

end Machine

end ClockChip
