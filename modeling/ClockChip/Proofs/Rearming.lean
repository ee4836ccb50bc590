import ClockChip.Proofs.Outstanding

/-!
# How the next tick is armed

Every tick that is served schedules the next one, a delay after it was due itself.  The
delay is computed from what the last one left over, and that is a remainder of a division:
so it is 1022 or 1023 cycles (`Oscillator.Regular.toNat_nextDelay`).

A stream that is restored is the exception.  The cursors of a session and the calendar are
brought into their range when they are read, and the remainder is not; it can be any word
of thirty-two bits, and the first tick after the load computes a delay from it, which may
lead back in time or to the end of it.  The tick after that is regular again if it ever
comes (`Reachable.load_rearms`), and a reset makes it regular in any case.
-/

namespace ClockChip

namespace Oscillator

/-- The delay that follows on a remainder. -/
def delayAfter (remainder : Int32) : UInt64 := ({ remainder } : Oscillator).nextDelay.1

variable {e : Int32}

/-- A delay as a number, which may be negative. -/
theorem toInt_delayAfter (e : Int32) :
    (delayAfter e).toInt64.toInt = (busClock + e).toInt / 32768 :=
  toInt_nextDelay { remainder := e }

/-- The remainders after which the delay is that of the crystal. -/
theorem delayAfter_regular_iff :
    delayAfter e = 1022 ∨ delayAfter e = 1023 ↔ -25086 ≤ e.toInt ∧ e.toInt < 40450 := by
  have number (d : UInt64) : delayAfter e = d ↔ (delayAfter e).toInt64.toInt = d.toInt64.toInt := by
    rw [Int64.toInt_inj]
    exact ⟨congrArg UInt64.toInt64, congrArg Int64.toUInt64⟩
  have sum : (busClock + e).toInt = (33513982 + e.toInt).bmod (2 ^ 32) := Int32.toInt_add busClock e
  have low := e.le_toInt
  have high := e.toInt_lt
  have short : (1022 : UInt64).toInt64.toInt = 1022 := rfl
  have long : (1023 : UInt64).toInt64.toInt = 1023 := rfl
  rw [number, number, toInt_delayAfter, sum, short, long, Int.bmod_def]
  split <;> omega

theorem Regular.delayAfter {o : Oscillator} (h : o.Regular) :
    delayAfter o.remainder = 1022 ∨ delayAfter o.remainder = 1023 := by
  obtain ⟨low, high⟩ := h
  exact delayAfter_regular_iff.2 ⟨by omega, by omega⟩

end Oscillator

namespace Machine

open Oscillator (delayAfter)

/-! ## The ticks that are served -/

/-- The machine after each tick that `serveUpTo` serves. -/
def tickedServed : Nat → Machine → List Machine
  | 0, _ => []
  | bound + 1, m =>
    match m.chip.serveDue? m.scheduler with
    | none => []
    | some (chip, scheduler) =>
      { m with chip, scheduler } :: tickedServed bound { m with chip, scheduler }

/-- The machine after each tick that is served on the way to `stop`. -/
def tickedTo (stop : UInt64) : Nat → Machine → List Machine
  | 0, _ => []
  | bound + 1, m =>
    if m.scheduler.now < stop then
      (m.wait stop).tickedServed ((m.wait stop).scheduler.now.toNat + 2) ++
        (m.step stop).tickedTo stop bound
    else []

/-- The machine after each tick that is served while it does something: only a run has any. -/
def tickedOf (m : Machine) : Action → List Machine
  | .run cycles => m.tickedTo (m.scheduler.now + cycles) (cycles.toNat + 1)
  | _ => []

/-- The machine after each tick that is served in the course of some actions. -/
def tickedOfPlay (m : Machine) (actions : List Action) : List Machine :=
  seenAlong tickedOf act m actions

/-- A tick has just been served, and the next one is all that waits.  It is due so many cycles
after that one was, whenever that was served. -/
def RearmedBy (delay : UInt64) (m : Machine) : Prop := m.Pending (m.scheduler.dispatched + delay)

/-- The delay is what the scheduler makes of it. -/
theorem RearmedBy.interval {delay : UInt64} {m : Machine} (h : m.RearmedBy delay) :
    m.scheduler.nextDue - m.scheduler.dispatched = delay := by
  have single : m.scheduler.queue = .single ⟨m.scheduler.dispatched + delay, _⟩ := h
  rw [Scheduler.nextDue_of_single single, UInt64.add_comm, UInt64.add_sub_cancel]

/-- A tick has just been served, and the next one is a tick of the crystal after it. -/
def RearmedOnTime (m : Machine) : Prop :=
  (m.RearmedBy 1022 ∨ m.RearmedBy 1023) ∧ m.chip.oscillator.Regular

/-- Ticks of which only the first one uses the remainder that was there before. -/
def Rearms (remainder : Int32) : List Machine → Prop
  | [] => True
  | first :: others =>
    first.RearmedBy (delayAfter remainder) ∧ first.chip.oscillator.Regular ∧
      ∀ t ∈ others, t.RearmedOnTime

variable {m m' m'' : Machine} {a : Action} {actions : List Action} {stop : UInt64}
  {log log' : List Machine}

/-- After a regular remainder all ticks are regular. -/
theorem Rearms.onTime (regular : m.chip.oscillator.Regular)
    (h : Rearms m.chip.oscillator.remainder log) : ∀ t ∈ log, t.RearmedOnTime := by
  cases log with
  | nil => exact List.forall_mem_nil _
  | cons first others =>
    obtain ⟨rearmed, regular', onTime⟩ := h
    refine List.forall_mem_cons.2 ⟨⟨?_, regular'⟩, onTime⟩
    rcases regular.delayAfter with eq | eq
    · exact .inl (eq ▸ rearmed)
    · exact .inr (eq ▸ rearmed)

/-! ## From machine to machine -/

/-- What becomes of a machine in a while in which these ticks are served and neither a reset
nor a restored state interferes. -/
structure Ran (m : Machine) (log : List Machine) (m' : Machine) : Prop where
  waiting : ∃ due, m'.Waiting due
  rearms : Rearms m.chip.oscillator.remainder log
  remainder : log = [] → m'.chip.oscillator.remainder = m.chip.oscillator.remainder
  regular : log ≠ [] → m'.chip.oscillator.Regular

/-- A while in which no tick is served. -/
theorem Ran.quiet (waiting : ∃ due, m'.Waiting due)
    (remainder : m'.chip.oscillator.remainder = m.chip.oscillator.remainder) : Ran m [] m' :=
  ⟨waiting, trivial, fun _ ↦ remainder, fun ticks ↦ absurd rfl ticks⟩

theorem Ran.trans (h : Ran m log m') (h' : Ran m' log' m'') : Ran m (log ++ log') m'' := by
  cases log with
  | nil =>
    have same := h.remainder rfl
    exact ⟨h'.waiting, same ▸ h'.rearms, fun quiet ↦ (h'.remainder quiet).trans same, h'.regular⟩
  | cons first others =>
    have regular := h.regular nofun
    obtain ⟨rearmed, regular', onTime⟩ := h.rearms
    refine ⟨h'.waiting, ⟨rearmed, regular', ?_⟩, nofun, fun _ ↦ ?_⟩
    · exact List.forall_mem_append.2 ⟨onTime, h'.rearms.onTime regular⟩
    · cases log' with
      | nil =>
        rw [Oscillator.Regular, h'.remainder rfl]
        exact regular
      | cons first' others' => exact h'.regular nofun

/-- One tick, whatever the remainder. -/
theorem ran_ticked (due : UInt64) (m : Machine) : Ran m [m.ticked due] (m.ticked due) where
  waiting := ⟨some (due + m.delay), pending_ticked due m⟩
  rearms :=
    ⟨pending_ticked due m, Oscillator.regular_nextDelay m.chip.oscillator.tick,
      List.forall_mem_nil _⟩
  remainder := nofun
  regular _ := Oscillator.regular_nextDelay m.chip.oscillator.tick

theorem ran_serveUpTo (waiting : ∃ due, m.Waiting due) (bound : Nat) :
    Ran m (m.tickedServed bound) (m.serveUpTo bound) := by
  induction bound generalizing m with
  | zero => exact .quiet waiting rfl
  | succ bound ih =>
    obtain ⟨due, waits⟩ := waiting
    cases due with
    | none =>
      rw [tickedServed, serveUpTo, serveDue?_idle waits]
      exact .quiet ⟨none, waits⟩ rfl
    | some due =>
      have pending : m.Pending due := waits
      rcases UInt64.lt_or_le m.scheduler.now due with lt | le
      · rw [tickedServed, serveUpTo, pending.serveDue?_of_lt lt]
        exact .quiet ⟨some due, waits⟩ rfl
      · rw [tickedServed, serveUpTo, pending.serveDue?_of_le le]
        exact (ran_ticked due m).trans (ih ⟨some _, pending_ticked due m⟩)

theorem ran_runTo (waiting : ∃ due, m.Waiting due) (bound : Nat) :
    Ran m (m.tickedTo stop bound) (m.runTo stop bound) := by
  induction bound generalizing m with
  | zero => exact .quiet waiting rfl
  | succ bound ih =>
    rw [tickedTo, runTo]
    split
    · obtain ⟨due, waits⟩ := waiting
      have waited : Ran m [] (m.wait stop) := .quiet ⟨due, waits.wait stop⟩ rfl
      have served : Ran m _ (m.step stop) := waited.trans (ran_serveUpTo waited.waiting _)
      exact served.trans (ih served.waiting)
    · exact .quiet waiting rfl

/-- What is neither a reset nor a load that is accepted serves ticks, or leaves them alone. -/
theorem ran_act (waiting : ∃ due, m.Waiting due) (leaves : a.leavesTicks) :
    Ran m (m.tickedOf a) (m.act a) := by
  rcases m.act_cases a with ⟨cycles, rfl⟩ | rfl | ⟨data, s, rfl, decoded, -⟩ | ⟨-, same⟩
  · exact ran_runTo waiting _
  · exact absurd rfl leaves.1
  · exact absurd decoded (leaves.2 data s rfl)
  · obtain ⟨due, waits⟩ := waiting
    have quiet : Ran m [] (m.act a) :=
      .quiet ⟨due, waits.sameTime same⟩ (congrArg Oscillator.remainder same.oscillator)
    cases a with
    | run cycles => exact ran_runTo ⟨due, waits⟩ _
    | _ => exact quiet

theorem ran_play (waiting : ∃ due, m.Waiting due) (leave : ∀ a ∈ actions, a.leavesTicks) :
    Ran m (m.tickedOfPlay actions) (m.play actions) :=
  seenAlong_induction (motive := Ran m) (.quiet waiting rfl)
    fun _ _ a mem ran ↦ ran.trans (ran_act ran.waiting (leave a mem))

/-! ## After a reset -/

/-- The oscillator starts from rest. -/
theorem regular_reset (m : Machine) : m.reset.chip.oscillator.Regular := by
  have rest := Oscillator.regular_nextDelay { m.chip.oscillator with ticks := 0 }.fromRest
  unfold reset
  cases m.config.boot <;> exact rest

/-- From a regular remainder on all ticks are regular, also over resets. -/
theorem onTime_play (waiting : ∃ due, m.Waiting due) (regular : m.chip.oscillator.Regular)
    (noLoad : ∀ a ∈ actions, a = .reset ∨ a.leavesTicks) :
    ∀ t ∈ m.tickedOfPlay actions, t.RearmedOnTime := by
  induction actions generalizing m with
  | nil => exact List.forall_mem_nil _
  | cons a actions ih =>
    rw [List.forall_mem_cons] at noLoad
    obtain ⟨rfl | leaves, later⟩ := noLoad
    · obtain ⟨due, pending, -⟩ := (upToDate_reset m).pending
      exact ih ⟨some due, pending⟩ (regular_reset m) later
    · have ran := ran_act waiting leaves
      have regular' : (m.act a).chip.oscillator.Regular := by
        by_cases quiet : m.tickedOf a = []
        · rw [Oscillator.Regular, ran.remainder quiet]
          exact regular
        · exact ran.regular quiet
      exact List.forall_mem_append.2 ⟨ran.rearms.onTime regular, ih ran.waiting regular' later⟩

/-! ## After a load -/

/-- A load puts back the remainder of the stream as it is, and from it the first tick that is
then served computes the delay to the next one, as a signed sum of thirty-two bits that may
wrap: one of 1022 or 1023 cycles exactly if the remainder is between -25086 and 40449.  Every
other tick up to the next load, and every one after a reset, arms the next tick 1022 or 1023
cycles after it was due itself, and each leaves over a remainder between 0 and 32767. -/
theorem Reachable.load_rearms (h : Reachable m) {data : List UInt8} {loaded : Machine}
    (loads : m.load data = .ok loaded) :
    let e := loaded.chip.oscillator.remainder
    (∃ s, Snapshot.decode data = .ok s ∧ e = s.chip.oscillator.remainder) ∧
      (delayAfter e).toInt64.toInt = (busClock + e).toInt / 32768 ∧
      (delayAfter e = 1022 ∨ delayAfter e = 1023 ↔ -25086 ≤ e.toInt ∧ e.toInt < 40450) ∧
      (∀ actions, (∀ a ∈ actions, a.leavesTicks) → Rearms e (loaded.tickedOfPlay actions)) ∧
      ∀ actions later, (∀ a ∈ later, a = .reset ∨ a.leavesTicks) →
        ∀ t ∈ (loaded.play (actions ++ [.reset])).tickedOfPlay later, t.RearmedOnTime := by
  intro e
  have reachable : Reachable loaded := h.load loads
  obtain ⟨s, decoded, restored⟩ := load_eq_ok_iff.1 loads
  have restored' : e = s.chip.oscillator.remainder :=
    congrArg (fun m ↦ m.chip.oscillator.remainder) restored
  refine ⟨⟨s, decoded, restored'⟩, Oscillator.toInt_delayAfter e,
    Oscillator.delayAfter_regular_iff, ?_, ?_⟩
  · intro actions leave
    exact (ran_play reachable.waiting leave).rearms
  · intro actions later noLoad
    have last : loaded.play (actions ++ [.reset]) = (loaded.play actions).reset :=
      play_append loaded actions [.reset]
    rw [last]
    obtain ⟨due, pending, -⟩ := (upToDate_reset (loaded.play actions)).pending
    exact onTime_play ⟨some due, pending⟩ (regular_reset _) noLoad

/-- What a machine holds that has just been switched on, but for the remainder: it is as far
below nought as a word goes. -/
def derailing : Snapshot :=
  { (ofConfig {}).snapshot with
    chip :=
      { (ofConfig {}).snapshot.chip with oscillator := { remainder := Int32.minValue } } }

/-- A machine into which its stream has been loaded. -/
def derailed : Machine := (ofConfig {}).restore derailing

theorem load_derailing :
    (ofConfig {}).load (Savestate.encode derailing.fields) = .ok derailed := by
  have same : derailing.clamped = derailing := by decide +kernel
  have decoded := derailing.decode_encode_alone
  rw [same] at decoded
  exact load_eq_ok_iff.2 ⟨derailing, decoded, rfl⟩

/-- The first tick of the restored machine goes back in time. -/
theorem Reachable.load_rearms_derailed :
    (ofConfig {}).load (Savestate.encode derailing.fields) = .ok derailed ∧
      (delayAfter Int32.minValue).toInt64.toInt = -64514 ∧
      Rearms Int32.minValue (derailed.tickedOfPlay [.run 1022]) ∧
      ∀ t ∈ (derailed.play [.run 1022, .reset]).tickedOfPlay [.run 2045], t.RearmedOnTime := by
  have leave : ∀ a ∈ [Action.run 1022], a.leavesTicks :=
    List.forall_mem_singleton.2 (Action.leavesTicks_of_ne nofun nofun)
  have later : ∀ a ∈ [Action.run 2045], a = .reset ∨ a.leavesTicks :=
    List.forall_mem_singleton.2 (.inr (Action.leavesTicks_of_ne nofun nofun))
  obtain ⟨-, delay, -, rearms, onTime⟩ :=
    Reachable.load_rearms (.start {}) load_derailing
  exact ⟨load_derailing, by decide +kernel, rearms _ leave, onTime [.run 1022] _ later⟩

/-- It is not so that after every load the ticks follow each other as those of the crystal:
after this one the second tick would be due at the end of time. -/
theorem derailed_not_onTime :
    ¬∀ m data loaded, Reachable m → m.load data = .ok loaded →
      ∀ actions, (∀ a ∈ actions, a.leavesTicks) →
        ∀ t ∈ loaded.tickedOfPlay actions, t.RearmedBy 1022 ∨ t.RearmedBy 1023 := by
  intro always
  have leave : ∀ a ∈ [Action.run 1022], a.leavesTicks :=
    List.forall_mem_singleton.2 (Action.leavesTicks_of_ne nofun nofun)
  have onTime := always _ _ _ (.start {}) load_derailing _ leave
  have delays : ∀ d ∈ (derailed.tickedOfPlay [.run 1022]).map
      (fun t ↦ t.scheduler.nextDue - t.scheduler.dispatched), d = 1022 ∨ d = 1023 := by
    refine List.forall_mem_map.2 fun t mem ↦ ?_
    exact (onTime t mem).imp RearmedBy.interval RearmedBy.interval
  have only : (derailed.tickedOfPlay [.run 1022]).map
      (fun t ↦ t.scheduler.nextDue - t.scheduler.dispatched) = [18446744073709487102] := by
    decide +kernel
  rw [only, List.forall_mem_singleton] at delays
  revert delays
  decide

end Machine

end ClockChip
