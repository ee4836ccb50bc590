import ClockChip.Proofs.Accesses
import ClockChip.Proofs.Groups
import ClockChip.Proofs.Restoring

/-!
# Flags that are reported once

The high half of status register 1 are flags.  A read of the register puts them into the
buffer and clears them, and nothing in the ordinary use of a machine sets one: a write of
the register keeps them or, if it resets, clears them with everything else, and a date
that is set takes back that the power was lost (`flags_act`).

So there is only the flag with which the chip gets its power.  It stands until the first
action that takes it away (`flags_play`), which may be a read that reports it, and no
later read reports it again (`flags_reported_once`).
-/

namespace ClockChip

/-! ## Registers -/

/-- The access takes every flag away: it reports them, or it clears all registers. -/
def Access.clearsFlags : Access → Bool
  | read .status1 => true
  | access => access.clears

namespace Registers

/-- The flags that have not been cleared yet. -/
def flags (r : Registers) : BitVec 8 := r.status1 &&& Status1.reported

/-- The flags are the high half of the register. -/
theorem getLsbD_flags (r : Registers) {i : Nat} (high : 4 ≤ i) (lt : i < 8) :
    r.flags.getLsbD i = r.status1.getLsbD i := by
  have reported : ∀ i < 8, 4 ≤ i → Status1.reported.getLsbD i = true := by decide
  rw [flags, BitVec.getLsbD_and, reported i lt high, Bool.and_true]

/-- The bit that resets the chip is not kept. -/
def NoReset (r : Registers) : Prop := Status1.reset.isSet r.status1 = false

variable {r : Registers}

theorem status1_writeStatus1 (b : UInt8) (r : Registers) :
    (r.writeStatus1 b).status1 =
      ((if Status1.reset.isSet b.toBitVec then cleared else r).status1 &&& Status1.reported) |||
        (b.toBitVec &&& Status1.writable) := by
  rw [writeStatus1_eq]
  split <;> rfl

/-- A write cannot reach the flags, and a reset clears them. -/
theorem flags_writeStatus1 (b : UInt8) (r : Registers) :
    (r.writeStatus1 b).flags = if Status1.reset.isSet b.toBitVec then 0 else r.flags := by
  have own : Status1.reported &&& Status1.reported = Status1.reported := rfl
  have apart : Status1.writable &&& Status1.reported = 0#8 := rfl
  rw [flags, status1_writeStatus1, BitVec.and_or_distrib_right, BitVec.and_assoc,
    BitVec.and_assoc, own, apart, BitVec.and_zero, BitVec.or_zero]
  split <;> rfl

/-- Whatever is written, the bit that resets reads as nought. -/
theorem noReset_writeStatus1 (b : UInt8) (r : Registers) : (r.writeStatus1 b).NoReset := by
  rw [NoReset, status1_writeStatus1, Status1.reset, BitRange.isSet_bit]
  simp [Status1.reported, Status1.writable]

/-- What an access makes of the flags: it takes all away or none. -/
theorem flags_accessed (access : Option Access) (r : Registers) :
    (r.accessed access).flags = if access.any Access.clearsFlags then 0 else r.flags := by
  match access with
  | none => rfl
  | some (.read g) =>
    cases g with
    | status1 =>
      have gone : ∀ s : BitVec 8, (s &&& ~~~Status1.reported) &&& Status1.reported = 0 := by
        decide
      exact gone r.status1
    | _ => rfl
  | some (.store g position b) =>
    cases g with
    | status1 =>
      by_cases first : position = 1
      · rw [accessed, write, if_pos first, flags_writeStatus1, first]
        rfl
      · have kept : (Access.store .status1 position b).clearsFlags = false :=
          Access.clears_of_ne first b
        rw [accessed, write, if_neg first, Option.any_some, kept]
        rfl
    | dateTime => rfl
    | time => rfl
    | _ =>
      rw [accessed, flags,
        (sameClock_write (by decide) (by decide) (by decide) position b r).status1]
      rfl

theorem NoReset.accessed (h : r.NoReset) (access : Option Access) :
    (r.accessed access).NoReset := by
  match access with
  | none => exact h
  | some (.read g) =>
    cases g with
    | status1 =>
      have kept : ∀ s : BitVec 8, Status1.reset.isSet s = false →
          Status1.reset.isSet (s &&& ~~~Status1.reported) = false := by
        decide
      exact kept r.status1 h
    | _ => exact h
  | some (.store g position b) =>
    rcases write_cases g position b r with eq | ⟨place, eq⟩ | same
    · rw [Registers.accessed, eq]
      exact noReset_writeStatus1 b r
    · rw [Registers.accessed, eq]
      exact h
    · rw [Registers.accessed, NoReset, same.status1]
      exact h

/-- A date that is set takes back that the power was lost. -/
theorem flags_setDateTime (t : DateTime) (r : Registers) :
    (r.setDateTime t).flags = Status1.powerLost.put false r.flags := by
  have commute : ∀ s : BitVec 8, Status1.powerLost.put false s &&& Status1.reported =
      Status1.powerLost.put false (s &&& Status1.reported) := by
    decide
  exact commute r.status1

theorem NoReset.setDateTime (h : r.NoReset) (t : DateTime) : (r.setDateTime t).NoReset := by
  have kept : ∀ s : BitVec 8, Status1.reset.isSet s = false →
      Status1.reset.isSet (Status1.powerLost.put false s) = false := by
    decide
  exact kept r.status1 h

/-- The passing of time does not touch the status registers. -/
theorem status1_iterate_countSecond (n : Nat) (r : Registers) :
    (Registers.countSecond^[n] r).status1 = r.status1 := by
  induction n with
  | zero => rfl
  | succ n ih =>
    rw [Function.iterate_succ_apply']
    exact ih

end Registers

/-! ## Machines -/

namespace Machine

open Registers (NoReset)

variable {config : Config} {m : Machine} {a : Action} {actions : List Action}

/-- The action gives the chip a date. -/
def setsDate (m : Machine) : Action → Bool
  | .setDateTime _ => true
  | .reset => m.config.boot.isSome
  | _ => false

theorem flags_act (m : Machine) (drives : a.drives) :
    (m.act a).chip.registers.flags =
      if (m.access? a).any Access.clearsFlags then 0
      else if m.setsDate a then Status1.powerLost.put false m.chip.registers.flags
      else m.chip.registers.flags := by
  cases a with
  | reset =>
    rw [act, registers_reset, setsDate]
    cases m.config.boot with
    | none => rfl
    | some t => exact Registers.flags_setDateTime t _
  | run cycles =>
    rw [act, registers_run, Registers.flags, Registers.status1_iterate_countSecond]
    rfl
  | write16 address w =>
    rw [act, registers_write16]
    exact Registers.flags_accessed _ _
  | write8 address b =>
    rw [act, registers_write8]
    exact Registers.flags_accessed _ _
  | setDateTime t => exact Registers.flags_setDateTime t _
  | install r => cases drives
  | setConsole console => cases drives
  | load data => cases drives

theorem noReset_act (h : m.chip.registers.NoReset) (drives : a.drives) :
    (m.act a).chip.registers.NoReset := by
  cases a with
  | reset =>
    rw [act, registers_reset]
    split
    · exact h
    · exact h.setDateTime _
  | run cycles =>
    rw [act, registers_run, NoReset, Registers.status1_iterate_countSecond]
    exact h
  | write16 address w =>
    rw [act, registers_write16]
    exact h.accessed _
  | write8 address b =>
    rw [act, registers_write8]
    exact h.accessed _
  | setDateTime t => exact h.setDateTime t
  | install r => cases drives
  | setConsole console => cases drives
  | load data => cases drives

/-- Once a flag is clear no action sets it again. -/
theorem getLsbD_flags_act (drives : a.drives) {i : Nat}
    (clear : m.chip.registers.flags.getLsbD i = false) :
    (m.act a).chip.registers.flags.getLsbD i = false := by
  rw [flags_act m drives]
  split
  · exact BitVec.getLsbD_zero
  · split
    · rw [BitRange.getLsbD_put]
      split
      · rfl
      · exact clear
    · exact clear

theorem getLsbD_flags_play (driven : ∀ a ∈ actions, a.drives) {i : Nat}
    (clear : m.chip.registers.flags.getLsbD i = false) :
    (m.play actions).chip.registers.flags.getLsbD i = false := by
  induction actions generalizing m with
  | nil => exact clear
  | cons a actions ih =>
    rw [List.forall_mem_cons] at driven
    exact ih driven.2 (getLsbD_flags_act driven.1 clear)

theorem flags_play_of_clear (driven : ∀ a ∈ actions, a.drives)
    (clear : m.chip.registers.flags = 0) : (m.play actions).chip.registers.flags = 0 := by
  apply BitVec.eq_of_getLsbD_eq
  intro i _
  have before : m.chip.registers.flags.getLsbD i = false := by
    rw [clear]
    exact BitVec.getLsbD_zero
  exact (getLsbD_flags_play driven before).trans BitVec.getLsbD_zero.symm

theorem noReset_play (driven : ∀ a ∈ actions, a.drives) (h : m.chip.registers.NoReset) :
    (m.play actions).chip.registers.NoReset := by
  induction actions generalizing m with
  | nil => exact h
  | cons a actions ih =>
    rw [List.forall_mem_cons] at driven
    exact ih driven.2 (noReset_act h driven.1)

/-! ## That the power was lost -/

/-- The action does not take back that the power was lost. -/
def keepsPowerLost (m : Machine) (a : Action) : Bool :=
  !(m.access? a).any Access.clearsFlags && !m.setsDate a

/-- None of the actions takes back that the power was lost. -/
def allKeepPowerLost : Machine → List Action → Bool
  | _, [] => true
  | m, a :: actions => m.keepsPowerLost a && (m.act a).allKeepPowerLost actions

/-- Where no other flag is set, an action leaves the one for the loss of power or none. -/
theorem flags_act_of_powerLost (drives : a.drives) (powerLost : m.chip.registers.flags = 0x80) :
    (m.act a).chip.registers.flags = if m.keepsPowerLost a then 0x80 else 0 := by
  have back : Status1.powerLost.put false 0x80 = 0 := by decide
  rw [flags_act m drives, powerLost, back, keepsPowerLost]
  cases (m.access? a).any Access.clearsFlags with
  | true => rfl
  | false => cases m.setsDate a <;> rfl

/-- The flag for the loss of power stands until something takes it back. -/
theorem flags_play (driven : ∀ a ∈ actions, a.drives)
    (powerLost : m.chip.registers.flags = 0x80) :
    (m.play actions).chip.registers.flags =
      if m.allKeepPowerLost actions then 0x80 else 0 := by
  induction actions generalizing m with
  | nil => exact powerLost
  | cons a actions ih =>
    rw [List.forall_mem_cons] at driven
    have after := flags_act_of_powerLost driven.1 powerLost
    rw [allKeepPowerLost]
    cases keeps : m.keepsPowerLost a with
    | true =>
      rw [keeps, if_pos rfl] at after
      exact ih driven.2 after
    | false =>
      rw [keeps, if_neg Bool.false_ne_true] at after
      have none : ((m.act a).play actions).chip.registers.flags = 0 :=
        flags_play_of_clear driven.2 after
      exact none

/-- A machine is switched on with the flag for the loss of power, unless it is given a date
at once. -/
theorem flags_ofConfig (config : Config) :
    (ofConfig config).chip.registers.flags = if config.boot = none then 0x80 else 0 := by
  have powerOn : (Chip.powerOn config.console).registers.flags = 0x80 := by
    change Status1.powerLost.put true 0 &&& Status1.reported = 0x80
    decide
  rw [ofConfig, registers_reset]
  cases config.boot with
  | none => exact powerOn
  | some t =>
    dsimp only
    rw [Registers.flags_setDateTime, powerOn, if_neg nofun]
    decide

theorem noReset_ofConfig (config : Config) : (ofConfig config).chip.registers.NoReset := by
  have powerOn : (Chip.powerOn config.console).registers.NoReset := by
    change Status1.reset.isSet (Status1.powerLost.put true 0) = false
    decide
  rw [ofConfig, registers_reset]
  cases config.boot with
  | none => exact powerOn
  | some t => exact powerOn.setDateTime t

/-! ## Reads of the register -/

/-- Only a write is an access. -/
theorem drives_of_access? {access : Access} (read : m.access? a = some access) : a.drives := by
  cases a with
  | write16 address w => rfl
  | write8 address b => rfl
  | _ => nomatch read

/-- A read puts the register into the buffer. -/
theorem output_status1 (read : m.access? a = some (.read .status1)) :
    (m.act a).chip.session.output[0] = ⟨m.chip.registers.status1⟩ := by
  simp only [output_act read, Session.load, Vector.getElem_mapIdx]
  rfl

/-- A read leaves no flag. -/
theorem flags_status1 (read : m.access? a = some (.read .status1)) :
    (m.act a).chip.registers.flags = 0 := by
  rw [flags_act m (drives_of_access? read), read]
  rfl

/-- From a machine of any configuration on, through any writes to the address space, runs,
resets and settings of the date, a flag is reported at most once.

* The bit that resets is never found set, and no flag that is clear becomes set again.
* There is only the flag for the loss of power, which a machine has that was built without a
  date.  It stands until it is reported, cleared by a reset through status register 1, or
  taken back by a date.
* A read of the register puts it into the buffer as it is, with the flags that still stand.
  None stands afterwards, and every later read has zeros in their place. -/
theorem flags_reported_once (config : Config) (driven : ∀ a ∈ actions, a.drives) :
    let m := (ofConfig config).play actions
    let status1 := m.chip.registers.status1
    Status1.reset.isSet status1 = false ∧
      (∀ later, (∀ a ∈ later, a.drives) → ∀ i, 4 ≤ i → i < 8 → status1.getLsbD i = false →
        (m.play later).chip.registers.status1.getLsbD i = false) ∧
      status1 &&& Status1.reported =
        (if config.boot = none ∧ (ofConfig config).allKeepPowerLost actions then 0x80 else 0) ∧
      ∀ a, m.access? a = some (.read .status1) →
        (m.act a).chip.session.output[0] = ⟨status1⟩ ∧
          ∀ later, (∀ a ∈ later, a.drives) → ∀ a',
            ((m.act a).play later).access? a' = some (.read .status1) →
            (((m.act a).play later).act a').chip.session.output[0] &&& 0xF0 = 0 := by
  intro m status1
  refine ⟨noReset_play driven (noReset_ofConfig config), ?_, ?_, ?_⟩
  · intro later driven' i high lt clear
    rw [← Registers.getLsbD_flags _ high lt] at clear ⊢
    exact getLsbD_flags_play driven' clear
  · change m.chip.registers.flags = _
    have first := flags_ofConfig config
    by_cases dateless : config.boot = none
    · rw [if_pos dateless] at first
      simp only [dateless, true_and]
      exact flags_play driven first
    · rw [if_neg dateless] at first
      rw [if_neg fun both ↦ dateless both.1]
      exact flags_play_of_clear driven first
  · intro a read
    refine ⟨output_status1 read, ?_⟩
    intro later driven' a' again
    have none := flags_play_of_clear driven' (flags_status1 read)
    rw [output_status1 again]
    exact congrArg UInt8.ofBitVec none

/-- A read of status register 1 up to its last bit, which the host sends by `lastBit`. -/
def almostAsked : List Action :=
  (Wire.start ++ (Wire.sendByte 0x86).take 14).map (.write16 chipAddress)

/-- The last bit of a command that reads. -/
def lastBit : Action := .write16 chipAddress 0x0015

/-- A transfer that makes the hours count to twenty-four, and then almost a read. -/
def almostReported : List Action :=
  (Wire.start ++ Wire.send [0x06, 0x02] ++ Wire.stop).map (.write16 chipAddress) ++ almostAsked

/-- A machine that has just been asked for its flags for the first time. -/
def reported : Machine := ((ofConfig {}).play almostReported).act lastBit

/-- The power was lost, and a write to the register leaves that to the first read.  The second
one has nothing to report. -/
theorem flags_reported_once_powerOn :
    (∀ a ∈ almostReported, a.drives) ∧ reported.chip.session.output[0] = 0x82 ∧
      ((reported.play almostAsked).act lastBit).chip.session.output[0] &&& 0xF0 = 0 := by
  have driven : ∀ a ∈ almostReported, a.drives := by decide +kernel
  have driven' : ∀ a ∈ almostAsked, a.drives := by decide +kernel
  have status1 : ((ofConfig {}).play almostReported).chip.registers.status1 = 0x82 := by
    decide +kernel
  have read : ((ofConfig {}).play almostReported).access? lastBit = some (.read .status1) := by
    decide +kernel
  have again : (reported.play almostAsked).access? lastBit = some (.read .status1) := by
    decide +kernel
  obtain ⟨first, later⟩ := (flags_reported_once {} driven).2.2.2 lastBit read
  rw [status1, ← reported] at first
  rw [← reported] at later
  exact ⟨driven, first, later almostAsked driven' lastBit again⟩

end Machine

end ClockChip
