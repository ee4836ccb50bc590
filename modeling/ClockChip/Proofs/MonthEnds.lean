import ClockChip.Proofs.Accesses
import ClockChip.Proofs.Restoring
import ClockChip.Proofs.Seeding
import Mathlib.Data.List.Induction

/-!
# Days past the end of their month

The day in the registers is one of its month at first, and nearly everything keeps it so.
Counting takes any date to one that exists, and so does a day that is written, a date that
is set and a register file that is repaired; most other actions leave the date alone
(`settled_act`).

There are two exceptions, a byte for the year and a byte for the month
(`Access.movesMonth`).  The chip does not look at the day when it stores them: it waits for
the day, which comes next in the same transfer.  If the transfer ends before that, the day
stays where it is, chip selected or not.  The days that do not exist are exactly those that
were left behind in this way (`dayExists_iff_not_cutShort`).
-/

namespace ClockChip

/-! ## Dates -/

namespace Calendar

variable {mode : HourMode} {c c' c'' : Calendar}

/-- The date has not moved, or it has moved to one that exists. -/
def Settled (c c' : Calendar) : Prop := SameDate c c' ∨ c'.DayExists

theorem Settled.refl (c : Calendar) : Settled c c := .inl (.refl c)

theorem Settled.trans (h : Settled c c') (h' : Settled c' c'') : Settled c c'' := by
  rcases h' with same' | dayExists
  · rcases h with same | dayExists
    · exact .inl (same.trans same')
    · exact .inr (same'.dayExists_iff.2 dayExists)
  · exact .inr dayExists

/-- A day that does not exist afterwards did not exist before, and is the same. -/
theorem Settled.sameDate (h : Settled c c') (none : ¬c'.DayExists) : SameDate c c' :=
  h.resolve_right none

/-! ### Counting -/

theorem WellFormed.settled_countHour (h : WellFormed mode c) : Settled c (c.countHour mode) := by
  rw [countHour_eq]
  cases endsDay mode c.hour with
  | true => exact .inr h.showsDate_countDay.day
  | false => exact .inl ⟨rfl, rfl, rfl⟩

theorem WellFormed.settled_countMinute (h : WellFormed mode c) :
    Settled c (c.countMinute mode) := by
  unfold Calendar.countMinute
  dsimp only
  split
  · have zeroed : Settled c { c with minute := 0 } := .inl ⟨rfl, rfl, rfl⟩
    exact zeroed.trans h.minute_zero.settled_countHour
  · exact .inl ⟨rfl, rfl, rfl⟩

/-- The first day that is counted is one of its month, wherever the count begins. -/
theorem WellFormed.settled_countSecond (h : WellFormed mode c) :
    Settled c (c.countSecond mode) := by
  unfold Calendar.countSecond
  split
  · have zeroed : Settled c { c with second := 0 } := .inl ⟨rfl, rfl, rfl⟩
    exact zeroed.trans h.second_zero.settled_countMinute
  · exact .inl ⟨rfl, rfl, rfl⟩

/-! ### Writing -/

/-- Every byte but those for year and month leaves the date settled, at any position. -/
theorem WellFormed.settled_write (h : WellFormed mode c) {position : Nat} (year : position ≠ 1)
    (month : position ≠ 2) (b : UInt8) : Settled c (c.write mode position b) := by
  unfold Calendar.write
  split
  · exact absurd rfl year
  · exact absurd rfl month
  · have day := inRange_written_day b
    exact .inr (showsDate_leaveMonth (c := { c with day := Bcd.clamp (b &&& 0x3F) 0x01 0x31 })
      h.year h.month day.isDigits day.1).day
  all_goals exact .inl ⟨rfl, rfl, rfl⟩

theorem sameDate_convertHour (mode : HourMode) (c : Calendar) :
    SameDate c (c.convertHour mode) := by
  rw [convertHour_frame]
  exact ⟨rfl, rfl, rfl⟩

end Calendar

/-! ## Registers -/

/-- The access puts a byte into the register of the year or the month.  Only a write of the
whole date reaches them. -/
def Access.movesMonth : Access → Bool
  | .store .dateTime position _ => position == 1 || position == 2
  | _ => false

namespace Registers

open Calendar (SameDate Settled)

variable {r : Registers}

theorem settled_writeStatus1 (b : UInt8) (r : Registers) :
    Settled r.calendar (r.writeStatus1 b).calendar := by
  have base : Settled r.calendar (r.withStatus1 b).calendar := by
    unfold withStatus1
    dsimp only
    split
    · exact .inr (by decide)
    · exact .refl _
  rw [writeStatus1_eq]
  split
  · exact base
  · exact base.trans (.inl (Calendar.sameDate_convertHour _ _))

theorem WellFormed.settled_write (h : r.WellFormed) {g : Group} {position : Nat} {b : UInt8}
    (other : (Access.store g position b).movesMonth = false) :
    Settled r.calendar (r.write g position b).calendar := by
  cases g with
  | status1 =>
    unfold Registers.write
    dsimp only
    split
    · exact settled_writeStatus1 b r
    · exact .refl _
  | dateTime =>
    unfold Access.movesMonth at other
    rw [Bool.or_eq_false_iff, beq_eq_false_iff_ne, beq_eq_false_iff_ne] at other
    exact Calendar.WellFormed.settled_write h other.1 other.2 b
  | time => exact Calendar.WellFormed.settled_write h (by omega) (by omega) b
  | _ =>
    rw [(sameClock_write (by decide) (by decide) (by decide) position b r).calendar]
    exact .refl _

/-- An access leaves the date settled, unless it is a byte for the year or the month. -/
theorem WellFormed.settled_accessed (h : r.WellFormed) {access : Option Access}
    (other : access.any Access.movesMonth = false) :
    Settled r.calendar (r.accessed access).calendar := by
  match access with
  | none => exact .refl _
  | some (.read g) =>
    rw [accessed, calendar_acknowledge]
    exact .refl _
  | some (.store g position b) => exact h.settled_write other

theorem WellFormed.settled_iterate_countSecond (h : r.WellFormed) (n : Nat) :
    Settled r.calendar (Registers.countSecond^[n] r).calendar := by
  induction n with
  | zero => exact .refl _
  | succ n ih =>
    rw [Function.iterate_succ_apply']
    exact ih.trans (Calendar.WellFormed.settled_countSecond (h.iterate_countSecond n))

end Registers

/-! ## Machines -/

namespace Machine

open Calendar (SameDate Settled)

variable {m : Machine} {a : Action} {actions : List Action}

/-- Every action but a byte for the year or the month leaves the date settled. -/
theorem settled_act (h : m.chip.registers.WellFormed)
    (other : (m.access? a).any Access.movesMonth = false) :
    Settled m.chip.registers.calendar (m.act a).chip.registers.calendar := by
  cases a with
  | reset =>
    rw [act, registers_reset]
    split
    · exact .refl _
    · exact .inr (Calendar.dayExists_ofDateTime _ _)
  | run cycles =>
    rw [act, registers_run]
    exact h.settled_iterate_countSecond _
  | write16 address w =>
    rw [act, registers_write16]
    exact h.settled_accessed other
  | write8 address b =>
    rw [act, registers_write8]
    exact h.settled_accessed other
  | setDateTime t => exact .inr (Calendar.dayExists_ofDateTime _ t)
  | install r => exact .inr (Calendar.shows_sanitize _ _).day
  | setConsole console => exact .refl _
  | load data =>
    unfold act
    dsimp only
    cases loaded : m.load data with
    | error e => exact .refl _
    | ok m' =>
      obtain ⟨s, -, rfl⟩ := load_eq_ok_iff.1 loaded
      exact .inr (Calendar.shows_sanitize _ _).day

/-- A byte has been written to the year or the month so that the day was none of the month
any more, and nothing has moved the date since. -/
def CutShort (m : Machine) (actions : List Action) : Prop :=
  ∃ before a after, actions = before ++ a :: after ∧
    ((m.play before).access? a).any Access.movesMonth = true ∧
    ¬(m.play (before ++ [a])).chip.registers.calendar.DayExists ∧
    ∀ part, part <+: after →
      SameDate (m.play (before ++ [a])).chip.registers.calendar
        (m.play (before ++ a :: part)).chip.registers.calendar

/-- An action that does not move the date leaves it cut short. -/
theorem CutShort.concat (h : CutShort m actions)
    (same : SameDate (m.play actions).chip.registers.calendar
      (m.play (actions ++ [a])).chip.registers.calendar) : CutShort m (actions ++ [a]) := by
  obtain ⟨before, cut, after, rfl, moves, none, since⟩ := h
  refine ⟨before, cut, after ++ [a], by rw [List.append_assoc, List.cons_append], moves, none, ?_⟩
  intro part within
  rcases List.prefix_concat_iff.1 within with rfl | within
  · refine (since after (List.prefix_refl after)).trans ?_
    rw [← List.cons_append, ← List.append_assoc]
    exact same
  · exact since part within

/-- A day that existed at first and does not exist now was cut short in between. -/
theorem cutShort_of_not_dayExists (h : Reachable m)
    (first : m.chip.registers.calendar.DayExists)
    (none : ¬(m.play actions).chip.registers.calendar.DayExists) : CutShort m actions := by
  -- from the last action backwards: either it has moved the month, or the day did not
  -- exist before it
  induction actions using List.reverseRecOn with
  | nil => exact absurd first none
  | append_singleton actions a ih =>
    have last : m.play (actions ++ [a]) = (m.play actions).act a := play_append m actions [a]
    cases moves : ((m.play actions).access? a).any Access.movesMonth with
    | true =>
      refine ⟨actions, a, [], rfl, moves, none, ?_⟩
      intro part within
      rw [List.prefix_nil.1 within]
      exact .refl _
    | false =>
      have settled := settled_act (h.play actions).wellFormed moves
      rw [← last] at settled
      have same := settled.sameDate none
      exact (ih fun dayExists ↦ none (same.dayExists_iff.2 dayExists)).concat same

/-- After anything that can be done to a machine the day is between 1 and 31, and it is one
of its month unless it was cut short: unless a byte for the year or the month, the last
thing that has moved the date, took the month away from it. -/
theorem dayExists_iff_not_cutShort (config : Config) (actions : List Action) :
    let calendar := ((ofConfig config).play actions).chip.registers.calendar
    (1 ≤ calendar.day ∧ calendar.day ≤ 0x31) ∧
      (calendar.DayExists ↔ ¬(ofConfig config).CutShort actions) := by
  have reachable : Reachable (ofConfig config) := .start config
  have wellFormed := (reachable.play actions).wellFormed
  refine ⟨⟨wellFormed.day.1, wellFormed.day.2.1⟩, ?_, ?_⟩
  · rintro dayExists ⟨before, a, after, rfl, -, none, since⟩
    exact none ((since after (List.prefix_refl after)).dayExists_iff.1 dayExists)
  · intro notCut
    by_contra none
    exact notCut (cutShort_of_not_dayExists reachable (shows_ofConfig config).day none)

/-- The thirty-first of February: a transfer is given up between the month and the day, and
the chip is let go. -/
theorem not_dayExists_of_released :
    ¬∀ m, Reachable m → Wire.select.isSet m.chip.bus = false →
      m.chip.registers.calendar.DayExists := by
  intro always
  let released := halfWritten.play (Wire.stop.map (.write16 chipAddress))
  have reachable : Reachable released :=
    (((Reachable.start lastOfJanuary).play _).play _)
  have low : Wire.select.isSet released.chip.bus = false := by decide +kernel
  have none : ¬released.chip.registers.calendar.DayExists := by decide +kernel
  exact none (always released reachable low)

end Machine

end ClockChip
