import ClockChip.Proofs.WellFormed

/-!
# No byte overflows

The chip's arithmetic is arithmetic of bytes, and nothing in it looks for an overflow.
Here is the same arithmetic once more with every addition, subtraction and product
checked: where a byte overflows there is no result, and there is none for the end of a
month that does not exist.  The year alone may go from ninety-nine to nought.

On a well-formed calendar the checked operations have results, and they are those of
the unchecked ones (`WellFormed.countSecond?`, `WellFormed.write?`), so nothing has
overflowed.  Repairing a calendar is exact wherever it starts (`sanitize?_eq`).
-/

namespace ClockChip

/-! ## Bytes -/

namespace Byte

/-- The sum, if it is a byte. -/
def add? (a b : UInt8) : Option UInt8 :=
  if a.toNat + b.toNat < UInt8.size then some (a + b) else none

/-- The difference, if it is not negative. -/
def sub? (a b : UInt8) : Option UInt8 := if b ≤ a then some (a - b) else none

/-- The product, if it is a byte. -/
def mul? (a b : UInt8) : Option UInt8 :=
  if a.toNat * b.toNat < UInt8.size then some (a * b) else none

end Byte

namespace Bcd

/-- `toBinary`, checked. -/
def toBinary? (b : UInt8) : Option UInt8 := do
  let tens ← Byte.mul? (b / 16) 10
  Byte.add? tens (b % 16)

/-- `increment`, checked. -/
def increment? (b : UInt8) : Option UInt8 := do
  let b ← Byte.add? b 1
  let b ← if b % 16 < 10 then some b else Byte.add? b 0x06
  if b / 16 < 10 then some b else Byte.add? b 0x60

/-- `add`, checked. -/
def add? (a b : UInt8) : Option UInt8 := do
  let s ← Byte.add? a b
  if s % 16 < 10 then some s else Byte.add? s 0x06

/-- `sub`, checked. -/
def sub? (a b : UInt8) : Option UInt8 := do
  let d ← Byte.sub? a b
  if d % 16 < 10 then some d else Byte.sub? d 0x06

/-- Whatever the halves spell is a byte. -/
theorem toBinary?_eq : ∀ b, toBinary? b = some (toBinary b) := by decide

/-- Only ninety-nine has no successor. -/
theorem increment?_eq : ∀ {b}, isDigits b = true → b ≠ 0x99 →
    increment? b = some (increment b) := by
  decide

/-- A register that ends before ninety-nine counts up without an overflow. -/
theorem InRange.increment? {low high b : UInt8} (h : InRange low high b) (top : high < 0x99) :
    Bcd.increment? b = some (Bcd.increment b) := by
  refine increment?_eq h.isDigits ?_
  rintro rfl
  exact absurd (UInt8.lt_of_le_of_lt h.2.1 top) (UInt8.lt_irrefl _)

end Bcd

/-! ## The calendar -/

namespace Calendar

/-- `monthEnd`, checked. -/
def monthEnd? (c : Calendar) : Option UInt8 :=
  if c.month ∈ [0x01, 0x03, 0x05, 0x07, 0x08, 0x10, 0x12] then some 0x31
  else if c.month ∈ [0x04, 0x06, 0x09, 0x11] then some 0x30
  else if c.month = 0x02 then do
    let year ← Bcd.toBinary? c.year
    return if year % 4 = 0 then 0x29 else 0x28
  else none

/-- `countYear`, checked, but for the end of the century. -/
def countYear? (c : Calendar) : Option Calendar := do
  let year ← if c.year = 0x99 then some 0 else Bcd.increment? c.year
  return { c with year }

/-- `countMonth`, checked. -/
def countMonth? (c : Calendar) : Option Calendar := do
  let month ← Bcd.increment? c.month
  if month > 0x12 then countYear? { c with month := 1 } else return { c with month }

/-- `leaveMonth`, checked. -/
def leaveMonth? (c : Calendar) : Option Calendar := do
  let monthEnd ← c.monthEnd?
  if c.day > monthEnd then countMonth? { c with day := 1 } else return c

/-- `countDay`, checked. -/
def countDay? (c : Calendar) : Option Calendar := do
  let weekday ← Byte.add? c.weekday 1
  let day ← Bcd.increment? c.day
  leaveMonth? { c with weekday := if weekday ≥ 7 then 0 else weekday, day }

/-- `countHour`, checked. -/
def countHour? (mode : HourMode) (c : Calendar) : Option Calendar := do
  let hour ← Bcd.increment? c.hourDigits
  match mode with
  | .twentyFour =>
    if hour ≥ 0x24 then
      let c' ← c.countDay?
      return { c' with hour := 0 }
    else return { c with hour := hour ||| halfOf hour }
  | .twelve =>
    if hour ≥ 0x12 then
      let c' ← if c.hourHalf = 0 then some c else c.countDay?
      return { c' with hour := c.hourHalf ^^^ afternoon }
    else return { c with hour := hour ||| c.hourHalf }

/-- `countMinute`, checked. -/
def countMinute? (mode : HourMode) (c : Calendar) : Option Calendar := do
  let minute ← Bcd.increment? c.minute
  if minute ≥ 0x60 then countHour? mode { c with minute := 0 } else return { c with minute }

/-- `countSecond`, checked. -/
def countSecond? (mode : HourMode) (c : Calendar) : Option Calendar := do
  let second ← Bcd.increment? c.second
  if second ≥ 0x60 then countMinute? mode { c with second := 0 } else return { c with second }

/-- `convertHour`, checked. -/
def convertHour? (mode : HourMode) (c : Calendar) : Option Calendar :=
  match mode with
  | .twentyFour => do
    let hour ← if c.hourHalf = 0 then some c.hourDigits else Bcd.add? c.hourDigits 0x12
    return { c with hour := Bcd.clamp hour 0x00 0x23 ||| c.hourHalf }
  | .twelve => do
    let hour ← if c.hourDigits ≥ 0x12 then Bcd.sub? c.hourDigits 0x12 else some c.hourDigits
    return { c with hour := Bcd.clamp hour 0x00 0x11 ||| halfOf c.hourDigits }

/-- `write`, checked: only the day has arithmetic behind it. -/
def write? (mode : HourMode) (position : Nat) (b : UInt8) (c : Calendar) : Option Calendar :=
  match position with
  | 3 => { c with day := Bcd.clamp (b &&& 0x3F) 0x01 0x31 }.leaveMonth?
  | _ => some (c.write mode position b)

/-- `writeFrom`, checked. -/
def writeFrom? (mode : HourMode) (position : Nat) (bs : List UInt8) (c : Calendar) :
    Option Calendar :=
  match bs with
  | [] => some c
  | b :: bs => do
    let c ← c.write? mode position b
    c.writeFrom? mode (position + 1) bs

/-- `sanitize`, checked. -/
def sanitize? (mode : HourMode) (c : Calendar) : Option Calendar :=
  c.writeFrom? mode 1 c.toBytes.toList

variable {mode : HourMode} {c : Calendar}

/-! ### Dates -/

/-- A month of the year has an end. -/
theorem monthEnd?_eq (month : Bcd.InRange 0x01 0x12 c.month) : c.monthEnd? = some c.monthEnd := by
  have all : ∀ month, Bcd.InRange 0x01 0x12 month →
      month ∉ [0x01, 0x03, 0x05, 0x07, 0x08, 0x10, 0x12] →
        month ∉ [0x04, 0x06, 0x09, 0x11] → month = 0x02 := by
    decide
  unfold monthEnd? monthEnd
  split
  · rfl
  · next notLong =>
    split
    · rfl
    · next notShort =>
      have february : c.month = 0x02 := all c.month month notLong notShort
      rw [if_pos february, if_pos february, Bcd.toBinary?_eq]
      rfl

theorem countYear?_eq (year : Bcd.InRange 0x00 0x99 c.year) :
    c.countYear? = some c.countYear := by
  unfold countYear? countYear
  by_cases last : c.year = 0x99
  · rw [if_pos last, last]
    rfl
  · rw [if_neg last, Bcd.increment?_eq year.isDigits last]
    rfl

theorem countMonth?_eq (year : Bcd.InRange 0x00 0x99 c.year)
    (month : Bcd.InRange 0x01 0x12 c.month) : c.countMonth? = some c.countMonth := by
  have next := countYear?_eq (c := { c with month := 1 }) year
  unfold countMonth? countMonth
  rw [month.increment? (by decide), Option.bind_eq_bind, Option.bind_some]
  dsimp only
  split
  · exact next
  · rfl

theorem leaveMonth?_eq (year : Bcd.InRange 0x00 0x99 c.year)
    (month : Bcd.InRange 0x01 0x12 c.month) : c.leaveMonth? = some c.leaveMonth := by
  have next := countMonth?_eq (c := { c with day := 1 }) year month
  unfold leaveMonth? leaveMonth
  rw [monthEnd?_eq month, Option.bind_eq_bind, Option.bind_some]
  split
  · exact next
  · rfl

/-! ### Counting -/

theorem WellFormed.countDay? (h : WellFormed mode c) : c.countDay? = some c.countDay := by
  have weekday : Byte.add? c.weekday 1 = some (c.weekday + 1) := by
    have le := UInt8.le_iff_toNat_le.1 h.weekday
    have fits : c.weekday.toNat + (1 : UInt8).toNat < UInt8.size :=
      Nat.lt_of_le_of_lt (Nat.add_le_add_right le 1) (by decide)
    rw [Byte.add?, if_pos fits]
  unfold Calendar.countDay?
  rw [weekday, h.day.increment? (by decide), Option.bind_eq_bind, Option.bind_some,
    Option.bind_some]
  exact leaveMonth?_eq h.year h.month

theorem increment?_hourDigits (h : HourFits mode c.hour) :
    Bcd.increment? c.hourDigits = some (Bcd.increment c.hourDigits) := by
  cases mode with
  | twelve => exact Bcd.InRange.increment? h.1 (by decide)
  | twentyFour => exact Bcd.InRange.increment? h.1 (by decide)

theorem WellFormed.countHour? (h : WellFormed mode c) :
    c.countHour? mode = some (c.countHour mode) := by
  have day := h.countDay?
  unfold Calendar.countHour? Calendar.countHour
  rw [increment?_hourDigits h.hour, Option.bind_eq_bind, Option.bind_some, day]
  cases mode with
  | twentyFour =>
    dsimp only
    split <;> rfl
  | twelve =>
    dsimp only
    split
    · split <;> rfl
    · rfl

theorem WellFormed.countMinute? (h : WellFormed mode c) :
    c.countMinute? mode = some (c.countMinute mode) := by
  unfold Calendar.countMinute? Calendar.countMinute
  rw [h.minute.increment? (by decide), Option.bind_eq_bind, Option.bind_some]
  dsimp only
  split
  · exact h.minute_zero.countHour?
  · rfl

/-- No carry of a second overflows. -/
theorem WellFormed.countSecond? (h : WellFormed mode c) :
    c.countSecond? mode = some (c.countSecond mode) := by
  unfold Calendar.countSecond? Calendar.countSecond endsMinute
  rw [h.second.increment? (by decide), Option.bind_eq_bind, Option.bind_some]
  by_cases past : Bcd.increment c.second ≥ 0x60
  · rw [if_pos past, if_pos (decide_eq_true past)]
    exact h.second_zero.countMinute?
  · rw [if_neg past, if_neg (mt of_decide_eq_true past)]
    rfl

/-! ### Writing -/

/-- An hour of the one mode is taken to the other without an overflow. -/
theorem WellFormed.convertHour? {mode' : HourMode} (other : mode' ≠ mode) (h : WellFormed mode c) :
    c.convertHour? mode' = some (c.convertHour mode') := by
  have later : ∀ b, HourFits .twelve b →
      Bcd.add? (b &&& 0x3F) 0x12 = some (Bcd.add (b &&& 0x3F) 0x12) := by
    decide
  have earlier : ∀ b, HourFits .twentyFour b → b &&& 0x3F ≥ 0x12 →
      Bcd.sub? (b &&& 0x3F) 0x12 = some (Bcd.sub (b &&& 0x3F) 0x12) := by
    decide
  rcases other_cases other with ⟨rfl, rfl⟩ | ⟨rfl, rfl⟩
  · have sum : Bcd.add? c.hourDigits 0x12 = some (Bcd.add c.hourDigits 0x12) :=
      later c.hour h.hour
    unfold Calendar.convertHour? Calendar.convertHour
    dsimp only
    rw [sum]
    split <;> rfl
  · unfold Calendar.convertHour? Calendar.convertHour
    dsimp only
    split
    · next afternoon =>
      have difference : Bcd.sub? c.hourDigits 0x12 = some (Bcd.sub c.hourDigits 0x12) :=
        earlier c.hour h.hour afternoon
      rw [difference]
      rfl
    · rfl

/-- A byte that is written takes no carry out of a byte. -/
theorem WellFormed.write? (h : WellFormed mode c) (position : Nat) (b : UInt8) :
    c.write? mode position b = some (c.write mode position b) := by
  unfold Calendar.write?
  split
  · exact leaveMonth?_eq h.year h.month
  · rfl

/-- Registers can be written back wherever they come from, since year and month have been
brought into their ranges before the day is looked at. -/
theorem sanitize?_eq (mode : HourMode) (c : Calendar) :
    c.sanitize? mode = some (c.sanitize mode) := by
  have day : c.cleanDate.leaveMonth? = some c.cleanDate.leaveMonth :=
    leaveMonth?_eq (Bcd.inRange_clamp (by decide) _) (Bcd.inRange_clamp (by decide) _)
  have bytes : c.toBytes.toList =
      [c.year, c.month, c.day, c.weekday, c.hour, c.minute, c.second] := rfl
  rw [sanitize?, sanitize, bytes]
  simp only [writeFrom?, write?, writeFrom, write, Option.bind_eq_bind, Option.bind_some]
  change (c.cleanDate.leaveMonth?.bind _) = _
  rw [day]
  rfl

end Calendar

/-! ## Register files -/

namespace Registers

/-- `countSecond`, with the carries of the calendar checked. -/
def countSecond? (r : Registers) : Option Registers := do
  let calendar ← r.calendar.countSecond? r.hourMode
  return { r.countSecond with calendar }

/-- `convertHour`, checked. -/
def convertHour? (r : Registers) : Option Registers := do
  let calendar ← r.calendar.convertHour? r.hourMode
  return { r with calendar }

/-- `sanitize`, checked. -/
def sanitize? (r : Registers) : Option Registers := do
  let calendar ← r.calendar.sanitize? r.hourMode
  return { r with calendar }

/-- `writeStatus1`, checked. -/
def writeStatus1? (b : UInt8) (r : Registers) : Option Registers :=
  if (r.withStatus1 b).hourMode = r.hourMode then some (r.withStatus1 b)
  else (r.withStatus1 b).convertHour?

/-- `writeCalendar`, checked. -/
def writeCalendar? (position : Nat) (b : UInt8) (r : Registers) : Option Registers := do
  let calendar ← r.calendar.write? r.hourMode position b
  return { r with calendar }

/-- `write`, checked: only status register 1 and the calendar have arithmetic behind
them. -/
def write? (g : Group) (position : Nat) (b : UInt8) (r : Registers) : Option Registers :=
  match g with
  | .status1 => if position = 1 then r.writeStatus1? b else some r
  | .dateTime => r.writeCalendar? position b
  | .time => r.writeCalendar? (position + 4) b
  | _ => some (r.write g position b)

variable {r : Registers}

theorem WellFormed.countSecond? (h : r.WellFormed) : r.countSecond? = some r.countSecond := by
  rw [Registers.countSecond?, Calendar.WellFormed.countSecond? h]
  rfl

theorem WellFormed.writeStatus1? (h : r.WellFormed) (b : UInt8) :
    r.writeStatus1? b = some (r.writeStatus1 b) := by
  have before := h.calendar_withStatus1 b
  rw [Registers.writeStatus1?, writeStatus1_eq]
  split
  · rfl
  · next other =>
    rw [Registers.convertHour?, before.convertHour? other]
    rfl

theorem WellFormed.writeCalendar? (h : r.WellFormed) (position : Nat) (b : UInt8) :
    r.writeCalendar? position b = some (r.writeCalendar position b) := by
  rw [Registers.writeCalendar?, Calendar.WellFormed.write? h]
  rfl

/-- No byte from the bus makes a byte of the registers overflow. -/
theorem WellFormed.write? (h : r.WellFormed) (g : Group) (position : Nat) (b : UInt8) :
    r.write? g position b = some (r.write g position b) := by
  cases g with
  | status1 =>
    unfold Registers.write? Registers.write
    dsimp only
    split
    · exact h.writeStatus1? b
    · rfl
  | dateTime => exact h.writeCalendar? position b
  | time => exact h.writeCalendar? (position + 4) b
  | _ => rfl

theorem sanitize?_eq (r : Registers) : r.sanitize? = some r.sanitize := by
  rw [sanitize?, Calendar.sanitize?_eq]
  rfl

end Registers

/-! ## Machines -/

namespace Machine

/-- A machine that has been through anything at all has every calendar register in its
range, the hour in that of its present mode, and keeps it so second after second.
Nothing has overflowed on the way and nothing will: whatever the chip does next to its
calendar, be it a second, a byte of any value at any position of any group, or the
repair of registers from outside, is arithmetic without overflow in months that exist,
but for the year after ninety-nine. -/
theorem Reachable.calendar_exact {m : Machine} (h : Reachable m) :
    m.chip.registers.WellFormed ∧
      (∀ n, let r := Registers.countSecond^[n] m.chip.registers
        r.WellFormed ∧ r.calendar.monthEnd ≠ 0 ∧ r.countSecond? = some r.countSecond) ∧
      (∀ g position b, m.chip.registers.write? g position b =
        some (m.chip.registers.write g position b)) ∧
      ∀ r : Registers, r.sanitize.WellFormed ∧ r.sanitize? = some r.sanitize := by
  have here := h.wellFormed
  refine ⟨here, fun n ↦ ?_, here.write?, fun r ↦ ⟨r.wellFormed_sanitize, r.sanitize?_eq⟩⟩
  intro r
  have later : r.WellFormed := here.iterate_countSecond n
  refine ⟨later, fun missing ↦ ?_, later.countSecond?⟩
  have length := (Calendar.value_monthEnd_range later.month).1
  rw [missing] at length
  exact absurd length (by decide)

/-- Registers that hold no date at all are repaired on their way in, and a second later
nothing has overflowed. -/
theorem Reachable.calendar_exact_repaired :
    let m := (ofConfig {}).act (.install { calendar := ⟨0xFF, 0xFF, 0xFF, 0xFF, 0xFF, 0xFF, 0xFF⟩ })
    Reachable m ∧ m.chip.registers.calendar = ⟨0x00, 0x01, 0x01, 0x00, 0x40, 0x00, 0x00⟩ ∧
      m.chip.registers.WellFormed ∧
      m.chip.registers.countSecond? = some m.chip.registers.countSecond := by
  intro m
  have reached : Reachable m := (Reachable.start {}).act _
  obtain ⟨wellFormed, seconds, -⟩ := Reachable.calendar_exact reached
  exact ⟨reached, by decide, wellFormed, (seconds 0).2.2⟩

end Machine

end ClockChip
