import ClockChip.Proofs.WellFormed

/-!
# Writing a group as a whole

Data for a group comes byte by byte, each byte to its position (`writeFrom`).  What has
become of the registers when all of the bytes are there can be said at once
(`writeGroup`), and it is the same (`writeFrom_eq_writeGroup`).  Only the bytes within
the width of the group count (`writeFrom_take`), and only the registers of the group
become others (`writeGroup_frame`).

Status register 1 is the exception: a byte that is written to it may clear the whole
file (`writeStatus1_reset`), and if it changes the hour mode it converts the hour
(`writeStatus1_kept`).
-/

namespace ClockChip

namespace Calendar

variable {mode : HourMode}

theorem write_beyond {position : Nat} (beyond : 7 < position) (b : UInt8) (c : Calendar) :
    c.write mode position b = c := by
  unfold write
  split <;> first | rfl | omega

/-- From the hour on the date stays. -/
theorem writeFrom_time {position : Nat} (time : 5 ≤ position) (bs : List UInt8) (c : Calendar) :
    c.writeFrom mode position bs =
      { c with
        hour := (c.writeFrom mode position bs).hour
        minute := (c.writeFrom mode position bs).minute
        second := (c.writeFrom mode position bs).second } := by
  induction bs generalizing position c with
  | nil => rfl
  | cons b bs ih =>
    have first : c.write mode position b =
        { c with
          hour := (c.write mode position b).hour
          minute := (c.write mode position b).minute
          second := (c.write mode position b).second } := by
      unfold write
      split <;> first | rfl | omega
    have rest := ih (Nat.le_succ_of_le time) (c.write mode position b)
    rw [writeFrom, rest, first]

end Calendar

namespace Registers

/-- How many bytes of data a group takes. -/
def width (g : Group) (r : Registers) : Nat :=
  match g with
  | .status1 | .status2 | .clockAdjust | .free | .fout1 | .fout2 => 1
  | .dateTime => 7
  | .time | .alarm2 | .alarmDate1 | .alarmDate2 => 3
  | .alarm1 => if Status2.alarm1Date.isSet r.status2 then 3 else 1
  | .minuteCount => 0

/-- Writes the bytes of a group one after another, the first of them at `position`. -/
def writeFrom (g : Group) (position : Nat) : List UInt8 → Registers → Registers
  | [], r => r
  | b :: bs, r => (r.write g position b).writeFrom g (position + 1) bs

/-- Some bytes with others put over them from the front. -/
def overlay {n : Nat} (bs : List UInt8) (v : Vector UInt8 n) : Vector UInt8 n :=
  v.mapIdx fun i b ↦ bs[i]?.getD b

/-- The registers after a group has been sent all of `bs`. -/
def writeGroup (g : Group) (bs : List UInt8) (r : Registers) : Registers :=
  match g with
  | .status1 => (bs.head?.map r.writeStatus1).getD r
  | .status2 => { r with status2 := (bs.head?.map (·.toBitVec)).getD r.status2 }
  | .dateTime => { r with calendar := r.calendar.writeFrom r.hourMode 1 (bs.take 7) }
  | .time => { r with calendar := r.calendar.writeFrom r.hourMode 5 (bs.take 3) }
  | .alarm1 =>
    if Status2.alarm1Date.isSet r.status2 then { r with alarm1 := overlay bs r.alarm1 }
    else { r with alarm1 := (bs.head?.map (r.alarm1.setIfInBounds 2)).getD r.alarm1 }
  | .alarm2 => { r with alarm2 := overlay bs r.alarm2 }
  | .clockAdjust => { r with clockAdjust := bs.head?.getD r.clockAdjust }
  | .free => { r with free := bs.head?.getD r.free }
  | .minuteCount => r
  | .fout1 => { r with fout1 := bs.head?.getD r.fout1 }
  | .fout2 => { r with fout2 := bs.head?.getD r.fout2 }
  | .alarmDate1 => { r with alarmDate1 := overlay bs r.alarmDate1 }
  | .alarmDate2 => { r with alarmDate2 := overlay bs r.alarmDate2 }

theorem writeFrom_append (g : Group) (position : Nat) (bs bs' : List UInt8) (r : Registers) :
    r.writeFrom g position (bs ++ bs') =
      (r.writeFrom g position bs).writeFrom g (position + bs.length) bs' := by
  induction bs generalizing position r with
  | nil => rfl
  | cons b bs ih =>
    rw [List.cons_append, writeFrom, writeFrom, ih, List.length_cons, Nat.add_assoc,
      Nat.add_comm 1]

/-! ## Beyond the width -/

theorem setIfInBounds_beyond {n position : Nat} (beyond : n < position) (v : Vector UInt8 n)
    (b : UInt8) : v.setIfInBounds (position - 1) b = v := by
  apply Vector.setIfInBounds_eq_of_size_le
  omega

/-- A byte beyond the width of its group goes nowhere. -/
theorem write_beyond {g : Group} {position : Nat} {r : Registers}
    (beyond : r.width g < position) (b : UInt8) :
    r.write g position b = r := by
  cases g with
  | status1 => exact if_neg (Nat.ne_of_gt beyond)
  | status2 => exact if_neg (Nat.ne_of_gt beyond)
  | clockAdjust => exact if_neg (Nat.ne_of_gt beyond)
  | free => exact if_neg (Nat.ne_of_gt beyond)
  | fout1 => exact if_neg (Nat.ne_of_gt beyond)
  | fout2 => exact if_neg (Nat.ne_of_gt beyond)
  | minuteCount => rfl
  | dateTime =>
    rw [write, writeCalendar, Calendar.write_beyond beyond]
  | time =>
    rw [write, writeCalendar, Calendar.write_beyond (by simp only [width] at beyond; omega)]
  | alarm2 =>
    have far : 3 < position := beyond
    rw [write, setIfInBounds_beyond far]
  | alarmDate1 =>
    have far : 3 < position := beyond
    rw [write, setIfInBounds_beyond far]
  | alarmDate2 =>
    have far : 3 < position := beyond
    rw [write, setIfInBounds_beyond far]
  | alarm1 =>
    rw [width] at beyond
    rw [write, writeAlarm1]
    split at beyond
    · next date => rw [if_pos date, setIfInBounds_beyond beyond]
    · next single => rw [if_neg single, if_neg (Nat.ne_of_gt beyond)]

theorem writeFrom_beyond {g : Group} {position : Nat} {r : Registers}
    (beyond : r.width g < position) (bs : List UInt8) : r.writeFrom g position bs = r := by
  induction bs generalizing position with
  | nil => rfl
  | cons b bs ih =>
    rw [writeFrom, write_beyond beyond]
    exact ih (Nat.lt_succ_of_lt beyond)

/-- No byte that is written to a group changes the width of the group. -/
theorem width_write (g : Group) (position : Nat) (b : UInt8) (r : Registers) :
    (r.write g position b).width g = r.width g := by
  cases g with
  | alarm1 =>
    have kept : (r.writeAlarm1 position b).status2 = r.status2 := by
      unfold writeAlarm1
      split
      · rfl
      · split <;> rfl
    rw [write, width, width, kept]
  | _ => rfl

theorem width_writeFrom (g : Group) (position : Nat) (bs : List UInt8) (r : Registers) :
    (r.writeFrom g position bs).width g = r.width g := by
  induction bs generalizing position r with
  | nil => rfl
  | cons b bs ih => rw [writeFrom, ih, width_write]

/-- Only the bytes within the width of a group count. -/
theorem writeFrom_take (g : Group) (bs : List UInt8) (r : Registers) :
    r.writeFrom g 1 (bs.take (r.width g)) = r.writeFrom g 1 bs := by
  rcases Nat.lt_or_ge (r.width g) bs.length with lt | ge
  · have parts : r.writeFrom g 1 bs =
        r.writeFrom g 1 (bs.take (r.width g) ++ bs.drop (r.width g)) := by
      rw [List.take_append_drop]
    rw [parts, writeFrom_append]
    symm
    apply writeFrom_beyond
    rw [width_writeFrom, List.length_take_of_le (Nat.le_of_lt lt)]
    omega
  · rw [List.take_of_length_le ge]

/-! ## All bytes at once -/

theorem writeFrom_dateTime (position : Nat) (bs : List UInt8) (r : Registers) :
    r.writeFrom .dateTime position bs =
      { r with calendar := r.calendar.writeFrom r.hourMode position bs } := by
  induction bs generalizing position r with
  | nil => rfl
  | cons b bs ih =>
    rw [writeFrom, ih]
    rfl

theorem writeFrom_time (position : Nat) (bs : List UInt8) (r : Registers) :
    r.writeFrom .time position bs =
      { r with calendar := r.calendar.writeFrom r.hourMode (position + 4) bs } := by
  induction bs generalizing position r with
  | nil => rfl
  | cons b bs ih =>
    rw [writeFrom, ih, Nat.add_right_comm]
    rfl

/-- Bytes that are put into their places one after another lie over what was there. -/
theorem writeFrom_overlay {g : Group} (put : Vector UInt8 3 → Registers)
    (writes : ∀ v position b,
      (put v).write g position b = put (v.setIfInBounds (position - 1) b))
    (bs : List UInt8) (v : Vector UInt8 3) :
    (put v).writeFrom g 1 bs = put (overlay bs v) := by
  -- the induction is on the bytes, the first of which goes to the place `k`
  have shifted (k : Nat) : (put v).writeFrom g (k + 1) bs =
      put (v.mapIdx fun i b ↦ if k ≤ i then bs[i - k]?.getD b else b) := by
    induction bs generalizing k v with
    | nil =>
      have same :
          v.mapIdx (fun i b ↦ if k ≤ i then ([] : List UInt8)[i - k]?.getD b else b) = v := by
        ext i lt
        simp
      rw [same]
      rfl
    | cons b bs ih =>
      rw [writeFrom, writes, Nat.add_sub_cancel, ih]
      congr 1
      ext i lt
      simp only [Vector.getElem_mapIdx, Vector.getElem_setIfInBounds]
      rcases Nat.lt_trichotomy i k with below | rfl | above
      · rw [if_neg (by omega), if_neg (by omega), if_neg (by omega)]
      · rw [if_neg (by omega), if_pos rfl, if_pos (Nat.le_refl i), Nat.sub_self]
        rfl
      · have next : i - k = i - (k + 1) + 1 := by omega
        rw [if_pos (Nat.succ_le_of_lt above), if_neg (Nat.ne_of_lt above),
          if_pos (Nat.le_of_lt above), next,
          List.getElem?_cons_succ]
  rw [shifted 0, overlay]
  simp only [Nat.zero_le, if_true, Nat.sub_zero]

/-- Byte by byte or as a whole, a group becomes the same. -/
theorem writeFrom_eq_writeGroup (g : Group) (bs : List UInt8) (r : Registers) :
    r.writeFrom g 1 bs = r.writeGroup g bs := by
  cases g with
  | alarm1 =>
    rw [writeGroup]
    split
    · next date =>
      apply writeFrom_overlay fun v ↦ { r with alarm1 := v }
      intro v position b
      exact if_pos date
    · next single =>
      rw [← writeFrom_take, width, if_neg single]
      cases bs with
      | nil => rfl
      | cons b bs =>
        have last : r.alarm1.setIfInBounds 2 b = r.alarm1.set 2 b := by
          ext i lt
          rw [Vector.getElem_setIfInBounds, Vector.getElem_set]
        change r.writeAlarm1 1 b = { r with alarm1 := r.alarm1.setIfInBounds 2 b }
        rw [writeAlarm1, if_neg single, last]
        rfl
  | alarm2 =>
    exact writeFrom_overlay (fun v ↦ { r with alarm2 := v }) (fun _ _ _ ↦ rfl) bs r.alarm2
  | alarmDate1 =>
    exact writeFrom_overlay (fun v ↦ { r with alarmDate1 := v }) (fun _ _ _ ↦ rfl) bs
      r.alarmDate1
  | alarmDate2 =>
    exact writeFrom_overlay (fun v ↦ { r with alarmDate2 := v }) (fun _ _ _ ↦ rfl) bs
      r.alarmDate2
  | minuteCount =>
    rw [← writeFrom_take]
    rfl
  | dateTime =>
    rw [← writeFrom_take]
    exact writeFrom_dateTime 1 _ r
  | time =>
    rw [← writeFrom_take]
    exact writeFrom_time 1 _ r
  | _ =>
    rw [← writeFrom_take]
    cases bs <;> rfl

/-! ## What a group is not -/

/-- A register file with the registers of a group as they are in another one. -/
def withGroup (g : Group) (r r' : Registers) : Registers :=
  match g with
  | .status1 => { r with status1 := r'.status1 }
  | .status2 => { r with status2 := r'.status2 }
  | .dateTime => { r with calendar := r'.calendar }
  | .time =>
    { r with
      calendar :=
        { r.calendar with
          hour := r'.calendar.hour
          minute := r'.calendar.minute
          second := r'.calendar.second } }
  | .alarm1 => { r with alarm1 := r'.alarm1 }
  | .alarm2 => { r with alarm2 := r'.alarm2 }
  | .clockAdjust => { r with clockAdjust := r'.clockAdjust }
  | .free => { r with free := r'.free }
  | .minuteCount => { r with minuteCount := r'.minuteCount }
  | .fout1 => { r with fout1 := r'.fout1 }
  | .fout2 => { r with fout2 := r'.fout2 }
  | .alarmDate1 => { r with alarmDate1 := r'.alarmDate1 }
  | .alarmDate2 => { r with alarmDate2 := r'.alarmDate2 }

/-- Whatever is written to a group, but for status register 1 it is the registers of this
group that become others. -/
theorem writeGroup_frame {g : Group} (other : g ≠ .status1) (bs : List UInt8) (r : Registers) :
    r.writeGroup g bs = r.withGroup g (r.writeGroup g bs) := by
  cases g with
  | status1 => exact absurd rfl other
  | time =>
    rw [writeGroup, Calendar.writeFrom_time (by decide)]
    rfl
  | alarm1 =>
    rw [writeGroup]
    split <;> rfl
  | _ => rfl

/-- A byte for status register 1 whose lowest bit is set leaves nothing but its own bits. -/
theorem writeStatus1_reset {b : UInt8} (reset : Status1.reset.isSet b.toBitVec = true)
    (r : Registers) :
    r.writeStatus1 b = { cleared with status1 := b.toBitVec &&& Status1.writable } := by
  have base : r.withStatus1 b = { cleared with status1 := b.toBitVec &&& Status1.writable } := by
    rw [withStatus1, if_pos reset]
    simp [cleared]
  -- the hour that is converted is nought
  have hour (mode : HourMode) : cleared.calendar.convertHour mode = cleared.calendar := by
    cases mode <;> rfl
  rw [writeStatus1_eq, base]
  split
  · rfl
  · rw [convertHour]
    dsimp only
    rw [hour]

/-- Without that bit the flags stay, and a change of the hour mode converts the hour. -/
theorem writeStatus1_kept {b : UInt8} (kept : Status1.reset.isSet b.toBitVec = false)
    (r : Registers) :
    r.writeStatus1 b =
      { r with
        status1 := (r.status1 &&& Status1.reported) ||| (b.toBitVec &&& Status1.writable)
        calendar :=
          if (r.writeStatus1 b).hourMode = r.hourMode then r.calendar
          else
            { r.calendar with
              hour := (r.calendar.convertHour (r.writeStatus1 b).hourMode).hour } } := by
  have base : r.withStatus1 b =
      { r with
        status1 := (r.status1 &&& Status1.reported) ||| (b.toBitVec &&& Status1.writable) } := by
    rw [withStatus1, if_neg (by rw [kept]; decide)]
  have mode : (r.writeStatus1 b).hourMode = (r.withStatus1 b).hourMode := by
    rw [writeStatus1_eq]
    split <;> rfl
  rw [mode, writeStatus1_eq]
  split
  · exact base
  · rw [convertHour, Calendar.convertHour_frame, base]

end Registers

end ClockChip
