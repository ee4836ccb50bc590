import ClockChip.Proofs.Counting
import ClockChip.Proofs.Transfer

/-!
# Second by second

The machine's user lets it run for a second, reads the date, and does so again.  A machine
that was reset a whole number of seconds ago serves in each such second one tick that
completes one (`OnTheSecond.run`), and reading the date changes nothing but what is on the
bus (`second_eq`).  So each line that is shown is that of the registers after as many counted
seconds (`OnTheSecond.getElem?_dateLines`), which says of the whole display what the counting
says of the registers.
-/

namespace ClockChip.Machine

/-! ## Seconds in succession -/

section

variable {σ α : Type} (f : σ → α × σ)

/-- What is got by doing the same some times over. -/
def repeated : Nat → σ → List α × σ
  | 0, s => ([], s)
  | n + 1, s => ((f s).1 :: (repeated n (f s).2).1, (repeated n (f s).2).2)

theorem length_repeated (n : Nat) (s : σ) : (repeated f n s).1.length = n := by
  induction n generalizing s with
  | zero => rfl
  | succ n ih => rw [repeated, List.length_cons, ih]

theorem repeated_add (n k : Nat) (s : σ) :
    repeated f (n + k) s =
      ((repeated f n s).1 ++ (repeated f k (repeated f n s).2).1,
        (repeated f k (repeated f n s).2).2) := by
  induction n generalizing s with
  | zero => rw [Nat.zero_add]; rfl
  | succ n ih => rw [Nat.add_right_comm, repeated, ih]; rfl

end

/-- The lines that show some seconds. -/
def dateLines (n : Nat) (m : Machine) : List String := (repeated second n m).1

/-- The machine when some seconds have been shown. -/
def afterSeconds (n : Nat) (m : Machine) : Machine := (repeated second n m).2

section

variable (n k : Nat) (m : Machine)

theorem length_dateLines : (m.dateLines n).length = n := length_repeated second n m

theorem dateLines_succ : m.dateLines (n + 1) = m.second.1 :: m.second.2.dateLines n := by
  rw [dateLines, repeated, dateLines]

theorem afterSeconds_succ : m.afterSeconds (n + 1) = m.second.2.afterSeconds n := by
  rw [afterSeconds, repeated, afterSeconds]

/-- The lines of a longer time go on from those of a shorter one. -/
theorem dateLines_add :
    m.dateLines (n + k) = m.dateLines n ++ (m.afterSeconds n).dateLines k := by
  rw [dateLines, repeated_add, dateLines, dateLines, afterSeconds]

theorem afterSeconds_add : m.afterSeconds (n + k) = (m.afterSeconds n).afterSeconds k := by
  rw [afterSeconds, repeated_add, afterSeconds, afterSeconds]

end

/-- The end of a display: the minute counter, on the console that has one. -/
def closing (console : Console) (m : Machine) : List String × Machine :=
  match console with
  | .ds => ([], m)
  | .dsi => ([m.minutes.1], m.minutes.2)

/-! ## What reading does -/

/-- The line that shows the date in some registers. -/
def lineOf (r : Registers) : String := dateLine r.calendar.toBytes.toList

/-- The machine after a transfer that read bytes of a command's group. -/
def released (command : UInt8) (answer : List UInt8) (m : Machine) : Machine :=
  { m with
    chip :=
      { m.chip with
        bus := Wire.released
        session := .afterRead command answer answer.length } }

@[simp] theorem console_released (command : UInt8) (answer : List UInt8) (m : Machine) :
    (m.released command answer).chip.console = m.chip.console := rfl

@[simp] theorem registers_released (command : UInt8) (answer : List UInt8) (m : Machine) :
    (m.released command answer).chip.registers = m.chip.registers := rfl

/-- Reading the date does nothing but show the registers. -/
theorem readDate_eq (m : Machine) :
    m.readGroup readDateCommand 7 =
      (m.chip.registers.calendar.toBytes.toList,
        m.released readDateCommand m.chip.registers.calendar.toBytes.toList) := by
  have command (console : Console) :
      Command.normalize console readDateCommand = readDateCommand ∧
        Command.isRead readDateCommand = true ∧
        Command.group? console readDateCommand = some .dateTime := by
    cases console <;> decide +kernel
  obtain ⟨natural, reads, group⟩ := command m.chip.console
  have read := readGroup_eq m readDateCommand 7 (by rw [natural]; exact reads)
  dsimp only at read
  rw [natural, group] at read
  exact read

/-- A second is a run and a transfer. -/
theorem second_eq (m : Machine) :
    m.second =
      (lineOf (m.run secondCycles).chip.registers,
        (m.run secondCycles).released readDateCommand
          (m.run secondCycles).chip.registers.calendar.toBytes.toList) := by
  rw [second, readDate_eq, lineOf]

/-- So does reading the minute counter, on the console that has one. -/
theorem minutes_eq {m : Machine} (console : m.chip.console = .dsi) :
    m.minutes =
      (minutesLine m.chip.registers.minuteBytes,
        m.released readMinutesCommand m.chip.registers.minuteBytes) := by
  have natural : Command.normalize m.chip.console readMinutesCommand = readMinutesCommand := by
    rw [console]
    decide +kernel
  have group : Command.group? m.chip.console readMinutesCommand = some .minuteCount := by
    rw [console]
    decide +kernel
  have read := readGroup_eq m readMinutesCommand 3 (by rw [natural]; decide +kernel)
  dsimp only at read
  rw [natural, group] at read
  rw [minutes, read]
  rfl

/-! ## Whole seconds -/

variable {j : Nat} {m : Machine}

/-- So many whole seconds have passed since the last reset, and what was due has been served. -/
structure OnTheSecond (j : Nat) (m : Machine) : Prop where
  upToDate : ∃ k, UpToDate k m
  now : m.scheduler.now.toNat = j * 33513982

theorem onTheSecond_ofConfig (config : Config) : OnTheSecond 0 (ofConfig config) where
  upToDate := ⟨0, upToDate_reset _⟩
  now := by rw [Nat.zero_mul]; rfl

/-- The ticks that complete a second among some that follow the `k`-th. -/
theorem count_marks_from (k n : Nat) :
    (marks k n).count true = (k + n) / 32768 - k / 32768 := by
  have whole := marks_append 0 k n
  rw [Nat.zero_add] at whole
  rw [← count_marks, ← count_marks, ← whole, List.count_append, Nat.add_sub_cancel_left]

/-- In a second the registers count one. -/
theorem OnTheSecond.run (h : OnTheSecond j m)
    (fits : (j + 1) * 33513982 + 1023 < UInt64.size) :
    OnTheSecond (j + 1) (m.run secondCycles) ∧
      (m.run secondCycles).chip.registers = m.chip.registers.countSecond := by
  obtain ⟨k, upToDate⟩ := h.upToDate
  have cycles : secondCycles.toNat = 33513982 := rfl
  have now := h.now
  have inTime : m.scheduler.now.toNat + secondCycles.toNat + 1023 < UInt64.size := by omega
  obtain ⟨n, upToDate', log, now'⟩ := upToDate.run inTime
  have passed : (m.run secondCycles).scheduler.now.toNat = (j + 1) * 33513982 := by omega
  have before := seconds_of_ticks upToDate.past upToDate.ahead
  have after := seconds_of_ticks upToDate'.past upToDate'.ahead
  have once : (m.ticksOfRun secondCycles).count true = 1 := by
    rw [log, count_marks_from, before, after, passed, now, Nat.mul_div_cancel _ (by decide),
      Nat.mul_div_cancel _ (by decide), Nat.add_sub_cancel_left]
  refine ⟨⟨⟨k + n, upToDate'⟩, passed⟩, ?_⟩
  rw [registers_run, once, Function.iterate_one]

/-- A transfer takes no time. -/
theorem OnTheSecond.released (h : OnTheSecond j m) (command : UInt8) (answer : List UInt8) :
    OnTheSecond j (m.released command answer) := by
  obtain ⟨k, upToDate⟩ := h.upToDate
  exact ⟨⟨k, upToDate.congr rfl rfl rfl⟩, h.now⟩

theorem OnTheSecond.second (h : OnTheSecond j m)
    (fits : (j + 1) * 33513982 + 1023 < UInt64.size) :
    OnTheSecond (j + 1) m.second.2 ∧ m.second.2.chip.registers = m.chip.registers.countSecond ∧
      m.second.1 = lineOf m.chip.registers.countSecond := by
  obtain ⟨onTheSecond, registers⟩ := h.run fits
  rw [second_eq, registers_released, registers]
  exact ⟨onTheSecond.released _ _, rfl, rfl⟩

/-- A time that is long enough for some seconds is long enough for fewer. -/
theorem fits_of_le {i j : Nat} (le : i ≤ j) (fits : j * 33513982 + 1023 < UInt64.size) :
    i * 33513982 + 1023 < UInt64.size :=
  Nat.lt_of_le_of_lt (Nat.add_le_add_right (Nat.mul_le_mul_right 33513982 le) 1023) fits

/-- The last cycles there are do not begin with a second. -/
theorem fits_strictly {j : Nat} (fits : j * 33513982 + 1023 < UInt64.size) :
    j * 33513982 + 1024 < UInt64.size := by
  have whole : j * 33513982 % 33513982 = 0 := Nat.mul_mod_left j 33513982
  generalize j * 33513982 = now at fits whole ⊢
  rw [UInt64.size] at fits ⊢
  omega

/-- As many seconds are counted as are shown. -/
theorem OnTheSecond.afterSeconds (n : Nat) (h : OnTheSecond j m)
    (fits : (j + n) * 33513982 + 1023 < UInt64.size) :
    OnTheSecond (j + n) (m.afterSeconds n) ∧
      (m.afterSeconds n).chip.registers = Registers.countSecond^[n] m.chip.registers := by
  induction n generalizing j m with
  | zero => exact ⟨h, rfl⟩
  | succ n ih =>
    have next : j + (n + 1) = j + 1 + n := by omega
    rw [next] at fits ⊢
    obtain ⟨onTheSecond, registers, -⟩ := h.second (fits_of_le (Nat.le_add_right _ n) fits)
    obtain ⟨onTheSecond', registers'⟩ := ih onTheSecond fits
    rw [registers, ← Function.iterate_succ_apply] at registers'
    rw [afterSeconds_succ]
    exact ⟨onTheSecond', registers'⟩

/-- The line for each second shows the registers as they have counted by then.  Nothing is asked
of the seconds that come after it. -/
theorem OnTheSecond.getElem?_dateLines {n i : Nat} (h : OnTheSecond j m) (lt : i < n)
    (fits : (j + (i + 1)) * 33513982 + 1023 < UInt64.size) :
    (m.dateLines n)[i]? = some (lineOf (Registers.countSecond^[i + 1] m.chip.registers)) := by
  obtain ⟨rest, rfl⟩ := Nat.exists_eq_add_of_lt lt
  obtain ⟨onTheSecond, registers⟩ := h.afterSeconds i
    (fits_of_le (Nat.add_le_add_left (Nat.le_succ i) j) fits)
  rw [← Nat.add_assoc] at fits
  obtain ⟨-, -, line⟩ := onTheSecond.second fits
  rw [Nat.add_assoc, dateLines_add,
    List.getElem?_append_right (Nat.le_of_eq (length_dateLines i m)), length_dateLines,
    Nat.sub_self, dateLines_succ, List.getElem?_cons_zero, line, registers,
    ← Function.iterate_succ_apply' Registers.countSecond]

end ClockChip.Machine
