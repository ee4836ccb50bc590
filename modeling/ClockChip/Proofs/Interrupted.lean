import ClockChip.Proofs.OnDisk
import ClockChip.Proofs.Resuming

/-!
# Stopping and going on

The program is run for some seconds and saves its state, and is run again, with that state, for
some seconds more.  The second run shows what one long run would have shown last, and
writes the same file (`runOn_resumed`).  What the machines do in this is `resume_ofConfig`, and
what the program makes of it is `runOn_saved`, for a run that starts in either way.

The disk has to keep the files: their paths must lead to files, or to where they can be made,
and not to the log that every run begins anew (`Disk.Keeps`).
-/

namespace ClockChip.Program

/-- The disk has room for the log and for files at the paths, each of them apart from the log. -/
def Disk.Keeps (paths : List String) (disk : Disk) : Prop :=
  ∃ log, disk.Leads logFile log ∧ ∀ path ∈ paths, ∃ place, disk.Leads path place ∧ place ≠ log

/-- Plain names will do, if none of them is that of the log and no directory stands in the way. -/
theorem Disk.keeps_of_plain {names : List String} {disk : Disk}
    (plain : ∀ name ∈ logFile :: names,
      Plain name ∧ disk.FileAt (disk.workingDirectory ++ [name]))
    (apart : logFile ∉ names) : disk.Keeps names := by
  obtain ⟨⟨logPlain, logRoom⟩, others⟩ := List.forall_mem_cons.1 plain
  refine ⟨_, leads_of_plain logPlain logRoom, fun name mem ↦ ?_⟩
  obtain ⟨namePlain, room⟩ := others name mem
  refine ⟨_, leads_of_plain namePlain room, fun same ↦ ?_⟩
  obtain ⟨-, last⟩ := List.append_inj' same rfl
  exact apart ((List.singleton_inj.1 last) ▸ mem)

/-- Nothing stands in the way on a disk that is empty. -/
theorem Disk.keeps_ofFiles {names : List String} (plain : ∀ name ∈ logFile :: names, Plain name)
    (apart : logFile ∉ names) : (Disk.ofFiles [] []).Keeps names := by
  refine keeps_of_plain (fun name mem ↦ ⟨plain name mem, .inl ?_⟩) apart
  simp [Disk.ofFiles, Disk.lookup?, scratch, system, List.lookup_cons]

variable {disk : Disk} {log place : Location} {o : Options} {path : String}
  {arguments : List String}

/-- A run that saves its machine, in whichever way it gets it. -/
theorem runOn_saved {machine : Machine} {d : Desktop}
    (asked : Request.ofArguments arguments = .ok (.run o)) (saves : o.save = some path)
    (logs : disk.Leads logFile log) (leads : disk.Leads path place) (apart : place ≠ log)
    (starts : Ends (starting o)
      (Desktop.noted (Machine.ofConfig o.config).resetNotice { disk := disk.put log [] })
      machine d)
    (logged : Disk.OnlyAt log disk d.disk) :
    let closing := (machine.afterSeconds o.seconds.toNat).closing o.config.console
    let ended := runOn disk arguments
    ended.status = 0 ∧
      ended.output = d.printed ++ Desktop.lines
        (machine.dateLines o.seconds.toNat ++ closing.1 ++ ["Saved state to " ++ path]) ∧
      ended.disk.read path = .ok closing.2.save ∧
      ∀ other there, disk.Leads other there → ended.disk.Leads other there := by
  intro closing ended
  obtain ⟨d', ends, printed, read, kept⟩ :=
    ends_saved saves starts (logs.onlyAt logged) (leads.onlyAt logged) apart
  have whole : ended = _ := runOn_eq asked logs ends
  rw [whole]
  exact ⟨rfl, printed, read, fun other there known ↦ kept other there (known.onlyAt logged)⟩

/-- A run that starts with a new machine. -/
theorem runOn_fresh (asked : Request.ofArguments arguments = .ok (.run o))
    (saves : o.save = some path) (fresh : o.load = none)
    (logs : disk.Leads logFile log) (leads : disk.Leads path place) (apart : place ≠ log) :
    let machine := Machine.ofConfig o.config
    let closing := (machine.afterSeconds o.seconds.toNat).closing o.config.console
    let ended := runOn disk arguments
    ended.status = 0 ∧
      ended.output = Desktop.lines
        (machine.dateLines o.seconds.toNat ++ closing.1 ++ ["Saved state to " ++ path]) ∧
      ended.disk.read path = .ok closing.2.save ∧
      ∀ other there, disk.Leads other there → ended.disk.Leads other there := by
  intro machine closing ended
  have opened := onlyAt_opened logs machine.resetNotice
  obtain ⟨status, output, rest⟩ := runOn_saved asked saves logs leads apart
    (by rw [starting, fresh]; exact .pure machine _) opened
  rw [Desktop.printed_noted, String.empty_append] at output
  exact ⟨status, output, rest⟩

/-- A run that starts with a saved state. -/
theorem runOn_loaded {source : String} {origin : Location} {content : List UInt8}
    {loaded : Machine} (asked : Request.ofArguments arguments = .ok (.run o))
    (saves : o.save = some path) (loads : o.load = some source)
    (logs : disk.Leads logFile log) (leads : disk.Leads path place) (apart : place ≠ log)
    (comes : disk.Leads source origin) (apart' : origin ≠ log)
    (there : disk.read source = .ok content)
    (accepted : (Machine.ofConfig o.config).load content = .ok loaded) :
    let closing := (loaded.afterSeconds o.seconds.toNat).closing o.config.console
    let ended := runOn disk arguments
    ended.status = 0 ∧
      ended.output = Desktop.lines (("Loaded state from " ++ source) ::
        (loaded.dateLines o.seconds.toNat ++ closing.1 ++ ["Saved state to " ++ path])) ∧
      ended.disk.read path = .ok closing.2.save := by
  intro closing ended
  have opened := onlyAt_opened logs (Machine.ofConfig o.config).resetNotice
  have noted := opened.trans (Desktop.onlyAt_noted (logs.onlyAt opened) Machine.loadNotice)
  have told := noted.trans
    (Desktop.onlyAt_told (logs.onlyAt noted) ("Loaded state from " ++ source))
  obtain ⟨status, output, read, -⟩ := runOn_saved asked saves logs leads apart (by
    rw [starting, loads]
    exact ends_load ((comes.read_onlyAt opened apart').trans there) accepted) told
  refine ⟨status, ?_, read⟩
  rw [output, ← Desktop.toldAll_singleton, Desktop.printed_toldAll, Desktop.printed_noted,
    Desktop.printed_noted, String.empty_append, ← Desktop.lines_append]
  rfl

/-- Stopping and going on changes nothing.  A run of `n` seconds that saves its state, and a
run of `k` seconds on the same console, with whatever date, that loads it, take together the
place of one run of `n + k` seconds.  All of them succeed; the second run shows the last `k`
dates of the long run and the minute counter as the long run does, and it leaves the same bytes
in its file. -/
theorem runOn_resumed {first resumed whole : List String} {config config' : Config}
    {n k : UInt64} {f g : String} {disk disk' : Disk}
    (asksFirst : Request.ofArguments first = .ok (.run { config, seconds := n, save := some f }))
    (asksResumed : Request.ofArguments resumed =
      .ok (.run { config := config', seconds := k, load := some f, save := some g }))
    (asksWhole : Request.ofArguments whole =
      .ok (.run { config, seconds := n + k, save := some g }))
    (console : config'.console = config.console)
    (fits : (n.toNat + k.toNat) * 33513982 + 1023 < UInt64.size)
    (keeps : disk.Keeps [f, g]) (keeps' : disk'.Keeps [g]) :
    let machine := Machine.ofConfig config
    let dates := machine.dateLines (n.toNat + k.toNat)
    let minutes := ((machine.afterSeconds (n.toNat + k.toNat)).closing config.console).1
    let stopped := runOn disk first
    let continued := runOn stopped.disk resumed
    let atOnce := runOn disk' whole
    stopped.status = 0 ∧ continued.status = 0 ∧ atOnce.status = 0 ∧
      dates.length = n.toNat + k.toNat ∧
      atOnce.output = Desktop.lines (dates ++ minutes ++ ["Saved state to " ++ g]) ∧
      continued.output = Desktop.lines (("Loaded state from " ++ f) ::
        (dates.drop n.toNat ++ minutes ++ ["Saved state to " ++ g])) ∧
      ∃ content, atOnce.disk.read g = .ok content ∧ continued.disk.read g = .ok content := by
  intro machine dates minutes stopped continued atOnce
  obtain ⟨log, logs, places⟩ := keeps
  obtain ⟨fPlace, atF, apartF⟩ := places f List.mem_cons_self
  obtain ⟨gPlace, atG, apartG⟩ := places g (List.mem_cons_of_mem f List.mem_cons_self)
  obtain ⟨log', logs', places'⟩ := keeps'
  obtain ⟨gPlace', atG', apartG'⟩ := places' g List.mem_cons_self
  obtain ⟨loaded, accepted, lines, closing, save⟩ := Machine.resume_ofConfig console fits
  have seconds : (n + k).toNat = n.toNat + k.toNat := by
    have cycles := Nat.le_mul_of_pos_right (n.toNat + k.toNat) (show 0 < 33513982 by decide)
    rw [UInt64.toNat_add]
    exact Nat.mod_eq_of_lt (by
      generalize (n.toNat + k.toNat) * 33513982 = total at fits cycles
      rw [UInt64.size] at fits
      omega)
  obtain ⟨status, -, left, kept⟩ := runOn_fresh asksFirst rfl rfl logs atF apartF
  obtain ⟨status', output', read'⟩ := runOn_loaded asksResumed rfl rfl (kept _ _ logs)
    (kept _ _ atG) apartG (kept _ _ atF) apartF left accepted
  obtain ⟨status'', output'', read'', -⟩ := runOn_fresh asksWhole rfl rfl logs' atG' apartG'
  have last : dates.drop n.toNat = loaded.dateLines k.toNat := by
    change (machine.dateLines _).drop _ = _
    rw [Machine.dateLines_add, List.drop_left' (Machine.length_dateLines _ _), lines]
  dsimp only at output' read' output'' read''
  rw [seconds] at output'' read''
  rw [console] at output' read'
  rw [closing, ← Machine.afterSeconds_add] at output'
  rw [save, ← Machine.afterSeconds_add] at read'
  refine ⟨status, status', status'', Machine.length_dateLines _ _, output'', ?_, _, read'', read'⟩
  rw [last]
  exact output'

/-- A new year that begins in the second run, on the console with a minute counter. -/
theorem runOn_resumed_second :
    let first := ["--dsi", "--date", "2023-12-31 23:59:58", "--seconds", "1", "--save", "a.sav"]
    let resumed := ["--dsi", "--load", "a.sav", "--seconds", "1", "--save", "b.sav"]
    let whole := ["--dsi", "--date", "2023-12-31 23:59:58", "--seconds", "2", "--save", "b.sav"]
    let stopped := runOn (.ofFiles [] []) first
    let continued := runOn stopped.disk resumed
    let atOnce := runOn (.ofFiles [] []) whole
    stopped.status = 0 ∧ continued.status = 0 ∧ atOnce.status = 0 ∧
      ∃ content, atOnce.disk.read "b.sav" = .ok content ∧
        continued.disk.read "b.sav" = .ok content := by
  intro first resumed whole stopped continued atOnce
  let config : Config := { console := .dsi, boot := some ⟨2023, 12, 31, 23, 59, 58⟩ }
  have keeps : (Disk.ofFiles [] []).Keeps ["a.sav", "b.sav"] :=
    Disk.keeps_ofFiles (by decide) (by decide)
  have keeps' : (Disk.ofFiles [] []).Keeps ["b.sav"] :=
    Disk.keeps_ofFiles (by decide) (by decide)
  have asksFirst : Request.ofArguments first =
      .ok (.run { config, seconds := 1, save := some "a.sav" }) := rfl
  have asksResumed : Request.ofArguments resumed =
      .ok (.run
        { config := { console := .dsi }, seconds := 1, load := some "a.sav",
          save := some "b.sav" }) := rfl
  have asksWhole : Request.ofArguments whole =
      .ok (.run { config, seconds := 1 + 1, save := some "b.sav" }) := rfl
  obtain ⟨status, status', status'', -, -, -, same⟩ :=
    runOn_resumed asksFirst asksResumed asksWhole rfl (by decide) keeps keeps'
  exact ⟨status, status', status'', same⟩

end ClockChip.Program
