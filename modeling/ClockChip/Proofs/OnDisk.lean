import Mathlib.Data.String.Basic
import ClockChip.Program.Disk
import ClockChip.Proofs.Seconds

/-!
# Running on a disk

What a run of the program leaves behind when all goes well.  Three parts come together.
A write changes what is at one place and no path that leads elsewhere (`Disk.OnlyAt`), so that
a file is read as it was written however the log grows meanwhile.  A part of the program that
does not fail takes the desktop from one state to another (`Ends`), and such parts follow each
other (`Ends.bind`).  And of each part it is said once what it prints and which place it
writes.
-/

namespace ClockChip.Program

namespace Disk

variable {place other : Location} {path : String} {d d' d'' : Disk}

/-! ## Writing at one place -/

/-- There is a file at the place, or nothing. -/
def FileAt (place : Location) (d : Disk) : Prop :=
  d.lookup? place = none ∨ ∃ content, d.lookup? place = some (.file content)

/-- The disks differ at most in the file at the place. -/
structure OnlyAt (place : Location) (d d' : Disk) : Prop where
  workingDirectory : d'.workingDirectory = d.workingDirectory
  elsewhere : ∀ other, other ≠ place → d'.lookup? other = d.lookup? other
  before : d.FileAt place
  after : d'.FileAt place

theorem OnlyAt.refl (file : d.FileAt place) : OnlyAt place d d :=
  ⟨rfl, fun _ _ ↦ rfl, file, file⟩

theorem OnlyAt.trans (h : OnlyAt place d d') (h' : OnlyAt place d' d'') : OnlyAt place d d'' :=
  ⟨h'.workingDirectory.trans h.workingDirectory,
    fun other apart ↦ (h'.elsewhere other apart).trans (h.elsewhere other apart), h.before,
    h'.after⟩

theorem onlyAt_put (file : d.FileAt place) (proper : place ≠ []) (content : List UInt8) :
    OnlyAt place d (d.put place content) :=
  ⟨rfl, fun other apart ↦ lookup?_put_of_ne place other content d apart, file,
    .inr ⟨content, lookup?_put_self place content d proper⟩⟩

theorem FileAt.onlyAt (file : d.FileAt other) (h : OnlyAt place d d') : d'.FileAt other := by
  by_cases same : other = place
  · rw [same]
    exact h.after
  · rw [FileAt, h.elsewhere other same]
    exact file

/-- Directories are where they were. -/
theorem OnlyAt.directory (h : OnlyAt place d d') (there : d.lookup? other = some .directory) :
    d'.lookup? other = some .directory := by
  by_cases same : other = place
  · rw [same] at there
    rcases h.before with nothing | ⟨content, file⟩
    · rw [nothing] at there
      cases there
    · rw [file] at there
      cases there
  · rw [h.elsewhere other same, there]

/-! ## Paths -/

/-- A part of a path leads on by a directory, or to one that was passed already. -/
theorem enter_eq_ok_iff {here there : Location} {part : String} :
    d.enter here part = .ok there ↔
      if part = "." then there = here
      else if part = ".." then there = here.dropLast
      else child here part = .ok there ∧ d.lookup? there = some .directory := by
  unfold Disk.enter
  split
  · exact ⟨fun same ↦ (Except.ok.inj same).symm, fun same ↦ congrArg Except.ok same.symm⟩
  · split
    · exact ⟨fun same ↦ (Except.ok.inj same).symm, fun same ↦ congrArg Except.ok same.symm⟩
    · cases child here part with
      | error e => simp [bind, Except.bind]
      | ok found =>
        simp only [bind, Except.bind, Except.ok.injEq]
        split
        · next isDirectory =>
          constructor
          · intro entered
            obtain rfl := Except.ok.inj entered
            exact ⟨rfl, isDirectory⟩
          · rintro ⟨rfl, -⟩
            rfl
        · next entry other isEntry =>
          constructor
          · rintro ⟨⟩
          · rintro ⟨rfl, isDirectory⟩
            exact absurd (Option.some.inj (isEntry.symm.trans isDirectory)) other
        · next nothing =>
          constructor
          · rintro ⟨⟩
          · rintro ⟨rfl, isDirectory⟩
            rw [nothing] at isDirectory
            cases isDirectory

theorem OnlyAt.enter (h : OnlyAt place d d') {here there : Location} {part : String}
    (entered : d.enter here part = .ok there) : d'.enter here part = .ok there := by
  rw [enter_eq_ok_iff] at entered ⊢
  split at entered
  · next dot => rwa [if_pos dot]
  · next dot =>
    split at entered
    · next dots => rwa [if_neg dot, if_pos dots]
    · next dots =>
      rw [if_neg dot, if_neg dots]
      exact ⟨entered.1, h.directory entered.2⟩

theorem OnlyAt.enterAll (h : OnlyAt place d d') {parts : List String} {here there : Location}
    (entered : parts.foldlM d.enter here = .ok there) :
    parts.foldlM d'.enter here = .ok there := by
  induction parts generalizing here with
  | nil => exact entered
  | cons part parts ih =>
    rw [List.foldlM_cons] at entered ⊢
    cases first : d.enter here part with
    | error e =>
      rw [first] at entered
      cases entered
    | ok next =>
      rw [first] at entered
      rw [h.enter first]
      exact ih entered

/-- A path goes on leading to what it leads to. -/
theorem OnlyAt.target (h : OnlyAt place d d') {t : Target} (leads : d.target path = .ok t) :
    d'.target path = .ok t := by
  unfold Disk.target at leads ⊢
  rw [h.workingDirectory]
  dsimp only at leads ⊢
  by_cases empty : path.isEmpty = true
  · rw [if_pos empty] at leads
    cases leads
  · by_cases long : pathLimit < path.utf8ByteSize
    · rw [if_neg empty, if_pos long] at leads
      cases leads
    · rw [if_neg empty, if_neg long] at leads ⊢
      generalize (path.splitOn "/").filter (fun part ↦ part != "") = parts at leads ⊢
      generalize (if (path.splitOn "/").head? = some "" then [] else d.workingDirectory) = start
        at leads ⊢
      cases last : parts.getLast? with
      | none =>
        rw [last] at leads
        exact leads
      | some name =>
        rw [last] at leads
        cases entered : parts.dropLast.foldlM d.enter start with
        | error e =>
          dsimp only at leads
          rw [entered] at leads
          cases leads
        | ok parent =>
          dsimp only at leads ⊢
          rw [entered] at leads
          rw [h.enterAll entered]
          exact leads

/-! ## Files -/

/-- The path is that of a file at the place, or one can be made there. -/
structure Leads (path : String) (place : Location) (d : Disk) : Prop where
  target : ∃ parent name, d.target path = .ok (.named parent name false) ∧
    child parent name = .ok place
  file : d.FileAt place

theorem Leads.onlyAt (h : d.Leads path other) (only : OnlyAt place d d') :
    d'.Leads path other := by
  obtain ⟨parent, name, target, named⟩ := h.target
  exact ⟨⟨parent, name, only.target target, named⟩, h.file.onlyAt only⟩

theorem Leads.proper (h : d.Leads path place) : place ≠ [] := by
  obtain ⟨parent, name, -, named⟩ := h.target
  unfold child at named
  split at named
  · obtain rfl := Except.ok.inj named
    simp
  · cases named

theorem Leads.read_eq (h : d.Leads path place) :
    d.read path =
      match d.lookup? place with
      | some (.file content) => .ok content
      | _ => .error .notFound := by
  obtain ⟨parent, name, target, named⟩ := h.target
  rcases h.file with nothing | ⟨content, there⟩
  · simp only [Disk.read, target, named, nothing, bind, Except.bind]
    rfl
  · simp only [Disk.read, target, named, there, bind, Except.bind]
    rfl

theorem Leads.write (h : d.Leads path place) (content : List UInt8) :
    d.write path content = .ok (d.put place content) := by
  obtain ⟨parent, name, target, named⟩ := h.target
  rcases h.file with nothing | ⟨old, there⟩
  · simp only [Disk.write, target, named, nothing, bind, Except.bind]
    rfl
  · simp only [Disk.write, target, named, there, bind, Except.bind]
    rfl

theorem Leads.onlyAt_put (h : d.Leads path place) (content : List UInt8) :
    OnlyAt place d (d.put place content) :=
  Disk.onlyAt_put h.file h.proper content

/-- A file is read as before when something has been written elsewhere. -/
theorem Leads.read_onlyAt (h : d.Leads path place) (only : OnlyAt other d d')
    (apart : place ≠ other) : d'.read path = d.read path := by
  rw [(h.onlyAt only).read_eq, h.read_eq, only.elsewhere place apart]

/-- A file is read as it was written. -/
theorem Leads.read_put (h : d.Leads path place) (content : List UInt8) :
    (d.put place content).read path = .ok content := by
  rw [(h.onlyAt (h.onlyAt_put content)).read_eq, lookup?_put_self place content d h.proper]

/-! ## Plain names -/

/-- A path that is just a name, and not too long for one. -/
def Plain (name : String) : Prop :=
  '/' ∉ name.toList ∧ name ∉ ["", ".", ".."] ∧ name.utf8ByteSize ≤ nameLimit

instance (name : String) : Decidable (Plain name) := inferInstanceAs (Decidable (_ ∧ _ ∧ _))

/-- A text without slashes is searched to its end. -/
theorem splitOnAux_of_not_mem (before : List Char) {rest : List Char} (plain : '/' ∉ rest) :
    (String.ofList (before ++ rest)).splitOnAux "/" 0 ⟨String.utf8Len before⟩ 0 [] =
      [String.ofList (before ++ rest)] := by
  induction rest generalizing before with
  | nil =>
    have whole := String.extract_of_valid [] before []
    rw [List.nil_append, String.utf8Len_nil, Nat.zero_add, List.append_nil] at whole
    have text : String.Pos.Raw.extract (String.ofList before) 0 ⟨String.utf8Len before⟩ =
        String.ofList before := whole
    rw [String.splitOnAux, if_pos ((String.atEnd_of_valid before []).2 rfl), List.append_nil, text]
    rfl
  | cons c rest ih =>
    obtain ⟨other, plain⟩ := not_or.1 (List.mem_cons.not.1 plain)
    have more : ¬String.Pos.Raw.atEnd (String.ofList (before ++ c :: rest))
        ⟨String.utf8Len before⟩ := fun ended ↦
      List.cons_ne_nil c rest ((String.atEnd_of_valid before (c :: rest)).1 ended)
    have here : String.Pos.Raw.get (String.ofList (before ++ c :: rest))
        ⟨String.utf8Len before⟩ = c := String.get_of_valid before (c :: rest)
    have next : (⟨String.utf8Len before⟩ : String.Pos.Raw).next
        (String.ofList (before ++ c :: rest)) = ⟨String.utf8Len (before ++ [c])⟩ := by
      rw [String.next_of_valid, String.utf8Len_append, String.utf8Len_cons, String.utf8Len_nil,
        Nat.zero_add]
    have slash : String.Pos.Raw.get "/" 0 = '/' := rfl
    have still : (⟨String.utf8Len before⟩ : String.Pos.Raw).unoffsetBy 0 =
        ⟨String.utf8Len before⟩ := rfl
    rw [String.splitOnAux, if_neg more, here, slash, if_neg (by simpa using Ne.symm other), still,
      next]
    have rest' := ih (before ++ [c]) plain
    rwa [List.append_assoc] at rest'

theorem Plain.splitOn {name : String} (plain : Plain name) : name.splitOn "/" = [name] := by
  have whole := splitOnAux_of_not_mem [] plain.1
  rwa [List.nil_append, String.ofList_toList] at whole

/-- A plain name is that of a file in the working directory. -/
theorem leads_of_plain {name : String} (plain : Plain name)
    (room : d.FileAt (d.workingDirectory ++ [name])) :
    d.Leads name (d.workingDirectory ++ [name]) := by
  have pieces := plain.splitOn
  obtain ⟨-, proper, short⟩ := plain
  have named : child d.workingDirectory name = .ok (d.workingDirectory ++ [name]) := if_pos short
  simp only [List.mem_cons, List.not_mem_nil, or_false, not_or] at proper
  obtain ⟨something, dot, dots⟩ := proper
  have fits : ¬pathLimit < name.utf8ByteSize := by
    rw [nameLimit] at short
    rw [pathLimit]
    omega
  refine ⟨⟨d.workingDirectory, name, ?_, named⟩, room⟩
  unfold Disk.target
  simp [pieces, something, dot, dots, fits]
  rfl

/-- An empty disk has room for the log. -/
theorem leads_logFile : (Disk.ofFiles [] []).Leads logFile (scratch ++ [logFile]) :=
  have leads : (Disk.ofFiles [] []).Leads logFile
      ((Disk.ofFiles [] []).workingDirectory ++ [logFile]) :=
    leads_of_plain (by decide) (.inl rfl)
  leads

end Disk

/-! ## Lines -/

namespace Desktop

variable {place : Location}

/-- The desktop when a record of the machine has gone to the log. -/
def noted (n : Notice) (d : Desktop) : Desktop := d.appendLog (recordLine n.level n.message)

/-- The desktop when the user has been told something. -/
def told (text : String) (d : Desktop) : Desktop :=
  { d with printed := d.printed ++ recordLine .info text ++ "\n" }.appendLog
    (recordLine .info text)

/-- The desktop when the user has been told some things. -/
def toldAll : List String → Desktop → Desktop
  | [], d => d
  | text :: texts, d => (d.told text).toldAll texts

/-- What is printed when the user is told some things. -/
def lines (texts : List String) : String :=
  String.join (texts.map fun text ↦ recordLine .info text ++ "\n")

/-- A line that is put into the log goes nowhere else. -/
theorem onlyAt_appendLog {d : Desktop} (log : d.disk.Leads logFile place) (line : String) :
    Disk.OnlyAt place d.disk (d.appendLog line).disk := by
  unfold appendLog
  cases content : d.disk.read logFile with
  | error e => exact .refl log.file
  | ok content =>
    dsimp only [bind, Except.bind]
    rw [log.write]
    exact log.onlyAt_put _

/-- So the log takes what is recorded and what the user is told, and nothing else changes. -/
theorem onlyAt_noted {d : Desktop} (log : d.disk.Leads logFile place) (n : Notice) :
    Disk.OnlyAt place d.disk (d.noted n).disk :=
  onlyAt_appendLog log _

theorem onlyAt_told {d : Desktop} (log : d.disk.Leads logFile place) (text : String) :
    Disk.OnlyAt place d.disk (d.told text).disk :=
  onlyAt_appendLog (d := { d with printed := d.printed ++ recordLine .info text ++ "\n" }) log _

theorem onlyAt_toldAll {d : Desktop} (log : d.disk.Leads logFile place) (texts : List String) :
    Disk.OnlyAt place d.disk (d.toldAll texts).disk := by
  induction texts generalizing d with
  | nil => exact .refl log.file
  | cons text texts ih =>
    have first := onlyAt_told log text
    exact first.trans (ih (log.onlyAt first))

@[simp] theorem printed_appendLog (d : Desktop) (line : String) :
    (d.appendLog line).printed = d.printed := by
  unfold appendLog
  dsimp only
  split <;> rfl

@[simp] theorem printed_noted (n : Notice) (d : Desktop) : (d.noted n).printed = d.printed :=
  printed_appendLog d _

theorem lines_cons (text : String) (texts : List String) :
    lines (text :: texts) = recordLine .info text ++ "\n" ++ lines texts := by
  rw [lines, List.map_cons, String.join_cons, lines]

theorem printed_toldAll (texts : List String) (d : Desktop) :
    (d.toldAll texts).printed = d.printed ++ lines texts := by
  induction texts generalizing d with
  | nil => exact (String.append_empty).symm
  | cons text texts ih =>
    rw [toldAll, ih, lines_cons, told, printed_appendLog]
    simp only [String.append_assoc]

theorem lines_append (texts texts' : List String) :
    lines (texts ++ texts') = lines texts ++ lines texts' := by
  rw [lines, lines, lines, List.map_append, String.join_append]

theorem toldAll_singleton (text : String) (d : Desktop) : d.toldAll [text] = d.told text := rfl

theorem toldAll_append (texts texts' : List String) (d : Desktop) :
    d.toldAll (texts ++ texts') = (d.toldAll texts).toldAll texts' := by
  induction texts generalizing d with
  | nil => rfl
  | cons text texts ih => exact ih (d.told text)

end Desktop

/-! ## Parts of the program -/

/-- A part of the program goes well: it takes the desktop from one state to another and gives
something. -/
def Ends {α : Type} (part : Run (StateM Desktop) α) (d : Desktop) (a : α) (d' : Desktop) : Prop :=
  part.run.run d = (.ok a, d')

section

variable {α β : Type} {d d' d'' : Desktop} {place : Location} {path : String}

theorem Ends.pure (a : α) (d : Desktop) : Ends (Pure.pure a) d a d := rfl

/-- What follows a part that goes well goes on from there. -/
theorem Ends.run_bind {x : Run (StateM Desktop) α} {a : α} (first : Ends x d a d')
    (f : α → Run (StateM Desktop) β) : (x >>= f).run.run d = (f a).run.run d' := by
  change (x.run >>= ExceptT.bindCont f).run d = _
  rw [StateT.run_bind, first]
  rfl

theorem Ends.bind {x : Run (StateM Desktop) α} {f : α → Run (StateM Desktop) β} {a : α} {b : β}
    (first : Ends x d a d') (rest : Ends (f a) d' b d'') : Ends (x >>= f) d b d'' :=
  (first.run_bind f).trans rest

theorem ends_note (n : Notice) (d : Desktop) : Ends (note n) d () (d.noted n) := rfl

theorem ends_tell (text : String) (d : Desktop) : Ends (tell text) d () (d.told text) := rfl

theorem ends_withFile {act : StateM Desktop (Except FileError α)} {a : α}
    (acted : act.run d = (.ok a, d')) (doing : String) : Ends (withFile doing act) d a d' := by
  have lifted : Ends (ExceptT.lift act) d (.ok a) d' := by
    change (Except.ok <$> act).run d = _
    rw [StateT.run_map, acted]
    rfl
  exact lifted.bind (.pure a d')

theorem run_writeFile (path : String) (content : List UInt8) {disk : Disk}
    (written : d.disk.write path content = .ok disk) :
    (Host.writeFile (m := StateM Desktop) path content).run d = (.ok (), { d with disk }) := by
  simp only [Host.writeFile, StateT.run_bind, StateT.run_get, pure_bind, written]
  rfl

theorem run_readFile {content : List UInt8} (there : d.disk.read path = .ok content) :
    (Host.readFile (m := StateM Desktop) path).run d = (.ok content, d) := by
  rw [← there]
  rfl

theorem ends_showSeconds (n : Nat) (machine : Machine) (d : Desktop) :
    Ends (showSeconds n machine) d (machine.afterSeconds n) (d.toldAll (machine.dateLines n)) := by
  induction n generalizing machine d with
  | zero => exact .pure machine d
  | succ n ih =>
    rw [showSeconds, Machine.dateLines_succ, Machine.afterSeconds_succ, Desktop.toldAll]
    exact (ends_tell machine.second.1 d).bind (ih machine.second.2 _)

theorem ends_load {machine loaded : Machine} {content : List UInt8}
    (there : d.disk.read path = .ok content) (accepted : machine.load content = .ok loaded) :
    Ends (load path machine) d loaded
      ((d.noted Machine.loadNotice).told ("Loaded state from " ++ path)) := by
  refine (ends_withFile (run_readFile there) _).bind ?_
  rw [accepted]
  exact (ends_note _ _).bind ((ends_tell _ _).bind (.pure loaded _))

theorem ends_save (leads : d.disk.Leads path place) (machine : Machine) :
    Ends (save path machine) d ()
      (Desktop.told ("Saved state to " ++ path)
        { d with disk := d.disk.put place machine.save }) :=
  (ends_withFile (run_writeFile path _ (leads.write _)) _).bind (ends_tell _ _)

/-- How a run gets its machine. -/
def starting (o : Options) : Run (StateM Desktop) Machine :=
  match o.load with
  | none => pure (Machine.ofConfig o.config)
  | some path => load path (Machine.ofConfig o.config)

/-- What a run does with its machine in the end. -/
def finishing (o : Options) (machine : Machine) : Run (StateM Desktop) Unit :=
  match o.save with
  | none => pure ()
  | some path => save path machine

/-- What the options ask for, once the machine that they start with is there. -/
theorem ends_runOptions {o : Options} {machine : Machine}
    (starts : Ends (starting o) (d.noted (Machine.ofConfig o.config).resetNotice) machine d')
    (finishes :
      let closing := (machine.afterSeconds o.seconds.toNat).closing o.config.console
      Ends (finishing o closing.2)
        (d'.toldAll (machine.dateLines o.seconds.toNat ++ closing.1)) () d'') :
    Ends (runOptions o) d () d'' := by
  have shows := ends_showSeconds o.seconds.toNat machine d'
  dsimp only at finishes
  rw [Desktop.toldAll_append] at finishes
  unfold starting at starts
  rw [runOptions]
  refine (ends_note _ d).bind ?_
  revert starts finishes
  -- the loading and the closing are two ways each of going on
  cases o.config.console with
  | ds =>
    cases o.load <;> exact fun starts finishes ↦
      starts.bind (shows.bind ((Ends.pure _ _).bind finishes))
  | dsi =>
    cases o.load <;> exact fun starts finishes ↦
      starts.bind (shows.bind ((ends_tell _ _).bind ((Ends.pure _ _).bind finishes)))

/-- A run that saves its machine prints the display and leaves the stream in the file, and no
file goes away. -/
theorem ends_saved {o : Options} {machine : Machine} {log : Location}
    (saves : o.save = some path)
    (starts : Ends (starting o) (d.noted (Machine.ofConfig o.config).resetNotice) machine d')
    (logs : d'.disk.Leads logFile log) (leads : d'.disk.Leads path place) (apart : place ≠ log) :
    let closing := (machine.afterSeconds o.seconds.toNat).closing o.config.console
    ∃ ended, Ends (runOptions o) d () ended ∧
      ended.printed = d'.printed ++ Desktop.lines
        (machine.dateLines o.seconds.toNat ++ closing.1 ++ ["Saved state to " ++ path]) ∧
      ended.disk.read path = .ok closing.2.save ∧
      ∀ other there, d'.disk.Leads other there → ended.disk.Leads other there := by
  intro closing
  let shown := d'.toldAll (machine.dateLines o.seconds.toNat ++ closing.1)
  let written : Desktop := { shown with disk := shown.disk.put place closing.2.save }
  have showing : Disk.OnlyAt log d'.disk shown.disk := Desktop.onlyAt_toldAll logs _
  have leads' := leads.onlyAt showing
  have writing : Disk.OnlyAt place shown.disk written.disk := leads'.onlyAt_put _
  have telling : Disk.OnlyAt log written.disk (written.told ("Saved state to " ++ path)).disk :=
    Desktop.onlyAt_told ((logs.onlyAt showing).onlyAt writing) _
  refine ⟨written.told ("Saved state to " ++ path), ?_, ?_, ?_, ?_⟩
  · refine ends_runOptions starts ?_
    dsimp only
    rw [finishing, saves]
    exact ends_save leads' closing.2
  · rw [← Desktop.toldAll_singleton, Desktop.printed_toldAll, Desktop.lines_append]
    change (d'.toldAll _).printed ++ _ = _
    rw [Desktop.printed_toldAll, String.append_assoc]
  · rw [(leads'.onlyAt writing).read_onlyAt telling apart]
    exact leads'.read_put _
  · intro other there known
    exact ((known.onlyAt showing).onlyAt writing).onlyAt telling

/-- The program begins with an empty log. -/
theorem ends_openLog {disk : Disk} (log : disk.Leads logFile place) :
    Ends openLog { disk } () { disk := disk.put place [] } :=
  have written := run_writeFile (d := { disk }) logFile [] (log.write [])
  ends_withFile written _

/-- The program as a whole. -/
theorem runOn_eq {disk : Disk} {arguments : List String} {o : Options}
    (asked : Request.ofArguments arguments = .ok (.run o)) (log : disk.Leads logFile place)
    (ends : Ends (runOptions o) { disk := disk.put place [] } () d) :
    runOn disk arguments = { status := 0, output := d.printed, errors := "", disk := d.disk } := by
  have whole : Ends (run arguments) { disk } () d := by
    refine (ends_openLog log).bind ?_
    rw [asked]
    exact ends
  have result : (run (m := StateM Desktop) arguments).run.run { disk } = (.ok (), d) := whole
  rw [runOn, result]

/-- The log that the program opens, and the first record in it. -/
theorem onlyAt_opened {disk : Disk} (log : disk.Leads logFile place) (n : Notice) :
    Disk.OnlyAt place disk (Desktop.noted n { disk := disk.put place [] }).disk :=
  let opened := log.onlyAt_put []
  opened.trans (Desktop.onlyAt_noted (d := { disk := disk.put place [] }) (log.onlyAt opened) n)

end

end ClockChip.Program
