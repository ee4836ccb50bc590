import ClockChip.Program.Run

/-!
# Files in memory

A host that is a table: a tree of directories, files and devices, with a working
directory, and the text that has been printed.  Running the program on it is a
function.

A path is followed part by part, and every part but the last has to lead to a
directory.  What the last part may lead to depends on what is done with it: a
file is read, or made where there was nothing.
-/

namespace ClockChip.Program

/-- Where something is: the names that lead to it from the root. -/
abbrev Location := List String

/-- A file that keeps nothing. -/
structure Device where
  /-- Reading it does not come to an end. -/
  endless : Bool
  /-- It takes what is written to it. -/
  takes : Bool
deriving DecidableEq, Repr

/-- What can be at a location. -/
inductive Entry where
  | directory
  | file (content : List UInt8)
  | device (device : Device)
deriving DecidableEq, Repr

/-- A tree of files, seen from one of its directories. -/
structure Disk where
  /-- All that there is but the root, by location. -/
  entries : List (Location × Entry)
  workingDirectory : Location
deriving DecidableEq, Repr

/-- What a path leads to before its last name is looked up. -/
inductive Target where
  /-- The path can only be that of a directory, which is there. -/
  | directory
  /-- A name in a directory; if a slash follows it, it has to be a directory's. -/
  | named (parent : Location) (name : String) (slashed : Bool)
deriving DecidableEq, Repr

namespace Disk

/-! ## Trees -/

/-- The directories and devices that every disk has. -/
def system : List (Location × Entry) :=
  ["bin", "boot", "dev", "etc", "home", "lib", "lib64", "media", "mnt", "opt", "proc", "root",
    "run", "sbin", "srv", "sys", "tmp", "usr", "var"].map (fun name => ([name], .directory)) ++
  ["zero", "random", "urandom"].map
    (fun name => (["dev", name], .device { endless := true, takes := true })) ++
  [(["dev", "null"], .device { endless := false, takes := true }),
   (["dev", "full"], .device { endless := true, takes := false })]

/-- A directory for temporary files.  No part of a path is empty, so a path leads into
it only from itself. -/
def scratch : Location := ["tmp", ""]

/-- A disk with some files and empty directories in its working directory, which no
path can name. -/
def ofFiles (files : List (String × List UInt8)) (directories : List String) : Disk where
  entries :=
    files.map (fun (name, content) => (scratch ++ [name], .file content)) ++
      directories.map (fun name => (scratch ++ [name], .directory)) ++
      (scratch, .directory) :: system
  workingDirectory := scratch

/-- What is at a location. -/
def lookup? (d : Disk) (place : Location) : Option Entry :=
  if place = [] then some .directory else d.entries.lookup place

/-- The disk with a file in place of what was there. -/
def put (place : Location) (content : List UInt8) (d : Disk) : Disk :=
  { d with entries := (place, .file content) :: d.entries.filter fun e => e.1 != place }

@[simp] theorem lookup?_put_self (place : Location) (content : List UInt8) (d : Disk)
    (h : place ≠ []) : (d.put place content).lookup? place = some (.file content) := by
  simp [lookup?, put, h]

theorem lookup?_put_of_ne (place other : Location) (content : List UInt8) (d : Disk)
    (h : other ≠ place) : (d.put place content).lookup? other = d.lookup? other := by
  have apart : (other == place) = false := by simpa using h
  have kept (es : List (Location × Entry)) :
      (es.filter fun e => e.1 != place).lookup other = es.lookup other := by
    induction es with
    | nil => rfl
    | cons e es ih =>
      obtain ⟨here, entry⟩ := e
      by_cases removed : here = place <;> simp [removed, List.lookup_cons, apart, ih]
  simp [lookup?, put, List.lookup_cons, apart, kept]

/-- The files of the working directory, by name. -/
def files (d : Disk) : List (String × List UInt8) :=
  d.entries.filterMap fun
    | (place, .file content) =>
      if place.dropLast = d.workingDirectory then place.getLast?.map fun name => (name, content)
      else none
    | _ => none

/-! ## Paths -/

/-- The bytes that one name may have. -/
def nameLimit : Nat := 255

/-- The bytes that a path may have. -/
def pathLimit : Nat := 4095

/-- The location of a name in a directory. -/
def child (parent : Location) (name : String) : Except FileError Location :=
  if name.utf8ByteSize ≤ nameLimit then .ok (parent ++ [name]) else .error .nameTooLong

/-- Goes from a directory to another by one part of a path. -/
def enter (d : Disk) (place : Location) (part : String) : Except FileError Location := do
  if part = "." then return place
  else if part = ".." then return place.dropLast
  else
    let place ← child place part
    match d.lookup? place with
    | some .directory => return place
    | some _ => throw .notDirectory
    | none => throw .notFound

/-- What a path leads to.  Empty parts of it say nothing. -/
def target (path : String) (d : Disk) : Except FileError Target := do
  let pieces := path.splitOn "/"
  let parts := pieces.filter fun part => part != ""
  let start := if pieces.head? = some "" then [] else d.workingDirectory
  if path.isEmpty then throw .notFound
  else if pathLimit < path.utf8ByteSize then throw .nameTooLong
  else match parts.getLast? with
    | none => return .directory
    | some name =>
      let parent ← parts.dropLast.foldlM d.enter start
      if name = "." ∨ name = ".." then return .directory
      else return .named parent name (pieces.getLast? = some "")

/-! ## Reading and writing -/

/-- The content of a file. -/
def read (path : String) (d : Disk) : Except FileError (List UInt8) := do
  match ← d.target path with
  | .directory => throw .isDirectory
  | .named parent name slashed =>
    match d.lookup? (← child parent name), slashed with
    | none, _ => throw .notFound
    | some .directory, _ => throw .isDirectory
    | some _, true => throw .notDirectory
    | some (.file content), false => return content
    | some (.device device), false => if device.endless then throw .outOfMemory else return []

/-- Makes a file, or replaces its content.  A name with a slash behind it is that
of a directory, whatever is there. -/
def write (path : String) (content : List UInt8) (d : Disk) : Except FileError Disk := do
  match ← d.target path with
  | .directory | .named _ _ true => throw .isDirectory
  | .named parent name false =>
    let place ← child parent name
    match d.lookup? place with
    | some .directory => throw .isDirectory
    | none | some (.file _) => return d.put place content
    | some (.device device) => if device.takes then return d else throw .noSpace

end Disk

/-! ## The host -/

/-- A disk, and what has been printed. -/
structure Desktop where
  disk : Disk
  printed : String := ""
deriving DecidableEq, Repr

namespace Desktop

/-- Adds a line to the log file, if there is one. -/
def appendLog (line : String) (d : Desktop) : Desktop :=
  let written := do
    let content ← d.disk.read logFile
    d.disk.write logFile (content ++ (line ++ "\n").toUTF8.toList)
  match written with
  | .error _ => d
  | .ok disk => { d with disk }

end Desktop

instance : Host (StateM Desktop) where
  readFile path := do return (← get).disk.read path
  writeFile path content := do
    match (← get).disk.write path content with
    | .error e => return .error e
    | .ok disk =>
      modify fun d => { d with disk }
      return .ok ()
  appendLog line := modify fun d => d.appendLog line
  printLine line := modify fun d => { d with printed := d.printed ++ line ++ "\n" }

/-- How a run of the program ends. -/
structure Ending where
  status : UInt32
  output : String
  errors : String
  disk : Disk
deriving DecidableEq, Repr

/-- Runs the program on a disk. -/
def runOn (disk : Disk) (arguments : List String) : Ending :=
  let (result, d) := (run (m := StateM Desktop) arguments).run.run { disk }
  match result with
  | .ok () => { status := 0, output := d.printed, errors := "", disk := d.disk }
  | .error f => { status := 1, output := d.printed, errors := f.report, disk := d.disk }

end ClockChip.Program
