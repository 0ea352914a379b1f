import Nes.Host
import Nes.Host.Path

/-!
# A host with one directory

Files and directories under the directory that a run was started in, each at its location: the
names that lead to it, the innermost first.  A path is followed step by step, and each step must
start from a directory, so that a path may leave a directory again only if it is there.  Outside
the starting directory nothing has a name.  The notices and the output of a run are kept beside
the files.
-/

namespace Nes

/-- The names that lead to an entry, the innermost first. -/
abbrev Location := List String

inductive DiskEntry
  | file (bytes : Array UInt8)
  | directory
deriving DecidableEq

/-- Entries at their locations; of equal locations the first counts. -/
structure Disk where
  entries : List (Location × DiskEntry)
deriving DecidableEq

inductive PathError
  | notFound
  | notADirectory
  | isDirectory
  | tooLong
deriving DecidableEq, Repr

def PathError.message : PathError → String
  | notFound => "No such file or directory (os error 2)"
  | notADirectory => "Not a directory (os error 20)"
  | isDirectory => "Is a directory (os error 21)"
  | tooLong => "File name too long (os error 36)"

namespace Disk

def lookup? (d : Disk) (location : Location) : Option DiskEntry :=
  if location = [] then some .directory else d.entries.lookup location

/-- A file put in the place of what was at the location. -/
def insert (d : Disk) (location : Location) (bytes : Array UInt8) : Disk :=
  ⟨(location, .file bytes) :: d.entries⟩

theorem lookup?_insert_self (d : Disk) {location : Location} (bytes : Array UInt8)
    (h : location ≠ []) : (d.insert location bytes).lookup? location = some (.file bytes) := by
  simp [insert, lookup?, h]

theorem lookup?_insert_of_ne (d : Disk) {location other : Location} (bytes : Array UInt8)
    (h : other ≠ location) : (d.insert location bytes).lookup? other = d.lookup? other := by
  have hb : (other == location) = false := by simp [h]
  simp [insert, lookup?, List.lookup_cons, hb]

/-! ### Paths -/

/-- Where a path has led so far. -/
inductive Place
  | outside
  | inside (location : Location)
deriving DecidableEq, Repr

def Place.parent : Place → Place
  | outside => outside
  | inside [] => outside
  | inside (_ :: location) => inside location

def entryAt? (d : Disk) : Place → Option DiskEntry
  | .outside => some .directory
  | .inside location => d.lookup? location

/-- One step of a path: up, on the spot, or to a name, which need not be there yet. -/
def enter (d : Disk) (place : Place) (step : List Char) : Except PathError Place :=
  match d.entryAt? place with
  | none => .error .notFound
  | some (.file _) => .error .notADirectory
  | some .directory =>
    if step = [] ∨ step = ['.'] then .ok place
    else if step = ['.', '.'] then .ok place.parent
    else
      match place with
      | .outside => .error .notFound
      | .inside location => .ok (.inside (String.ofList step :: location))

/-- Where a path starts: one that begins with a slash does so outside. -/
def start (path : List Char) : Place :=
  if path.head? = some '/' then .outside else .inside []

/-- The bytes that a path can have. -/
def pathLimit : Nat := 4095

def resolve (d : Disk) (path : String) : Except PathError Place :=
  if path.isEmpty then .error .notFound
  else if pathLimit < path.utf8ByteSize then .error .tooLong
  else (Path.steps path.toList).foldlM d.enter (start path.toList)

def read (d : Disk) (path : String) : Except PathError (Array UInt8) := do
  let place ← d.resolve path
  match d.entryAt? place with
  | none => .error .notFound
  | some .directory => .error .isDirectory
  | some (.file bytes) => .ok bytes

/-- The disk after a file was written, in the place of another or of none. -/
def write (d : Disk) (path : String) (bytes : Array UInt8) : Except PathError Disk := do
  match ← d.resolve path with
  | .outside => .error .isDirectory
  | .inside location =>
    match d.lookup? location with
    | some .directory => .error .isDirectory
    | _ => .ok (d.insert location bytes)

end Disk

/-- A directory, and what was reported and printed. -/
structure Desk where
  disk : Disk
  notices : Array Notice := #[]
  output : String := ""

instance : Host (StateM Desk) where
  readFile path := do
    match (← get).disk.read path with
    | .ok bytes => return .contents bytes
    | .error .notFound => return .missing
    | .error e => return .failed e.message
  writeFile path bytes := do
    let desk ← get
    match desk.disk.write path bytes with
    | .ok disk =>
      set { desk with disk }
      return none
    | .error e => return some e.message
  report n := modify fun desk => { desk with notices := desk.notices.push n }
  print text := modify fun desk => { desk with output := desk.output ++ text }

end Nes
