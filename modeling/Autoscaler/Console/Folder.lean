import Std.Data.ExtTreeMap

/-!
# Folders

A folder of text files, and how paths lead to them. A path is walked name by name: `.` stays, `..`
leads out of the folder, and only folders can be walked through. Of what lies around the folder no
more is known than every system has: a root with some folders, and the empty file `/dev/null`.
-/

namespace Autoscaler

/-- Why a path cannot be read or written. -/
inductive FileError where
  | notFound
  | notFolder
  | isFolder
  | nameTooLong
  | nulInPath
  /-- Another reason, in the system's own words. -/
  | other (text : String)
deriving DecidableEq

/-- The message of an error. -/
def FileError.message : FileError → String
  | .notFound => "No such file or directory (os error 2)"
  | .notFolder => "Not a directory (os error 20)"
  | .isFolder => "Is a directory (os error 21)"
  | .nameTooLong => "File name too long (os error 36)"
  | .nulInPath => "file name contained an unexpected NUL byte"
  | .other text => text

/-- Something is at the path, though it cannot be read. -/
def FileError.isPresence : FileError → Bool
  | .isFolder => true
  | .other _ => true
  | _ => false

/-- What reading each path gives. -/
abbrev Files := String → Except FileError String

/-- Whether something is at a path. -/
def Files.contains (files : Files) (path : String) : Bool :=
  match files path with
  | .ok _ => true
  | .error e => e.isPresence

/-- The most bytes that a name may have. -/
def nameLimit : Nat := 255

/-- The fewest bytes of a path that is too long. -/
def pathLimit : Nat := 4096

/-- A folder that holds text files and no folders. -/
structure Folder where
  files : Std.ExtTreeMap String String
deriving DecidableEq

namespace Folder

/-- A folder on the way: this one, one around it, the root, or that of the devices. -/
inductive Base where
  | here
  | around
  | root
  | devices
deriving DecidableEq

/-- The folder that `..` leads to. -/
def Base.parent : Base → Base
  | .here => .around
  | .around => .around
  | .root => .root
  | .devices => .root

/-- The folders that every root has, that of the devices apart. -/
def rootFolders : List String :=
  ["bin", "boot", "etc", "home", "lib", "media", "mnt", "opt", "proc", "root", "run", "sbin", "srv",
    "sys", "tmp", "usr", "var"]

/-- What a name stands for. -/
inductive Thing where
  | folder (base : Base)
  | file (text : String)
deriving DecidableEq

/-- What a name stands for in a folder. A name above the limit stands for nothing. -/
def find (f : Folder) (base : Base) (name : String) : Except FileError Thing :=
  if nameLimit < name.utf8ByteSize then .error .nameTooLong
  else match base with
    | .here => match f.files[name]? with
      | some text => .ok (.file text)
      | none => .error .notFound
    | .around => .error .notFound
    | .root =>
      if name = "dev" then .ok (.folder .devices)
      else if name ∈ rootFolders then .ok (.folder .around)
      else .error .notFound
    | .devices => if name = "null" then .ok (.file "") else .error .notFound

/-- A path: where it starts, its names, and whether it ends in a slash. -/
structure Path where
  start : Base
  names : List String
  slashed : Bool
deriving DecidableEq

/-- The path that a text stands for. -/
def path (s : String) : Except FileError Path :=
  let pieces := (s.toList.splitOn '/').map String.ofList
  if s.toList.contains '\x00' then .error .nulInPath
  else if pathLimit ≤ s.utf8ByteSize then .error .nameTooLong
  else if s = "" then .error .notFound
  else .ok {
    start := if pieces.head? = some "" then .root else .here
    names := pieces.filter (· ≠ "")
    slashed := pieces.getLast? = some "" }

/-- One step of a walk. -/
def step (f : Folder) (base : Base) (name : String) : Except FileError Base := do
  if name = "." then return base
  else if name = ".." then return base.parent
  else match ← f.find base name with
    | .folder inner => return inner
    | .file _ => .error .notFolder

/-- The last name of a path and the folder to look for it in. No name is left when the path leads to
a folder for certain. -/
def locate (f : Folder) (p : Path) : Except FileError (Option (Base × String)) := do
  let base ← p.names.dropLast.foldlM f.step p.start
  return p.names.getLast?.bind fun name =>
    if name = "." ∨ name = ".." then none else some (base, name)

/-- Reads the file at a path. -/
def read (f : Folder) : Files := fun s => do
  let p ← path s
  let some (base, name) ← f.locate p | .error .isFolder
  match ← f.find base name with
  | .folder _ => .error .isFolder
  | .file text => if p.slashed then .error .notFolder else return text

/-- The folder with a file of this name. A file in another folder does not change it. -/
def create (f : Folder) (base : Base) (name text : String) : Folder :=
  if base = .here then ⟨f.files.insert name text⟩ else f

/-- Writes a file at a path, in place of any that was there. A slash at its end asks for a folder,
whatever has the name. -/
def write (f : Folder) (s text : String) : Except FileError Folder := do
  let p ← path s
  let some (base, name) ← f.locate p | .error .isFolder
  if p.slashed then .error .isFolder
  match f.find base name with
  | .ok (.folder _) => .error .isFolder
  | .ok (.file _) => return f.create base name text
  | .error .notFound => return f.create base name text
  | .error e => .error e

end Folder

end Autoscaler
