import NibbleAsm.CommandLine.FileAccess

/-!
# Directory states

A directory state holds folders and files below a root, one of the folders as the working directory,
and what must not be done where. Every file has one place; there are no links. A path is followed
segment by segment, from the root if it begins with a slash and from the working directory if not,
and every segment must start in a folder. Above the root there is only the root. A path that is too
long as a whole is not followed at all; a name that is too long is found out where it is looked up.
-/
namespace NibbleAsm

/-- A place: the names on the way down from the root. -/
abbrev Location := List (List UInt8)

namespace Location

def child (place : Location) (name : List UInt8) : Location :=
  place ++ [name]

/-- The place above. The root is above itself. -/
def parent (place : Location) : Location :=
  place.dropLast

/-- The place that a segment leads to from a folder. -/
def follow (place : Location) (segment : List UInt8) : Location :=
  if PathName.isTrivial segment then place
  else if segment = [PathName.dot, PathName.dot] then place.parent
  else place.child segment

end Location

/-- What is done at a place. -/
inductive FileAction where
  /-- Look up a name in a folder. -/
  | search
  | read
  /-- Replace the content of a file, or put a new file into a folder. -/
  | write
  deriving DecidableEq

/-- What stands at a place. -/
inductive FileNode where
  | folder
  | file (content : ByteArray)

/-- The folders and files below a root. -/
structure Directory where
  /-- The working directory. -/
  home : Location
  folders : List Location
  files : List (Location × ByteArray)
  /-- The failure of an action at a place, where it is refused. -/
  refusal? : FileAction → Location → Option FileError

namespace Directory

/-- Nothing but the working directory and the folders above it, and nothing refused. -/
def empty (home : Location) : Directory :=
  ⟨home, [], [], fun _ _ => none⟩

/-- The working directory and the folders above it are always there. -/
def isFolder (directory : Directory) (place : Location) : Bool :=
  place.isPrefixOf directory.home || directory.folders.contains place

/-- What stands at a place. -/
def node? (directory : Directory) (place : Location) : Option FileNode :=
  if directory.isFolder place then some .folder else (directory.files.lookup place).map .file

/-- The content of the file at a place. -/
def content? (directory : Directory) (place : Location) : Option ByteArray :=
  match directory.node? place with
  | some (.file content) => some content
  | _ => none

/-- Fail where an action is refused. -/
def permit (directory : Directory) (action : FileAction) (place : Location) :
    Except FileError Unit :=
  match directory.refusal? action place with
  | none => .ok ()
  | some error => .error error

/-- A folder must permit that a segment is looked up in it. An empty segment is not looked up. -/
def search (directory : Directory) (folder : Location) (segment : List UInt8) :
    Except FileError Unit :=
  if segment.isEmpty then .ok () else directory.permit .search folder

/-- Refuse a list of bytes that is longer than a limit. -/
def checkLength (limit : Nat) (bytes : List UInt8) : Except FileError Unit :=
  if limit < bytes.length then .error .nameTooLong else .ok ()

/-- Refuse a path without bytes, and one with too many. -/
def checkPath (path : PathName) : Except FileError Unit :=
  if path.isEmpty then .error .notFound else checkLength PathName.greatestLength path

/-- Follow segments from a place. Each must start in a folder. -/
def follow (directory : Directory) (place : Location) :
    List (List UInt8) → Except FileError Location
  | [] => .ok place
  | segment :: rest =>
    match directory.node? place with
    | none => .error .notFound
    | some (.file _) => .error .notDirectory
    | some .folder => do
      directory.search place segment
      checkLength PathName.greatestName segment
      directory.follow (place.follow segment) rest

/-- The place where the following of a path starts. -/
def start (directory : Directory) (path : PathName) : Location :=
  if path.isAbsolute then [] else directory.home

/-- The place that a path leads to, whether or not something stands there. -/
def locate (directory : Directory) (path : PathName) : Except FileError Location := do
  checkPath path
  directory.follow (directory.start path) path.segments

/-- The content of the file that a path leads to. -/
def read (directory : Directory) (path : PathName) : Except FileError ByteArray := do
  let place ← directory.locate path
  match directory.node? place with
  | none => .error .notFound
  | some node =>
    directory.permit .read place
    match node with
    | .folder => .error .isDirectory
    | .file content => .ok content

/-- Whether a file may be written at a place in a folder. If there is a file already, it must permit
this, and else the folder. -/
def checkPlace (directory : Directory) (folder place : Location) : Except FileError Unit :=
  match directory.node? place with
  | some .folder => .error .isDirectory
  | some (.file _) => directory.permit .write place
  | none => directory.permit .write folder

/-- The place where writing to a path creates or replaces a file. Its folder must exist. A path that
ends in a slash or a dot segment denotes a folder. -/
def target (directory : Directory) (path : PathName) : Except FileError Location := do
  checkPath path
  let bare : PathName := (path.reverse.dropWhile (· == PathName.slash)).reverse
  let segments := bare.segments
  let folder ← directory.follow (directory.start path) segments.dropLast
  match directory.node? folder with
  | none => .error .notFound
  | some (.file _) => .error .notDirectory
  | some .folder =>
    match segments.getLast? with
    | none => .error .isDirectory
    | some last =>
      directory.search folder last
      if bare ≠ path ∨ ¬ PathName.IsName last then .error .isDirectory
      else
        checkLength PathName.greatestName last
        directory.checkPlace folder (folder.child last)
        .ok (folder.child last)

/-- Put content at a place, in place of what was there. -/
def put (directory : Directory) (place : Location) (content : ByteArray) : Directory :=
  { directory with
    files := (place, content) :: directory.files.filter (fun file => !decide (file.1 = place)) }

/-- Create or replace the file that a path leads to. Nothing changes on failure. -/
def write (directory : Directory) (path : PathName) (content : ByteArray) :
    Except FileError Unit × Directory :=
  match directory.target path with
  | .ok place => (.ok (), directory.put place content)
  | .error error => (.error error, directory)

/-- Access to the files of a directory state. -/
def access : FileAccess (StateM Directory) where
  read path := do return (← get).read path
  write path content := modifyGet (fun directory => directory.write path content)

/-- Add a folder and all folders on the way to it. -/
def addFolder (directory : Directory) (path : PathName) : Directory :=
  let step (state : Location × List Location) (segment : List UInt8) :=
    let next := state.1.follow segment
    (next, next :: state.2)
  let (_, folders) := path.segments.foldl step (directory.start path, directory.folders)
  { directory with folders := folders }

/-- Add a file and all folders on the way to it. -/
def addFile (directory : Directory) (path : PathName) (content : ByteArray) : Directory :=
  let folder := path.segments.dropLast
  let base := if folder.isEmpty then directory else directory.addFolder (.ofSegments folder)
  base.put (path.segments.foldl Location.follow (directory.start path)) content

/-- Refuse an action at a place. -/
def refuse (directory : Directory) (action : FileAction) (place : Location) (error : FileError) :
    Directory :=
  { directory with
    refusal? := fun action' place' =>
      if action' = action ∧ place' = place then some error
      else directory.refusal? action' place' }

/-- The files below the working directory that are new or have other content than before. -/
def changes (before after : Directory) : List (PathName × ByteArray) :=
  let isChanged (file : Location × ByteArray) : Bool :=
    match before.content? file.1 with
    | some content => content.data != file.2.data
    | none => true
  let isBelow (file : Location × ByteArray) : Bool := after.home.isPrefixOf file.1
  (after.files.filter (fun file => isBelow file && isChanged file)).map
    (fun file => (.ofSegments (file.1.drop after.home.length), file.2))

theorem lookup_filter_of_ne {place other : Location} (h : other ≠ place)
    (files : List (Location × ByteArray)) :
    (files.filter (fun file => !decide (file.1 = place))).lookup other = files.lookup other := by
  induction files with
  | nil => rfl
  | cons file files ih =>
    obtain ⟨found, content⟩ := file
    by_cases hplace : found = place
    · subst hplace
      have hne : (other == found) = false := by simpa using h
      simpa [List.lookup_cons, hne] using ih
    · simp [List.lookup_cons, hplace, ih]

@[simp] theorem isFolder_put (directory : Directory) (place other : Location)
    (content : ByteArray) :
    (directory.put place content).isFolder other = directory.isFolder other := rfl

/-- A file that is put where no folder stands is there. -/
theorem node?_put_self {directory : Directory} {place : Location}
    (h : directory.node? place ≠ some .folder) (content : ByteArray) :
    (directory.put place content).node? place = some (.file content) := by
  have hfile : directory.isFolder place = false := by
    cases hfolder : directory.isFolder place with
    | false => rfl
    | true => exact absurd (by simp [node?, hfolder]) h
  rw [node?, isFolder_put, hfile]
  simp [put]

/-- Elsewhere nothing changes. -/
theorem node?_put_of_ne (directory : Directory) {place other : Location} (content : ByteArray)
    (h : other ≠ place) : (directory.put place content).node? other = directory.node? other := by
  have hne : (other == place) = false := by simpa using h
  have hlookup : (directory.put place content).files.lookup other =
      directory.files.lookup other := by
    simp only [put, List.lookup_cons, hne]
    exact lookup_filter_of_ne h directory.files
  rw [node?, node?, isFolder_put, hlookup]

end Directory

end NibbleAsm
