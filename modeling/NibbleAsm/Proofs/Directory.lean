import NibbleAsm.CommandLine.Directory
import NibbleAsm.Proofs.FileSystem
import NibbleAsm.Proofs.PathName

/-!
# Writing a file

Following a path visits folders only. A file that is put at a place where no folder stands is
therefore not on the way to any other place, and whatever led to a place before leads there again. A
path that can be written leads through folders to such a place, so afterwards it leads to what was
written, and nothing else has changed. A path that leads to a file ends in the name of the file,
because what it passed on the way down is a folder.
-/
namespace NibbleAsm

namespace Directory

variable {directory : Directory}

theorem bind_eq_ok_iff {α β : Type} {first : Except FileError α} {next : α → Except FileError β}
    {result : β} : (first >>= next) = .ok result ↔ ∃ a, first = .ok a ∧ next a = .ok result := by
  cases first <;> simp [bind, Except.bind]

/-- A test that gives no value comes before what follows it. -/
theorem test_bind_eq_ok_iff {α : Type} {test : Except FileError Unit}
    {next : Unit → Except FileError α} {result : α} :
    (test >>= next) = .ok result ↔ test = .ok () ∧ next () = .ok result := by
  rw [bind_eq_ok_iff]
  exact ⟨fun ⟨(), h⟩ => h, fun h => ⟨(), h⟩⟩

theorem checkLength_eq_ok_iff {limit : ℕ} {bytes : List UInt8} :
    checkLength limit bytes = .ok () ↔ bytes.length ≤ limit := by
  rw [checkLength]
  split_ifs with h
  · simp [Nat.not_le.mpr h]
  · simp [Nat.not_lt.mp h]

theorem checkPath_eq_ok_iff {path : PathName} :
    checkPath path = .ok () ↔ path ≠ [] ∧ path.length ≤ PathName.greatestLength := by
  rw [checkPath]
  split_ifs with h
  · simp_all
  · rw [checkLength_eq_ok_iff]
    simp_all

/-- A segment is followed from a folder that can be searched, if it is not too long. -/
theorem follow_cons_eq_ok_iff {place found : Location} {segment : List UInt8}
    {rest : List (List UInt8)} :
    directory.follow place (segment :: rest) = .ok found ↔
      directory.node? place = some .folder ∧ directory.search place segment = .ok () ∧
        segment.length ≤ PathName.greatestName ∧
        directory.follow (place.follow segment) rest = .ok found := by
  rw [follow]
  split <;> rename_i hnode
  · simp [hnode]
  · simp [hnode]
  · simp only [hnode, test_bind_eq_ok_iff, checkLength_eq_ok_iff, true_and]

/-- Following some segments and then one more ends with a step from a folder. -/
theorem follow_concat_eq_ok_iff {place found : Location} {segments : List (List UInt8)}
    {segment : List UInt8} :
    directory.follow place (segments ++ [segment]) = .ok found ↔
      ∃ folder, directory.follow place segments = .ok folder ∧
        directory.node? folder = some .folder ∧ directory.search folder segment = .ok () ∧
        segment.length ≤ PathName.greatestName ∧ folder.follow segment = found := by
  induction segments generalizing place with
  | nil =>
    rw [List.nil_append, follow_cons_eq_ok_iff]
    simp [follow]
  | cons first segments ih =>
    rw [List.cons_append, follow_cons_eq_ok_iff, ih]
    simp only [follow_cons_eq_ok_iff, and_assoc, exists_and_left]

/-- A file that stands where no folder stood is on no way. -/
theorem follow_put {place found target : Location} {segments : List (List UInt8)}
    (htarget : directory.node? target ≠ some .folder)
    (h : directory.follow place segments = .ok found) (content : ByteArray) :
    (directory.put target content).follow place segments = .ok found := by
  induction segments generalizing place with
  | nil => exact h
  | cons segment segments ih =>
    obtain ⟨hnode, hsearch, hlength, hrest⟩ := follow_cons_eq_ok_iff.mp h
    have hplace : place ≠ target := by
      rintro rfl
      exact htarget hnode
    rw [follow_cons_eq_ok_iff, node?_put_of_ne directory content hplace]
    exact ⟨hnode, hsearch, hlength, ih hrest⟩

/-- The path leads to the place, through folders. -/
def Denotes (directory : Directory) (path : PathName) (place : Location) : Prop :=
  directory.locate path = .ok place

theorem denotes_iff {path : PathName} {place : Location} :
    directory.Denotes path place ↔ path ≠ [] ∧ path.length ≤ PathName.greatestLength ∧
      directory.follow (directory.start path) path.segments = .ok place := by
  rw [Denotes, locate, test_bind_eq_ok_iff, checkPath_eq_ok_iff, and_assoc]

theorem Denotes.unique {path : PathName} {first second : Location}
    (hfirst : directory.Denotes path first) (hsecond : directory.Denotes path second) :
    first = second :=
  Except.ok.inj (hfirst.symm.trans hsecond)

theorem Denotes.put {path : PathName} {place target : Location} (h : directory.Denotes path place)
    (htarget : directory.node? target ≠ some .folder) (content : ByteArray) :
    (directory.put target content).Denotes path place := by
  obtain ⟨hne, hlength, hfollow⟩ := denotes_iff.mp h
  exact denotes_iff.mpr ⟨hne, hlength, follow_put htarget hfollow content⟩

/-- The path leads to a folder and names something in it, whether or not this is there. -/
structure Names (directory : Directory) (path : PathName) (folder : Location)
    (name : List UInt8) : Prop where
  length : path.length ≤ PathName.greatestLength
  segments : ∃ start, path.segments = start ++ [name] ∧
    directory.follow (directory.start path) start = .ok folder
  isFolder : directory.node? folder = some .folder
  searchable : directory.search folder name = .ok ()
  isName : PathName.IsName name
  short : name.length ≤ PathName.greatestName

theorem follow_of_isName {name : List UInt8} (h : PathName.IsName name) (folder : Location) :
    folder.follow name = folder.child name := by
  rw [Location.follow, if_neg (by simp [h.nontrivial]), if_neg h.not_up]

/-- A path that ends in a name leads to where it names something. -/
theorem denotes_iff_of_isName {path : PathName} {place : Location} {start : List (List UInt8)}
    {name : List UInt8} (hsegments : path.segments = start ++ [name])
    (hname : PathName.IsName name) :
    directory.Denotes path place ↔
      ∃ folder, directory.Names path folder name ∧ place = folder.child name := by
  rw [denotes_iff]
  constructor
  · rintro ⟨-, hlength, hfollow⟩
    rw [hsegments, follow_concat_eq_ok_iff] at hfollow
    obtain ⟨folder, hstart, hfolder, hsearch, hshort, hplace⟩ := hfollow
    rw [follow_of_isName hname] at hplace
    exact ⟨folder, ⟨hlength, ⟨start, hsegments, hstart⟩, hfolder, hsearch, hname, hshort⟩,
      hplace.symm⟩
  · rintro ⟨folder, hnames, rfl⟩
    obtain ⟨start', hsegments', hfollow⟩ := hnames.segments
    have hne : path ≠ [] := by
      rintro rfl
      have hlast := congrArg List.getLast? hsegments
      rw [List.getLast?_concat] at hlast
      exact hname.ne_nil (Option.some.inj hlast).symm
    refine ⟨hne, hnames.length, ?_⟩
    rw [hsegments', follow_concat_eq_ok_iff]
    exact ⟨folder, hfollow, hnames.isFolder, hnames.searchable, hnames.short,
      follow_of_isName hname folder⟩

theorem Names.denotes {path : PathName} {folder : Location} {name : List UInt8}
    (h : directory.Names path folder name) : directory.Denotes path (folder.child name) := by
  obtain ⟨start, hsegments, -⟩ := h.segments
  exact (denotes_iff_of_isName hsegments h.isName).mpr ⟨folder, h, rfl⟩

theorem not_folder_of_checkPlace {folder place : Location}
    (h : directory.checkPlace folder place = .ok ()) : directory.node? place ≠ some .folder := by
  intro hfolder
  rw [checkPlace, hfolder] at h
  cases h

/-- A path can be written if it names something that may be written. -/
theorem target_eq_ok_iff {path : PathName} {place : Location} :
    directory.target path = .ok place ↔
      ∃ folder name, directory.Names path folder name ∧ place = folder.child name ∧
        directory.checkPlace folder place = .ok () := by
  rw [target, test_bind_eq_ok_iff, checkPath_eq_ok_iff]
  constructor
  · rintro ⟨⟨-, hlength⟩, hfound⟩
    obtain ⟨folder, hfolder, hplaced⟩ := bind_eq_ok_iff.mp hfound
    clear hfound
    generalize (path.reverse.dropWhile (· == PathName.slash)).reverse = bare at hfolder hplaced
    split at hplaced
    · cases hplaced
    · cases hplaced
    rename_i hnode
    split at hplaced
    · cases hplaced
    rename_i last hlast
    obtain ⟨hsearch, hchosen⟩ := test_bind_eq_ok_iff.mp hplaced
    split_ifs at hchosen with hdenotes
    simp only [test_bind_eq_ok_iff, checkLength_eq_ok_iff] at hchosen
    obtain ⟨hshort, hcheck, hplace⟩ := hchosen
    obtain rfl := Except.ok.inj hplace
    -- The path is its own bare form and ends in a name.
    simp only [not_or, not_not] at hdenotes
    obtain ⟨rfl, hname⟩ := hdenotes
    have hsegments := (List.dropLast_append_getLast? last hlast).symm
    exact ⟨folder, last, ⟨hlength, ⟨_, hsegments, hfolder⟩, hnode, hsearch, hname, hshort⟩, rfl,
      hcheck⟩
  · rintro ⟨folder, name, hnames, rfl, hcheck⟩
    obtain ⟨start, hsegments, hfollow⟩ := hnames.segments
    obtain ⟨hne, hlength, -⟩ := denotes_iff.mp hnames.denotes
    have hbare := PathName.reverse_dropWhile_slash hsegments hnames.isName.ne_nil
    refine ⟨⟨hne, hlength⟩, ?_⟩
    simp only [hbare, hsegments, List.dropLast_concat, List.getLast?_concat]
    refine bind_eq_ok_iff.mpr ⟨folder, hfollow, ?_⟩
    simp only [hnames.isFolder, ne_eq, not_true, hnames.isName, or_self, if_false,
      test_bind_eq_ok_iff, checkLength_eq_ok_iff, and_true]
    exact ⟨hnames.searchable, hnames.short, hcheck⟩

/-- A path that can be written leads to where it is written, where no folder stands. -/
theorem denotes_of_target {path : PathName} {place : Location}
    (h : directory.target path = .ok place) :
    directory.Denotes path place ∧ directory.node? place ≠ some .folder := by
  obtain ⟨folder, name, hnames, rfl, hcheck⟩ := target_eq_ok_iff.mp h
  exact ⟨hnames.denotes, not_folder_of_checkPlace hcheck⟩

theorem content?_eq_some_iff {place : Location} {content : ByteArray} :
    directory.content? place = some content ↔ directory.node? place = some (.file content) := by
  rw [content?]
  cases directory.node? place with
  | none => simp
  | some node => cases node <;> simp

/-- The place of the file that a path leads to. -/
def find? (directory : Directory) (path : PathName) : Option Location :=
  match directory.locate path with
  | .ok place => if (directory.content? place).isSome then some place else none
  | .error _ => none

theorem find?_of_denotes {path : PathName} {place : Location} {content : ByteArray}
    (h : directory.Denotes path place) (hcontent : directory.content? place = some content) :
    directory.find? path = some place := by
  rw [find?, h]
  simp [hcontent]

/-- Directory states are the states of a file system whose files have one place each. -/
def fileSystem : FileSystem Directory Location where
  access := access
  find? := find?
  content? := content?

theorem run_write_of_target {path : PathName} {place : Location}
    (h : directory.target path = .ok place) (content : ByteArray) :
    (fileSystem.access.write path content).run directory =
      (.ok (), directory.put place content) := by
  change directory.write path content = _
  rw [write, h]

theorem run_write_of_no_target {path : PathName} {error : FileError}
    (h : directory.target path = .error error) (content : ByteArray) :
    (fileSystem.access.write path content).run directory = (.error error, directory) := by
  change directory.write path content = _
  rw [write, h]

/-- What can be written has a place. -/
theorem exists_target_of_writable {path : PathName} {content : ByteArray}
    (h : fileSystem.Writable directory path content) :
    ∃ place, directory.target path = .ok place := by
  cases htarget : directory.target path with
  | error error =>
    rw [FileSystem.Writable, run_write_of_no_target htarget] at h
    cases h
  | ok place => exact ⟨place, rfl⟩

/-- Writing replaces one file or changes nothing. -/
theorem lawful_fileSystem : fileSystem.Lawful where
  read := fun _ _ => rfl
  write_error := by
    intro directory path content error h
    cases htarget : directory.target path with
    | error error => rw [run_write_of_no_target htarget]
    | ok place =>
      rw [run_write_of_target htarget] at h
      cases h
  write_ok := by
    intro directory path content h
    obtain ⟨place, htarget⟩ := exists_target_of_writable h
    obtain ⟨hdenotes, hnot⟩ := denotes_of_target htarget
    have hcontent : (directory.put place content).content? place = some content :=
      content?_eq_some_iff.mpr (node?_put_self hnot content)
    rw [run_write_of_target htarget]
    refine ⟨place, find?_of_denotes (hdenotes.put hnot content) hcontent, hcontent, ?_⟩
    intro other hother
    change (directory.put place content).content? other = directory.content? other
    rw [content?, content?, node?_put_of_ne directory content hother]

/-- On the way down to the place there are folders. -/
def Rooted (directory : Directory) (place : Location) : Prop :=
  ∀ before after, place = before ++ after → after ≠ [] → directory.node? before = some .folder

/-- A segment that is followed from a folder leads down from folders again. -/
theorem Rooted.follow {place : Location} (h : directory.Rooted place)
    (hnode : directory.node? place = some .folder) (segment : List UInt8) :
    directory.Rooted (place.follow segment) := by
  rw [Location.follow]
  split_ifs with htrivial hup
  · exact h
  · intro before after hplace hafter
    rw [Location.parent] at hplace
    rcases List.eq_nil_or_concat' place with rfl | ⟨start, last, rfl⟩
    · exact absurd (List.append_eq_nil_iff.mp hplace.symm).2 hafter
    · rw [List.dropLast_concat] at hplace
      exact h before (after ++ [last]) (by simp [hplace]) (by simp)
  · intro before after hplace hafter
    obtain ⟨start, last, rfl⟩ := (List.eq_nil_or_concat' after).resolve_left hafter
    rw [Location.child, ← List.append_assoc] at hplace
    obtain ⟨rfl, -⟩ := List.append_inj' hplace rfl
    by_cases hstart : start = []
    · simpa [hstart] using hnode
    · exact h before start rfl hstart

end Directory

end NibbleAsm
