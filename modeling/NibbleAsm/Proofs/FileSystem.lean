import NibbleAsm.CommandLine.FileAccess
import Mathlib.Data.List.Basic

/-!
# File systems

What a run does to files is said of every file system that keeps three rules. Reading changes
nothing. Writing that fails changes nothing. Writing that succeeds replaces the whole content of the
file that the path then leads to, and no other file changes. Several paths may lead to one file, so
files are told apart by what identifies them and not by their paths.
-/
namespace NibbleAsm

/-- A file system with the states `σ` and the files `φ`. -/
structure FileSystem (σ φ : Type) where
  access : FileAccess (StateM σ)
  /-- The file that a path leads to. -/
  find? : σ → PathName → Option φ
  /-- The content of a file, if the file is there. -/
  content? : σ → φ → Option ByteArray

namespace FileSystem

variable {σ φ : Type} (system : FileSystem σ φ)

/-- What a path reads as. -/
def readAt (state : σ) (path : PathName) : Except FileError ByteArray :=
  ((system.access.read path).run state).1

/-- The content can be written to the path. -/
def Writable (state : σ) (path : PathName) (content : ByteArray) : Prop :=
  ((system.access.write path content).run state).1 = .ok ()

instance (state : σ) (path : PathName) (content : ByteArray) :
    Decidable (system.Writable state path content) :=
  inferInstanceAs (Decidable (_ = _))

/-- The path leads to a file with the content. -/
def Holds (state : σ) (path : PathName) (content : ByteArray) : Prop :=
  ∃ file, system.find? state path = some file ∧ system.content? state file = some content

/-- The path now leads to a file with the content, and no other file has changed. -/
def Replaced (before after : σ) (path : PathName) (content : ByteArray) : Prop :=
  ∃ file, system.find? after path = some file ∧ system.content? after file = some content ∧
    ∀ other, other ≠ file → system.content? after other = system.content? before other

theorem Replaced.holds {system : FileSystem σ φ} {before after : σ} {path : PathName}
    {content : ByteArray} (h : system.Replaced before after path content) :
    system.Holds after path content := by
  obtain ⟨file, hfind, hcontent, -⟩ := h
  exact ⟨file, hfind, hcontent⟩

/-- Reading changes nothing. Writing fails and changes nothing, or replaces the whole content. -/
structure Lawful : Prop where
  read : ∀ (state : σ) (path : PathName), ((system.access.read path).run state).2 = state
  write_error : ∀ {state : σ} {path : PathName} {content : ByteArray} {error : FileError},
    ((system.access.write path content).run state).1 = .error error →
      ((system.access.write path content).run state).2 = state
  write_ok : ∀ {state : σ} {path : PathName} {content : ByteArray},
    system.Writable state path content →
      system.Replaced state ((system.access.write path content).run state).2 path content

end FileSystem

end NibbleAsm
