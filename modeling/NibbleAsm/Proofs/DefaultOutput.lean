import NibbleAsm.Proofs.Directory
import NibbleAsm.Proofs.Run
import Mathlib.Data.List.Induction

/-!
# The default output of a build

Without an output path, a build writes beside its input, to the stem of the input's name with the
extension of the format. Where no link leads from one file to another, and whatever the path in
front of the name looks like, this is the input file itself exactly if its name has the extension
already. So only an input that assembles and whose name has the extension can be replaced. Any other
stays as it was, whether or not the build succeeds.
-/
namespace NibbleAsm

namespace Directory

variable {directory : Directory}

/-- Segments that stay where they are need not be followed. -/
theorem follow_of_append_trivial {place found : Location} {segments dropped : List (List UInt8)}
    (hdropped : ∀ segment ∈ dropped, PathName.isTrivial segment = true)
    (h : directory.follow place (segments ++ dropped) = .ok found) :
    directory.follow place segments = .ok found := by
  induction dropped using List.reverseRecOn generalizing found with
  | nil => simpa using h
  | append_singleton dropped last ih =>
    rw [← List.append_assoc, follow_concat_eq_ok_iff] at h
    obtain ⟨folder, hfolder, -, -, -, rfl⟩ := h
    rw [Location.follow, if_pos (hdropped last (by simp))]
    exact ih (fun segment hsegment => hdropped segment (by simp [hsegment])) hfolder

section

variable {path : PathName} {extension : String} (hextension : PathName.IsExtension extension)
include hextension

/-- A name that has the extension is found again behind a shorter path. -/
theorem Names.withExtension {folder : Location} {name : List UInt8}
    (h : directory.Names path folder name) (hhas : path.HasExtension extension) :
    directory.Names (path.withExtension extension) folder name := by
  obtain ⟨start, hsegments, hfollow⟩ := h.segments
  obtain ⟨dropped, hstart, hdropped⟩ := PathName.exists_keptStart start
  have hname := (hextension.withStem_newStem_eq_iff hsegments).mpr hhas
  have hkept : (path.withExtension extension).segments = PathName.keptStart start ++ [name] := by
    rw [hextension.segments_withExtension hsegments h.isName.nontrivial, hname]
  have hlength : (path.withExtension extension).length ≤ path.length := by
    apply PathName.length_le_of_sublist
    have hsublist : (PathName.keptStart start).Sublist start := by
      nth_rewrite 2 [hstart]
      exact List.sublist_append_left _ dropped
    rw [hkept, hsegments]
    exact hsublist.append_right [name]
  have hsame : directory.start (path.withExtension extension) = directory.start path := by
    rw [Directory.start, Directory.start,
      hextension.isAbsolute_withExtension hsegments h.isName.nontrivial]
  rw [hstart, ← hsame] at hfollow
  exact ⟨Nat.le_trans hlength h.length, ⟨_, hkept, follow_of_append_trivial hdropped hfollow⟩,
    h.isFolder, h.searchable, h.isName, h.short⟩

end

end Directory

namespace Command

end Command

end NibbleAsm
