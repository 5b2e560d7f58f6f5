import NibbleAsm.Source.Comment
import NibbleAsm.Text.Rows

/-!
# Source lines

A source is split at line feeds, so it always has at least one line. Lines are numbered from one and
stripped of their comments. A carriage return stays in its line, where it separates words.
-/
namespace NibbleAsm

/-- A line without its comment. -/
structure SourceLine where
  text : String
  number : Nat
  deriving DecidableEq

/-- The numbered lines of a source, each without its comment. -/
def SourceLine.ofSource (source : String) : List SourceLine :=
  ((Text.lines source.toList).zipIdx 1).map
    (fun (line, number) => ⟨String.ofList (Comment.strip line), number⟩)

end NibbleAsm
