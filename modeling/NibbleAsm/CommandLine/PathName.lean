import NibbleAsm.Text.Split
import NibbleAsm.Text.Utf8

/-!
# Path names

A path name is a list of bytes whose segments are divided by slashes. Empty segments and single dots
do not count, except for a dot at the very beginning, which is kept when a path is printed. A path
that begins with a slash starts at the root.
-/
namespace NibbleAsm

/-- The bytes of a path name. -/
abbrev PathName := List UInt8

namespace PathName

/-- The byte between segments. -/
def slash : UInt8 := 0x2F

def dot : UInt8 := 0x2E

/-- The most bytes that a path name may have. -/
def greatestLength : Nat := 4095

/-- The most bytes that the name of a file or folder may have. -/
def greatestName : Nat := 255

/-- The path name as text, with replacements for what is not UTF-8. -/
def text (path : PathName) : String :=
  Utf8.lossy path

def ofText (text : String) : PathName :=
  Utf8.encode text

/-- All segments between slashes, empty ones included. -/
def segments (path : PathName) : List (List UInt8) :=
  Text.splitWhere (· == slash) path

/-- Segments with slashes between them. -/
def ofSegments (segments : List (List UInt8)) : PathName :=
  [slash].intercalate segments

/-- Whether a segment stays where it is. -/
def isTrivial (segment : List UInt8) : Bool :=
  segment == [] || segment == [dot]

/-- The segment is a name: it leads down from a folder. -/
structure IsName (segment : List UInt8) : Prop where
  nontrivial : isTrivial segment = false
  not_up : segment ≠ [dot, dot]

instance (segment : List UInt8) : Decidable (IsName segment) :=
  decidable_of_iff (isTrivial segment = false ∧ segment ≠ [dot, dot])
    ⟨fun h => ⟨h.1, h.2⟩, fun h => ⟨h.nontrivial, h.not_up⟩⟩

/-- Whether a path starts at the root. -/
def isAbsolute (path : PathName) : Bool :=
  path.head? == some slash

/-- Drop segments that stay where they are from the end of a reversed list, but not a leading one.
-/
def dropTrivial : List (List UInt8) → List (List UInt8)
  | [] => []
  | [first] => [first]
  | last :: before => if isTrivial last then dropTrivial before else last :: before

/-- The last segment that counts, and the segments before it with their trivial end dropped, in
order. -/
def splitLast (path : PathName) : List UInt8 × List (List UInt8) :=
  match dropTrivial path.segments.reverse with
  | [] => ([], [])
  | last :: before => (last, (dropTrivial before).reverse)

/-- The name of a file without its extension: what stands before the last dot, unless that is empty.
-/
def stem (name : List UInt8) : List UInt8 :=
  let extension := name.reverse.takeWhile (· != dot)
  let before := (name.reverse.drop (extension.length + 1)).reverse
  if before.isEmpty then name else before

/-- The text in front of the new extension of a segment. A segment that is no name, and a stem that
is not UTF-8, are replaced by `out`. -/
def newStem (segment : List UInt8) : String :=
  if IsName segment then (Utf8.decode? (stem segment)).getD "out" else "out"

/-- The path beside `path` whose name is its stem with another extension. -/
def withExtension (path : PathName) (extension : String) : PathName :=
  let (last, parent) := splitLast path
  ofSegments (parent ++ [Utf8.encode (newStem last ++ "." ++ extension)])

end PathName

end NibbleAsm
