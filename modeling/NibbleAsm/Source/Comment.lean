/-!
# Comments

A comment begins at the first `;` or `//` of a line, whichever comes first, and runs to the end of
the line. Nothing escapes a marker.
-/
namespace NibbleAsm.Comment

/-- The position of the first `;`. -/
def semicolon? (line : List Char) : Option Nat :=
  line.findIdx? (· == ';')

/-- The position of the first `//`, where the first character has the given position. -/
def slashesFrom (position : Nat) : List Char → Option Nat
  | [] => none
  | [_] => none
  | a :: b :: rest =>
    if a = '/' ∧ b = '/' then some position else slashesFrom (position + 1) (b :: rest)

/-- The position of the first `//`. -/
def slashes? (line : List Char) : Option Nat :=
  slashesFrom 0 line

/-- The position of the first marker of either kind. -/
def start? (line : List Char) : Option Nat :=
  match semicolon? line, slashes? line with
  | some a, some b => some (min a b)
  | some a, none => some a
  | none, b => b

/-- The line up to its first marker. -/
def strip (line : List Char) : List Char :=
  match start? line with
  | some position => line.take position
  | none => line

/-- The text of a line up to its first marker. -/
def stripText (line : String) : String :=
  String.ofList (strip line.toList)

/-- What is kept of a line is its beginning. -/
theorem strip_isPrefix (line : List Char) : strip line <+: line := by
  unfold strip
  split
  · exact List.take_prefix _ _
  · exact List.prefix_rfl

end NibbleAsm.Comment
