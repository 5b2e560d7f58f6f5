/-!
# Columns

Text is padded with blanks to a least width. Widths count characters.
-/
namespace NibbleAsm.Text

/-- Blanks that bring a text of length `used` to the given width. -/
def filler (width used : Nat) : String :=
  String.ofList (List.replicate (width - used) ' ')

/-- The text followed by blanks up to the given width. -/
def padRight (width : Nat) (text : String) : String :=
  text ++ filler width text.length

/-- The text preceded by blanks up to the given width. -/
def padLeft (width : Nat) (text : String) : String :=
  filler width text.length ++ text

end NibbleAsm.Text
