import NibbleAsm.Text.Split

/-!
# Lines of a text

A line feed ends a line, together with a carriage return right before it. What stands behind the
last line feed is one more line if there is anything.
-/
namespace NibbleAsm.Text

/-- The pieces between line feeds. -/
def lines (text : List Char) : List (List Char) :=
  splitWhere (· == '\n') text

/-- A line that a line feed has ended, without the carriage return that belongs to the end. -/
def endedLine (line : List Char) : List Char :=
  if line.getLast? = some '\r' then line.dropLast else line

/-- The lines of a text. -/
def rows (text : String) : List String :=
  let pieces := lines text.toList
  (pieces.dropLast.map endedLine ++ pieces.getLast?.toList.filter (fun line => !line.isEmpty)).map
    String.ofList

end NibbleAsm.Text
