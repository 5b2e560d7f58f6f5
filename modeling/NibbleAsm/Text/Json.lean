import NibbleAsm.Numeral

/-!
# JSON text

Compact JSON: no blanks, members in the order given. Strings escape the double quote, the backslash
and the control characters below U+0020; every other character stands for itself.
-/
namespace NibbleAsm.Json

/-- A character inside a JSON string. -/
def escapedChar (c : Char) : List Char :=
  if c = '"' then ['\\', '"']
  else if c = '\\' then ['\\', '\\']
  else if c = '\x08' then ['\\', 'b']
  else if c = '\x0c' then ['\\', 'f']
  else if c = '\n' then ['\\', 'n']
  else if c = '\r' then ['\\', 'r']
  else if c = '\t' then ['\\', 't']
  else if c.toNat < 0x20 then ['\\', 'u'] ++ (Numeral.lowerHexAtLeast 4 c.toNat).toList
  else [c]

def string (text : String) : String :=
  "\"" ++ String.ofList (text.toList.flatMap escapedChar) ++ "\""

def natural (n : Nat) : String :=
  Numeral.decimal n

def boolean (b : Bool) : String :=
  if b then "true" else "false"

def null : String :=
  "null"

/-- An array of items that are JSON texts. -/
def array (items : List String) : String :=
  "[" ++ ",".intercalate items ++ "]"

/-- An object whose members have the given names and JSON texts. -/
def object (members : List (String × String)) : String :=
  "\x7b" ++ ",".intercalate (members.map (fun member => string member.1 ++ ":" ++ member.2)) ++
    "\x7d"

/-- A JSON text, or null where there is none. -/
def optional (item : Option String) : String :=
  item.getD null

end NibbleAsm.Json
