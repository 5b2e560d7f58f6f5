import NibbleAsm.Numeral
import NibbleAsm.Text.CodeRange
import NibbleAsm.Text.DefaultIgnorable
import NibbleAsm.Text.GraphemeExtend
import NibbleAsm.Text.Unprintable

/-!
# Quoted text

Log lines and messages about data show text between double quotes. Backslash sequences stand for
quotes, backslashes, common controls, and every character that would not be seen on its own.
-/
namespace NibbleAsm.Text

/-- Whether a character is a halfwidth katakana sound mark. These two extend the character before
them and still take a cell of their own, so they are seen like any letter. -/
def isHalfwidthSoundMark (c : Char) : Bool :=
  decide (c = '\uff9e') || decide (c = '\uff9f')

/-- Whether a character attaches to the one before it, and so is not seen on its own. -/
def isAttached (c : Char) : Bool :=
  inRanges graphemeExtendRanges c && !isHalfwidthSoundMark c

/-- Whether a character is shown by its code point: it has no visible form of its own. -/
def needsCode (c : Char) : Bool :=
  isAttached c || inRanges defaultIgnorableRanges c || inRanges unprintableRanges c

/-- A character as it stands between quotes. -/
def quotedChar (c : Char) : String :=
  if c = '\x00' then "\\0"
  else if c = '\t' then "\\t"
  else if c = '\r' then "\\r"
  else if c = '\n' then "\\n"
  else if c = '"' then "\\\""
  else if c = '\\' then "\\\\"
  else if needsCode c then "\\u\x7b" ++ Numeral.lowerHexAtLeast 1 c.toNat ++ "\x7d"
  else String.singleton c

/-- The text between double quotes. -/
def quoted (text : String) : String :=
  "\"" ++ String.join (text.toList.map quotedChar) ++ "\""

end NibbleAsm.Text
