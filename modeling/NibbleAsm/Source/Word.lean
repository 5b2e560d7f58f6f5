import NibbleAsm.Text.CodeRange
import NibbleAsm.Text.Split

/-!
# Words

A line consists of words between separators. Separators are the Unicode white space characters other
than the next-line control, together with the byte-order mark, so a source saved with a byte-order
mark reads like one without. A word that ends in a colon declares a label.
-/
namespace NibbleAsm

/-- The characters of a word. -/
abbrev Word := List Char

namespace Word

/-- Code points of the Unicode white space characters. -/
def whiteSpaceRanges : List (Nat × Nat) :=
  [(0x9, 0xD), (0x20, 0x20), (0x85, 0x85), (0xA0, 0xA0), (0x1680, 0x1680), (0x2000, 0x200A),
    (0x2028, 0x2029), (0x202F, 0x202F), (0x205F, 0x205F), (0x3000, 0x3000)]

def byteOrderMark : Char := '\uFEFF'

def nextLine : Char := '\u0085'

/-- Whether a character separates words. -/
def isSeparator (c : Char) : Bool :=
  c == byteOrderMark || (Text.inRanges whiteSpaceRanges c && c != nextLine)

/-- The text contains no separator. -/
def SeparatorFree (text : List Char) : Prop :=
  ∀ c ∈ text, isSeparator c = false

instance (text : List Char) : Decidable (SeparatorFree text) :=
  List.decidableBAll (fun c => isSeparator c = false) text

/-- The longest runs of characters that are no separators, from left to right. -/
def ofLine (line : List Char) : List Word :=
  (Text.splitWhere isSeparator line).filter (fun word => !word.isEmpty)

/-- The name that a word declares: all of it but a final colon. -/
def declaredName? (word : Word) : Option String :=
  if word.getLast? = some ':' then some (String.ofList word.dropLast) else none

theorem ne_nil_of_mem_ofLine {line : List Char} {word : Word} (h : word ∈ ofLine line) :
    word ≠ [] := by
  have hne := (List.mem_filter.mp h).2
  simpa using hne

/-- A word contains no separator. -/
theorem separatorFree_of_mem_ofLine {line : List Char} {word : Word} (h : word ∈ ofLine line) :
    SeparatorFree word := by
  intro c hc
  exact Text.cut_eq_false_of_mem_splitWhere (List.mem_filter.mp h).1 hc

end Word

end NibbleAsm
