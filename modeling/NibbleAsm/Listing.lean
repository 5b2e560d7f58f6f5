import NibbleAsm.Assembly
import NibbleAsm.Text.Column
import NibbleAsm.Text.Rows

/-!
# Listings

An instruction is printed in source form, with the target of a jump to a label in parentheses. A
listing has one line per instruction: offset, units, source form and token index. A dump shows the
code, the labels and the listing together.
-/
namespace NibbleAsm

/-- An operand in source form; empty for none. -/
def Operand.text : Operand → String
  | absent => ""
  | immediate value => value.text
  | jump target (some label) _ => label ++ " (@" ++ Numeral.decimal target ++ ")"
  | jump target none _ => Numeral.hexAtLeast 2 target
  | service call => call.spelling

/-- An instruction in source form. -/
def Instruction.text (instruction : Instruction) : String :=
  let operand := instruction.operand.text
  if operand.isEmpty then instruction.mnemonic.spelling
  else instruction.mnemonic.spelling ++ " " ++ operand

/-- The label table as text: one `name: address` per line, by address and then by name. -/
def LabelTable.textLines (table : LabelTable) : List String :=
  table.byAddress.map (fun entry => entry.1 ++ ": " ++ Numeral.decimal entry.2)

def LabelTable.text (table : LabelTable) : String :=
  "\n".intercalate table.textLines

namespace Listing

/-- The width of the column of units: that of the longest instruction. -/
def unitsColumn : Nat :=
  OperandKind.jumpTarget.unitCount

/-- The width of the column of source forms. -/
def textColumn : Nat := 16

/-- The line of one instruction. -/
def line (instruction : Instruction) : String :=
  Numeral.hexAtLeast 2 instruction.offset ++ ": " ++
    Text.padRight unitsColumn (Nibble.digitText instruction.units) ++ " " ++
    Text.padRight textColumn instruction.text ++ " ; token " ++ Numeral.decimal instruction.index

def lines (assembly : Assembly) : List String :=
  assembly.trace.map line

/-- The lines of all instructions, without a final line feed. -/
def text (assembly : Assembly) : String :=
  "\n".intercalate (lines assembly)

/-- The lines of a dump: code, labels and listing under their headings. The labels and the listing
are indented line by line. -/
def dumpLines (assembly : Assembly) : List String :=
  ["code: " ++ Nibble.digitText assembly.codes, "labels:"] ++
    (Text.rows assembly.labels.text).map (fun line => "  " ++ line) ++
    ["trace:"] ++ (Text.rows (text assembly)).map (fun line => "  " ++ line)

/-- A dump, each line ended by a line feed. -/
def dump (assembly : Assembly) : String :=
  String.join ((dumpLines assembly).map (fun line => line ++ "\n"))

end Listing

end NibbleAsm
