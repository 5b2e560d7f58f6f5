import NibbleAsm.InstructionSet.Mnemonic
import NibbleAsm.InstructionSet.ServiceCall
import NibbleAsm.Numeral.Literal
import NibbleAsm.Numeral.Shortest
import NibbleAsm.Text.Quoted

/-!
# Values of the instruction set as data

Other programs exchange units as numbers, and instructions, routines and operand kinds by
identifier. Reading such a value from a datum checks its type first and its value second.
-/
namespace NibbleAsm

/-- A piece of data in a self-describing format. What sequences and mappings contain is not looked
at. -/
inductive Datum where
  | null
  | boolean (b : Bool)
  | integer (n : Int)
  | real (negative : Bool) (size : Numeral.Binary64)
  | text (s : String)
  | sequence
  | mapping
  deriving DecidableEq

namespace Datum

/-- The number that a literal denotes, `none` if no floating-point number is large enough. -/
def ofLiteral? (literal : Numeral.Literal) : Option Datum :=
  match literal.integer? with
  | some n => some (integer n)
  | none => literal.size?.map (real literal.negative)

/-- A datum as messages name it. -/
def description : Datum → String
  | null => "null"
  | boolean b => "boolean `" ++ (if b then "true" else "false") ++ "`"
  | integer n => "integer `" ++ Numeral.signedDecimal n ++ "`"
  | real negative size => "floating point `" ++ (if negative then "-" else "") ++ size.text ++ "`"
  | text s => "string " ++ Text.quoted s
  | sequence => "sequence"
  | mapping => "map"

/-- Why a datum does not denote a value. -/
inductive Mismatch where
  /-- The datum has another type. -/
  | type (found : Datum) (expected : String)
  /-- The integer is outside the type read first. -/
  | integer (found : Int) (expected : String)
  /-- The number needs more than four bits. -/
  | unit (refused : Nibble.OutOfRange)
  /-- The text is none of the identifiers. -/
  | identifier (found : String) (known : List String)
  deriving DecidableEq

def Mismatch.message : Mismatch → String
  | type found expected => "invalid type: " ++ found.description ++ ", expected " ++ expected
  | integer found expected =>
    "invalid value: integer `" ++ Numeral.signedDecimal found ++ "`, expected " ++ expected
  | unit refused => refused.message
  | identifier found known =>
    "unknown variant `" ++ found ++ "`, expected one of " ++
      ", ".intercalate (known.map (fun name => "`" ++ name ++ "`"))

/-- Read a unit: a number that fits in a byte, and then in four bits. -/
def toNibble : Datum → Except Mismatch Nibble
  | integer n =>
    if 0 ≤ n ∧ n < 256 then
      match Nibble.check n.toNat with
      | .ok unit => .ok unit
      | .error refused => .error (.unit refused)
    else .error (.integer n "u8")
  | other => .error (.type other "u8")

/-- Read one of the given values by its identifier. -/
def toMember {α : Type} (members : List α) (identifier : α → String) : Datum → Except Mismatch α
  | text s =>
    match members.find? (fun member => identifier member == s) with
    | some member => .ok member
    | none => .error (.identifier s (members.map identifier))
  | other => .error (.type other "string or map")

def toMnemonic (datum : Datum) : Except Mismatch Mnemonic :=
  datum.toMember Mnemonic.all Mnemonic.identifier

def toServiceCall (datum : Datum) : Except Mismatch ServiceCall :=
  datum.toMember ServiceCall.all ServiceCall.identifier

def toOperandKind (datum : Datum) : Except Mismatch OperandKind :=
  datum.toMember OperandKind.all OperandKind.identifier

end Datum

end NibbleAsm
