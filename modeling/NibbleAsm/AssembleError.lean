import NibbleAsm.Numeral

/-!
# Assembly errors

Assembly stops at its first error. The error names the instruction that could not be assembled, by
token index and text, and the source line for reports about a file.
-/
namespace NibbleAsm

namespace AssembleError

/-- Why an instruction could not be assembled. -/
inductive Cause where
  /-- The instruction takes an operand and is the last token. -/
  | truncatedOperand
  /-- The operand is not a hexadecimal number. -/
  | invalidNumeral (operand : String)
  /-- The operand denotes a value above the largest one accepted. -/
  | operandOutOfRange (operand : String) (max : Nat)
  /-- The jump operand is neither a number nor a declared label. -/
  | undefinedLabel (operand : String)
  /-- The operand names no service routine. -/
  | undefinedServiceCall (operand : String)
  /-- The token names no instruction. -/
  | undefinedMnemonic
  deriving DecidableEq

namespace Cause

def message : Cause → String
  | truncatedOperand => "operand required, end of token stream reached"
  | invalidNumeral operand => "operand `" ++ operand ++ "` is not a hexadecimal number"
  | operandOutOfRange operand max =>
    "operand `" ++ operand ++ "` out of range (0x0-0x" ++ Numeral.hex max ++ ")"
  | undefinedLabel operand => "undefined label `" ++ operand ++ "`"
  | undefinedServiceCall operand => "undefined service call `" ++ operand ++ "`"
  | undefinedMnemonic => "undefined mnemonic"

/-- The operand text that the cause is about. -/
def operand? : Cause → Option String
  | truncatedOperand => none
  | invalidNumeral operand => some operand
  | operandOutOfRange operand _ => some operand
  | undefinedLabel operand => some operand
  | undefinedServiceCall operand => some operand
  | undefinedMnemonic => none

/-- The largest value accepted, where a value above it is the cause. -/
def max? : Cause → Option Nat
  | operandOutOfRange _ max => some max
  | _ => none

end Cause

end AssembleError

/-- The first problem of a program. -/
structure AssembleError where
  cause : AssembleError.Cause
  /-- The index of the instruction's token. -/
  index : Nat
  /-- The text of the instruction's token. -/
  token : String
  /-- The line of the instruction's token. -/
  line : Nat
  deriving DecidableEq

namespace AssembleError

def message (error : AssembleError) : String :=
  "token " ++ Numeral.decimal error.index ++ " `" ++ error.token ++ "`: " ++ error.cause.message

/-- The message for a report about a file. -/
def messageIn (file : String) (error : AssembleError) : String :=
  file ++ ":" ++ Numeral.decimal error.line ++ ": error: " ++ error.message

end AssembleError

end NibbleAsm
