import NibbleAsm.InstructionSet.JumpAddress
import NibbleAsm.InstructionSet.Mnemonic
import NibbleAsm.InstructionSet.ServiceCall

/-!
# Assembled instructions

An assembled instruction records where it stands among the tokens and among the code units. The two
places drift apart after a jump, which is two tokens and three units.
-/
namespace NibbleAsm

/-- The operand of an assembled instruction. -/
inductive Operand where
  /-- The instruction takes no operand. -/
  | absent
  | immediate (value : Nibble)
  /-- A token address, the label that named it, if any, and its two units. -/
  | jump (target : Nat) (label : Option String) (units : JumpAddress.Units)
  | service (call : ServiceCall)
  deriving DecidableEq

namespace Operand

/-- The code units of an operand. -/
def units : Operand → List Nibble
  | absent => []
  | immediate value => [value]
  | jump _ _ units => [units.high, units.low]
  | service call => [call.code]

/-- The address that an operand jumps to. -/
def target? : Operand → Option Nat
  | jump target _ _ => some target
  | _ => none

/-- The routine that an operand selects. -/
def service? : Operand → Option ServiceCall
  | service call => some call
  | _ => none

end Operand

/-- An assembled instruction. -/
structure Instruction where
  /-- The index of its name among the tokens. -/
  index : Nat
  /-- The index of its opcode among the code units. -/
  offset : Nat
  mnemonic : Mnemonic
  opcode : Nibble
  operand : Operand
  deriving DecidableEq

/-- The code units of an instruction, opcode first. -/
def Instruction.units (instruction : Instruction) : List Nibble :=
  instruction.opcode :: instruction.operand.units

end NibbleAsm
