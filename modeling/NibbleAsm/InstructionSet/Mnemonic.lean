import NibbleAsm.Nibble

/-!
# Instructions

The sixteen instructions, their opcodes, and what follows an opcode in the code. An instruction has
two names: the spelling used in sources and the identifier used when it is exchanged as data.
-/
namespace NibbleAsm

/-- What follows an opcode in the code. -/
inductive OperandKind where
  /-- Nothing. -/
  | none
  /-- One unit with an immediate value. -/
  | nibble
  /-- Two units with a split jump address. -/
  | jumpTarget
  /-- One unit that selects a service routine. -/
  | serviceCall
  deriving DecidableEq

namespace OperandKind

def all : List OperandKind := [none, nibble, jumpTarget, serviceCall]

/-- The number of units of an instruction with this operand, its opcode included. -/
def unitCount : OperandKind → Nat
  | none => 1
  | nibble => 2
  | jumpTarget => 3
  | serviceCall => 2

/-- The number of tokens of an instruction with this operand, its name included. -/
def tokenCount : OperandKind → Nat
  | none => 1
  | _ => 2

def identifier : OperandKind → String
  | none => "None"
  | nibble => "Nibble"
  | jumpTarget => "JumpTarget"
  | serviceCall => "ServiceCall"

end OperandKind

/-- The sixteen instructions, in opcode order. -/
inductive Mnemonic where
  /-- Read the keypad into A. -/
  | ka
  /-- Write A to the numeric display. -/
  | ao
  /-- Exchange A with B and Y with Z. -/
  | ch
  /-- Exchange A with Y. -/
  | cy
  /-- Store A to memory at Y. -/
  | am
  /-- Load A from memory at Y. -/
  | ma
  /-- Add memory at Y to A. -/
  | mPlus
  /-- Subtract A from memory at Y. -/
  | mMinus
  /-- Load an immediate into A. -/
  | tia
  /-- Add an immediate to A. -/
  | aia
  /-- Load an immediate into Y. -/
  | tiy
  /-- Add an immediate to Y. -/
  | aiy
  /-- Compare A with an immediate. -/
  | cia
  /-- Compare Y with an immediate. -/
  | ciy
  /-- Call a service routine. -/
  | cal
  /-- Jump if the flag is set. -/
  | jump
  deriving DecidableEq

namespace Mnemonic

/-- Every instruction, in opcode order. -/
def all : List Mnemonic :=
  [ka, ao, ch, cy, am, ma, mPlus, mMinus, tia, aia, tiy, aiy, cia, ciy, cal, jump]

def opcode : Mnemonic → Nibble
  | ka => .truncate 0x0
  | ao => .truncate 0x1
  | ch => .truncate 0x2
  | cy => .truncate 0x3
  | am => .truncate 0x4
  | ma => .truncate 0x5
  | mPlus => .truncate 0x6
  | mMinus => .truncate 0x7
  | tia => .truncate 0x8
  | aia => .truncate 0x9
  | tiy => .truncate 0xA
  | aiy => .truncate 0xB
  | cia => .truncate 0xC
  | ciy => .truncate 0xD
  | cal => .truncate 0xE
  | jump => .truncate 0xF

/-- The instruction of an opcode. Every opcode is assigned. -/
def ofOpcode (code : Nibble) : Mnemonic :=
  match code.val with
  | 0x0 => ka
  | 0x1 => ao
  | 0x2 => ch
  | 0x3 => cy
  | 0x4 => am
  | 0x5 => ma
  | 0x6 => mPlus
  | 0x7 => mMinus
  | 0x8 => tia
  | 0x9 => aia
  | 0xA => tiy
  | 0xB => aiy
  | 0xC => cia
  | 0xD => ciy
  | 0xE => cal
  | _ => jump

@[simp] theorem ofOpcode_opcode (m : Mnemonic) : ofOpcode m.opcode = m := by
  cases m <;> rfl

@[simp] theorem opcode_ofOpcode (code : Nibble) : (ofOpcode code).opcode = code := by
  revert code
  decide

/-- The operand that the instruction takes. -/
def operandKind : Mnemonic → OperandKind
  | ka | ao | ch | cy | am | ma | mPlus | mMinus => .none
  | tia | aia | tiy | aiy | cia | ciy => .nibble
  | cal => .serviceCall
  | jump => .jumpTarget

/-- The instruction's name in sources. -/
def spelling : Mnemonic → String
  | ka => "KA"
  | ao => "AO"
  | ch => "CH"
  | cy => "CY"
  | am => "AM"
  | ma => "MA"
  | mPlus => "M+"
  | mMinus => "M-"
  | tia => "TIA"
  | aia => "AIA"
  | tiy => "TIY"
  | aiy => "AIY"
  | cia => "CIA"
  | ciy => "CIY"
  | cal => "CAL"
  | jump => "JUMP"

/-- The instruction's name as data. -/
def identifier : Mnemonic → String
  | ka => "Ka"
  | ao => "Ao"
  | ch => "Ch"
  | cy => "Cy"
  | am => "Am"
  | ma => "Ma"
  | mPlus => "MPlus"
  | mMinus => "MMinus"
  | tia => "Tia"
  | aia => "Aia"
  | tiy => "Tiy"
  | aiy => "Aiy"
  | cia => "Cia"
  | ciy => "Ciy"
  | cal => "Cal"
  | jump => "Jump"

/-- The instruction with the given spelling. Case matters. -/
def ofSpelling? (text : String) : Option Mnemonic :=
  all.find? (fun m => m.spelling == text)

theorem mem_all (m : Mnemonic) : m ∈ all := by
  cases m <;> decide

theorem spelling_of_ofSpelling? {text : String} {m : Mnemonic} (h : ofSpelling? text = some m) :
    m.spelling = text := by
  simpa using List.find?_some h

@[simp] theorem ofSpelling?_spelling (m : Mnemonic) : ofSpelling? m.spelling = some m := by
  cases m <;> decide

end Mnemonic

end NibbleAsm
