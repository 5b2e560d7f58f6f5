import NibbleAsm.AssembleError
import NibbleAsm.Instruction
import NibbleAsm.TokenStream

/-!
# Encoding

The second pass walks over the tokens. The next token must name an instruction, which takes the
token after it as its operand if it has one. A number always denotes itself; only a jump operand
that is no number is looked up among the labels. The walk ends with the tokens or at the first
error. What was assembled before an error is kept for the record of the run, but it is not the
result.
-/
namespace NibbleAsm

open AssembleError

namespace Operand

/-- Read an immediate operand. -/
def readImmediate (text : String) : Except Cause Operand :=
  match Numeral.readHex? text with
  | none => .error (.invalidNumeral text)
  | some value =>
    match Nibble.ofNat? value with
    | some unit => .ok (immediate unit)
    | none => .error (.operandOutOfRange text Nibble.max.val)

/-- Split a target, which must not be above the largest value accepted. -/
def ofTarget (text : String) (label : Option String) (target max : Nat) : Except Cause Operand :=
  match JumpAddress.split target with
  | .ok units => .ok (jump target label units)
  | .error _ => .error (.operandOutOfRange text max)

/-- Read a jump operand: a number, or else a label. -/
def readJump (labels : LabelTable) (text : String) : Except Cause Operand :=
  match Numeral.readHex? text with
  | some target =>
    if target ≤ JumpAddress.immediateMax then
      ofTarget text none target JumpAddress.immediateMax
    else .error (.operandOutOfRange text JumpAddress.immediateMax)
  | none =>
    match labels.find? text with
    | some target => ofTarget text (some text) target JumpAddress.max
    | none => .error (.undefinedLabel text)

/-- Read the name of a service routine. -/
def readService (text : String) : Except Cause Operand :=
  match ServiceCall.ofSpelling? text with
  | some call => .ok (service call)
  | none => .error (.undefinedServiceCall text)

/-- Take the next token as an operand. -/
def takeWith (read : String → Except Cause Operand) (cursor : Cursor) :
    Except Cause (Operand × Cursor) :=
  match cursor.advance with
  | (none, _) => .error .truncatedOperand
  | (some (_, token), next) => (read token.text).map (fun operand => (operand, next))

/-- Take the operand of the given kind, if there is one to take. -/
def take (labels : LabelTable) (kind : OperandKind) (cursor : Cursor) :
    Except Cause (Operand × Cursor) :=
  match kind with
  | .none => .ok (absent, cursor)
  | .nibble => takeWith readImmediate cursor
  | .jumpTarget => takeWith (readJump labels) cursor
  | .serviceCall => takeWith readService cursor

theorem unread_le_of_takeWith {read : String → Except Cause Operand} {cursor next : Cursor}
    {operand : Operand} (h : takeWith read cursor = .ok (operand, next)) :
    next.unread ≤ cursor.unread := by
  unfold takeWith at h
  split at h
  · cases h
  · rename_i index token after hadvance
    cases hread : read token.text with
    | error cause => simp [hread, Except.map] at h
    | ok value =>
      simp only [hread, Except.map, Except.ok.injEq, Prod.mk.injEq] at h
      obtain ⟨-, rfl⟩ := h
      exact Nat.le_of_lt (Cursor.unread_lt hadvance)

/-- Taking an operand never gives back tokens. -/
theorem unread_le {labels : LabelTable} {kind : OperandKind} {cursor next : Cursor}
    {operand : Operand} (h : take labels kind cursor = .ok (operand, next)) :
    next.unread ≤ cursor.unread := by
  cases kind with
  | none =>
    simp only [take, Except.ok.injEq, Prod.mk.injEq] at h
    obtain ⟨-, rfl⟩ := h
    exact Nat.le_refl _
  | nibble => exact unread_le_of_takeWith h
  | jumpTarget => exact unread_le_of_takeWith h
  | serviceCall => exact unread_le_of_takeWith h

end Operand

/-- Assemble the instruction named by a token, whose operand is read from the cursor. -/
def Instruction.take (labels : LabelTable) (offset index : Nat) (token : Token) (cursor : Cursor) :
    Except AssembleError (Instruction × Cursor) :=
  match Mnemonic.ofSpelling? token.text with
  | none => .error ⟨.undefinedMnemonic, index, token.text, token.line⟩
  | some mnemonic =>
    match Operand.take labels mnemonic.operandKind cursor with
    | .error cause => .error ⟨cause, index, token.text, token.line⟩
    | .ok (operand, next) => .ok (⟨index, offset, mnemonic, mnemonic.opcode, operand⟩, next)

theorem Instruction.unread_le {labels : LabelTable} {offset index : Nat} {token : Token}
    {cursor next : Cursor} {instruction : Instruction}
    (h : Instruction.take labels offset index token cursor = .ok (instruction, next)) :
    next.unread ≤ cursor.unread := by
  unfold Instruction.take at h
  split at h
  · cases h
  · split at h
    · cases h
    · rename_i hoperand
      simp only [Except.ok.injEq, Prod.mk.injEq] at h
      obtain ⟨-, rfl⟩ := h
      exact Operand.unread_le hoperand

/-- The code units and the instructions assembled so far. -/
structure Output where
  codes : Array Nibble
  trace : Array Instruction
  deriving DecidableEq

namespace Output

def empty : Output :=
  ⟨#[], #[]⟩

/-- Add an instruction and its units. -/
def push (output : Output) (instruction : Instruction) : Output :=
  ⟨output.codes ++ instruction.units, output.trace.push instruction⟩

end Output

/-- What was assembled, and the error that stopped the walk, if any. -/
structure Walk where
  output : Output
  failure : Option AssembleError
  deriving DecidableEq

/-- Assemble from a cursor on, behind what is there already. The next unit has its place in the code
as its offset. -/
def Walk.ofCursor (labels : LabelTable) (output : Output) (cursor : Cursor) : Walk :=
  match _ : cursor.advance with
  | (none, _) => ⟨output, none⟩
  | (some (index, token), after) =>
    match _ : Instruction.take labels output.codes.size index token after with
    | .error error => ⟨output, some error⟩
    | .ok (instruction, next) => Walk.ofCursor labels (output.push instruction) next
termination_by cursor.unread
decreasing_by
  exact Nat.lt_of_le_of_lt (Instruction.unread_le ‹_›) (Cursor.unread_lt ‹_›)

/-- The code units of a program and its assembled instructions. -/
structure Encoded where
  codes : List Nibble
  trace : List Instruction
  deriving DecidableEq

/-- The instructions assembled, also before an error. -/
def Walk.trace (walk : Walk) : List Instruction :=
  walk.output.trace.toList

/-- The result of a walk: all that was assembled, or its error. -/
def Walk.result (walk : Walk) : Except AssembleError Encoded :=
  match walk.failure with
  | some error => .error error
  | none => .ok ⟨walk.output.codes.toList, walk.trace⟩

namespace TokenStream

/-- Assemble from the first token. -/
def walk (stream : TokenStream) : Walk :=
  Walk.ofCursor stream.labels .empty (.start stream.tokens)

/-- The code units and instructions of a token stream, or the first error. -/
def encode (stream : TokenStream) : Except AssembleError Encoded :=
  stream.walk.result

end TokenStream

end NibbleAsm
