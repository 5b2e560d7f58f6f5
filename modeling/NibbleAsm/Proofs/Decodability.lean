import NibbleAsm.Proofs.Acceptance

/-!
# Machine code can be decoded

The opcode says how many units follow, and these units determine the operand up to the name of a
label. The decoder reads code from its beginning on and inverts the second pass, so a program whose
code begins with the code of another also begins with its instructions.
-/
namespace NibbleAsm

/-- The operand without the name of its label. -/
def Operand.eraseLabel : Operand → Operand
  | .jump target _ units => .jump target none units
  | operand => operand

namespace Instruction

/-- The instruction without the name of its operand's label. -/
def eraseLabel (instruction : Instruction) : Instruction :=
  { instruction with operand := instruction.operand.eraseLabel }

/-- Whether an operand stands behind the instruction's name. -/
def takesOperand (instruction : Instruction) : Bool :=
  instruction.mnemonic.operandKind != .none

/-- Read code units back as instructions, the first of them at the given places. An opcode without
all of its operand ends the reading. -/
def decodeFrom (index offset : ℕ) : List Nibble → List Instruction
  | [] => []
  | opcode :: rest =>
    let name := Mnemonic.ofOpcode opcode
    match name.operandKind, rest with
    | .none, rest =>
      ⟨index, offset, name, opcode, .absent⟩ :: decodeFrom (index + 1) (offset + 1) rest
    | .nibble, value :: rest =>
      ⟨index, offset, name, opcode, .immediate value⟩ :: decodeFrom (index + 2) (offset + 2) rest
    | .jumpTarget, high :: low :: rest =>
      ⟨index, offset, name, opcode, .jump (JumpAddress.join ⟨high, low⟩) none ⟨high, low⟩⟩ ::
        decodeFrom (index + 2) (offset + 3) rest
    | .serviceCall, code :: rest =>
      ⟨index, offset, name, opcode, .service (.ofCode code)⟩ ::
        decodeFrom (index + 2) (offset + 2) rest
    | _, _ => []

end Instruction

theorem JumpAddress.join_truncate {target : ℕ} (h : target ≤ 239) :
    join ⟨.truncate (target / 15), .truncate (target % 15)⟩ = target :=
  (split_eq_ok_iff.mp (split_of_le h)).1

namespace Phrase

variable {labels : LabelTable}

open Instruction (decodeFrom)

/-- The units of a phrase decode to its record, and decoding goes on behind them. -/
theorem decodeFrom_units_append (phrase : Phrase labels) (index offset : ℕ)
    (rest : List Nibble) :
    decodeFrom index offset ((phrase.record index offset).units ++ rest) =
      (phrase.record index offset).eraseLabel ::
        decodeFrom (index + phrase.texts.length) (offset + phrase.units.length) rest := by
  cases phrase with
  | plain name kind =>
    simp [Instruction.units, record, operand, mnemonic, Operand.units, decodeFrom, kind, texts,
      units, Instruction.eraseLabel, Operand.eraseLabel]
  | immediate name kind text value reads fits =>
    simp [Instruction.units, record, operand, mnemonic, Operand.units, decodeFrom, kind, texts,
      units, Instruction.eraseLabel, Operand.eraseLabel]
  | jumpNumber text target reads fits =>
    have hjoin := JumpAddress.join_truncate (show target ≤ 239 by omega)
    simp [Instruction.units, record, operand, mnemonic, Operand.units, decodeFrom, texts, units,
      Instruction.eraseLabel, Operand.eraseLabel, Operand.jumpTo, Mnemonic.operandKind, hjoin]
  | jumpLabel text target reads bound fits =>
    have hjoin := JumpAddress.join_truncate fits
    simp [Instruction.units, record, operand, mnemonic, Operand.units, decodeFrom, texts, units,
      Instruction.eraseLabel, Operand.eraseLabel, Operand.jumpTo, Mnemonic.operandKind, hjoin]
  | service call =>
    simp [Instruction.units, record, operand, mnemonic, Operand.units, decodeFrom, texts, units,
      Instruction.eraseLabel, Operand.eraseLabel, Mnemonic.operandKind]

/-- The units of consecutive phrases decode to their records. -/
theorem decodeFrom_records_append (phrases : List (Phrase labels)) (index offset : ℕ)
    (rest : List Nibble) :
    decodeFrom index offset ((records index offset phrases).flatMap Instruction.units ++ rest) =
      (records index offset phrases).map Instruction.eraseLabel ++
        decodeFrom (index + (phrases.flatMap texts).length)
          (offset + (phrases.flatMap units).length) rest := by
  induction phrases generalizing index offset with
  | nil => rfl
  | cons phrase phrases ih =>
    rw [records, List.flatMap_cons, List.append_assoc, decodeFrom_units_append, ih, List.map_cons,
      List.cons_append]
    simp [Nat.add_assoc]

/-- There is a token for each name and one for each operand, so records tell how many there are. -/
theorem length_flatMap_texts (phrases : List (Phrase labels)) (index offset : ℕ) :
    (phrases.flatMap texts).length =
      (records index offset phrases).length +
        (records index offset phrases).countP Instruction.takesOperand := by
  induction phrases generalizing index offset with
  | nil => rfl
  | cons phrase phrases ih =>
    have htakes : (phrase.record index offset).takesOperand =
        (phrase.mnemonic.operandKind != .none) := rfl
    have hcount : phrase.texts.length =
        1 + if (phrase.mnemonic.operandKind != .none) = true then 1 else 0 := by
      rw [length_texts]
      cases phrase.mnemonic.operandKind <;> rfl
    have hrest := ih (index + phrase.texts.length) (offset + phrase.units.length)
    rw [List.flatMap_cons, List.length_append, hrest, records, List.length_cons,
      List.countP_cons, htakes]
    omega

end Phrase

namespace TokenStream

/-- The decoder gives the trace back, from code that may go on. -/
theorem decodeFrom_codes_append {stream : TokenStream} {encoded : Encoded}
    (h : stream.encode = .ok encoded) (rest : List Nibble) :
    ∃ index offset, Instruction.decodeFrom 0 0 (encoded.codes ++ rest) =
      encoded.trace.map Instruction.eraseLabel ++ Instruction.decodeFrom index offset rest := by
  obtain ⟨tokens, labels⟩ := stream
  obtain ⟨phrases, -, rfl⟩ := exists_phrases_of_encode_ok h
  exact ⟨_, _, Phrase.decodeFrom_records_append phrases 0 0 rest⟩

theorem decodeFrom_codes {stream : TokenStream} {encoded : Encoded}
    (h : stream.encode = .ok encoded) :
    Instruction.decodeFrom 0 0 encoded.codes = encoded.trace.map Instruction.eraseLabel := by
  obtain ⟨index, offset, hdecode⟩ := decodeFrom_codes_append h []
  rwa [List.append_nil, Instruction.decodeFrom, List.append_nil] at hdecode

theorem length_tokens_eq_add_countP {stream : TokenStream} {encoded : Encoded}
    (h : stream.encode = .ok encoded) :
    stream.tokens.length =
      (encoded.trace.map Instruction.eraseLabel).length +
        (encoded.trace.map Instruction.eraseLabel).countP Instruction.takesOperand := by
  obtain ⟨tokens, labels⟩ := stream
  obtain ⟨phrases, htexts, rfl⟩ := exists_phrases_of_encode_ok h
  calc tokens.length
    _ = (phrases.flatMap Phrase.texts).length := by rw [← htexts, List.length_map]
    _ = _ := by
      rw [Phrase.length_flatMap_texts phrases 0 0, List.length_map, List.countP_map]
      rfl

/-- Code that begins with the code of another program begins with its instructions, up to the names
of labels. Programs with the same code have the same instructions and equally many tokens. -/
theorem trace_isPrefix_of_codes_isPrefix {first second : TokenStream} {encoded encoded' : Encoded}
    (hfirst : first.encode = .ok encoded) (hsecond : second.encode = .ok encoded') :
    (encoded.codes <+: encoded'.codes →
      encoded.trace.map Instruction.eraseLabel <+: encoded'.trace.map Instruction.eraseLabel) ∧
    (encoded.codes = encoded'.codes →
      encoded.trace.map Instruction.eraseLabel = encoded'.trace.map Instruction.eraseLabel ∧
      first.tokens.length = second.tokens.length) := by
  constructor
  · rintro ⟨rest, hrest⟩
    -- The decoder reads the second trace, and the first one on its way.
    obtain ⟨index, offset, hdecode⟩ := decodeFrom_codes_append hfirst rest
    rw [hrest, decodeFrom_codes hsecond] at hdecode
    exact ⟨_, hdecode.symm⟩
  · intro hcodes
    have htrace : encoded.trace.map Instruction.eraseLabel =
        encoded'.trace.map Instruction.eraseLabel := by
      rw [← decodeFrom_codes hfirst, hcodes, decodeFrom_codes hsecond]
    refine ⟨htrace, ?_⟩
    rw [length_tokens_eq_add_countP hfirst, htrace, ← length_tokens_eq_add_countP hsecond]

/-- A jump to a label and the same jump to a number, with more instructions behind it. -/
theorem trace_isPrefix_named_jump :
    [Instruction.eraseLabel ⟨0, 0, .jump, 0xF, .jump 20 (some "end") ⟨1, 5⟩⟩] <+:
      [⟨0, 0, .jump, 0xF, .jump 20 none ⟨1, 5⟩⟩, ⟨2, 3, .tia, 0x8, .immediate 0xF⟩] := by
  have hfirst : encode ⟨[⟨"JUMP", 1⟩, ⟨"end", 2⟩], .ofList [("end", 20)]⟩ =
      .ok ⟨[0xF, 1, 5], [⟨0, 0, .jump, 0xF, .jump 20 (some "end") ⟨1, 5⟩⟩]⟩ := by decide +kernel
  have hsecond : encode ⟨[⟨"JUMP", 1⟩, ⟨"14", 1⟩, ⟨"TIA", 1⟩, ⟨"f", 1⟩], .empty⟩ =
      .ok ⟨[0xF, 1, 5, 0x8, 0xF], [⟨0, 0, .jump, 0xF, .jump 20 none ⟨1, 5⟩⟩,
        ⟨2, 3, .tia, 0x8, .immediate 0xF⟩]⟩ := by decide +kernel
  exact (trace_isPrefix_of_codes_isPrefix hfirst hsecond).1 ⟨[0x8, 0xF], rfl⟩

end TokenStream

end NibbleAsm
