import NibbleAsm.Proofs.Acceptance
import Mathlib.Algebra.Ring.Nat

/-!
# The trace tiles the tokens and the code

A record covers the tokens of its instruction and the code units of its instruction. The records of
a trace lie side by side in both: each begins where the one before it ends, the first begins at zero
and the last ends with the tokens and with the code. A jump is two tokens and three units, and any
other instruction has as many units as tokens, so offsets run ahead of indices by one for each jump.
-/
namespace NibbleAsm

/-- The kind of instruction that an operand belongs to. -/
def Operand.kind : Operand → OperandKind
  | absent => .none
  | immediate _ => .nibble
  | jump _ _ _ => .jumpTarget
  | service _ => .serviceCall

theorem Operand.length_units_succ (operand : Operand) :
    operand.units.length + 1 = operand.kind.unitCount := by
  cases operand <;> rfl

namespace Instruction

def isJump (instruction : Instruction) : Bool :=
  instruction.mnemonic == .jump

/-- The number of tokens that the instruction takes. -/
def tokenCount (instruction : Instruction) : ℕ :=
  instruction.mnemonic.operandKind.tokenCount

/-- The number of units that the instruction takes. -/
def unitCount (instruction : Instruction) : ℕ :=
  instruction.mnemonic.operandKind.unitCount

/-- Only a jump has more units than tokens. -/
theorem unitCount_eq (instruction : Instruction) :
    instruction.unitCount = instruction.tokenCount + if instruction.isJump then 1 else 0 := by
  rw [unitCount, tokenCount, isJump]
  cases instruction.mnemonic <;> rfl

/-- The drift of consecutive instructions counts the jumps among them. -/
theorem sum_unitCount (instructions : List Instruction) :
    (instructions.map unitCount).sum =
      (instructions.map tokenCount).sum + instructions.countP isJump := by
  induction instructions with
  | nil => rfl
  | cons instruction instructions ih =>
    rw [List.map_cons, List.sum_cons, List.map_cons, List.sum_cons, List.countP_cons, ih,
      unitCount_eq]
    omega

end Instruction

/-- What a record says about itself, and about the tokens and the code where it stands. -/
structure Instruction.Covers (tokens : List Token) (codes : List Nibble)
    (record : Instruction) : Prop where
  opcode : record.opcode = record.mnemonic.opcode
  operand : record.operand.kind = record.mnemonic.operandKind
  length_units : record.units.length = record.unitCount
  units : (codes.drop record.offset).take record.unitCount = record.units
  name : (tokens.map Token.text)[record.index]? = some record.mnemonic.spelling

namespace Phrase

variable {labels : LabelTable}

theorem kind_operand (phrase : Phrase labels) :
    phrase.operand.kind = phrase.mnemonic.operandKind := by
  cases phrase with
  | plain name kind => exact kind.symm
  | immediate name kind text value reads fits => exact kind.symm
  | jumpNumber text target reads fits => rfl
  | jumpLabel text target reads bound fits => rfl
  | service call => rfl

theorem length_units_eq_unitCount (phrase : Phrase labels) (index offset : ℕ) :
    (phrase.record index offset).units.length = (phrase.record index offset).unitCount := by
  have hkind : (phrase.record index offset).operand.kind = phrase.mnemonic.operandKind :=
    phrase.kind_operand
  rw [Instruction.units, List.length_cons, Operand.length_units_succ, hkind]
  rfl

theorem sum_tokenCount_records (index offset : ℕ) (phrases : List (Phrase labels)) :
    ((records index offset phrases).map Instruction.tokenCount).sum =
      (phrases.flatMap texts).length := by
  induction phrases generalizing index offset with
  | nil => rfl
  | cons phrase phrases ih =>
    rw [records, List.map_cons, List.sum_cons, ih, List.flatMap_cons, List.length_append,
      length_texts]
    rfl

/-- A record stands behind what the records before it take. -/
theorem place_of_getElem?_records {phrases : List (Phrase labels)} {index offset i : ℕ}
    {record : Instruction} (h : (records index offset phrases)[i]? = some record) :
    record.index =
      index + (((records index offset phrases).take i).map Instruction.tokenCount).sum ∧
    record.offset =
      offset + (((records index offset phrases).take i).map Instruction.unitCount).sum := by
  induction phrases generalizing index offset i with
  | nil => simp [records] at h
  | cons phrase phrases ih =>
    rw [records] at h ⊢
    cases i with
    | zero =>
      obtain rfl := Option.some.inj h
      exact ⟨rfl, rfl⟩
    | succ i =>
      have htexts : phrase.texts.length = (phrase.record index offset).tokenCount :=
        phrase.length_texts
      have hunits := phrase.length_units_eq_unitCount index offset
      rw [length_units_record] at hunits
      obtain ⟨hindex, hoffset⟩ := ih h
      rw [List.take_succ_cons, List.map_cons, List.sum_cons, List.map_cons, List.sum_cons]
      omega

theorem getElem?_flatMap_texts_length (before after : List (Phrase labels))
    (phrase : Phrase labels) :
    ((before ++ phrase :: after).flatMap texts)[(before.flatMap texts).length]? =
      some phrase.mnemonic.spelling := by
  rw [List.flatMap_append, List.getElem?_append_right (Nat.le_refl _), Nat.sub_self,
    ← List.head?_eq_getElem?, List.flatMap_cons,
    List.head?_append_of_ne_nil _ phrase.texts_ne_nil, head?_texts]

end Phrase

namespace TokenStream

variable {stream : TokenStream} {encoded : Encoded}

theorem codes_eq_flatMap_units (h : stream.encode = .ok encoded) :
    encoded.codes = encoded.trace.flatMap Instruction.units := by
  obtain ⟨tokens, labels⟩ := stream
  obtain ⟨phrases, -, rfl⟩ := exists_phrases_of_encode_ok h
  rfl

theorem place_of_encode_ok (h : stream.encode = .ok encoded) {i : ℕ} {record : Instruction}
    (hrecord : encoded.trace[i]? = some record) :
    record.index = ((encoded.trace.take i).map Instruction.tokenCount).sum ∧
    record.offset = ((encoded.trace.take i).map Instruction.unitCount).sum := by
  obtain ⟨tokens, labels⟩ := stream
  obtain ⟨phrases, -, rfl⟩ := exists_phrases_of_encode_ok h
  have hplace := Phrase.place_of_getElem?_records hrecord
  rwa [Nat.zero_add, Nat.zero_add] at hplace

theorem length_tokens_eq_sum (h : stream.encode = .ok encoded) :
    stream.tokens.length = (encoded.trace.map Instruction.tokenCount).sum := by
  obtain ⟨tokens, labels⟩ := stream
  obtain ⟨phrases, htexts, rfl⟩ := exists_phrases_of_encode_ok h
  have hlength := congrArg List.length htexts
  rw [List.length_map, ← Phrase.sum_tokenCount_records 0 0] at hlength
  exact hlength

/-- What holds of each record by itself, and of the token that names it. -/
theorem shape_of_mem_trace (h : stream.encode = .ok encoded) {record : Instruction}
    (hmem : record ∈ encoded.trace) :
    record.opcode = record.mnemonic.opcode ∧
    record.operand.kind = record.mnemonic.operandKind ∧
    record.units.length = record.unitCount ∧
    (stream.tokens.map Token.text)[record.index]? = some record.mnemonic.spelling := by
  obtain ⟨tokens, labels⟩ := stream
  obtain ⟨phrases, htexts, rfl⟩ := exists_phrases_of_encode_ok h
  obtain ⟨before, phrase, after, rfl, rfl⟩ := Phrase.exists_append_of_mem_records hmem
  refine ⟨rfl, phrase.kind_operand, phrase.length_units_eq_unitCount _ _, ?_⟩
  rw [htexts, Phrase.record, Nat.zero_add]
  exact Phrase.getElem?_flatMap_texts_length before after phrase

theorem length_flatMap_units_eq_sum (h : stream.encode = .ok encoded)
    {records : List Instruction} (hsub : records ⊆ encoded.trace) :
    (records.flatMap Instruction.units).length = (records.map Instruction.unitCount).sum := by
  rw [List.length_flatMap]
  congr 1
  apply List.map_congr_left
  intro record hrecord
  exact (shape_of_mem_trace h (hsub hrecord)).2.2.1

theorem covers_of_encode_ok (h : stream.encode = .ok encoded) {i : ℕ} {record : Instruction}
    (hrecord : encoded.trace[i]? = some record) :
    record.Covers stream.tokens encoded.codes := by
  obtain ⟨hopcode, hkind, hlength, hname⟩ := shape_of_mem_trace h (List.mem_of_getElem? hrecord)
  refine ⟨hopcode, hkind, hlength, ?_, hname⟩
  -- The units before those of the record are exactly as many as its offset.
  have hoffset : record.offset = ((encoded.trace.take i).flatMap Instruction.units).length := by
    rw [length_flatMap_units_eq_sum h (List.take_subset i encoded.trace)]
    exact (place_of_encode_ok h hrecord).2
  have hsplit : encoded.trace = encoded.trace.take i ++ record :: encoded.trace.drop (i + 1) := by
    obtain ⟨hi, rfl⟩ := List.getElem?_eq_some_iff.mp hrecord
    rw [← List.drop_eq_getElem_cons hi, List.take_append_drop]
  rw [codes_eq_flatMap_units h, hsplit, List.flatMap_append, List.flatMap_cons, hoffset, ← hlength,
    List.drop_left, List.take_left]

/-- Records lie side by side. -/
theorem place_next_of_encode_ok (h : stream.encode = .ok encoded) {i : ℕ}
    {record next : Instruction} (hrecord : encoded.trace[i]? = some record)
    (hnext : encoded.trace[i + 1]? = some next) :
    next.offset = record.offset + record.unitCount ∧
    next.index = record.index + record.tokenCount := by
  obtain ⟨hindex, hoffset⟩ := place_of_encode_ok h hrecord
  obtain ⟨hindex', hoffset'⟩ := place_of_encode_ok h hnext
  have htake : encoded.trace.take (i + 1) = encoded.trace.take i ++ [record] := by
    rw [List.take_add_one, hrecord, Option.toList_some]
  rw [htake, List.map_append, List.sum_append] at hindex' hoffset'
  rw [hindex, hoffset, hindex', hoffset']
  simp

theorem place_last_of_encode_ok (h : stream.encode = .ok encoded) {record : Instruction}
    (hlast : encoded.trace.getLast? = some record) :
    record.offset + record.unitCount = encoded.codes.length ∧
    record.index + record.tokenCount = stream.tokens.length := by
  obtain ⟨start, hstart⟩ := List.getLast?_eq_some_iff.mp hlast
  have hrecord : encoded.trace[start.length]? = some record := by
    rw [hstart]
    simp
  obtain ⟨hindex, hoffset⟩ := place_of_encode_ok h hrecord
  rw [codes_eq_flatMap_units h, length_flatMap_units_eq_sum h (List.Subset.refl _),
    length_tokens_eq_sum h, hindex, hoffset, hstart]
  simp

/-- Offsets run ahead of indices by one for each jump. -/
theorem offset_eq_index_add_countP (h : stream.encode = .ok encoded) {i : ℕ}
    {record : Instruction} (hrecord : encoded.trace[i]? = some record) :
    record.offset = record.index + (encoded.trace.take i).countP Instruction.isJump := by
  obtain ⟨hindex, hoffset⟩ := place_of_encode_ok h hrecord
  rw [hindex, hoffset, Instruction.sum_unitCount]

/-- The trace of an encoded stream tiles its tokens and its code. -/
theorem trace_tiles_tokens_and_codes (h : stream.encode = .ok encoded) :
    encoded.codes = encoded.trace.flatMap Instruction.units ∧
    (∀ (i : ℕ) (record : Instruction), encoded.trace[i]? = some record →
      record.Covers stream.tokens encoded.codes ∧
      (∀ next : Instruction, encoded.trace[i + 1]? = some next →
        next.offset = record.offset + record.unitCount ∧
        next.index = record.index + record.tokenCount) ∧
      record.offset = record.index + (encoded.trace.take i).countP Instruction.isJump) ∧
    (∀ record : Instruction, encoded.trace.head? = some record →
      record.index = 0 ∧ record.offset = 0) ∧
    (∀ record : Instruction, encoded.trace.getLast? = some record →
      record.offset + record.unitCount = encoded.codes.length ∧
      record.index + record.tokenCount = stream.tokens.length) ∧
    encoded.codes.length = stream.tokens.length + encoded.trace.countP Instruction.isJump ∧
    ∀ jump ∈ encoded.trace, ∀ (target : ℕ) (label : Option String) (units : JumpAddress.Units),
      jump.operand = .jump target label units →
      ∀ (i : ℕ) (record : Instruction), encoded.trace[i]? = some record → record.index = target →
        (target = record.offset ↔
          ∀ earlier ∈ encoded.trace.take i, earlier.mnemonic ≠ .jump) := by
  refine ⟨codes_eq_flatMap_units h, ?_, ?_, ?_, ?_, ?_⟩
  · intro i record hrecord
    exact ⟨covers_of_encode_ok h hrecord, fun next => place_next_of_encode_ok h hrecord,
      offset_eq_index_add_countP h hrecord⟩
  · intro record hfirst
    rw [List.head?_eq_getElem?] at hfirst
    exact place_of_encode_ok h hfirst
  · intro record
    exact place_last_of_encode_ok h
  · rw [codes_eq_flatMap_units h, length_flatMap_units_eq_sum h (List.Subset.refl _),
      length_tokens_eq_sum h, Instruction.sum_unitCount]
  · rintro jump - target label units - i record hrecord rfl
    rw [offset_eq_index_add_countP h hrecord, Nat.left_eq_add, List.countP_eq_zero]
    simp [Instruction.isJump]

/-- Behind a jump an address is no offset: the instruction at address three has offset four. -/
theorem trace_tiles_forward_jump :
    let tokens : List Token := [⟨"KA", 1⟩, ⟨"JUMP", 1⟩, ⟨"end", 1⟩, ⟨"AO", 2⟩]
    ∃ encoded, encode ⟨tokens, .ofList [("end", 3)]⟩ = .ok encoded ∧
      encoded.trace[2]? = some ⟨3, 4, .ao, 1, .absent⟩ ∧
      (3 = 4 ↔ ∀ earlier ∈ encoded.trace.take 2, earlier.mnemonic ≠ .jump) ∧
      encoded.codes.length = tokens.length + 1 := by
  intro tokens
  have h : encode ⟨tokens, .ofList [("end", 3)]⟩ =
      .ok ⟨[0, 0xF, 0, 3, 1], [⟨0, 0, .ka, 0, .absent⟩,
        ⟨1, 1, .jump, 0xF, .jump 3 (some "end") ⟨0, 3⟩⟩, ⟨3, 4, .ao, 1, .absent⟩]⟩ := by
    decide +kernel
  obtain ⟨-, -, -, -, hlength, hjump⟩ := trace_tiles_tokens_and_codes h
  exact ⟨_, h, rfl, hjump _ (List.mem_cons_of_mem _ List.mem_cons_self) _ _ _ rfl 2 _ rfl rfl,
    hlength⟩

end TokenStream

end NibbleAsm
