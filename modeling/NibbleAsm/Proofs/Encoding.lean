import NibbleAsm.Proofs.Grammar
import NibbleAsm.Proofs.Numeral

/-!
# The second pass read through the grammar

At a phrase the walk adds the phrase's instruction and its units to what it has assembled and goes
on behind it. At a fault it stops with the fault's cause, at the place of the name. These two steps
are all that is said about the reading of operands; what a whole walk does follows from them by
induction over the phrases.
-/
namespace NibbleAsm

open AssembleError (Cause)

namespace Operand

theorem readImmediate_of_le {text : String} {value : ℕ}
    (reads : Numeral.exactHex? text = some value) (fits : value ≤ 15) :
    readImmediate text = .ok (immediate (.truncate value)) := by
  have hmin : min Numeral.limit value = value := by rw [Numeral.limit]; omega
  have hunit : Nibble.ofNat? value = some (.truncate value) := by
    rw [← Nibble.ofNat?_val (.truncate value), Nibble.truncate_val_of_lt (by omega)]
  simp [readImmediate, Numeral.readHex?_of_exactHex?_some reads, hmin, hunit]

theorem readImmediate_of_lt {text : String} {value : ℕ}
    (reads : Numeral.exactHex? text = some value) (above : 15 < value) :
    readImmediate text = .error (.operandOutOfRange text 15) := by
  have hnone : Nibble.ofNat? (min Numeral.limit value) = none := by
    rw [Nibble.ofNat?_eq_none_iff, Numeral.limit]
    omega
  simp only [readImmediate, Numeral.readHex?_of_exactHex?_some reads, hnone]
  rfl

theorem readImmediate_of_none {text : String} (reads : Numeral.exactHex? text = none) :
    readImmediate text = .error (.invalidNumeral text) := by
  simp [readImmediate, Numeral.readHex?_of_exactHex?_none reads]

theorem ofTarget_of_le (text : String) (label : Option String) {target : ℕ} (max : ℕ)
    (fits : target ≤ 239) : ofTarget text label target max = .ok (jumpTo label target) := by
  rw [ofTarget, JumpAddress.split_of_le fits]
  rfl

theorem readJump_number (labels : LabelTable) {text : String} {target : ℕ}
    (reads : Numeral.exactHex? text = some target) (fits : target ≤ 0x4F) :
    readJump labels text = .ok (jumpTo none target) := by
  have hmin : min Numeral.limit target = target := by rw [Numeral.limit]; omega
  have hfits : target ≤ JumpAddress.immediateMax := fits
  simp [readJump, Numeral.readHex?_of_exactHex?_some reads, hmin, hfits,
    ofTarget_of_le text none _ (show target ≤ 239 by omega)]

theorem readJump_number_of_lt (labels : LabelTable) {text : String} {target : ℕ}
    (reads : Numeral.exactHex? text = some target) (above : 0x4F < target) :
    readJump labels text = .error (.operandOutOfRange text 0x4F) := by
  have habove : ¬ min Numeral.limit target ≤ JumpAddress.immediateMax := by
    rw [Numeral.limit, JumpAddress.immediateMax]
    omega
  simp only [readJump, Numeral.readHex?_of_exactHex?_some reads, if_neg habove]
  rfl

theorem readJump_label {labels : LabelTable} {text : String} {target : ℕ}
    (reads : Numeral.exactHex? text = none) (bound : labels.find? text = some target)
    (fits : target ≤ 239) : readJump labels text = .ok (jumpTo (some text) target) := by
  simp [readJump, Numeral.readHex?_of_exactHex?_none reads, bound,
    ofTarget_of_le text (some text) _ fits]

theorem readJump_label_of_lt {labels : LabelTable} {text : String} {target : ℕ}
    (reads : Numeral.exactHex? text = none) (bound : labels.find? text = some target)
    (above : 239 < target) : readJump labels text = .error (.operandOutOfRange text 239) := by
  have habove : JumpAddress.max < target := above
  simp only [readJump, Numeral.readHex?_of_exactHex?_none reads, bound, ofTarget,
    JumpAddress.split, if_pos habove]
  rfl

theorem readJump_unbound {labels : LabelTable} {text : String}
    (reads : Numeral.exactHex? text = none) (unbound : labels.find? text = none) :
    readJump labels text = .error (.undefinedLabel text) := by
  simp [readJump, Numeral.readHex?_of_exactHex?_none reads, unbound]

theorem readService_of_unknown {text : String}
    (unknown : ∀ call : ServiceCall, call.spelling ≠ text) :
    readService text = .error (.undefinedServiceCall text) := by
  simp [readService, ServiceCall.ofSpelling?_eq_none_iff.mpr unknown]

@[simp] theorem readService_spelling (call : ServiceCall) :
    readService call.spelling = .ok (service call) := by
  simp [readService]

end Operand

namespace Cursor

/-- The cursor that has read some tokens and has the others still to read. -/
def behind (before rest : List Token) : Cursor :=
  ⟨(before ++ rest).toArray, before.length⟩

theorem start_eq_behind (tokens : List Token) : start tokens = behind [] tokens := rfl

@[simp] theorem advance_behind_nil (before : List Token) :
    (behind before []).advance = (none, behind before []) := by
  simp [behind, advance]

@[simp] theorem advance_behind_cons (before : List Token) (token : Token) (rest : List Token) :
    (behind before (token :: rest)).advance =
      (some (before.length, token), behind (before ++ [token]) rest) := by
  simp [behind, advance]

end Cursor

namespace Instruction

/-- An operand that is read completes the instruction. -/
theorem take_of_read_ok {labels : LabelTable} (name : Mnemonic)
    {read : String → Except Cause Operand}
    (htake : Operand.take labels name.operandKind = Operand.takeWith read) {token : Token}
    {operands : List Token} {text : String}
    (htexts : (token :: operands).map Token.text = [name.spelling, text]) {value : Operand}
    (hread : read text = .ok value) (offset index : ℕ) (before rest : List Token) :
    take labels offset index token (.behind before (operands ++ rest)) =
      .ok (⟨index, offset, name, name.opcode, value⟩, .behind (before ++ operands) rest) := by
  simp only [List.map_cons, List.cons.injEq, List.map_eq_singleton_iff] at htexts
  obtain ⟨htext, operand, rfl, rfl⟩ := htexts
  simp [take, htext, htake, Operand.takeWith, hread, Except.map]

/-- An operand that is refused is the fault of the instruction. -/
theorem take_of_read_error {labels : LabelTable} (name : Mnemonic)
    {read : String → Except Cause Operand}
    (htake : Operand.take labels name.operandKind = Operand.takeWith read) {token : Token}
    {rest : List Token} {text : String} {after : List String}
    (htexts : token.text :: rest.map Token.text = name.spelling :: text :: after) {cause : Cause}
    (hread : read text = .error cause) (offset index : ℕ) (before : List Token) :
    take labels offset index token (.behind before rest) =
      .error ⟨cause, index, token.text, token.line⟩ := by
  obtain ⟨htext, hrest⟩ := List.cons.inj htexts
  obtain ⟨operand, rest, rfl, rfl, -⟩ := List.map_eq_cons_iff.mp hrest
  simp [take, htext, htake, Operand.takeWith, hread, Except.map]

/-- A phrase is assembled and its operand is read, if it has one, and no more. -/
theorem take_phrase {labels : LabelTable} (phrase : Phrase labels) {token : Token}
    {operands : List Token} (htexts : (token :: operands).map Token.text = phrase.texts)
    (offset index : ℕ) (before rest : List Token) :
    take labels offset index token (.behind before (operands ++ rest)) =
      .ok (phrase.record index offset, .behind (before ++ operands) rest) := by
  cases phrase with
  | plain name kind =>
    simp only [List.map_cons, Phrase.texts, List.cons.injEq, List.map_eq_nil_iff] at htexts
    obtain ⟨htext, rfl⟩ := htexts
    simp [take, htext, Operand.take, kind, Phrase.record, Phrase.mnemonic, Phrase.operand]
  | immediate name kind text value reads fits =>
    have hread := Operand.readImmediate_of_le reads fits
    exact take_of_read_ok name (by rw [kind]; rfl) htexts hread offset index before rest
  | jumpNumber text target reads fits =>
    have hread := Operand.readJump_number labels reads fits
    exact take_of_read_ok .jump rfl htexts hread offset index before rest
  | jumpLabel text target reads bound fits =>
    have hread := Operand.readJump_label reads bound fits
    exact take_of_read_ok .jump rfl htexts hread offset index before rest
  | service call =>
    have hread := Operand.readService_spelling call
    exact take_of_read_ok .cal rfl htexts hread offset index before rest

/-- A fault is reported with its cause, at the place of its name. -/
theorem take_fault {labels : LabelTable} {token : Token} {rest : List Token} {cause : Cause}
    (h : Fault labels (token.text :: rest.map Token.text) cause) (offset index : ℕ)
    (before : List Token) :
    take labels offset index token (.behind before rest) =
      .error ⟨cause, index, token.text, token.line⟩ := by
  generalize htexts : token.text :: rest.map Token.text = texts at h
  cases h with
  | undefinedMnemonic unknown =>
    obtain ⟨rfl, -⟩ := List.cons.inj htexts
    simp [take, Mnemonic.ofSpelling?_eq_none_iff.mpr unknown]
  | @truncatedOperand name kind =>
    obtain ⟨htext, hrest⟩ := List.cons.inj htexts
    obtain rfl := List.map_eq_nil_iff.mp hrest
    -- Every kind but the excluded one asks for an operand, and there is none.
    cases hkind : name.operandKind <;>
      simp_all [take, Operand.take, Operand.takeWith]
  | @invalidNumeral name text after kind reads =>
    have hread := Operand.readImmediate_of_none reads
    exact take_of_read_error name (by rw [kind]; rfl) htexts hread offset index before
  | @immediateOutOfRange name text after value kind reads above =>
    have hread := Operand.readImmediate_of_lt reads above
    exact take_of_read_error name (by rw [kind]; rfl) htexts hread offset index before
  | numberOutOfRange reads above =>
    have hread := Operand.readJump_number_of_lt labels reads above
    exact take_of_read_error .jump rfl htexts hread offset index before
  | undefinedLabel reads unbound =>
    have hread := Operand.readJump_unbound reads unbound
    exact take_of_read_error .jump rfl htexts hread offset index before
  | labelOutOfRange reads bound above =>
    have hread := Operand.readJump_label_of_lt reads bound above
    exact take_of_read_error .jump rfl htexts hread offset index before
  | undefinedServiceCall unknown =>
    have hread := Operand.readService_of_unknown unknown
    exact take_of_read_error .cal rfl htexts hread offset index before

end Instruction

namespace Output

/-- Add instructions and their units, one after another. -/
def pushAll (output : Output) (instructions : List Instruction) : Output :=
  instructions.foldl push output

@[simp] theorem codes_empty : empty.codes = #[] := rfl

@[simp] theorem trace_empty : empty.trace = #[] := rfl

@[simp] theorem size_codes_push (output : Output) (instruction : Instruction) :
    (output.push instruction).codes.size = output.codes.size + instruction.units.length := by
  rw [push, ← Array.length_toList, Array.toList_appendList, List.length_append,
    Array.length_toList]

@[simp] theorem toList_trace_pushAll (output : Output) (instructions : List Instruction) :
    (output.pushAll instructions).trace.toList = output.trace.toList ++ instructions := by
  induction instructions generalizing output with
  | nil => simp [pushAll]
  | cons first instructions ih =>
    have hrest := ih (output.push first)
    simpa [pushAll, push] using hrest

/-- The code grows by the units of each instruction. -/
@[simp] theorem toList_codes_pushAll (output : Output) (instructions : List Instruction) :
    (output.pushAll instructions).codes.toList =
      output.codes.toList ++ instructions.flatMap Instruction.units := by
  induction instructions generalizing output with
  | nil => simp [pushAll]
  | cons first instructions ih =>
    have hrest := ih (output.push first)
    simpa [pushAll, push] using hrest

end Output

namespace Walk

@[simp] theorem trace_pushAll_empty (instructions : List Instruction)
    (failure : Option AssembleError) :
    (⟨Output.empty.pushAll instructions, failure⟩ : Walk).trace = instructions := by
  simp [trace]

@[simp] theorem ofCursor_behind_nil (labels : LabelTable) (output : Output)
    (before : List Token) : ofCursor labels output (.behind before []) = ⟨output, none⟩ := by
  rw [ofCursor]
  split
  · rfl
  · rename_i h
    simp at h

theorem ofCursor_behind_cons (labels : LabelTable) (output : Output) (before : List Token)
    (token : Token) (rest : List Token) :
    ofCursor labels output (.behind before (token :: rest)) =
      match Instruction.take labels output.codes.size before.length token
          (.behind (before ++ [token]) rest) with
      | .error error => ⟨output, some error⟩
      | .ok (instruction, next) => ofCursor labels (output.push instruction) next := by
  rw [ofCursor]
  split
  · rename_i h
    simp at h
  · rename_i index token' after h
    simp only [Cursor.advance_behind_cons, Prod.mk.injEq, Option.some.injEq] at h
    obtain ⟨⟨rfl, rfl⟩, rfl⟩ := h
    split <;> rename_i htake <;> simp [htake]

/-- The step at a phrase. -/
theorem ofCursor_phrase {labels : LabelTable} (phrase : Phrase labels) {own : List Token}
    (htexts : own.map Token.text = phrase.texts) (output : Output) (before rest : List Token) :
    ofCursor labels output (.behind before (own ++ rest)) =
      ofCursor labels (output.push (phrase.record before.length output.codes.size))
        (.behind (before ++ own) rest) := by
  cases own with
  | nil => exact absurd htexts.symm phrase.texts_ne_nil
  | cons token operands =>
    have htake := Instruction.take_phrase phrase htexts output.codes.size before.length
      (before ++ [token]) rest
    rw [List.append_assoc, List.singleton_append] at htake
    rw [List.cons_append, ofCursor_behind_cons, htake]

/-- The step at a fault. -/
theorem ofCursor_fault {labels : LabelTable} {token : Token} {rest : List Token} {cause : Cause}
    (h : Fault labels (token.text :: rest.map Token.text) cause) (output : Output)
    (before : List Token) :
    ofCursor labels output (.behind before (token :: rest)) =
      ⟨output, some ⟨cause, before.length, token.text, token.line⟩⟩ := by
  rw [ofCursor_behind_cons, Instruction.take_fault h]

/-- Phrases are assembled one after another, and the walk goes on behind them. -/
theorem ofCursor_phrases {labels : LabelTable} (phrases : List (Phrase labels)) {own : List Token}
    (htexts : own.map Token.text = phrases.flatMap Phrase.texts) (output : Output)
    (before rest : List Token) :
    ofCursor labels output (.behind before (own ++ rest)) =
      ofCursor labels
        (output.pushAll (Phrase.records before.length output.codes.size phrases))
        (.behind (before ++ own) rest) := by
  induction phrases generalizing own output before with
  | nil =>
    obtain rfl := List.map_eq_nil_iff.mp htexts
    simp [Output.pushAll, Phrase.records]
  | cons phrase phrases ih =>
    rw [List.flatMap_cons] at htexts
    obtain ⟨first, others, rfl, hfirst, hothers⟩ := List.map_eq_append_iff.mp htexts
    have hlength : first.length = phrase.texts.length := by rw [← hfirst, List.length_map]
    rw [List.append_assoc, ofCursor_phrase phrase hfirst, ih hothers]
    simp [Output.pushAll, Phrase.records, hlength]

end Walk

namespace Phrase

/-- Every list of tokens is read as phrases up to its end or up to a fault. -/
theorem exists_phrases (labels : LabelTable) (tokens : List Token) :
    ∃ (phrases : List (Phrase labels)) (own rest : List Token),
      tokens = own ++ rest ∧ own.map Token.text = phrases.flatMap texts ∧
      (rest = [] ∨ ∃ cause, Fault labels (rest.map Token.text) cause) := by
  induction hlength : tokens.length using Nat.strongRecOn generalizing tokens with
  | ind length ih =>
    cases tokens with
    | nil => exact ⟨[], [], [], rfl, rfl, Or.inl rfl⟩
    | cons token tail =>
      rcases exists_append_or_fault labels token.text (tail.map Token.text) with
        ⟨phrase, after, hafter⟩ | hfault
      · rw [← List.map_cons] at hafter
        obtain ⟨first, others, htokens, hfirst, -⟩ := List.map_eq_append_iff.mp hafter
        have hpos : 0 < first.length := by
          rw [← List.length_map, hfirst]
          exact List.length_pos_of_ne_nil phrase.texts_ne_nil
        have hlt : others.length < length := by
          rw [← hlength, htokens, List.length_append]
          omega
        obtain ⟨phrases, own, rest, rfl, hown, hrest⟩ := ih others.length hlt others rfl
        refine ⟨phrase :: phrases, first ++ own, rest, ?_, ?_, hrest⟩
        · rw [htokens, List.append_assoc]
        · rw [List.map_append, hfirst, hown, List.flatMap_cons]
      · exact ⟨[], [], token :: tail, rfl, rfl, Or.inr hfault⟩

end Phrase

end NibbleAsm
