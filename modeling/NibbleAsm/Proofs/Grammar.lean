import NibbleAsm.Encoding
import Mathlib.Data.List.Basic

/-!
# The grammar of token texts

A phrase is one instruction as written: a name, or a name and one operand text. Which operands are
accepted depends on the name, and for a jump on the label table. A fault is a beginning that is no
phrase, with the cause to be reported. Every nonempty list of texts begins with a phrase or is at
fault, and lists that are concatenations of phrases are so in one way only.
-/
namespace NibbleAsm

open AssembleError (Cause)

namespace Mnemonic

theorem ofSpelling?_eq_none_iff {text : String} :
    ofSpelling? text = none ↔ ∀ name : Mnemonic, name.spelling ≠ text := by
  simp [ofSpelling?, mem_all]

theorem spelling_injective : Function.Injective spelling := by
  intro a b h
  simpa using congrArg ofSpelling? h

theorem eq_jump_of_operandKind {name : Mnemonic} (h : name.operandKind = .jumpTarget) :
    name = jump := by
  revert h
  cases name <;> decide

theorem eq_cal_of_operandKind {name : Mnemonic} (h : name.operandKind = .serviceCall) :
    name = cal := by
  revert h
  cases name <;> decide

end Mnemonic

namespace ServiceCall

theorem ofSpelling?_eq_none_iff {text : String} :
    ofSpelling? text = none ↔ ∀ call : ServiceCall, call.spelling ≠ text := by
  simp [ofSpelling?, mem_all]

theorem spelling_injective : Function.Injective spelling := by
  intro a b h
  simpa using congrArg ofSpelling? h

end ServiceCall

theorem JumpAddress.split_of_le {target : ℕ} (h : target ≤ 239) :
    split target = .ok ⟨.truncate (target / 15), .truncate (target % 15)⟩ := by
  have hmax : ¬ max < target := Nat.not_lt.mpr h
  rw [split, if_neg hmax]
  rfl

/-- The operand of a jump to a target, in quotient and remainder by fifteen. -/
def Operand.jumpTo (label : Option String) (target : ℕ) : Operand :=
  .jump target label ⟨.truncate (target / 15), .truncate (target % 15)⟩

theorem Operand.map_val_units_jumpTo (label : Option String) {target : ℕ} (h : target ≤ 239) :
    (jumpTo label target).units.map Fin.val = [target / 15, target % 15] := by
  have hhigh : target / 15 < 16 := by omega
  have hlow : target % 15 < 16 := by omega
  simp [jumpTo, Operand.units, Nibble.truncate_val_of_lt hhigh, Nibble.truncate_val_of_lt hlow]

/-- An instruction as written, with what makes it one. A number and a label have different limits,
and a text that is a number is never looked up. -/
inductive Phrase (labels : LabelTable) where
  | plain (name : Mnemonic) (kind : name.operandKind = .none)
  | immediate (name : Mnemonic) (kind : name.operandKind = .nibble) (text : String) (value : ℕ)
      (reads : Numeral.exactHex? text = some value) (fits : value ≤ 15)
  | jumpNumber (text : String) (target : ℕ)
      (reads : Numeral.exactHex? text = some target) (fits : target ≤ 0x4F)
  | jumpLabel (text : String) (target : ℕ) (reads : Numeral.exactHex? text = none)
      (bound : labels.find? text = some target) (fits : target ≤ 239)
  | service (call : ServiceCall)

namespace Phrase

variable {labels : LabelTable}

/-- The token texts of a phrase. -/
def texts : Phrase labels → List String
  | plain name _ => [name.spelling]
  | immediate name _ text _ _ _ => [name.spelling, text]
  | jumpNumber text _ _ _ => ["JUMP", text]
  | jumpLabel text _ _ _ _ => ["JUMP", text]
  | service call => ["CAL", call.spelling]

/-- The values of the code units that a phrase denotes. -/
def units : Phrase labels → List ℕ
  | plain name _ => [name.opcode.val]
  | immediate name _ _ value _ _ => [name.opcode.val, value]
  | jumpNumber _ target _ _ => [0xF, target / 15, target % 15]
  | jumpLabel _ target _ _ _ => [0xF, target / 15, target % 15]
  | service call => [0xE, call.code.val]

def mnemonic : Phrase labels → Mnemonic
  | plain name _ => name
  | immediate name _ _ _ _ _ => name
  | jumpNumber _ _ _ _ => .jump
  | jumpLabel _ _ _ _ _ => .jump
  | service _ => .cal

def operand : Phrase labels → Operand
  | plain _ _ => .absent
  | immediate _ _ _ value _ _ => .immediate (.truncate value)
  | jumpNumber _ target _ _ => .jumpTo none target
  | jumpLabel text target _ _ _ => .jumpTo (some text) target
  | service call => .service call

/-- The assembled instruction of a phrase at a token index and a code offset. -/
def record (phrase : Phrase labels) (index offset : ℕ) : Instruction :=
  ⟨index, offset, phrase.mnemonic, phrase.mnemonic.opcode, phrase.operand⟩

/-- The assembled instructions of consecutive phrases, the first of them at the given places. -/
def records (index offset : ℕ) : List (Phrase labels) → List Instruction
  | [] => []
  | phrase :: phrases =>
    phrase.record index offset ::
      records (index + phrase.texts.length) (offset + phrase.units.length) phrases

theorem map_val_units_record (phrase : Phrase labels) (index offset : ℕ) :
    (phrase.record index offset).units.map Fin.val = phrase.units := by
  cases phrase with
  | plain name kind => rfl
  | immediate name kind text value reads fits =>
    simp [Instruction.units, record, operand, mnemonic, Operand.units, units,
      Nibble.truncate_val_of_lt (Nat.lt_succ_of_le fits)]
  | jumpNumber text target reads fits =>
    exact congrArg (0xF :: ·) (Operand.map_val_units_jumpTo none (by omega))
  | jumpLabel text target reads bound fits =>
    exact congrArg (0xF :: ·) (Operand.map_val_units_jumpTo (some text) fits)
  | service call => rfl

@[simp] theorem length_units_record (phrase : Phrase labels) (index offset : ℕ) :
    (phrase.record index offset).units.length = phrase.units.length := by
  rw [← map_val_units_record phrase index offset, List.length_map]

/-- A record belongs to one of the phrases, and its places count what stands before that. -/
theorem exists_append_of_mem_records {phrases : List (Phrase labels)} {index offset : ℕ}
    {instruction : Instruction} (h : instruction ∈ records index offset phrases) :
    ∃ before phrase after, phrases = before ++ phrase :: after ∧
      instruction = phrase.record (index + (before.flatMap texts).length)
        (offset + (before.flatMap units).length) := by
  induction phrases generalizing index offset with
  | nil => cases h
  | cons phrase phrases ih =>
    rw [records] at h
    rcases List.mem_cons.mp h with rfl | hmem
    · exact ⟨[], phrase, phrases, rfl, rfl⟩
    · obtain ⟨before, own, after, rfl, rfl⟩ := ih hmem
      refine ⟨phrase :: before, own, after, rfl, ?_⟩
      simp [Nat.add_assoc]

theorem head?_texts (phrase : Phrase labels) :
    phrase.texts.head? = some phrase.mnemonic.spelling := by
  cases phrase <;> rfl

theorem texts_ne_nil (phrase : Phrase labels) : phrase.texts ≠ [] := by
  intro h
  simpa [h] using phrase.head?_texts

theorem length_texts (phrase : Phrase labels) :
    phrase.texts.length = phrase.mnemonic.operandKind.tokenCount := by
  cases phrase with
  | plain name kind => simp [texts, mnemonic, kind, OperandKind.tokenCount]
  | immediate name kind text value reads fits =>
    simp [texts, mnemonic, kind, OperandKind.tokenCount]
  | jumpNumber text target reads fits => rfl
  | jumpLabel text target reads bound fits => rfl
  | service call => rfl

theorem mnemonic_eq_of_head? {first second : Phrase labels}
    (h : first.texts.head? = second.texts.head?) : first.mnemonic = second.mnemonic := by
  rw [head?_texts, head?_texts, Option.some.injEq] at h
  exact Mnemonic.spelling_injective h

/-- The texts of a phrase determine it, its value or target included. -/
theorem texts_injective : Function.Injective (texts : Phrase labels → List String) := by
  intro first second h
  have hname := mnemonic_eq_of_head? (congrArg List.head? h)
  -- Phrases of different kinds differ in name, or one jump operand is a number and one is not.
  cases first <;> cases second <;>
    grind [texts, mnemonic, Mnemonic.operandKind, ServiceCall.spelling_injective.eq_iff]

/-- The first name says where its phrase ends, so a list begins with at most one phrase. -/
theorem eq_of_texts_append {first second : Phrase labels} {r s : List String}
    (h : first.texts ++ r = second.texts ++ s) : first = second ∧ r = s := by
  have hhead : first.texts.head? = second.texts.head? := by
    have hcons := congrArg List.head? h
    simpa [head?_texts] using hcons
  have hlength : first.texts.length = second.texts.length := by
    rw [length_texts, length_texts, mnemonic_eq_of_head? hhead]
  obtain ⟨htexts, hrest⟩ := List.append_inj h hlength
  exact ⟨texts_injective htexts, hrest⟩

/-- A list of texts is a concatenation of phrases in at most one way. -/
theorem flatMap_texts_injective {first second : List (Phrase labels)}
    (h : first.flatMap texts = second.flatMap texts) : first = second := by
  induction first generalizing second with
  | nil =>
    cases second with
    | nil => rfl
    | cons phrase phrases =>
      have hnil := (List.append_eq_nil_iff.mp h.symm).1
      exact absurd hnil phrase.texts_ne_nil
  | cons phrase phrases ih =>
    cases second with
    | nil =>
      have hnil := (List.append_eq_nil_iff.mp h).1
      exact absurd hnil phrase.texts_ne_nil
    | cons phrase' phrases' =>
      rw [List.flatMap_cons, List.flatMap_cons] at h
      obtain ⟨rfl, hrest⟩ := eq_of_texts_append h
      rw [ih hrest]

end Phrase

/-- The texts begin with no phrase, and this is why. -/
inductive Fault (labels : LabelTable) : List String → Cause → Prop where
  | undefinedMnemonic {text : String} {rest : List String}
      (unknown : ∀ name : Mnemonic, name.spelling ≠ text) :
      Fault labels (text :: rest) .undefinedMnemonic
  | truncatedOperand {name : Mnemonic} (kind : name.operandKind ≠ .none) :
      Fault labels [name.spelling] .truncatedOperand
  | invalidNumeral {name : Mnemonic} {text : String} {rest : List String}
      (kind : name.operandKind = .nibble) (reads : Numeral.exactHex? text = none) :
      Fault labels (name.spelling :: text :: rest) (.invalidNumeral text)
  | immediateOutOfRange {name : Mnemonic} {text : String} {rest : List String} {value : ℕ}
      (kind : name.operandKind = .nibble) (reads : Numeral.exactHex? text = some value)
      (above : 15 < value) :
      Fault labels (name.spelling :: text :: rest) (.operandOutOfRange text 15)
  | numberOutOfRange {text : String} {rest : List String} {target : ℕ}
      (reads : Numeral.exactHex? text = some target) (above : 0x4F < target) :
      Fault labels ("JUMP" :: text :: rest) (.operandOutOfRange text 0x4F)
  | undefinedLabel {text : String} {rest : List String}
      (reads : Numeral.exactHex? text = none) (unbound : labels.find? text = none) :
      Fault labels ("JUMP" :: text :: rest) (.undefinedLabel text)
  | labelOutOfRange {text : String} {rest : List String} {target : ℕ}
      (reads : Numeral.exactHex? text = none) (bound : labels.find? text = some target)
      (above : 239 < target) :
      Fault labels ("JUMP" :: text :: rest) (.operandOutOfRange text 239)
  | undefinedServiceCall {text : String} {rest : List String}
      (unknown : ∀ call : ServiceCall, call.spelling ≠ text) :
      Fault labels ("CAL" :: text :: rest) (.undefinedServiceCall text)

namespace Phrase

/-- Nothing else can happen at the beginning of a nonempty list. -/
theorem exists_append_or_fault (labels : LabelTable) (text : String) (rest : List String) :
    (∃ (phrase : Phrase labels) (after : List String), text :: rest = phrase.texts ++ after) ∨
      ∃ cause, Fault labels (text :: rest) cause := by
  cases hname : Mnemonic.ofSpelling? text with
  | none => exact Or.inr ⟨_, .undefinedMnemonic (Mnemonic.ofSpelling?_eq_none_iff.mp hname)⟩
  | some name =>
    obtain rfl := Mnemonic.spelling_of_ofSpelling? hname
    cases rest with
    | nil =>
      by_cases hkind : name.operandKind = .none
      · exact Or.inl ⟨.plain name hkind, [], rfl⟩
      · exact Or.inr ⟨_, .truncatedOperand hkind⟩
    | cons operand rest =>
      cases hkind : name.operandKind with
      | none => exact Or.inl ⟨.plain name hkind, operand :: rest, rfl⟩
      | nibble =>
        cases hreads : Numeral.exactHex? operand with
        | none => exact Or.inr ⟨_, .invalidNumeral hkind hreads⟩
        | some value =>
          by_cases hfits : value ≤ 15
          · exact Or.inl ⟨.immediate name hkind operand value hreads hfits, rest, rfl⟩
          · exact Or.inr ⟨_, .immediateOutOfRange hkind hreads (by omega)⟩
      | jumpTarget =>
        obtain rfl := Mnemonic.eq_jump_of_operandKind hkind
        cases hreads : Numeral.exactHex? operand with
        | some target =>
          by_cases hfits : target ≤ 0x4F
          · exact Or.inl ⟨.jumpNumber operand target hreads hfits, rest, rfl⟩
          · exact Or.inr ⟨_, .numberOutOfRange hreads (by omega)⟩
        | none =>
          cases hbound : labels.find? operand with
          | none => exact Or.inr ⟨_, .undefinedLabel hreads hbound⟩
          | some target =>
            by_cases hfits : target ≤ 239
            · exact Or.inl ⟨.jumpLabel operand target hreads hbound hfits, rest, rfl⟩
            · exact Or.inr ⟨_, .labelOutOfRange hreads hbound (by omega)⟩
      | serviceCall =>
        obtain rfl := Mnemonic.eq_cal_of_operandKind hkind
        cases hcall : ServiceCall.ofSpelling? operand with
        | none =>
          exact Or.inr ⟨_, .undefinedServiceCall (ServiceCall.ofSpelling?_eq_none_iff.mp hcall)⟩
        | some call =>
          obtain rfl := ServiceCall.spelling_of_ofSpelling? hcall
          exact Or.inl ⟨.service call, rest, rfl⟩

end Phrase

end NibbleAsm
