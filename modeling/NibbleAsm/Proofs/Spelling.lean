import NibbleAsm.Proofs.HexNumeral
import NibbleAsm.Proofs.OperandSlips
import Mathlib.Data.List.Forall2

/-!
# The spelling of numbers

A number can be written with zeros in front and with letters of either case. Which spelling is used
changes nothing wherever a number stands. Names of instructions and of routines are no numbers, so
they are taken or missed alike; an operand is read as its value; and a number is never looked up
among the labels, even if a label has one of its spellings. Two programs that differ in spellings
only are therefore read in step, phrase by phrase, to their ends or to the same fault.
-/
namespace NibbleAsm

open AssembleError (Cause)

namespace Numeral

/-- The same text, or two numerals of the same value. -/
inductive Respells : String → String → Prop where
  | same (text : String) : Respells text text
  | numeral {text other : String} (first : IsNumeral text) (second : IsNumeral other)
      (value : hexValue text = hexValue other) : Respells text other

namespace Respells

variable {text other : String}

theorem symm (h : Respells text other) : Respells other text := by
  cases h with
  | same => exact .same text
  | numeral first second value => exact .numeral second first value.symm

theorem exactHex?_eq (h : Respells text other) : exactHex? other = exactHex? text := by
  cases h with
  | same => rfl
  | numeral first second value =>
    rw [exactHex?_of_isNumeral first, exactHex?_of_isNumeral second, value]

/-- A text that is no number has one spelling. -/
theorem eq_of_exactHex?_eq_none (h : Respells text other) (reads : exactHex? text = none) :
    other = text := by
  cases h with
  | same => rfl
  | numeral first second value =>
    rw [exactHex?_of_isNumeral first] at reads
    cases reads

end Respells

end Numeral

open Numeral (Respells)

theorem ServiceCall.exactHex?_spelling (call : ServiceCall) :
    Numeral.exactHex? call.spelling = none := by
  cases call <;> decide

/-- The name of an instruction has one spelling. -/
theorem Mnemonic.exists_name_of_respells (name : Mnemonic) {rest others : List String}
    (h : List.Forall₂ Respells (name.spelling :: rest) others) :
    ∃ after, others = name.spelling :: after ∧ List.Forall₂ Respells rest after := by
  obtain ⟨own, after, hname, hrest, rfl⟩ := List.forall₂_cons_left_iff.mp h
  rw [hname.eq_of_exactHex?_eq_none name.exactHex?_spelling]
  exact ⟨after, rfl, hrest⟩

/-- Behind a name, only the operand can be spelled in another way. -/
theorem Mnemonic.exists_operand_of_respells (name : Mnemonic) {text : String}
    {rest others : List String}
    (h : List.Forall₂ Respells (name.spelling :: text :: rest) others) :
    ∃ operand after, others = name.spelling :: operand :: after ∧ Respells text operand ∧
      List.Forall₂ Respells rest after := by
  obtain ⟨behind, rfl, hbehind⟩ := name.exists_name_of_respells h
  obtain ⟨operand, after, hoperand, hafter, rfl⟩ := List.forall₂_cons_left_iff.mp hbehind
  exact ⟨operand, after, rfl, hoperand, hafter⟩

/-- The same cause, with its operand in another spelling. -/
inductive AssembleError.Cause.Respells : Cause → Cause → Prop where
  | truncatedOperand : Respells .truncatedOperand .truncatedOperand
  | invalidNumeral {text other : String} (operand : Numeral.Respells text other) :
      Respells (.invalidNumeral text) (.invalidNumeral other)
  | operandOutOfRange {text other : String} (operand : Numeral.Respells text other) (max : ℕ) :
      Respells (.operandOutOfRange text max) (.operandOutOfRange other max)
  | undefinedLabel {text other : String} (operand : Numeral.Respells text other) :
      Respells (.undefinedLabel text) (.undefinedLabel other)
  | undefinedServiceCall {text other : String} (operand : Numeral.Respells text other) :
      Respells (.undefinedServiceCall text) (.undefinedServiceCall other)
  | undefinedMnemonic : Respells .undefinedMnemonic .undefinedMnemonic

/-- The same error, with its token and its operand in other spellings. -/
structure AssembleError.Respells (error other : AssembleError) : Prop where
  cause : error.cause.Respells other.cause
  index : error.index = other.index
  token : Numeral.Respells error.token other.token
  line : error.line = other.line

/-- The same token in another spelling. -/
structure Token.Respells (token other : Token) : Prop where
  line : token.line = other.line
  text : Numeral.Respells token.text other.text

theorem Token.forall₂_map_text {tokens others : List Token}
    (h : List.Forall₂ Token.Respells tokens others) :
    List.Forall₂ Numeral.Respells (tokens.map Token.text) (others.map Token.text) := by
  rw [List.forall₂_map_left_iff, List.forall₂_map_right_iff]
  exact h.imp (fun _ _ hrespells => hrespells.text)

/-- What is related to two lists one behind the other is cut where the first of them ends. -/
theorem exists_append_of_forall₂ {α β : Type} {R : α → β → Prop} {own behind : List α}
    {others : List β} (h : List.Forall₂ R (own ++ behind) others) :
    ∃ own' behind', others = own' ++ behind' ∧ List.Forall₂ R own own' ∧
      List.Forall₂ R behind behind' := by
  have htake := List.forall₂_take own.length h
  have hdrop := List.forall₂_drop own.length h
  rw [List.take_left] at htake
  rw [List.drop_left] at hdrop
  exact ⟨_, _, (List.take_append_drop own.length others).symm, htake, hdrop⟩

variable {labels : LabelTable}

namespace Phrase

/-- A phrase in another spelling is a phrase with the same record. -/
theorem exists_respelled (phrase : Phrase labels) {others : List String}
    (h : List.Forall₂ Respells phrase.texts others) :
    ∃ respelled : Phrase labels, respelled.texts = others ∧
      ∀ index offset, respelled.record index offset = phrase.record index offset := by
  cases phrase with
  | plain name kind =>
    obtain ⟨after, rfl, hafter⟩ := name.exists_name_of_respells h
    obtain rfl := List.forall₂_nil_left_iff.mp hafter
    exact ⟨.plain name kind, rfl, fun _ _ => rfl⟩
  | immediate name kind text value reads fits =>
    obtain ⟨operand, after, rfl, hoperand, hafter⟩ := name.exists_operand_of_respells h
    obtain rfl := List.forall₂_nil_left_iff.mp hafter
    have hreads := hoperand.exactHex?_eq.trans reads
    exact ⟨.immediate name kind operand value hreads fits, rfl, fun _ _ => rfl⟩
  | jumpNumber text target reads fits =>
    obtain ⟨operand, after, rfl, hoperand, hafter⟩ := Mnemonic.jump.exists_operand_of_respells h
    obtain rfl := List.forall₂_nil_left_iff.mp hafter
    have hreads := hoperand.exactHex?_eq.trans reads
    exact ⟨.jumpNumber operand target hreads fits, rfl, fun _ _ => rfl⟩
  | jumpLabel text target reads bound fits =>
    obtain ⟨operand, after, rfl, hoperand, hafter⟩ := Mnemonic.jump.exists_operand_of_respells h
    obtain rfl := List.forall₂_nil_left_iff.mp hafter
    obtain rfl := hoperand.eq_of_exactHex?_eq_none reads
    exact ⟨.jumpLabel operand target reads bound fits, rfl, fun _ _ => rfl⟩
  | service call =>
    obtain ⟨operand, after, rfl, hoperand, hafter⟩ := Mnemonic.cal.exists_operand_of_respells h
    obtain rfl := List.forall₂_nil_left_iff.mp hafter
    obtain rfl := hoperand.eq_of_exactHex?_eq_none call.exactHex?_spelling
    exact ⟨.service call, rfl, fun _ _ => rfl⟩

/-- A program in another spelling has the same records, phrase by phrase. -/
theorem exists_respelled_records (phrases : List (Phrase labels)) {others : List String}
    (h : List.Forall₂ Respells (phrases.flatMap texts) others) :
    ∃ respelled : List (Phrase labels), respelled.flatMap texts = others ∧
      ∀ index offset, records index offset respelled = records index offset phrases := by
  induction phrases generalizing others with
  | nil =>
    obtain rfl := List.forall₂_nil_left_iff.mp h
    exact ⟨[], rfl, fun _ _ => rfl⟩
  | cons phrase phrases ih =>
    rw [List.flatMap_cons] at h
    obtain ⟨own, behind, rfl, hown, hbehind⟩ := exists_append_of_forall₂ h
    obtain ⟨first, rfl, hrecord⟩ := phrase.exists_respelled hown
    obtain ⟨rest, rfl, hrecords⟩ := ih hbehind
    have hunitCount : first.units.length = phrase.units.length := by
      rw [← length_units_record first 0 0, hrecord, length_units_record]
    refine ⟨first :: rest, List.flatMap_cons, ?_⟩
    intro index offset
    rw [records, records, hrecord, hown.length_eq, hunitCount, hrecords]

end Phrase

/-- A fault in another spelling is the same fault. -/
theorem Fault.exists_respelled {texts others : List String} {cause : Cause}
    (hfault : Fault labels texts cause) (h : List.Forall₂ Respells texts others) :
    ∃ cause', Fault labels others cause' ∧ cause.Respells cause' := by
  cases hfault with
  | undefinedMnemonic unknown =>
    obtain ⟨own, after, hown, -, rfl⟩ := List.forall₂_cons_left_iff.mp h
    refine ⟨_, .undefinedMnemonic ?_, .undefinedMnemonic⟩
    rintro name rfl
    exact unknown name (hown.symm.eq_of_exactHex?_eq_none name.exactHex?_spelling).symm
  | @truncatedOperand name kind =>
    obtain ⟨after, rfl, hafter⟩ := name.exists_name_of_respells h
    obtain rfl := List.forall₂_nil_left_iff.mp hafter
    exact ⟨_, .truncatedOperand kind, .truncatedOperand⟩
  | @invalidNumeral name text rest kind reads =>
    obtain ⟨operand, after, rfl, hoperand, -⟩ := name.exists_operand_of_respells h
    exact ⟨_, .invalidNumeral kind (hoperand.exactHex?_eq.trans reads), .invalidNumeral hoperand⟩
  | @immediateOutOfRange name text rest value kind reads above =>
    obtain ⟨operand, after, rfl, hoperand, -⟩ := name.exists_operand_of_respells h
    exact ⟨_, .immediateOutOfRange kind (hoperand.exactHex?_eq.trans reads) above,
      .operandOutOfRange hoperand 15⟩
  | numberOutOfRange reads above =>
    obtain ⟨operand, after, rfl, hoperand, -⟩ := Mnemonic.jump.exists_operand_of_respells h
    exact ⟨_, .numberOutOfRange (hoperand.exactHex?_eq.trans reads) above,
      .operandOutOfRange hoperand 0x4F⟩
  | undefinedLabel reads unbound =>
    obtain ⟨operand, after, rfl, hoperand, -⟩ := Mnemonic.jump.exists_operand_of_respells h
    obtain rfl := hoperand.eq_of_exactHex?_eq_none reads
    exact ⟨_, .undefinedLabel reads unbound, .undefinedLabel hoperand⟩
  | labelOutOfRange reads bound above =>
    obtain ⟨operand, after, rfl, hoperand, -⟩ := Mnemonic.jump.exists_operand_of_respells h
    obtain rfl := hoperand.eq_of_exactHex?_eq_none reads
    exact ⟨_, .labelOutOfRange reads bound above, .operandOutOfRange hoperand 239⟩
  | undefinedServiceCall unknown =>
    obtain ⟨operand, after, rfl, hoperand, -⟩ := Mnemonic.cal.exists_operand_of_respells h
    refine ⟨_, .undefinedServiceCall ?_, .undefinedServiceCall hoperand⟩
    rintro call rfl
    exact unknown call (hoperand.symm.eq_of_exactHex?_eq_none call.exactHex?_spelling).symm

namespace TokenStream

/-- Programs that differ in the spelling of numbers have the same code and the same trace, or the
same error up to the spelling. -/
theorem encode_respelled (labels : LabelTable) {tokens others : List Token}
    (h : List.Forall₂ Token.Respells tokens others) :
    (∃ encoded, encode ⟨tokens, labels⟩ = .ok encoded ∧ encode ⟨others, labels⟩ = .ok encoded) ∨
    ∃ error error', encode ⟨tokens, labels⟩ = .error error ∧
      encode ⟨others, labels⟩ = .error error' ∧ error.Respells error' := by
  obtain ⟨phrases, own, rest, rfl, hown, hrest⟩ := Phrase.exists_phrases labels tokens
  obtain ⟨own', rest', rfl, hown', hrest'⟩ := exists_append_of_forall₂ h
  have htexts := Token.forall₂_map_text hown'
  rw [hown] at htexts
  obtain ⟨respelled, hrespelled, hrecords⟩ := Phrase.exists_respelled_records phrases htexts
  rcases hrest with rfl | ⟨cause, hfault⟩
  · obtain rfl := List.forall₂_nil_left_iff.mp hrest'
    refine Or.inl ⟨Phrase.encoded phrases, ?_, ?_⟩
    · rw [List.append_nil, encode_phrases phrases hown]
    · rw [List.append_nil, encode_phrases respelled hrespelled.symm, Phrase.encoded, hrecords,
        Phrase.encoded]
  · obtain ⟨cause', hfault', hcause⟩ := hfault.exists_respelled (Token.forall₂_map_text hrest')
    cases hrest' with
    | nil => cases hfault
    | cons htoken hafter =>
      refine Or.inr ⟨_, _, encode_fault phrases hown hfault,
        encode_fault respelled hrespelled.symm hfault', ?_⟩
      exact ⟨hcause, hown'.length_eq, htoken.text, htoken.line⟩

/-- A label has one of the spellings of a target and is not looked up. Behind the jump, a number
stands where the name of a routine is expected. -/
theorem encode_respelled_like_label :
    let labels := LabelTable.ofList [("F", 200)]
    encode ⟨[⟨"JUMP", 1⟩, ⟨"F", 1⟩], labels⟩ =
      .ok ⟨[0xF, 1, 0], [⟨0, 0, .jump, 0xF, .jump 15 none ⟨1, 0⟩⟩]⟩ ∧
    ∃ error, encode ⟨[⟨"JUMP", 1⟩, ⟨"F", 1⟩, ⟨"CAL", 2⟩, ⟨"01a", 3⟩], labels⟩ = .error error ∧
      AssembleError.Respells ⟨.undefinedServiceCall "1A", 2, "CAL", 2⟩ error := by
  intro labels
  have hname : ∀ token : Token, token.Respells token := fun token => ⟨rfl, .same token.text⟩
  have htarget : Token.Respells ⟨"0f", 1⟩ ⟨"F", 1⟩ :=
    ⟨rfl, .numeral (by decide) (by decide) (by decide +kernel)⟩
  have hroutine : Token.Respells ⟨"1A", 3⟩ ⟨"01a", 3⟩ :=
    ⟨rfl, .numeral (by decide) (by decide) (by decide +kernel)⟩
  have hjump : encode ⟨[⟨"JUMP", 1⟩, ⟨"0f", 1⟩], labels⟩ =
      .ok ⟨[0xF, 1, 0], [⟨0, 0, .jump, 0xF, .jump 15 none ⟨1, 0⟩⟩]⟩ := by decide +kernel
  have hcall : encode ⟨[⟨"JUMP", 1⟩, ⟨"0f", 1⟩, ⟨"CAL", 2⟩, ⟨"1A", 3⟩], labels⟩ =
      .error ⟨.undefinedServiceCall "1A", 2, "CAL", 2⟩ := by decide +kernel
  constructor
  · rcases encode_respelled labels (.cons (hname ⟨"JUMP", 1⟩) (.cons htarget .nil)) with
      ⟨encoded, hfirst, hsecond⟩ | ⟨error, error', hfirst, -⟩
    · rw [hjump] at hfirst
      rw [hsecond, hfirst]
    · rw [hjump] at hfirst
      cases hfirst
  · rcases encode_respelled labels (.cons (hname ⟨"JUMP", 1⟩) (.cons htarget
      (.cons (hname ⟨"CAL", 2⟩) (.cons hroutine .nil)))) with
      ⟨encoded, hfirst, -⟩ | ⟨error, error', hfirst, hsecond, hrespells⟩
    · rw [hcall] at hfirst
      cases hfirst
    · rw [hcall] at hfirst
      obtain rfl := Except.error.inj hfirst
      exact ⟨error', hsecond, hrespells⟩

end TokenStream

end NibbleAsm
