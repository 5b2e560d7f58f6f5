import NibbleAsm.Proofs.Acceptance

/-!
# Phrases under another label table

An instruction looks into the label table only for the operand of a jump, and only if the operand is
no number. The operand may therefore be renamed and the table exchanged: if the new name is found in
the new table as the old name was in the old one, a phrase stays a phrase with the same record, and
a fault stays the same fault, both up to the name. Without renaming this says that only the names
that jumps look up matter.
-/
namespace NibbleAsm

open AssembleError (Cause)

theorem Mnemonic.spelling_eq_jump_iff {name : Mnemonic} : name.spelling = "JUMP" ↔ name = jump := by
  cases name <;> decide

theorem Mnemonic.spelling_ne_jump_of_nibble {name : Mnemonic} (kind : name.operandKind = .nibble) :
    name.spelling ≠ "JUMP" := by
  rw [Ne, spelling_eq_jump_iff]
  rintro rfl
  cases kind

namespace Operand

/-- The label that an operand was resolved from. -/
def label? : Operand → Option String
  | .jump _ label _ => label
  | _ => none

/-- The operand with its label renamed. -/
def renameLabel (ρ : String → String) : Operand → Operand
  | .jump target label units => .jump target (label.map ρ) units
  | operand => operand

@[simp] theorem renameLabel_id (operand : Operand) : operand.renameLabel id = operand := by
  cases operand <;> simp [renameLabel]

@[simp] theorem units_renameLabel (ρ : String → String) (operand : Operand) :
    (operand.renameLabel ρ).units = operand.units := by
  cases operand <;> rfl

end Operand

namespace Instruction

/-- The instruction with its operand's label renamed. -/
def renameLabel (ρ : String → String) (instruction : Instruction) : Instruction :=
  { instruction with operand := instruction.operand.renameLabel ρ }

@[simp] theorem renameLabel_id : renameLabel id = id := by
  funext instruction
  simp [renameLabel]

@[simp] theorem units_renameLabel (ρ : String → String) (instruction : Instruction) :
    (instruction.renameLabel ρ).units = instruction.units := by
  simp [units, renameLabel]

end Instruction

/-- The result with all labels of its trace renamed. The code stays as it is. -/
def Encoded.renameLabels (ρ : String → String) (encoded : Encoded) : Encoded :=
  ⟨encoded.codes, encoded.trace.map (Instruction.renameLabel ρ)⟩

@[simp] theorem Encoded.renameLabels_id (encoded : Encoded) :
    encoded.renameLabels id = encoded := by
  simp [renameLabels]

namespace AssembleError

/-- The cause with its label renamed. An operand above the limit 239 is always a label. -/
def Cause.renameLabel (ρ : String → String) : Cause → Cause
  | undefinedLabel operand => undefinedLabel (ρ operand)
  | operandOutOfRange operand max =>
    operandOutOfRange (if max = 239 then ρ operand else operand) max
  | cause => cause

@[simp] theorem Cause.renameLabel_id (cause : Cause) : cause.renameLabel id = cause := by
  cases cause <;> simp [renameLabel]

/-- The error with the label of its cause renamed. -/
def renameLabel (ρ : String → String) (error : AssembleError) : AssembleError :=
  { error with cause := error.cause.renameLabel ρ }

@[simp] theorem renameLabel_id (error : AssembleError) : error.renameLabel id = error := by
  simp [renameLabel]

end AssembleError

namespace Jump

/-- The operand of a jump with which the texts begin. -/
def operand? : List String → Option String
  | name :: operand :: _ => if name = "JUMP" then some operand else none
  | _ => none

theorem mem_of_mem_operand? {texts : List String} {name : String} (h : name ∈ operand? texts) :
    name ∈ texts := by
  fun_cases operand? texts <;> simp_all [operand?]

/-- The operand of a jump under a new name. A number stays as it is. -/
def renameOperand (ρ : String → String) (operand : String) : String :=
  if Numeral.exactHex? operand = none then ρ operand else operand

/-- The texts with the operand of the jump, if they begin with one, under a new name. -/
def renameFirst (ρ : String → String) : List String → List String
  | name :: operand :: rest =>
    name :: (if name = "JUMP" then renameOperand ρ operand else operand) :: rest
  | texts => texts

@[simp] theorem renameFirst_id (texts : List String) : renameFirst id texts = texts := by
  fun_cases renameFirst id texts <;> simp [renameOperand]

@[simp] theorem length_renameFirst (ρ : String → String) (texts : List String) :
    (renameFirst ρ texts).length = texts.length := by
  fun_cases renameFirst ρ texts <;> simp

/-- A name that is not a number is, under its new name, no number either, and it is found in the
second table as in the first. -/
def Agrees (ρ : String → String) (labels labels' : LabelTable) (name : String) : Prop :=
  Numeral.exactHex? name = none →
    Numeral.exactHex? (ρ name) = none ∧ labels'.find? (ρ name) = labels.find? name

end Jump

variable {ρ : String → String} {labels labels' : LabelTable}

namespace Phrase

/-- One phrase under another table. -/
theorem exists_renamed (phrase : Phrase labels)
    (agrees : ∀ name ∈ Jump.operand? phrase.texts, Jump.Agrees ρ labels labels' name) :
    ∃ renamed : Phrase labels', renamed.texts = Jump.renameFirst ρ phrase.texts ∧
      ∀ index offset, renamed.record index offset = (phrase.record index offset).renameLabel ρ := by
  cases phrase with
  | plain name kind => exact ⟨.plain name kind, rfl, fun _ _ => rfl⟩
  | immediate name kind text value reads fits =>
    have hname := Mnemonic.spelling_ne_jump_of_nibble kind
    exact ⟨.immediate name kind text value reads fits, by simp [texts, Jump.renameFirst, hname],
      fun _ _ => rfl⟩
  | jumpNumber text target reads fits =>
    exact ⟨.jumpNumber text target reads fits,
      by simp [texts, Jump.renameFirst, Jump.renameOperand, reads], fun _ _ => rfl⟩
  | jumpLabel text target reads bound fits =>
    obtain ⟨hreads, hfind⟩ := agrees text rfl reads
    exact ⟨.jumpLabel (ρ text) target hreads (hfind.trans bound) fits,
      by simp [texts, Jump.renameFirst, Jump.renameOperand, reads], fun _ _ => rfl⟩
  | service call => exact ⟨.service call, rfl, fun _ _ => rfl⟩

/-- A jump operand that is no number is the label of the phrase. -/
theorem label?_operand {phrase : Phrase labels} {name : String}
    (hoperand : name ∈ Jump.operand? phrase.texts) (hname : Numeral.exactHex? name = none) :
    phrase.operand.label? = some name := by
  cases phrase with
  | plain own kind => cases hoperand
  | immediate own kind text value reads fits =>
    simp [texts, Jump.operand?, Mnemonic.spelling_ne_jump_of_nibble kind] at hoperand
  | jumpNumber text target reads fits =>
    obtain rfl : text = name := by simpa [texts, Jump.operand?] using hoperand
    simp [hname] at reads
  | jumpLabel text target reads bound fits =>
    obtain rfl : text = name := by simpa [texts, Jump.operand?] using hoperand
    rfl
  | service call => simp [texts, Jump.operand?] at hoperand

/-- A program under another table: the instructions keep their places. -/
theorem exists_renamed_records (phrases : List (Phrase labels))
    (agrees : ∀ phrase ∈ phrases, ∀ name ∈ Jump.operand? phrase.texts,
      Jump.Agrees ρ labels labels' name) :
    ∃ renamed : List (Phrase labels'),
      renamed.flatMap texts = phrases.flatMap (fun phrase => Jump.renameFirst ρ phrase.texts) ∧
      ∀ index offset, records index offset renamed =
        (records index offset phrases).map (Instruction.renameLabel ρ) := by
  induction phrases with
  | nil => exact ⟨[], rfl, fun _ _ => rfl⟩
  | cons phrase phrases ih =>
    rw [List.forall_mem_cons] at agrees
    obtain ⟨first, htexts, hrecord⟩ := phrase.exists_renamed agrees.1
    obtain ⟨others, hothers, hrecords⟩ := ih agrees.2
    have htextCount : first.texts.length = phrase.texts.length := by
      rw [htexts, Jump.length_renameFirst]
    have hunitCount : first.units.length = phrase.units.length := by
      rw [← length_units_record first 0 0, hrecord, Instruction.units_renameLabel,
        length_units_record]
    refine ⟨first :: others, ?_, ?_⟩
    · rw [List.flatMap_cons, htexts, hothers, List.flatMap_cons]
    · intro index offset
      rw [records, records, List.map_cons, hrecord, htextCount, hunitCount, hrecords]

end Phrase

/-- A fault under another table. -/
theorem Fault.rename {texts : List String} {cause : Cause} (h : Fault labels texts cause)
    (agrees : ∀ name ∈ Jump.operand? texts, Jump.Agrees ρ labels labels' name) :
    Fault labels' (Jump.renameFirst ρ texts) (cause.renameLabel ρ) := by
  -- Only the faults of a jump involve the table; the others keep their texts.
  cases h with
  | @undefinedMnemonic text rest unknown => cases rest <;> exact .undefinedMnemonic unknown
  | truncatedOperand kind => exact .truncatedOperand kind
  | @invalidNumeral name text rest kind reads =>
    rw [Jump.renameFirst, if_neg (Mnemonic.spelling_ne_jump_of_nibble kind)]
    exact .invalidNumeral kind reads
  | @immediateOutOfRange name text rest value kind reads above =>
    rw [Jump.renameFirst, if_neg (Mnemonic.spelling_ne_jump_of_nibble kind)]
    exact .immediateOutOfRange kind reads above
  | @numberOutOfRange text rest target reads above =>
    have hoperand : Jump.renameOperand ρ text = text := by simp [Jump.renameOperand, reads]
    rw [Jump.renameFirst, if_pos rfl, hoperand]
    exact .numberOutOfRange reads above
  | @undefinedLabel text rest reads unbound =>
    obtain ⟨hreads, hfind⟩ := agrees text rfl reads
    rw [Jump.renameFirst, if_pos rfl, Jump.renameOperand, if_pos reads]
    exact .undefinedLabel hreads (hfind.trans unbound)
  | @labelOutOfRange text rest target reads bound above =>
    obtain ⟨hreads, hfind⟩ := agrees text rfl reads
    rw [Jump.renameFirst, if_pos rfl, Jump.renameOperand, if_pos reads]
    exact .labelOutOfRange hreads (hfind.trans bound) above
  | undefinedServiceCall unknown => exact .undefinedServiceCall unknown

namespace TokenStream

/-- An accepted program under another table. -/
theorem encode_renamed_phrases (phrases : List (Phrase labels))
    (agrees : ∀ phrase ∈ phrases, ∀ name ∈ Jump.operand? phrase.texts,
      Jump.Agrees ρ labels labels' name) {tokens : List Token}
    (htexts : tokens.map Token.text =
      phrases.flatMap (fun phrase => Jump.renameFirst ρ phrase.texts)) :
    encode ⟨tokens, labels'⟩ = .ok ((Phrase.encoded phrases).renameLabels ρ) := by
  obtain ⟨renamed, hrenamed, hrecords⟩ := Phrase.exists_renamed_records phrases agrees
  rw [encode_phrases renamed (htexts.trans hrenamed.symm), Phrase.encoded, hrecords]
  simp [Encoded.renameLabels, Phrase.encoded, List.flatMap_map]

/-- A refused program under another table. -/
theorem encode_renamed_fault (phrases : List (Phrase labels))
    (agrees : ∀ phrase ∈ phrases, ∀ name ∈ Jump.operand? phrase.texts,
      Jump.Agrees ρ labels labels' name) {own rest : List Token} {token : Token}
    (htexts : own.map Token.text =
      phrases.flatMap (fun phrase => Jump.renameFirst ρ phrase.texts))
    {texts : List String} {cause : Cause} (hfault : Fault labels texts cause)
    (hagrees : ∀ name ∈ Jump.operand? texts, Jump.Agrees ρ labels labels' name)
    (hrest : token.text :: rest.map Token.text = Jump.renameFirst ρ texts) :
    encode ⟨own ++ token :: rest, labels'⟩ =
      .error (AssembleError.renameLabel ρ ⟨cause, own.length, token.text, token.line⟩) := by
  obtain ⟨renamed, hrenamed, -⟩ := Phrase.exists_renamed_records phrases agrees
  have hfault' := hfault.rename hagrees
  rw [← hrest] at hfault'
  rw [encode_fault renamed (htexts.trans hrenamed.symm) hfault']
  rfl

end TokenStream

end NibbleAsm
