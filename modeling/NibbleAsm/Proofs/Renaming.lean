import NibbleAsm.Proofs.LabelTable
import NibbleAsm.Proofs.Relabeling

/-!
# Renaming labels

Which tokens are operands of jumps is seen only in a run of the second pass: a name of a label may
also be the name of an instruction or of a routine, and stand in its place. If the operands that the
run took for labels and the names in the table are renamed alike, the run stays in step, and its
result is the same up to the names of labels.
-/
namespace NibbleAsm

open AssembleError (Cause)

/-- The places of the operands of the jumps among the instructions. -/
def Instruction.jumpOperands (trace : List Instruction) : List ℕ :=
  (trace.filter (fun record => record.mnemonic = .jump)).map (fun record => record.index + 1)

/-- The places of the tokens that a walk took as operands of jumps. If it stopped at a jump, the
operand that it refused is one of them. -/
def Walk.jumpOperands (walk : Walk) : List ℕ :=
  Instruction.jumpOperands walk.trace ++
    (walk.failure.toList.filter (fun error => error.token = "JUMP")).map
      (fun error => error.index + 1)

namespace Token

variable {ρ : String → String} {places : List ℕ}

/-- The operand of a jump under its new name. A number stays as it is. -/
def renameOperand (ρ : String → String) (token : Token) : Token :=
  { token with text := Jump.renameOperand ρ token.text }

/-- The tokens from a place on, with those at the given places renamed. -/
def renameAt (ρ : String → String) (places : List ℕ) (start : ℕ) (tokens : List Token) :
    List Token :=
  (tokens.zipIdx start).map
    (fun entry => if entry.2 ∈ places then entry.1.renameOperand ρ else entry.1)

@[simp] theorem length_renameAt (start : ℕ) (tokens : List Token) :
    (renameAt ρ places start tokens).length = tokens.length := by
  simp [renameAt]

theorem renameAt_append (start : ℕ) (tokens others : List Token) :
    renameAt ρ places start (tokens ++ others) =
      renameAt ρ places start tokens ++ renameAt ρ places (start + tokens.length) others := by
  simp [renameAt, List.zipIdx_append]

theorem renameAt_cons (start : ℕ) (token : Token) (tokens : List Token) :
    renameAt ρ places start (token :: tokens) =
      (if start ∈ places then token.renameOperand ρ else token) ::
        renameAt ρ places (start + 1) tokens := rfl

/-- Tokens at other places stay as they are. -/
theorem renameAt_of_forall_not_mem {start : ℕ} {tokens : List Token}
    (h : ∀ place, start ≤ place → place < start + tokens.length → place ∉ places) :
    renameAt ρ places start tokens = tokens := by
  induction tokens generalizing start with
  | nil => rfl
  | cons token tokens ih =>
    rw [List.length_cons] at h
    have hfirst : start ∉ places := h start (by omega) (by omega)
    have hothers : renameAt ρ places (start + 1) tokens = tokens := by
      apply ih
      intro place hle hlt
      exact h place (by omega) (by omega)
    rw [renameAt_cons, if_neg hfirst, hothers]

/-- One instruction: of its tokens only the operand of a jump is renamed. -/
theorem exists_renameAt_cons {start : ℕ} {token : Token} {rest : List Token}
    (h : ∀ place, start ≤ place → place < start + (token :: rest).length →
      (place ∈ places ↔ token.text = "JUMP" ∧ place = start + 1)) :
    ∃ renamed, renameAt ρ places start (token :: rest) = token :: renamed ∧
      token.text :: renamed.map text = Jump.renameFirst ρ (token.text :: rest.map text) := by
  rw [List.length_cons] at h
  have hname : start ∉ places := by
    rw [h start (by omega) (by omega)]
    omega
  rw [renameAt_cons, if_neg hname]
  refine ⟨_, rfl, ?_⟩
  cases rest with
  | nil => rfl
  | cons operand rest =>
    rw [List.length_cons] at h
    have hrest : renameAt ρ places (start + 1 + 1) rest = rest := by
      apply renameAt_of_forall_not_mem
      intro place hle hlt
      rw [h place (by omega) (by omega)]
      omega
    have hoperand : start + 1 ∈ places ↔ token.text = "JUMP" := by
      simp [h (start + 1) (by omega) (by omega)]
    rw [renameAt_cons, hrest, if_congr hoperand rfl rfl, List.map_cons, List.map_cons,
      Jump.renameFirst]
    split_ifs <;> rfl

end Token

namespace Phrase

variable {ρ : String → String} {labels : LabelTable}

theorem mem_jumpOperands_records_cons {phrase : Phrase labels} {phrases : List (Phrase labels)}
    {index offset place : ℕ} :
    place ∈ Instruction.jumpOperands (records index offset (phrase :: phrases)) ↔
      (phrase.mnemonic = .jump ∧ place = index + 1) ∨
      place ∈ Instruction.jumpOperands
        (records (index + phrase.texts.length) (offset + phrase.units.length) phrases) := by
  have hmnemonic : (phrase.record index offset).mnemonic = phrase.mnemonic := rfl
  rw [records, Instruction.jumpOperands, List.filter_cons, hmnemonic]
  by_cases hjump : phrase.mnemonic = .jump
  · simp [hjump, record, Instruction.jumpOperands]
  · simp [hjump, Instruction.jumpOperands]

theorem length_texts_of_jump {phrase : Phrase labels} (h : phrase.mnemonic = .jump) :
    phrase.texts.length = 2 := by
  rw [length_texts, h]
  rfl

/-- The operands of the jumps stand among the tokens, and none of them is the first. -/
theorem lt_of_mem_jumpOperands {phrases : List (Phrase labels)} {index offset place : ℕ}
    (h : place ∈ Instruction.jumpOperands (records index offset phrases)) :
    index < place ∧ place < index + (phrases.flatMap texts).length := by
  induction phrases generalizing index offset with
  | nil => cases h
  | cons phrase phrases ih =>
    rw [List.flatMap_cons, List.length_append]
    rcases mem_jumpOperands_records_cons.mp h with ⟨hjump, rfl⟩ | hmem
    · have hlength := length_texts_of_jump hjump
      omega
    · have hbounds := ih hmem
      omega

/-- The tokens of one phrase. -/
theorem map_text_renameAt_phrase (phrase : Phrase labels) {own : List Token}
    (htexts : own.map Token.text = phrase.texts) {places : List ℕ} {index : ℕ}
    (hplaces : ∀ place, index ≤ place → place < index + own.length →
      (place ∈ places ↔ phrase.mnemonic = .jump ∧ place = index + 1)) :
    (Token.renameAt ρ places index own).map Token.text = Jump.renameFirst ρ phrase.texts := by
  cases own with
  | nil => exact absurd htexts.symm phrase.texts_ne_nil
  | cons token operands =>
    have hname : token.text = phrase.mnemonic.spelling := by
      have hhead := phrase.head?_texts
      rw [← htexts] at hhead
      exact Option.some.inj hhead
    have hjump : token.text = "JUMP" ↔ phrase.mnemonic = .jump := by
      rw [hname, Mnemonic.spelling_eq_jump_iff]
    simp only [← hjump] at hplaces
    obtain ⟨renamed, hrename, hrenamed⟩ := Token.exists_renameAt_cons hplaces
    rw [hrename, List.map_cons, hrenamed, ← List.map_cons, htexts]

/-- The tokens of consecutive phrases. -/
theorem map_text_renameAt (phrases : List (Phrase labels)) {own : List Token}
    (htexts : own.map Token.text = phrases.flatMap texts) {places : List ℕ} (index offset : ℕ)
    (hplaces : ∀ place, index ≤ place → place < index + own.length →
      (place ∈ places ↔ place ∈ Instruction.jumpOperands (records index offset phrases))) :
    (Token.renameAt ρ places index own).map Token.text =
      phrases.flatMap (fun phrase => Jump.renameFirst ρ phrase.texts) := by
  induction phrases generalizing own index offset with
  | nil =>
    obtain rfl := List.map_eq_nil_iff.mp htexts
    rfl
  | cons phrase phrases ih =>
    rw [List.flatMap_cons] at htexts ⊢
    obtain ⟨first, others, rfl, hfirst, hothers⟩ := List.map_eq_append_iff.mp htexts
    have hlength : first.length = phrase.texts.length := by rw [← hfirst, List.length_map]
    rw [List.length_append] at hplaces
    simp only [mem_jumpOperands_records_cons] at hplaces
    -- A place belongs to the first phrase or to the others, on which side of its end it lies.
    have hown : (Token.renameAt ρ places index first).map Token.text =
        Jump.renameFirst ρ phrase.texts := by
      apply map_text_renameAt_phrase phrase hfirst
      intro place hle hlt
      rw [hplaces place hle (by omega), or_iff_left]
      intro hmem
      have hbounds := lt_of_mem_jumpOperands hmem
      omega
    have hbehind : (Token.renameAt ρ places (index + first.length) others).map Token.text =
        phrases.flatMap (fun phrase => Jump.renameFirst ρ phrase.texts) := by
      apply ih hothers _ (offset + phrase.units.length)
      intro place hle hlt
      rw [hplaces place (by omega) (by omega), or_iff_right, hlength]
      rintro ⟨hjump, rfl⟩
      have hcount := length_texts_of_jump hjump
      omega
    rw [Token.renameAt_append, List.map_append, hown, hbehind]

end Phrase

namespace TokenStream

/-- The stream with its labels renamed: the names in the table, and the tokens that the second pass
takes as operands of jumps and that are no numbers. -/
def rename (ρ : String → String) (stream : TokenStream) : TokenStream :=
  ⟨Token.renameAt ρ stream.walk.jumpOperands 0 stream.tokens, stream.labels.rename ρ⟩

section

variable (ρ : String → String) {labels : LabelTable} (phrases : List (Phrase labels))
  {own : List Token} (htexts : own.map Token.text = phrases.flatMap Phrase.texts)
include htexts

/-- In an accepted program the phrases are renamed. -/
theorem map_text_rename_phrases :
    (rename ρ ⟨own, labels⟩).tokens.map Token.text =
      phrases.flatMap (fun phrase => Jump.renameFirst ρ phrase.texts) := by
  apply Phrase.map_text_renameAt phrases htexts 0 0
  intro place _ _
  rw [walk_phrases phrases htexts]
  simp [Walk.jumpOperands]

theorem mem_jumpOperands_walk_fault {token : Token} {rest : List Token} {cause : Cause}
    (hfault : Fault labels (token.text :: rest.map Token.text) cause) (place : ℕ) :
    place ∈ (walk ⟨own ++ token :: rest, labels⟩).jumpOperands ↔
      place ∈ Instruction.jumpOperands (Phrase.records 0 0 phrases) ∨
        token.text = "JUMP" ∧ place = own.length + 1 := by
  rw [walk_fault phrases htexts hfault, Walk.jumpOperands, List.mem_append]
  by_cases hjump : token.text = "JUMP"
  · simp [hjump]
  · simp [hjump]

/-- In a refused program the phrases are renamed, and so is the operand of a jump at fault. What
stands behind is never read and stays as it is. -/
theorem rename_fault {token : Token} {rest : List Token} {cause : Cause}
    (hfault : Fault labels (token.text :: rest.map Token.text) cause) :
    ∃ own' rest', rename ρ ⟨own ++ token :: rest, labels⟩ =
        ⟨own' ++ token :: rest', labels.rename ρ⟩ ∧
      own'.length = own.length ∧
      own'.map Token.text = phrases.flatMap (fun phrase => Jump.renameFirst ρ phrase.texts) ∧
      token.text :: rest'.map Token.text =
        Jump.renameFirst ρ (token.text :: rest.map Token.text) := by
  have hplaces := mem_jumpOperands_walk_fault phrases htexts hfault
  have hlength : own.length = (phrases.flatMap Phrase.texts).length := by
    rw [← htexts, List.length_map]
  rw [rename]
  generalize (walk ⟨own ++ token :: rest, labels⟩).jumpOperands = places at hplaces
  have hown : (Token.renameAt ρ places 0 own).map Token.text =
      phrases.flatMap (fun phrase => Jump.renameFirst ρ phrase.texts) := by
    apply Phrase.map_text_renameAt phrases htexts 0 0
    intro place _ hlt
    rw [hplaces, or_iff_left]
    omega
  obtain ⟨rest', hrename, hrest⟩ : ∃ rest',
      Token.renameAt ρ places own.length (token :: rest) = token :: rest' ∧
      token.text :: rest'.map Token.text =
        Jump.renameFirst ρ (token.text :: rest.map Token.text) := by
    apply Token.exists_renameAt_cons
    intro place hle _
    rw [hplaces, or_iff_right]
    intro hmem
    have hbounds := Phrase.lt_of_mem_jumpOperands hmem
    omega
  refine ⟨_, rest', ?_, Token.length_renameAt 0 own, hown, hrest⟩
  rw [Token.renameAt_append, Nat.zero_add, hrename]

end

/-- Renaming labels consistently renames them in the result and changes nothing else. -/
theorem encode_rename {ρ : String → String} (injective : Function.Injective ρ)
    (keeps : ∀ text, Numeral.exactHex? text = none → Numeral.exactHex? (ρ text) = none)
    (stream : TokenStream) :
    (stream.rename ρ).encode =
      (stream.encode.map (Encoded.renameLabels ρ)).mapError (AssembleError.renameLabel ρ) := by
  obtain ⟨tokens, labels⟩ := stream
  have agrees : ∀ name, Jump.Agrees ρ labels (labels.rename ρ) name := by
    intro name hname
    exact ⟨keeps name hname, labels.find?_rename injective name⟩
  obtain ⟨phrases, own, rest, rfl, hown, rfl | ⟨cause, hfault⟩⟩ :=
    Phrase.exists_phrases labels tokens
  · rw [List.append_nil, encode_phrases phrases hown]
    exact encode_renamed_phrases phrases (fun _ _ name _ => agrees name)
      (map_text_rename_phrases ρ phrases hown)
  · cases rest with
    | nil => cases hfault
    | cons token rest =>
      obtain ⟨own', rest', hrename, hlength, hown', hrest'⟩ :=
        rename_fault ρ phrases hown hfault
      rw [hrename, encode_fault phrases hown hfault, ← hlength]
      exact encode_renamed_fault phrases (fun _ _ name _ => agrees name) hown' hfault
        (fun name _ => agrees name) hrest'

/-- The first label is spelled like the instruction that jumps to it, and the second one lies too
far. Only operands are renamed. -/
theorem encode_rename_underscore :
    encode ⟨[⟨"JUMP", 1⟩, ⟨"_JUMP", 1⟩, ⟨"JUMP", 2⟩, ⟨"_far", 2⟩],
        .ofList [("_JUMP", 1), ("_far", 240)]⟩ =
      .error ⟨.operandOutOfRange "_far" 239, 2, "JUMP", 2⟩ := by
  have injective : Function.Injective (fun name : String => "_" ++ name) := by
    intro a b h
    have hlist := congrArg String.toList h
    simpa [String.toList_inj] using hlist
  have keeps : ∀ text, Numeral.exactHex? text = none → Numeral.exactHex? ("_" ++ text) = none := by
    intro text _
    simp [Numeral.exactHex?, Numeral.hexDigit?]
  have hrename := encode_rename injective keeps
    ⟨[⟨"JUMP", 1⟩, ⟨"JUMP", 1⟩, ⟨"JUMP", 2⟩, ⟨"far", 2⟩],
    .ofList [("JUMP", 1), ("far", 240)]⟩
  have hstream : rename (fun name : String => "_" ++ name)
      ⟨[⟨"JUMP", 1⟩, ⟨"JUMP", 1⟩, ⟨"JUMP", 2⟩, ⟨"far", 2⟩], .ofList [("JUMP", 1), ("far", 240)]⟩ =
      ⟨[⟨"JUMP", 1⟩, ⟨"_JUMP", 1⟩, ⟨"JUMP", 2⟩, ⟨"_far", 2⟩],
        .ofList [("_JUMP", 1), ("_far", 240)]⟩ := by decide +kernel
  have hencode : encode ⟨[⟨"JUMP", 1⟩, ⟨"JUMP", 1⟩, ⟨"JUMP", 2⟩, ⟨"far", 2⟩],
      .ofList [("JUMP", 1), ("far", 240)]⟩ =
      .error ⟨.operandOutOfRange "far" 239, 2, "JUMP", 2⟩ := by decide +kernel
  rw [hstream, hencode] at hrename
  exact hrename

end TokenStream

end NibbleAsm
