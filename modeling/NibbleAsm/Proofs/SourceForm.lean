import NibbleAsm.Listing
import NibbleAsm.Proofs.Decodability
import NibbleAsm.Proofs.LineWords

/-!
# Programs in source form

An instruction printed in source form consists of plain words, which no reader of lines, comments or
labels touches. Without the names of labels, and as long as its target may be written as a number,
it is again a phrase of the grammar, with the same meaning and in need of no label. The printed
instructions of a program therefore assemble to the program.
-/
namespace NibbleAsm

namespace Word

/-- The character separates no words, belongs to no marker of a comment and declares no label. -/
def PlainChar (c : Char) : Prop :=
  isSeparator c = false ∧ c ≠ ';' ∧ c ≠ '/' ∧ c ≠ ':'

instance (c : Char) : Decidable (PlainChar c) :=
  inferInstanceAs (Decidable (_ ∧ _))

/-- A word of plain characters, which stands for itself wherever it is written. -/
def Plain (word : Word) : Prop :=
  word ≠ [] ∧ ∀ c ∈ word, PlainChar c

instance (word : Word) : Decidable (Plain word) :=
  @instDecidableAnd _ _ inferInstance (List.decidableBAll PlainChar word)

theorem Plain.separatorFree {word : Word} (h : Plain word) : SeparatorFree word :=
  fun c hc => (h.2 c hc).1

theorem Plain.isToken {word : Word} (h : Plain word) : word.isToken = true := by
  have hlast : word.getLast? ≠ some ':' := by
    intro hlast
    exact (h.2 ':' (List.mem_of_getLast? hlast)).2.2.2 rfl
  simpa [Word.isToken] using hlast

theorem mem_or_eq_of_mem_intercalate {words : List Word} {c : Char}
    (h : c ∈ [' '].intercalate words) : (∃ word ∈ words, c ∈ word) ∨ c = ' ' := by
  induction words with
  | nil => cases h
  | cons word words ih =>
    cases words with
    | nil => exact Or.inl ⟨word, by simp, by simpa using h⟩
    | cons second others =>
      rw [List.intercalate_cons_cons, List.mem_append, List.mem_append, List.mem_singleton] at h
      rcases h with (hword | hblank) | hrest
      · exact Or.inl ⟨word, by simp, hword⟩
      · exact Or.inr hblank
      · rcases ih hrest with ⟨own, hown, hc⟩ | hblank
        · exact Or.inl ⟨own, List.mem_cons_of_mem word hown, hc⟩
        · exact Or.inr hblank

section

variable {words : List Word} (hwords : ∀ word ∈ words, Plain word)
include hwords

theorem not_mem_newline_intercalate : '\n' ∉ [' '].intercalate words := by
  intro h
  rcases mem_or_eq_of_mem_intercalate h with ⟨word, hword, hc⟩ | hblank
  · have hseparator := ((hwords word hword).2 _ hc).1
    exact absurd hseparator (by decide)
  · exact absurd hblank (by decide)

theorem strip_intercalate : Comment.strip ([' '].intercalate words) = [' '].intercalate words := by
  have hplain : ∀ c ∈ [' '].intercalate words, c ≠ ';' ∧ c ≠ '/' := by
    intro c hc
    rcases mem_or_eq_of_mem_intercalate hc with ⟨word, hword, hc⟩ | rfl
    · obtain ⟨-, hsemicolon, hslash, -⟩ := (hwords word hword).2 c hc
      exact ⟨hsemicolon, hslash⟩
    · decide
  have hstrip := Comment.strip_append_of_forall hplain []
  simpa using hstrip

/-- A line of plain words with blanks between them has these words. -/
theorem ofSourceLine_intercalate : ofSourceLine ([' '].intercalate words) = words := by
  rw [ofSourceLine, strip_intercalate hwords]
  by_cases hne : words = []
  · rw [hne]
    rfl
  · have hpieces : ∀ word ∈ words, SeparatorFree word :=
      fun word hword => (hwords word hword).separatorFree
    rw [ofLine, Text.splitWhere_intercalate (by decide) hpieces hne, List.filter_eq_self]
    intro word hword
    simpa using (hwords word hword).1

end

end Word

/-- The words of an operand in source form: one, or none if there is nothing to print. -/
def Operand.words (operand : Operand) : List String :=
  if operand.text.isEmpty then [] else [operand.text]

/-- The words of an instruction in source form. -/
def Instruction.words (instruction : Instruction) : List String :=
  instruction.mnemonic.spelling :: instruction.operand.words

theorem Instruction.toList_text (instruction : Instruction) :
    instruction.text.toList = [' '].intercalate (instruction.words.map String.toList) := by
  rw [text, words, Operand.words]
  split
  · simp
  · simp [List.intercalate_cons_cons]

theorem Operand.words_of_plain {operand : Operand} (h : Word.Plain operand.text.toList) :
    operand.words = [operand.text] := by
  rw [words, if_neg]
  intro hempty
  exact h.1 (by simpa using hempty)

theorem Mnemonic.plain_spelling (name : Mnemonic) : Word.Plain name.spelling.toList := by
  cases name <;> decide

theorem ServiceCall.plain_spelling (call : ServiceCall) : Word.Plain call.spelling.toList := by
  cases call <;> decide

theorem Nibble.plain_text (unit : Nibble) : Word.Plain unit.text.toList := by
  revert unit
  decide

theorem Numeral.plain_hexAtLeast (width n : ℕ) : Word.Plain (hexAtLeast width n).toList := by
  rw [toList_hexAtLeast]
  refine ⟨by simpa using paddedDigits_ne_nil width n, ?_⟩
  intro c hc
  obtain ⟨d, hd, rfl⟩ := List.mem_map.mp hc
  have hunit := Nibble.plain_text ⟨d, lt_of_mem_paddedDigits hd⟩
  exact hunit.2 (digitChar d) (by simp [Nibble.text, Nibble.digit])

/-- A jump without a label is printed as a number. -/
theorem Operand.words_jumpTo (target : ℕ) :
    (jumpTo none target).words = [Numeral.hexAtLeast 2 target] :=
  words_of_plain (Numeral.plain_hexAtLeast 2 target)

/-- Without the name of a label, an operand is printed as a plain word or not at all. -/
theorem Operand.plain_text_eraseLabel (operand : Operand) :
    operand.eraseLabel.text = "" ∨ Word.Plain operand.eraseLabel.text.toList := by
  cases operand with
  | absent => exact Or.inl rfl
  | immediate value => exact Or.inr value.plain_text
  | jump target label units => exact Or.inr (Numeral.plain_hexAtLeast 2 target)
  | service call => exact Or.inr call.plain_spelling

theorem Instruction.plain_words_eraseLabel (instruction : Instruction) :
    ∀ word ∈ instruction.eraseLabel.words.map String.toList, Word.Plain word := by
  have hname := instruction.mnemonic.plain_spelling
  rcases instruction.operand.plain_text_eraseLabel with hempty | hplain
  · have hwords : instruction.operand.eraseLabel.words = [] := by
      rw [Operand.words, hempty]
      rfl
    simpa [words, eraseLabel, hwords] using hname
  · simpa [words, eraseLabel, Operand.words_of_plain hplain] using ⟨hname, hplain⟩

theorem Instruction.units_eraseLabel (instruction : Instruction) :
    instruction.eraseLabel.units = instruction.units := by
  obtain ⟨index, offset, mnemonic, opcode, operand⟩ := instruction
  cases operand <;> rfl

theorem Nibble.exactHex?_text (unit : Nibble) : Numeral.exactHex? unit.text = some unit.val := by
  revert unit
  decide

namespace Phrase

variable {labels : LabelTable}

/-- An instruction in source form is a phrase without need of labels, if its target may be written
as a number. -/
theorem exists_written (phrase : Phrase labels)
    (near : ∀ target ∈ phrase.operand.target?, target ≤ 0x4F) (index offset : ℕ) :
    ∃ written : Phrase .empty,
      written.texts = (phrase.record index offset).eraseLabel.words ∧
      written.record index offset = (phrase.record index offset).eraseLabel := by
  cases phrase with
  | plain name kind => exact ⟨.plain name kind, rfl, rfl⟩
  | immediate name kind text value reads fits =>
    have hreads := (Nibble.truncate value).exactHex?_text
    rw [Nibble.truncate_val_of_lt (Nat.lt_succ_of_le fits)] at hreads
    have hwords : (Operand.immediate (.truncate value)).words = [(Nibble.truncate value).text] :=
      Operand.words_of_plain (Nibble.plain_text _)
    exact ⟨.immediate name kind _ value hreads fits,
      congrArg (name.spelling :: ·) hwords.symm, rfl⟩
  | jumpNumber text target reads fits =>
    exact ⟨.jumpNumber _ target (Numeral.exactHex?_hexAtLeast 2 target) fits,
      congrArg ("JUMP" :: ·) (Operand.words_jumpTo target).symm, rfl⟩
  | jumpLabel text target reads bound fits =>
    exact ⟨.jumpNumber _ target (Numeral.exactHex?_hexAtLeast 2 target) (near target rfl),
      congrArg ("JUMP" :: ·) (Operand.words_jumpTo target).symm, rfl⟩
  | service call =>
    have hwords : (Operand.service call).words = [call.spelling] :=
      Operand.words_of_plain call.plain_spelling
    exact ⟨.service call, congrArg ("CAL" :: ·) hwords.symm, rfl⟩

/-- Records in source form are phrases with the same records, up to the names of labels. -/
theorem exists_written_records (phrases : List (Phrase labels)) (index offset : ℕ)
    (near : ∀ record ∈ records index offset phrases, ∀ target ∈ record.operand.target?,
      target ≤ 0x4F) :
    ∃ written : List (Phrase .empty),
      written.flatMap texts =
        (records index offset phrases).flatMap (fun record => record.eraseLabel.words) ∧
      records index offset written =
        (records index offset phrases).map Instruction.eraseLabel := by
  induction phrases generalizing index offset with
  | nil => exact ⟨[], rfl, rfl⟩
  | cons phrase phrases ih =>
    rw [records] at near ⊢
    rw [List.forall_mem_cons] at near
    obtain ⟨first, htexts, hrecord⟩ := phrase.exists_written near.1 index offset
    obtain ⟨others, hothers, hrecords⟩ := ih _ _ near.2
    -- The first phrase takes as much as before, so the others keep their places.
    have hname : first.mnemonic = phrase.mnemonic := congrArg Instruction.mnemonic hrecord
    have htextCount : first.texts.length = phrase.texts.length := by
      rw [length_texts, length_texts, hname]
    have hunitCount : first.units.length = phrase.units.length := by
      rw [← length_units_record first index offset, hrecord, Instruction.units_eraseLabel,
        length_units_record]
    refine ⟨first :: others, ?_, ?_⟩
    · rw [List.flatMap_cons, htexts, hothers, List.flatMap_cons]
    · rw [records, htextCount, hunitCount, hrecord, hrecords, List.map_cons]

end Phrase

/-- A source whose words are phrases without labels is assembled as these phrases. -/
theorem assemble_of_phrases {source : String} (phrases : List (Phrase .empty))
    (hwords : (Word.linesOf source.toList).flatten =
      (phrases.flatMap Phrase.texts).map String.toList)
    (htokens : ∀ word ∈ (Word.linesOf source.toList).flatten, word.isToken = true) :
    assemble source =
      .ok ⟨(Phrase.encoded phrases).codes, .empty, (Phrase.encoded phrases).trace,
        (phrases.flatMap Phrase.texts).length⟩ := by
  rw [← Word.map_fst_entriesOfSource] at hwords htokens
  have hlabels : (TokenStream.ofSource source).labels = .empty := by
    rw [TokenStream.ofSource_eq_read]
    apply Scan.labels_read_of_forall_isToken
    intro entry hentry
    exact htokens entry.1 (List.mem_map_of_mem hentry)
  have htexts : (TokenStream.ofSource source).tokens.map Token.text =
      phrases.flatMap Phrase.texts := by
    rw [TokenStream.map_text_tokens_ofSource, List.filter_eq_self.mpr htokens, hwords,
      List.map_map]
    simp [Function.comp_def]
  rw [assemble_eq_map_encode]
  generalize TokenStream.ofSource source = stream at hlabels htexts ⊢
  obtain ⟨tokens, labels⟩ := stream
  obtain rfl : labels = .empty := hlabels
  rw [TokenStream.encode_phrases phrases htexts, ← htexts, List.length_map]
  rfl

/-- The instructions of an assembled program in source form, without the names of labels. -/
def Assembly.sourceForm (assembly : Assembly) : String :=
  "\n".intercalate (assembly.trace.map (fun record => record.eraseLabel.text))

theorem Assembly.flatten_linesOf_sourceForm (assembly : Assembly) :
    (Word.linesOf assembly.sourceForm.toList).flatten =
      (assembly.trace.flatMap (fun record => record.eraseLabel.words)).map String.toList := by
  have htexts : assembly.sourceForm.toList = ['\n'].intercalate (assembly.trace.map
      (fun record => [' '].intercalate (record.eraseLabel.words.map String.toList))) := by
    simp [sourceForm, Instruction.toList_text, Function.comp_def]
  rw [htexts, Word.flatten_linesOf_intercalate, List.flatMap_map, List.map_flatMap]
  · congr 1
    funext record
    exact Word.ofSourceLine_intercalate record.plain_words_eraseLabel
  · intro line hline
    obtain ⟨record, -, rfl⟩ := List.mem_map.mp hline
    exact Word.not_mem_newline_intercalate record.plain_words_eraseLabel

theorem Assembly.isToken_of_mem_sourceForm {assembly : Assembly} {word : Word}
    (h : word ∈ (Word.linesOf assembly.sourceForm.toList).flatten) : word.isToken = true := by
  rw [flatten_linesOf_sourceForm, List.map_flatMap] at h
  obtain ⟨record, -, hword⟩ := List.mem_flatMap.mp h
  exact (record.plain_words_eraseLabel word hword).isToken

/-- A program whose targets may be written as numbers is assembled again from its source form: the
same code from equally many tokens, with the same trace up to the names of labels, and no labels. -/
theorem assemble_sourceForm {source : String} {assembly : Assembly}
    (h : assemble source = .ok assembly)
    (near : ∀ record ∈ assembly.trace, ∀ target ∈ record.operand.target?, target ≤ 0x4F) :
    assemble assembly.sourceForm =
      .ok ⟨assembly.codes, .empty, assembly.trace.map Instruction.eraseLabel,
        assembly.tokenCount⟩ := by
  obtain ⟨encoded, hencode, rfl⟩ := exists_encode_of_assemble_ok h
  obtain ⟨phrases, -, rfl⟩ := TokenStream.exists_phrases_of_encode_ok hencode
  obtain ⟨written, hwords, hrecords⟩ := Phrase.exists_written_records phrases 0 0 near
  have hcodes : (Phrase.encoded written).codes = (Phrase.encoded phrases).codes := by
    rw [Phrase.encoded, hrecords, List.flatMap_map]
    simp only [Instruction.units_eraseLabel]
    rfl
  have hcount : (written.flatMap Phrase.texts).length = (TokenStream.ofSource source).size := by
    rw [Phrase.length_flatMap_texts written 0 0, hrecords]
    exact (TokenStream.length_tokens_eq_add_countP hencode).symm
  rw [assemble_of_phrases written, hcodes, hcount]
  · exact congrArg (fun trace => Except.ok (Assembly.mk _ _ trace _)) hrecords
  · rw [Assembly.flatten_linesOf_sourceForm, hwords]
    rfl
  · exact fun word => Assembly.isToken_of_mem_sourceForm

/-- A label that is spelled like an instruction, a digit of lower case and a comment are gone. -/
theorem assemble_sourceForm_named_jump :
    assemble "KA\nTIA F\nCAL DEM+\nJUMP 01" =
      .ok ⟨[0, 8, 15, 14, 15, 15, 0, 1], .empty, [⟨0, 0, .ka, 0, .absent⟩,
        ⟨1, 1, .tia, 8, .immediate 15⟩, ⟨3, 3, .cal, 14, .service .demPlus⟩,
        ⟨5, 5, .jump, 15, .jump 1 none ⟨0, 1⟩⟩], 7⟩ := by
  have h : assemble "KA AO: TIA 0f // store\nCAL DEM+ JUMP AO" =
      .ok ⟨[0, 8, 15, 14, 15, 15, 0, 1], .ofList [("AO", 1)], [⟨0, 0, .ka, 0, .absent⟩,
        ⟨1, 1, .tia, 8, .immediate 15⟩, ⟨3, 3, .cal, 14, .service .demPlus⟩,
        ⟨5, 5, .jump, 15, .jump 1 (some "AO") ⟨0, 1⟩⟩], 7⟩ := by
    decide +kernel
  have hform := assemble_sourceForm h (by decide)
  have htext : Assembly.sourceForm ⟨[0, 8, 15, 14, 15, 15, 0, 1], .ofList [("AO", 1)],
      [⟨0, 0, .ka, 0, .absent⟩, ⟨1, 1, .tia, 8, .immediate 15⟩,
        ⟨3, 3, .cal, 14, .service .demPlus⟩, ⟨5, 5, .jump, 15, .jump 1 (some "AO") ⟨0, 1⟩⟩], 7⟩ =
      "KA\nTIA F\nCAL DEM+\nJUMP 01" := by
    decide +kernel
  rw [htext] at hform
  exact hform

end NibbleAsm
