import NibbleAsm.Proofs.Acceptance
import NibbleAsm.Proofs.FirstPass

/-!
# Label resolution

A jump in the code of an assembled source goes where the source says. Its operand is the word behind
the jump. A number denotes itself, whatever labels there are. Any other text names a label, and the
target counts the tokens before the label's last declaration, which may stand before the jump or
behind it.
-/
namespace NibbleAsm

namespace Phrase

variable {labels : LabelTable}

/-- The two texts of a phrase with an operand stand where its record says. -/
theorem getElem?_flatMap_texts (before after : List (Phrase labels)) {phrase : Phrase labels}
    {name text : String} (h : phrase.texts = [name, text]) :
    ((before ++ phrase :: after).flatMap texts)[(before.flatMap texts).length]? = some name ∧
    ((before ++ phrase :: after).flatMap texts)[(before.flatMap texts).length + 1]? =
      some text := by
  rw [List.flatMap_append, List.flatMap_cons, h]
  constructor
  · rw [List.getElem?_append_right (Nat.le_refl _)]
    simp
  · rw [List.getElem?_append_right (Nat.le_succ _)]
    simp

end Phrase

/-- A jump operand was read from the token behind the name, as a number or as a bound name. -/
theorem TokenStream.jump_of_encode_ok {stream : TokenStream} {encoded : Encoded}
    (h : stream.encode = .ok encoded) {record : Instruction} (hmem : record ∈ encoded.trace)
    {target : ℕ} {label : Option String} {units : JumpAddress.Units}
    (hjump : record.operand = .jump target label units) :
    JumpAddress.split target = .ok units ∧ target ≤ 239 ∧
    ∃ text, (stream.tokens.map Token.text)[record.index]? = some "JUMP" ∧
      (stream.tokens.map Token.text)[record.index + 1]? = some text ∧
      (label = none ∧ Numeral.exactHex? text = some target ∧ target ≤ 0x4F ∨
        label = some text ∧ Numeral.exactHex? text = none ∧
          stream.labels.find? text = some target) := by
  obtain ⟨tokens, labels⟩ := stream
  obtain ⟨phrases, htexts, rfl⟩ := exists_phrases_of_encode_ok h
  obtain ⟨before, phrase, after, rfl, rfl⟩ := Phrase.exists_append_of_mem_records hmem
  rw [htexts, Phrase.record, Nat.zero_add]
  cases phrase with
  | plain name kind => cases hjump
  | immediate name kind text value reads fits => cases hjump
  | jumpNumber text number reads fits =>
    cases hjump
    have htexts : (Phrase.jumpNumber text target reads fits : Phrase labels).texts =
        ["JUMP", text] := rfl
    obtain ⟨hname, hoperand⟩ := Phrase.getElem?_flatMap_texts before after htexts
    exact ⟨JumpAddress.split_of_le (by omega), by omega, text, hname, hoperand,
      Or.inl ⟨rfl, reads, fits⟩⟩
  | jumpLabel text address reads bound fits =>
    cases hjump
    have htexts : (Phrase.jumpLabel text target reads bound fits).texts = ["JUMP", text] := rfl
    obtain ⟨hname, hoperand⟩ := Phrase.getElem?_flatMap_texts before after htexts
    exact ⟨JumpAddress.split_of_le fits, fits, text, hname, hoperand,
      Or.inr ⟨rfl, reads, bound⟩⟩
  | service call => cases hjump

theorem Word.getElem?_of_map_ofList {words : List Word} {i : ℕ} {text : String}
    (h : (words.map String.ofList)[i]? = some text) : words[i]? = some text.toList := by
  rw [List.getElem?_map, Option.map_eq_some_iff] at h
  obtain ⟨word, hword, rfl⟩ := h
  rw [hword, String.toList_ofList]

/-- Every jump of an assembled source goes where the words of the source say. -/
theorem assemble_resolves_jumps {source : String} {assembly : Assembly}
    (h : assemble source = .ok assembly) :
    ∃ (entries : List (Word × ℕ)) (words tokens : List Word),
      Word.RunsOfLines (SourceLine.ofSource source) entries ∧ words = entries.map Prod.fst ∧
      tokens = words.filter Word.isToken ∧
      ∀ record ∈ assembly.trace,
        ∀ (target : ℕ) (label : Option String) (units : JumpAddress.Units),
        record.operand = .jump target label units →
        JumpAddress.join units = target ∧ units.low.val ≤ 14 ∧ target ≤ 239 ∧
        tokens[record.index]? = some "JUMP".toList ∧
        (∀ name, label = some name →
          tokens[record.index + 1]? = some name.toList ∧ name ≠ "" ∧
          name.toList.getLast? ≠ some ':' ∧ Numeral.exactHex? name = none ∧
          Word.LastDeclared words name target ∧ target ≤ assembly.tokenCount) ∧
        (label = none → ∃ text : String, tokens[record.index + 1]? = some text.toList ∧
          Numeral.exactHex? text = some target ∧ target ≤ 0x4F) := by
  obtain ⟨encoded, hencode, rfl⟩ := exists_encode_of_assemble_ok h
  refine ⟨Word.entriesOfSource source, _, _, Word.runsOfLines_iff.mpr rfl, rfl, rfl, ?_⟩
  intro record hmem target label units hjump
  obtain ⟨hsplit, hmax, text, hname, hoperand, hcase⟩ :=
    TokenStream.jump_of_encode_ok hencode hmem hjump
  obtain ⟨hjoin, hlow⟩ := JumpAddress.split_eq_ok_iff.mp hsplit
  rw [TokenStream.map_text_tokens_ofSource] at hname hoperand
  have hword := Word.getElem?_of_map_ofList hoperand
  refine ⟨hjoin, Nat.le_of_lt_succ hlow, hmax, Word.getElem?_of_map_ofList hname, ?_, ?_⟩
  · rintro name rfl
    rcases hcase with ⟨hlabel, -⟩ | ⟨hlabel, hreads, hfind⟩
    · cases hlabel
    · obtain rfl := Option.some.inj hlabel
      have hdeclared := TokenStream.find?_labels_ofSource.mp hfind
      obtain ⟨hwords, htoken⟩ := List.mem_filter.mp (List.mem_of_getElem? hword)
      refine ⟨hword, ?_, ?_, hreads, hdeclared, ?_⟩
      · rintro rfl
        exact Word.ne_nil_of_mem_entriesOfSource hwords rfl
      · simpa [Word.isToken] using htoken
      · rw [Assembly.ofEncoded, TokenStream.size_ofSource]
        exact hdeclared.le
  · rintro rfl
    rcases hcase with ⟨-, hreads, hfits⟩ | ⟨hlabel, -⟩
    · exact ⟨text, hword, hreads, hfits⟩
    · cases hlabel

/-- A jump that stands between two declarations of its label goes to the later one. -/
theorem assemble_resolves_redeclared :
    let source := "end: JUMP end ; end:\nKA end:"
    ∃ assembly entries, assemble source = .ok assembly ∧
      assembly.trace.head? = some ⟨0, 0, .jump, 0xF, .jump 3 (some "end") ⟨0, 3⟩⟩ ∧
      Word.RunsOfLines (SourceLine.ofSource source) entries ∧
      Word.LastDeclared (entries.map Prod.fst) "end" 3 := by
  intro source
  have h : assemble source = .ok ⟨[0xF, 0, 3, 0], .ofList [("end", 3)],
      [⟨0, 0, .jump, 0xF, .jump 3 (some "end") ⟨0, 3⟩⟩, ⟨2, 3, .ka, 0, .absent⟩], 3⟩ := by
    decide +kernel
  obtain ⟨entries, words, tokens, hentries, rfl, rfl, hjumps⟩ := assemble_resolves_jumps h
  obtain ⟨-, -, -, -, hlabel, -⟩ := hjumps _ List.mem_cons_self _ _ _ rfl
  exact ⟨_, entries, h, rfl, hentries, (hlabel "end" rfl).2.2.2.2.1⟩

end NibbleAsm
