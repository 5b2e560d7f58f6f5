import NibbleAsm.Proofs.Composition
import NibbleAsm.Proofs.LineWords
import NibbleAsm.Proofs.Relabeling

/-!
# Linking by concatenation

Two sources with a line feed between them are read one behind the other. The first pass sees the
words of both in sequence, so the tokens of the second source follow those of the first, in later
lines, and its labels are bound behind them and replace those of the first. If the jumps of both
sources still find what they found before, the code of the two is the code of the one followed by
the code of the other.
-/
namespace NibbleAsm

/-- One of the words of the source declares the name. -/
def Declares (source name : String) : Prop :=
  Word.declaration name ∈ (Word.entriesOfSource source).map Prod.fst

instance (source name : String) : Decidable (Declares source name) :=
  inferInstanceAs (Decidable (_ ∈ _))

namespace Word

theorem linesOf_append_newline (first second : List Char) :
    linesOf (first ++ '\n' :: second) = linesOf first ++ linesOf second := by
  rw [linesOf, Text.lines, Text.splitWhere_append_cons (by decide), List.map_append]
  rfl

theorem length_linesOf (source : String) :
    (linesOf source.toList).length = (SourceLine.ofSource source).length := by
  simp [linesOf, Text.lines, SourceLine.ofSource]

/-- The words of the second source stand in the lines behind the first. -/
theorem entriesOfSource_append_newline (first second : String) :
    entriesOfSource (first ++ "\n" ++ second) =
      entriesOfSource first ++ (entriesOfSource second).map
        (Prod.map id (· + (SourceLine.ofSource first).length)) := by
  have hlines : linesOf (first ++ "\n" ++ second).toList =
      linesOf first.toList ++ linesOf second.toList := by
    rw [← linesOf_append_newline]
    simp
  rw [entriesOfSource_eq_flatMap, entriesOfSource_eq_flatMap, entriesOfSource_eq_flatMap, hlines,
    List.zipIdx_append, List.flatMap_append, length_linesOf, Nat.add_comm 1,
    ← List.map_snd_add_zipIdx_eq_zipIdx, List.flatMap_map, List.map_flatMap]
  simp [Function.comp_def]

end Word

namespace TokenStream

theorem find?_labels_ofSource_eq_none_iff {source name : String} :
    (ofSource source).labels.find? name = none ↔ ¬ Declares source name := by
  rw [ofSource_eq_read]
  exact Scan.find?_labels_read_eq_none_iff

theorem tokens_append_newline (first second : String) :
    (ofSource (first ++ "\n" ++ second)).tokens =
      (ofSource first).tokens ++ (ofSource second).tokens.map
        (fun token => { token with line := token.line + (SourceLine.ofSource first).length }) := by
  simp only [ofSource_eq_read, Scan.stream, Scan.toList_tokens_read,
    Word.entriesOfSource_append_newline, List.filter_append, List.map_append, List.filter_map,
    List.map_map, Function.comp_def, Prod.map_fst, Prod.map_snd, id]

/-- The labels of the second source are bound behind the tokens of the first. -/
theorem find?_labels_append_newline (first second name : String) :
    (ofSource (first ++ "\n" ++ second)).labels.find? name =
      (((ofSource second).labels.find? name).map (· + (ofSource first).tokens.length)).or
        ((ofSource first).labels.find? name) := by
  have hwords : ((Word.entriesOfSource second).map
      (Prod.map id (· + (SourceLine.ofSource first).length))).map Prod.fst =
        (Word.entriesOfSource second).map Prod.fst := by
    simp [Function.comp_def]
  simp only [ofSource_eq_read, Scan.stream, Word.entriesOfSource_append_newline,
    Array.length_toList]
  rw [Scan.find?_labels_read_append, Scan.labels_read_congr hwords]

end TokenStream

namespace Phrase

variable {labels : LabelTable}

theorem exists_record_mem_records {phrases : List (Phrase labels)} {phrase : Phrase labels}
    (h : phrase ∈ phrases) (index offset : ℕ) :
    ∃ i o, phrase.record i o ∈ records index offset phrases := by
  induction phrases generalizing index offset with
  | nil => cases h
  | cons first others ih =>
    rw [records]
    rcases List.mem_cons.mp h with rfl | hmem
    · exact ⟨index, offset, List.mem_cons_self⟩
    · obtain ⟨i, o, hrecord⟩ := ih hmem (index + first.texts.length) (offset + first.units.length)
      exact ⟨i, o, List.mem_cons_of_mem _ hrecord⟩

end Phrase

namespace TokenStream

/-- An accepted program has the same result under every table in which its jumps find their labels
at the same addresses. -/
theorem exists_phrases_of_agree {labels labels' : LabelTable} {tokens : List Token}
    {encoded : Encoded} (h : encode ⟨tokens, labels⟩ = .ok encoded)
    (agree : ∀ record ∈ encoded.trace, ∀ name ∈ record.operand.label?,
      labels'.find? name = labels.find? name) :
    ∃ phrases : List (Phrase labels'), tokens.map Token.text = phrases.flatMap Phrase.texts ∧
      encoded = Phrase.encoded phrases := by
  obtain ⟨phrases, htexts, rfl⟩ := exists_phrases_of_encode_ok h
  have agrees : ∀ phrase ∈ phrases, ∀ name ∈ Jump.operand? phrase.texts,
      Jump.Agrees id labels labels' name := by
    intro phrase hphrase name hname hreads
    obtain ⟨index, offset, hrecord⟩ := Phrase.exists_record_mem_records hphrase 0 0
    exact ⟨hreads, agree _ hrecord name (Phrase.label?_operand hname hreads)⟩
  obtain ⟨renamed, hrenamed, hrecords⟩ := Phrase.exists_renamed_records phrases agrees
  refine ⟨renamed, ?_, ?_⟩
  · simp [htexts, hrenamed]
  · simp [Phrase.encoded, hrecords]

/-- Two accepted programs are accepted one behind the other, under a table in which the jumps of
both find their labels at the same addresses. -/
theorem exists_encode_of_append {labels labels' common : LabelTable}
    {tokens tokens' both : List Token} {encoded encoded' : Encoded}
    (h : encode ⟨tokens, labels⟩ = .ok encoded) (h' : encode ⟨tokens', labels'⟩ = .ok encoded')
    (agree : ∀ record ∈ encoded.trace, ∀ name ∈ record.operand.label?,
      common.find? name = labels.find? name)
    (agree' : ∀ record ∈ encoded'.trace, ∀ name ∈ record.operand.label?,
      common.find? name = labels'.find? name)
    (hboth : both.map Token.text = tokens.map Token.text ++ tokens'.map Token.text) :
    ∃ linked, encode ⟨both, common⟩ = .ok linked ∧
      linked.codes = encoded.codes ++ encoded'.codes := by
  obtain ⟨phrases, htexts, rfl⟩ := exists_phrases_of_agree h agree
  obtain ⟨phrases', htexts', rfl⟩ := exists_phrases_of_agree h' agree'
  rw [htexts, htexts', ← List.flatMap_append] at hboth
  exact ⟨_, encode_phrases (phrases ++ phrases') hboth,
    congrArg Encoded.codes (Phrase.encoded_append phrases phrases')⟩

end TokenStream

/-- Sources are linked by concatenation. The first pass reads the tokens of the second source behind
those of the first, in later lines; a label of the second is bound behind them, and the others keep
their addresses. The code is concatenated too, unless a jump of the second source resolves a label
or the second source declares a label that a jump of the first resolves. -/
theorem assemble_linked (first second : String) :
    (TokenStream.ofSource (first ++ "\n" ++ second)).tokens =
      (TokenStream.ofSource first).tokens ++ (TokenStream.ofSource second).tokens.map
        (fun token => { token with line := token.line + (SourceLine.ofSource first).length }) ∧
    (∀ name : String,
      (Declares second name → ∃ address,
        (TokenStream.ofSource second).labels.find? name = some address ∧
        (TokenStream.ofSource (first ++ "\n" ++ second)).labels.find? name =
          some (address + (TokenStream.ofSource first).tokens.length)) ∧
      (¬ Declares second name →
        (TokenStream.ofSource (first ++ "\n" ++ second)).labels.find? name =
          (TokenStream.ofSource first).labels.find? name)) ∧
    ∀ assembly assembly' : Assembly, assemble first = .ok assembly →
      assemble second = .ok assembly' →
      (∀ record ∈ assembly'.trace, record.operand.label? = none) →
      (∀ record ∈ assembly.trace, ∀ name ∈ record.operand.label?, ¬ Declares second name) →
      ∃ linked, assemble (first ++ "\n" ++ second) = .ok linked ∧
        linked.codes = assembly.codes ++ assembly'.codes := by
  have hundeclared : ∀ name, ¬ Declares second name →
      (TokenStream.ofSource (first ++ "\n" ++ second)).labels.find? name =
        (TokenStream.ofSource first).labels.find? name := by
    intro name hname
    rw [TokenStream.find?_labels_append_newline,
      TokenStream.find?_labels_ofSource_eq_none_iff.mpr hname]
    rfl
  refine ⟨TokenStream.tokens_append_newline first second, ?_, ?_⟩
  · intro name
    refine ⟨?_, hundeclared name⟩
    intro hname
    have hbound : (TokenStream.ofSource second).labels.find? name ≠ none := by
      rwa [Ne, TokenStream.find?_labels_ofSource_eq_none_iff, not_not]
    obtain ⟨address, haddress⟩ := Option.ne_none_iff_exists'.mp hbound
    refine ⟨address, haddress, ?_⟩
    rw [TokenStream.find?_labels_append_newline, haddress]
    rfl
  · intro assembly assembly' hfirst hsecond hnumbers hlabels
    obtain ⟨encoded, hencode, rfl⟩ := exists_encode_of_assemble_ok hfirst
    obtain ⟨encoded', hencode', rfl⟩ := exists_encode_of_assemble_ok hsecond
    have hboth : (TokenStream.ofSource (first ++ "\n" ++ second)).tokens.map Token.text =
        (TokenStream.ofSource first).tokens.map Token.text ++
          (TokenStream.ofSource second).tokens.map Token.text := by
      simp [TokenStream.tokens_append_newline, Function.comp_def]
    obtain ⟨linked, hlinked, hcodes⟩ := TokenStream.exists_encode_of_append hencode hencode'
      (fun record hrecord name hname => hundeclared name (hlabels record hrecord name hname))
      (fun record hrecord name hname => by simp [hnumbers record hrecord] at hname) hboth
    refine ⟨.ofEncoded (.ofSource (first ++ "\n" ++ second)) linked, ?_, hcodes⟩
    rw [assemble_eq_map_encode, hlinked]
    rfl

/-- Both sources declare the same label, which no jump resolves. The jump of the first is resolved
as before, and the number in the second denotes itself. -/
theorem assemble_linked_redeclared :
    ∃ linked, assemble ("end: top: KA JUMP top // end:" ++ "\n" ++ "JUMP 4F end:\nCAL DEM+") =
      .ok linked ∧ linked.codes = [0x0, 0xF, 0, 0, 0xF, 5, 4, 0xE, 0xF] := by
  obtain ⟨-, -, hlink⟩ := assemble_linked "end: top: KA JUMP top // end:" "JUMP 4F end:\nCAL DEM+"
  have hfirst : assemble "end: top: KA JUMP top // end:" =
      .ok ⟨[0x0, 0xF, 0, 0], .ofList [("end", 0), ("top", 0)], [⟨0, 0, .ka, 0, .absent⟩,
        ⟨1, 1, .jump, 0xF, .jump 0 (some "top") ⟨0, 0⟩⟩], 3⟩ := by decide +kernel
  have hsecond : assemble "JUMP 4F end:\nCAL DEM+" =
      .ok ⟨[0xF, 5, 4, 0xE, 0xF], .ofList [("end", 2)],
        [⟨0, 0, .jump, 0xF, .jump 79 none ⟨5, 4⟩⟩, ⟨2, 3, .cal, 0xE, .service .demPlus⟩], 4⟩ := by
    decide +kernel
  exact hlink _ _ hfirst hsecond (by decide) (by decide +kernel)

end NibbleAsm
