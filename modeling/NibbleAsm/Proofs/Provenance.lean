import NibbleAsm.Proofs.Acceptance
import NibbleAsm.Proofs.LineWords

/-!
# Where tokens and labels come from

Every token and every label name is cut out of the part of a line in front of its first comment
marker. So it holds no separator and no marker, and a token is found again in the line whose number
it bears. Lines are read in order, so their numbers never decrease. A label is bound to at most the
number of tokens, and only a program with at least 240 of them can have a label out of reach.
-/
namespace NibbleAsm

namespace Word

theorem isInfix_of_mem_ofSourceLine {line : List Char} {word : Word}
    (h : word ∈ ofSourceLine line) : word <:+: Comment.strip line :=
  (runs_iff.mpr rfl : Runs (Comment.strip line) (ofSourceLine line)).isInfix h

/-- The word stands in the line with this number, and no comment opens before its end. -/
def StandsIn (source : String) (word : Word) (number : ℕ) : Prop :=
  ∃ (i : ℕ) (line before after : List Char), number = i + 1 ∧
    (Text.lines source.toList)[i]? = some line ∧ line = before ++ word ++ after ∧
    ∀ j < (before ++ word).length, ¬ Comment.Opens (line.drop j)

/-- What every word is that is kept of a source. -/
structure Kept (source : String) (word : Word) (number : ℕ) : Prop where
  nonempty : word ≠ []
  separatorFree : SeparatorFree word
  unmarked : ¬ Comment.Marked word
  standsIn : StandsIn source word number

theorem kept_of_mem_entriesOfSource {source : String} {word : Word} {number : ℕ}
    (h : (word, number) ∈ entriesOfSource source) : Kept source word number := by
  rw [entriesOfSource_eq_flatMap, linesOf, List.mem_flatMap] at h
  obtain ⟨⟨words, number'⟩, hline, hentry⟩ := h
  obtain ⟨word', hword, heq⟩ := List.mem_map.mp hentry
  obtain ⟨rfl, rfl⟩ := Prod.mk.inj heq
  obtain ⟨hpos, hget⟩ := List.mk_mem_zipIdx_iff_le_and_getElem?_sub.mp hline
  rw [List.getElem?_map, Option.map_eq_some_iff] at hget
  obtain ⟨line, hget, rfl⟩ := hget
  have hwithin := isInfix_of_mem_ofSourceLine hword
  refine ⟨ne_nil_of_mem_ofLine hword, separatorFree_of_mem_ofLine hword, ?_, ?_⟩
  · intro hmarked
    exact Comment.not_marked_strip line (hmarked.of_isInfix hwithin)
  · obtain ⟨before, after, hstrip⟩ := hwithin
    obtain ⟨comment, hcomment⟩ := Comment.strip_isPrefix line
    refine ⟨number' - 1, line, before, after ++ comment, by omega, hget, ?_, ?_⟩
    · rw [← hcomment, ← hstrip]
      simp
    · intro j hj
      apply Comment.not_opens_drop
      rw [← hstrip, List.length_append]
      omega

/-- Lines are read in order. -/
theorem pairwise_entriesOfSource (source : String) :
    (entriesOfSource source).Pairwise (fun a b => a.2 ≤ b.2) := by
  rw [entriesOfSource_eq_flatMap, List.pairwise_flatMap]
  have hnumbers : ((linesOf source.toList).zipIdx 1).Pairwise (fun a b => a.2 < b.2) := by
    rw [← List.pairwise_map, List.zipIdx_map_snd]
    exact List.pairwise_lt_range'
  constructor
  · intro line _
    exact List.pairwise_map.mpr (List.pairwise_of_forall (fun _ _ => Nat.le_refl line.2))
  · refine hnumbers.imp ?_
    intro first second hlt a ha b hb
    obtain ⟨-, -, rfl⟩ := List.mem_map.mp ha
    obtain ⟨-, -, rfl⟩ := List.mem_map.mp hb
    exact Nat.le_of_lt hlt

theorem StandsIn.number_mem {source : String} {word : Word} {number : ℕ}
    (h : StandsIn source word number) : 1 ≤ number ∧ number ≤ 1 + source.toList.count '\n' := by
  obtain ⟨i, line, before, after, rfl, hline, -⟩ := h
  have hi := (List.getElem?_eq_some_iff.mp hline).1
  rw [Text.length_lines] at hi
  omega

end Word

/-- Only a label can be above the limit of 239, and it is bound there. -/
theorem Fault.exists_label_above {labels : LabelTable} {texts : List String} {operand : String}
    (h : Fault labels texts (.operandOutOfRange operand 239)) :
    ∃ target, labels.find? operand = some target ∧ 239 < target := by
  cases h with
  | labelOutOfRange reads bound above => exact ⟨_, bound, above⟩

namespace TokenStream

variable {source : String}

theorem mem_entries_of_mem_tokens {token : Token} (h : token ∈ (ofSource source).tokens) :
    (token.text.toList, token.line) ∈ Word.entriesOfSource source ∧
      Word.isToken token.text.toList = true := by
  rw [ofSource_eq_read, Scan.stream, Scan.toList_tokens_read] at h
  obtain ⟨⟨word, number⟩, hentry, rfl⟩ := List.mem_map.mp h
  simpa using List.mem_filter.mp hentry

theorem pairwise_tokens_ofSource (source : String) :
    ((ofSource source).tokens.map Token.line).Pairwise (· ≤ ·) := by
  rw [ofSource_eq_read, Scan.stream, Scan.toList_tokens_read, List.map_map, List.pairwise_map]
  exact (Word.pairwise_entriesOfSource source).filter _

/-- A label name is a word of some line, less its colon. -/
theorem exists_kept_of_find? {name : String} {address : ℕ}
    (h : (ofSource source).labels.find? name = some address) :
    ∃ number, Word.Kept source (Word.declaration name) number := by
  have hword := Word.exists_lastDeclared_iff.mp ⟨address, find?_labels_ofSource.mp h⟩
  obtain ⟨⟨word, number⟩, hentry, rfl⟩ := List.mem_map.mp hword
  exact ⟨number, Word.kept_of_mem_entriesOfSource hentry⟩

theorem separatorFree_of_find? {name : String} {address : ℕ}
    (h : (ofSource source).labels.find? name = some address) :
    Word.SeparatorFree name.toList := by
  obtain ⟨number, hkept⟩ := exists_kept_of_find? h
  intro c hc
  exact hkept.separatorFree c (List.mem_append_left _ hc)

/-- A label out of reach stands behind at least 240 tokens. -/
theorem size_of_labelOutOfRange {error : AssembleError} {operand : String}
    (h : (ofSource source).encode = .error error)
    (hcause : error.cause = .operandOutOfRange operand 239) : 240 ≤ (ofSource source).size := by
  obtain ⟨phrases, own, token, rest, cause, -, -, hfault, rfl⟩ := exists_fault_of_encode_error h
  obtain rfl : cause = .operandOutOfRange operand 239 := hcause
  obtain ⟨target, hfind, habove⟩ := hfault.exists_label_above
  have hle := (find?_labels_ofSource.mp hfind).le
  rw [← size_ofSource] at hle
  omega

/-- Tokens and label names are well formed and stand in the source, and only a long program can have
a label out of reach. -/
theorem ofSource_wellFormed (source : String) :
    (∀ token ∈ (ofSource source).tokens,
      Word.Kept source token.text.toList token.line ∧ token.text.toList.getLast? ≠ some ':' ∧
      1 ≤ token.line ∧ token.line ≤ 1 + source.toList.count '\n') ∧
    ((ofSource source).tokens.map Token.line).Pairwise (· ≤ ·) ∧
    (∀ (name : String) (address : ℕ), (ofSource source).labels.find? name = some address →
      Word.SeparatorFree name.toList ∧ ¬ Comment.Marked name.toList) ∧
    ∀ (error : AssembleError) (operand : String), assemble source = .error error →
      error.cause = .operandOutOfRange operand 239 → 240 ≤ (ofSource source).size := by
  refine ⟨?_, pairwise_tokens_ofSource source, ?_, ?_⟩
  · intro token htoken
    obtain ⟨hentry, hword⟩ := mem_entries_of_mem_tokens htoken
    have hkept := Word.kept_of_mem_entriesOfSource hentry
    exact ⟨hkept, by simpa [Word.isToken] using hword, hkept.standsIn.number_mem⟩
  · intro name address hfind
    refine ⟨separatorFree_of_find? hfind, ?_⟩
    intro hmarked
    obtain ⟨number, hkept⟩ := exists_kept_of_find? hfind
    exact hkept.unmarked (hmarked.of_isInfix (List.prefix_append _ _).isInfix)
  · intro error operand herror hcause
    exact size_of_labelOutOfRange (encode_of_assemble_error herror) hcause

/-- Behind 240 tokens a label is out of reach. -/
theorem ofSource_wellFormed_far :
    let source := String.ofList ((List.replicate 240 "KA ".toList).flatten ++
      "far: JUMP far".toList)
    assemble source = .error ⟨.operandOutOfRange "far" 239, 240, "JUMP", 1⟩ ∧
    240 ≤ (ofSource source).size ∧ Word.StandsIn source "far".toList 1 ∧
    ¬ Comment.Marked "far".toList := by
  intro source
  have hstream : ofSource source = ⟨List.replicate 240 ⟨"KA", 1⟩ ++ [⟨"JUMP", 1⟩, ⟨"far", 1⟩],
      .ofList [("far", 240)]⟩ := by
    rw [ofSource_eq_read, Word.entriesOfSource_eq_flatMap, String.toList_ofList]
    decide +kernel
  have hbound : (LabelTable.ofList [("far", 240)]).find? "far" = some 240 := by decide
  have hfault : Fault (.ofList [("far", 240)]) ["JUMP", "far"] (.operandOutOfRange "far" 239) :=
    .labelOutOfRange (by decide) hbound (by decide)
  have htexts : (List.replicate 240 (⟨"KA", 1⟩ : Token)).map Token.text =
      (List.replicate 240 (.plain .ka rfl : Phrase (.ofList [("far", 240)]))).flatMap
        Phrase.texts := by
    decide +kernel
  have herror : assemble source = .error ⟨.operandOutOfRange "far" 239, 240, "JUMP", 1⟩ := by
    rw [assemble_eq_map_encode, hstream, encode_fault _ htexts hfault, List.length_replicate]
    rfl
  obtain ⟨htokens, -, hlabels, hlong⟩ := ofSource_wellFormed source
  have htoken : ⟨"far", 1⟩ ∈ (ofSource source).tokens := by
    rw [hstream]
    exact List.mem_append_right _ (List.mem_cons_of_mem _ List.mem_cons_self)
  have hfind : (ofSource source).labels.find? "far" = some 240 := by rw [hstream, hbound]
  exact ⟨herror, hlong _ _ herror rfl, (htokens _ htoken).1.standsIn, (hlabels _ _ hfind).2⟩

end TokenStream

end NibbleAsm
