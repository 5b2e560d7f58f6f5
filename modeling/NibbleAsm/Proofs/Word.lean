import NibbleAsm.Proofs.Split
import NibbleAsm.Source.Line
import NibbleAsm.Source.Word

/-!
# Words are maximal runs

A line is read from left to right: separators are skipped, and a word is a nonempty run without
separators that cannot be made longer. Splitting at every separator and dropping the empty pieces
gives these words, and no others.
-/
namespace NibbleAsm

namespace Word

/-- The words of a line, as maximal runs of characters that are no separators. -/
inductive Runs : List Char → List Word → Prop where
  | nil : Runs [] []
  | separator {c : Char} {line : List Char} {words : List Word} (hc : isSeparator c = true)
      (hline : Runs line words) : Runs (c :: line) words
  | word {word : Word} {line : List Char} {words : List Word} (nonempty : word ≠ [])
      (own : SeparatorFree word) (maximal : ∀ c ∈ line.head?, isSeparator c = true)
      (hline : Runs line words) : Runs (word ++ line) (word :: words)

theorem ofLine_cons_of_separator {c : Char} (hc : isSeparator c = true) (line : List Char) :
    ofLine (c :: line) = ofLine line := by
  simp [ofLine, Text.splitWhere_cons, hc]

theorem ofLine_append {word : Word} {line : List Char} (nonempty : word ≠ [])
    (own : SeparatorFree word) (maximal : ∀ c ∈ line.head?, isSeparator c = true) :
    ofLine (word ++ line) = word :: ofLine line := by
  cases line with
  | nil =>
    have hsplit := Text.splitWhere_append_of_forall own (Text.splitWhere_nil isSeparator)
    rw [ofLine, hsplit]
    simp [ofLine, nonempty]
  | cons c line =>
    have hc : isSeparator c = true := maximal c rfl
    have hpieces : Text.splitWhere isSeparator (c :: line) =
        [] :: Text.splitWhere isSeparator line := by
      rw [Text.splitWhere_cons, if_pos hc]
    have hsplit := Text.splitWhere_append_of_forall own hpieces
    rw [ofLine, hsplit]
    simp [ofLine, hpieces, nonempty]

theorem Runs.eq_ofLine {line : List Char} {words : List Word} (h : Runs line words) :
    words = ofLine line := by
  induction h with
  | nil => rfl
  | separator hc hline ih => rw [ofLine_cons_of_separator hc, ih]
  | word nonempty own maximal hline ih => rw [ofLine_append nonempty own maximal, ih]

/-- A character that is no separator begins a word of its own or extends the word behind it. -/
theorem Runs.exists_cons {c : Char} (hc : isSeparator c = false) {line : List Char}
    {words : List Word} (h : Runs line words) : ∃ words', Runs (c :: line) words' := by
  have hown : SeparatorFree [c] := by
    intro b hb
    rwa [List.mem_singleton.mp hb]
  cases h with
  | nil => exact ⟨_, Runs.word (List.cons_ne_nil c []) hown (by simp) .nil⟩
  | separator hd hline =>
    exact ⟨_, Runs.word (List.cons_ne_nil c []) hown (by simpa using hd) (.separator hd hline)⟩
  | @word word line words nonempty own maximal hline =>
    refine ⟨_, Runs.word (List.cons_ne_nil c word) ?_ maximal hline⟩
    intro b hb
    rcases List.mem_cons.mp hb with rfl | hmem
    · exact hc
    · exact own b hmem

theorem exists_runs (line : List Char) : ∃ words, Runs line words := by
  induction line with
  | nil => exact ⟨[], .nil⟩
  | cons c line ih =>
    obtain ⟨words, hwords⟩ := ih
    cases hc : isSeparator c with
    | true => exact ⟨words, .separator hc hwords⟩
    | false => exact hwords.exists_cons hc

/-- The words of a line are its maximal runs. -/
theorem runs_iff {line : List Char} {words : List Word} :
    Runs line words ↔ words = ofLine line := by
  constructor
  · exact Runs.eq_ofLine
  · rintro rfl
    obtain ⟨words, hwords⟩ := exists_runs line
    rwa [← hwords.eq_ofLine]

/-- A word is a piece of its line. -/
theorem Runs.isInfix {line : List Char} {words : List Word} (h : Runs line words) {word : Word}
    (hword : word ∈ words) : word <:+: line := by
  induction h with
  | nil => cases hword
  | separator hc hline ih => exact (ih hword).trans (List.suffix_cons _ _).isInfix
  | word nonempty own maximal hline ih =>
    rcases List.mem_cons.mp hword with rfl | hlater
    · exact (List.prefix_append _ _).isInfix
    · exact (ih hlater).trans (List.suffix_append _ _).isInfix

/-- The words of lines with the numbers of their lines, in order. -/
inductive RunsOfLines : List SourceLine → List (Word × ℕ) → Prop where
  | nil : RunsOfLines [] []
  | cons {line : SourceLine} {words : List Word} {lines : List SourceLine}
      {entries : List (Word × ℕ)} (hline : Runs line.text.toList words)
      (hlines : RunsOfLines lines entries) :
      RunsOfLines (line :: lines) (words.map (fun word => (word, line.number)) ++ entries)

/-- The words of a line with its number. -/
def entriesOf (line : SourceLine) : List (Word × ℕ) :=
  (ofLine line.text.toList).map (fun word => (word, line.number))

theorem runsOfLines_iff {lines : List SourceLine} {entries : List (Word × ℕ)} :
    RunsOfLines lines entries ↔ entries = lines.flatMap entriesOf := by
  constructor
  · intro h
    induction h with
    | nil => rfl
    | cons hline hlines ih => rw [runs_iff.mp hline, List.flatMap_cons, ih, entriesOf]
  · rintro rfl
    induction lines with
    | nil => exact .nil
    | cons line lines ih => exact .cons (runs_iff.mpr rfl) ih

theorem ne_nil_of_mem_entriesOf {line : SourceLine} {entry : Word × ℕ}
    (h : entry ∈ entriesOf line) : entry.1 ≠ [] := by
  obtain ⟨word, hword, rfl⟩ := List.mem_map.mp h
  exact ne_nil_of_mem_ofLine hword

/-- The word that declares a name. -/
def declaration (name : String) : Word :=
  name.toList ++ [':']

/-- Whether a word is a token, that is, declares no label. -/
def isToken (word : Word) : Bool :=
  word.getLast? != some ':'

theorem declaredName?_eq_none_iff {word : Word} :
    word.declaredName? = none ↔ word.isToken = true := by
  simp [declaredName?, isToken]

theorem declaredName?_eq_some_iff {word : Word} {name : String} :
    word.declaredName? = some name ↔ word = declaration name := by
  constructor
  · intro h
    unfold declaredName? at h
    split at h
    · rename_i hlast
      obtain ⟨start, rfl⟩ := List.getLast?_eq_some_iff.mp hlast
      obtain rfl := Option.some.inj h
      simp [declaration]
    · cases h
  · rintro rfl
    simp [declaredName?, declaration]

theorem declaration_injective : Function.Injective declaration := by
  intro a b h
  exact String.toList_inj.mp (List.append_cancel_right h)

/-- Every word is a token or declares a name. -/
theorem isToken_or_declaration (word : Word) :
    word.isToken = true ∨ ∃ name, word = declaration name := by
  cases h : word.declaredName? with
  | none => exact Or.inl (declaredName?_eq_none_iff.mp h)
  | some name => exact Or.inr ⟨name, declaredName?_eq_some_iff.mp h⟩

@[simp] theorem isToken_declaration (name : String) : (declaration name).isToken = false := by
  simp [isToken, declaration]

end Word

end NibbleAsm
