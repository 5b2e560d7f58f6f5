import NibbleAsm.Assembly
import NibbleAsm.Proofs.LabelTable
import NibbleAsm.Proofs.Word
import Mathlib.Data.List.Induction

/-!
# The first pass

The first pass reads the words of all lines in one sequence. Its tokens are the words that declare
nothing, in order. A name is bound to the number of tokens before the last word that declares it.
-/
namespace NibbleAsm

namespace Word

/-- The name is declared, for the last time behind so many tokens. -/
def LastDeclared (words : List Word) (name : String) (address : ℕ) : Prop :=
  ∃ before after, words = before ++ declaration name :: after ∧ declaration name ∉ after ∧
    address = (before.filter isToken).length

theorem not_lastDeclared_nil (name : String) (address : ℕ) : ¬ LastDeclared [] name address := by
  rintro ⟨before, after, hwords, -⟩
  simp at hwords

/-- One more word decides about the name it declares and about no other. -/
theorem lastDeclared_append_singleton {words : List Word} {word : Word} {name : String}
    {address : ℕ} :
    LastDeclared (words ++ [word]) name address ↔
      if word = declaration name then address = (words.filter isToken).length
      else LastDeclared words name address := by
  constructor
  · rintro ⟨before, after, hwords, hlast, rfl⟩
    rcases List.eq_nil_or_concat' after with rfl | ⟨after, last, rfl⟩
    · obtain ⟨rfl, hword⟩ := List.append_inj' hwords rfl
      rw [if_pos (List.singleton_inj.mp hword)]
    · rw [← List.cons_append, ← List.append_assoc] at hwords
      obtain ⟨rfl, hword⟩ := List.append_inj' hwords rfl
      obtain rfl := List.singleton_inj.mp hword
      rw [List.mem_append, not_or, List.mem_singleton] at hlast
      rw [if_neg (Ne.symm hlast.2)]
      exact ⟨before, after, rfl, hlast.1, rfl⟩
  · split
    · rename_i hword
      rintro rfl
      exact ⟨words, [], by rw [hword], List.not_mem_nil, rfl⟩
    · rename_i hword
      rintro ⟨before, after, rfl, hlast, rfl⟩
      refine ⟨before, after ++ [word], by simp, ?_, rfl⟩
      rw [List.mem_append, not_or, List.mem_singleton]
      exact ⟨hlast, Ne.symm hword⟩

/-- A name that is declared at all is declared for the last time somewhere. -/
theorem exists_lastDeclared_iff {words : List Word} {name : String} :
    (∃ address, LastDeclared words name address) ↔ declaration name ∈ words := by
  induction words using List.reverseRecOn with
  | nil => simp [not_lastDeclared_nil]
  | append_singleton words word ih =>
    simp only [lastDeclared_append_singleton, List.mem_append, List.mem_singleton]
    by_cases hword : word = declaration name
    · simp [hword]
    · simp [hword, ih, Ne.symm hword]

theorem LastDeclared.le {words : List Word} {name : String} {address : ℕ}
    (h : LastDeclared words name address) : address ≤ (words.filter isToken).length := by
  obtain ⟨before, after, rfl, -, rfl⟩ := h
  rw [List.filter_append, List.length_append]
  omega

end Word

namespace Scan

/-- Read words with the numbers of their lines. -/
def read (entries : List (Word × ℕ)) : Scan :=
  entries.foldl (fun scan entry => scan.push entry.2 entry.1) empty

theorem read_append_singleton (entries : List (Word × ℕ)) (entry : Word × ℕ) :
    read (entries ++ [entry]) = (read entries).push entry.2 entry.1 := by
  rw [read, List.foldl_append]
  rfl

/-- Lines are read as the sequence of their words. -/
theorem ofLines_eq_read (lines : List SourceLine) :
    ofLines lines = read (lines.flatMap Word.entriesOf) := by
  rw [ofLines, read, List.foldl_flatMap]
  congr 1
  funext scan line
  rw [pushLine, Word.entriesOf, List.foldl_map]

theorem push_of_isToken {word : Word} (h : word.isToken = true) (scan : Scan) (line : ℕ) :
    scan.push line word = { scan with tokens := scan.tokens.push ⟨String.ofList word, line⟩ } := by
  simp [push, Word.declaredName?_eq_none_iff.mpr h]

theorem tokens_push_declaration (scan : Scan) (line : ℕ) (name : String) :
    (scan.push line (Word.declaration name)).tokens = scan.tokens := by
  rw [push, Word.declaredName?_eq_some_iff.mpr rfl]
  dsimp only
  split <;> rfl

theorem labels_push_declaration (scan : Scan) (line : ℕ) (name : String) :
    (scan.push line (Word.declaration name)).labels =
      (scan.labels.define name scan.tokens.size).2 := by
  rw [push, Word.declaredName?_eq_some_iff.mpr rfl]
  dsimp only
  split <;> rfl

/-- The tokens are the words that declare nothing. -/
theorem toList_tokens_read (entries : List (Word × ℕ)) :
    (read entries).tokens.toList =
      (entries.filter (fun entry => entry.1.isToken)).map
        (fun entry => ⟨String.ofList entry.1, entry.2⟩) := by
  induction entries using List.reverseRecOn with
  | nil => rfl
  | append_singleton entries entry ih =>
    obtain ⟨word, line⟩ := entry
    rw [read_append_singleton]
    rcases word.isToken_or_declaration with htoken | ⟨name, rfl⟩
    · simp [push_of_isToken htoken, htoken, ih]
    · simp [tokens_push_declaration, ih]

theorem map_text_tokens_read (entries : List (Word × ℕ)) :
    (read entries).tokens.toList.map Token.text =
      ((entries.map Prod.fst).filter Word.isToken).map String.ofList := by
  rw [toList_tokens_read, List.filter_map, List.map_map, List.map_map]
  rfl

theorem size_tokens_read (entries : List (Word × ℕ)) :
    (read entries).tokens.size = ((entries.map Prod.fst).filter Word.isToken).length := by
  have h := congrArg List.length (map_text_tokens_read entries)
  simpa using h

/-- A name is bound where it is declared last. -/
theorem find?_labels_read {entries : List (Word × ℕ)} {name : String} {address : ℕ} :
    (read entries).labels.find? name = some address ↔
      Word.LastDeclared (entries.map Prod.fst) name address := by
  induction entries using List.reverseRecOn with
  | nil =>
    rw [List.map_nil]
    simp [Word.not_lastDeclared_nil, read, empty]
  | append_singleton entries entry ih =>
    obtain ⟨word, line⟩ := entry
    rw [read_append_singleton, List.map_append, List.map_singleton,
      Word.lastDeclared_append_singleton]
    rcases word.isToken_or_declaration with htoken | ⟨declared, rfl⟩
    · have hword : word ≠ Word.declaration name := by
        rintro rfl
        simp at htoken
      rw [push_of_isToken htoken, if_neg hword]
      exact ih
    · rw [labels_push_declaration, LabelTable.find?_define, size_tokens_read]
      by_cases hname : name = declared
      · subst hname
        rw [if_pos rfl, if_pos rfl, Option.some.injEq, eq_comm]
      · have hword : Word.declaration declared ≠ Word.declaration name := by
          intro hword
          exact hname (Word.declaration_injective hword).symm
        rw [if_neg hname, if_neg hword]
        exact ih

/-- The labels depend on the words, not on the lines where they stand. -/
theorem labels_read_congr {entries entries' : List (Word × ℕ)}
    (h : entries.map Prod.fst = entries'.map Prod.fst) :
    (read entries).labels = (read entries').labels := by
  apply LabelTable.ext_find?
  intro name
  apply Option.ext
  intro address
  rw [find?_labels_read, find?_labels_read, h]

/-- A name is bound if some word declares it. -/
theorem find?_labels_read_eq_none_iff {entries : List (Word × ℕ)} {name : String} :
    (read entries).labels.find? name = none ↔
      Word.declaration name ∉ entries.map Prod.fst := by
  rw [← Word.exists_lastDeclared_iff, not_exists, Option.eq_none_iff_forall_ne_some]
  exact forall_congr' (fun address => not_congr find?_labels_read)

/-- What is read later is bound behind the tokens read before, and it replaces earlier bindings. -/
theorem find?_labels_read_append (first second : List (Word × ℕ)) (name : String) :
    (read (first ++ second)).labels.find? name =
      (((read second).labels.find? name).map (· + (read first).tokens.size)).or
        ((read first).labels.find? name) := by
  induction second using List.reverseRecOn with
  | nil => simp [read, empty]
  | append_singleton second entry ih =>
    obtain ⟨word, line⟩ := entry
    rw [← List.append_assoc, read_append_singleton, read_append_singleton]
    rcases word.isToken_or_declaration with htoken | ⟨declared, rfl⟩
    · rw [push_of_isToken htoken, push_of_isToken htoken]
      exact ih
    · have hsize : (read (first ++ second)).tokens.size =
          (read second).tokens.size + (read first).tokens.size := by
        simp [size_tokens_read, Nat.add_comm]
      rw [labels_push_declaration, labels_push_declaration, LabelTable.find?_define,
        LabelTable.find?_define, hsize, ih]
      split_ifs <;> rfl

/-- Without declarations there are no labels. -/
theorem labels_read_of_forall_isToken {entries : List (Word × ℕ)}
    (h : ∀ entry ∈ entries, entry.1.isToken = true) : (read entries).labels = .empty := by
  induction entries using List.reverseRecOn with
  | nil => rfl
  | append_singleton entries entry ih =>
    have hlast : entry.1.isToken = true := h entry (by simp)
    have hrest := ih (fun e he => h e (by simp [he]))
    rw [read_append_singleton, push_of_isToken hlast]
    exact hrest

end Scan

/-- The words of a source with the numbers of their lines. -/
def Word.entriesOfSource (source : String) : List (Word × ℕ) :=
  (SourceLine.ofSource source).flatMap entriesOf

theorem Word.ne_nil_of_mem_entriesOfSource {source : String} {word : Word}
    (h : word ∈ (entriesOfSource source).map Prod.fst) : word ≠ [] := by
  obtain ⟨entry, hentry, rfl⟩ := List.mem_map.mp h
  obtain ⟨line, -, hline⟩ := List.mem_flatMap.mp hentry
  exact ne_nil_of_mem_entriesOf hline

namespace TokenStream

theorem ofLines_eq_read (lines : List SourceLine) :
    ofLines lines = (Scan.read (lines.flatMap Word.entriesOf)).stream := by
  rw [ofLines, Scan.ofLines_eq_read]

theorem ofSource_eq_read (source : String) :
    ofSource source = (Scan.read (Word.entriesOfSource source)).stream :=
  ofLines_eq_read _

theorem map_text_tokens_ofSource (source : String) :
    (ofSource source).tokens.map Token.text =
      (((Word.entriesOfSource source).map Prod.fst).filter Word.isToken).map String.ofList := by
  rw [ofSource_eq_read]
  exact Scan.map_text_tokens_read _

theorem size_ofSource (source : String) :
    (ofSource source).size =
      (((Word.entriesOfSource source).map Prod.fst).filter Word.isToken).length := by
  have h := congrArg List.length (map_text_tokens_ofSource source)
  rwa [List.length_map, List.length_map] at h

theorem find?_labels_ofSource {source name : String} {address : ℕ} :
    (ofSource source).labels.find? name = some address ↔
      Word.LastDeclared ((Word.entriesOfSource source).map Prod.fst) name address := by
  rw [ofSource_eq_read]
  exact Scan.find?_labels_read

end TokenStream

/-- The result of assembling a program whose tokens are encoded. -/
def Assembly.ofEncoded (stream : TokenStream) (encoded : Encoded) : Assembly :=
  ⟨encoded.codes, stream.labels, encoded.trace, stream.size⟩

/-- A source is assembled by the first pass followed by the second. -/
theorem assemble_eq_map_encode (source : String) :
    assemble source =
      (TokenStream.ofSource source).encode.map (.ofEncoded (.ofSource source)) := by
  cases h : (TokenStream.ofSource source).encode with
  | error error =>
    have hwalk : (Attempt.ofSource source).walk.result = .error error := h
    simp [assemble, Attempt.result, hwalk, Except.map]
  | ok encoded =>
    have hwalk : (Attempt.ofSource source).walk.result = .ok encoded := h
    simp only [assemble, Attempt.result, hwalk, Except.map]
    rfl

theorem exists_encode_of_assemble_ok {source : String} {assembly : Assembly}
    (h : assemble source = .ok assembly) :
    ∃ encoded, (TokenStream.ofSource source).encode = .ok encoded ∧
      assembly = .ofEncoded (.ofSource source) encoded := by
  rw [assemble_eq_map_encode] at h
  cases hencode : (TokenStream.ofSource source).encode with
  | error error => simp [hencode, Except.map] at h
  | ok encoded =>
    rw [hencode] at h
    exact ⟨encoded, rfl, (Except.ok.inj h).symm⟩

theorem encode_of_assemble_error {source : String} {error : AssembleError}
    (h : assemble source = .error error) : (TokenStream.ofSource source).encode = .error error := by
  rw [assemble_eq_map_encode] at h
  cases hencode : (TokenStream.ofSource source).encode with
  | error first => simpa [hencode, Except.map] using h
  | ok encoded => simp [hencode, Except.map] at h

end NibbleAsm
