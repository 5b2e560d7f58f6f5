import NibbleAsm.Proofs.FirstPass
import NibbleAsm.Proofs.LabelHistory

/-!
# Tokens and declarations

What the first pass makes of lines is said by their words alone. Words that end in a colon are
declarations and all others are tokens, in the same order and with the same lines. A name is bound
to the number of tokens in front of its last declaration. Two declarations are the same word exactly
if they declare the same name, so there are as many labels as different words that declare one.
-/
namespace NibbleAsm

namespace Scan

/-- Each bound name is declared by a word of its own, and there are no other declarations. -/
theorem image_declaration_names (entries : List (Word × ℕ)) :
    (read entries).labels.names.image Word.declaration =
      ((entries.map Prod.fst).filter (fun word => !word.isToken)).toFinset := by
  ext word
  rw [Finset.mem_image, List.mem_toFinset, List.mem_filter]
  constructor
  · rintro ⟨name, hname, rfl⟩
    rw [LabelTable.mem_names, Ne, find?_labels_read_eq_none_iff, not_not] at hname
    exact ⟨hname, by simp⟩
  · rintro ⟨hword, hdeclares⟩
    rcases word.isToken_or_declaration with htoken | ⟨name, rfl⟩
    · simp [htoken] at hdeclares
    · refine ⟨name, ?_, rfl⟩
      rw [LabelTable.mem_names, Ne, find?_labels_read_eq_none_iff, not_not]
      exact hword

theorem size_labels_read (entries : List (Word × ℕ)) :
    (read entries).labels.size =
      ((entries.map Prod.fst).filter (fun word => !word.isToken)).toFinset.card := by
  rw [← image_declaration_names, Finset.card_image_of_injective _ Word.declaration_injective,
    LabelTable.card_names]

end Scan

namespace TokenStream

/-- The first pass reads the words of all lines: tokens where no name is declared, and the last
declaration of each name. -/
theorem ofLines_reads_words (lines : List SourceLine) :
    ∃ entries : List (Word × ℕ),
      (∀ others : List (Word × ℕ), Word.RunsOfLines lines others ↔ others = entries) ∧
      (ofLines lines).tokens =
        (entries.filter (fun entry => entry.1.isToken)).map
          (fun entry => ⟨String.ofList entry.1, entry.2⟩) ∧
      (∀ name : String, (ofLines lines).labels.find? name = none ↔
        Word.declaration name ∉ entries.map Prod.fst) ∧
      (∀ (name : String) (address : ℕ), (ofLines lines).labels.find? name = some address ↔
        Word.LastDeclared (entries.map Prod.fst) name address) ∧
      (ofLines lines).labels.size =
        ((entries.map Prod.fst).filter (fun word => !word.isToken)).toFinset.card ∧
      ∀ (name : String) (address : ℕ), (ofLines lines).labels.find? name = some address →
        address ≤ (ofLines lines).size := by
  refine ⟨lines.flatMap Word.entriesOf, fun _ => Word.runsOfLines_iff, ?_⟩
  rw [ofLines_eq_read]
  refine ⟨Scan.toList_tokens_read _, fun _ => Scan.find?_labels_read_eq_none_iff,
    fun _ _ => Scan.find?_labels_read, Scan.size_labels_read _, ?_⟩
  intro name address hfind
  have hle := (Scan.find?_labels_read.mp hfind).le
  rwa [← Scan.size_tokens_read] at hle

/-- Only one colon is taken off a name, and the empty name can be declared. Lines keep their
numbers, whatever these are. -/
theorem ofLines_reads_colons :
    (ofLines [⟨"x:: KA : x::\u0085 AO", 7⟩, ⟨"x:: TIA :", 3⟩]).tokens =
      [⟨"KA", 7⟩, ⟨"x::\u0085", 7⟩, ⟨"AO", 7⟩, ⟨"TIA", 3⟩] ∧
    (ofLines [⟨"x:: KA : x::\u0085 AO", 7⟩, ⟨"x:: TIA :", 3⟩]).labels.find? "x:" = some 3 ∧
    (ofLines [⟨"x:: KA : x::\u0085 AO", 7⟩, ⟨"x:: TIA :", 3⟩]).labels.size = 2 ∧
    3 ≤ (ofLines [⟨"x:: KA : x::\u0085 AO", 7⟩, ⟨"x:: TIA :", 3⟩]).size := by
  obtain ⟨entries, hruns, htokens, -, hfind, hsize, hle⟩ :=
    ofLines_reads_words [⟨"x:: KA : x::\u0085 AO", 7⟩, ⟨"x:: TIA :", 3⟩]
  have hentries : [("x::".toList, 7), ("KA".toList, 7), (":".toList, 7), ("x::\u0085".toList, 7),
      ("AO".toList, 7), ("x::".toList, 3), ("TIA".toList, 3), (":".toList, 3)] = entries := by
    rw [← hruns, Word.runsOfLines_iff]
    decide +kernel
  subst hentries
  have hlast := (hfind "x:" 3).mpr ⟨["x::".toList, "KA".toList, ":".toList, "x::\u0085".toList,
    "AO".toList], ["TIA".toList, ":".toList], rfl, by decide, by decide⟩
  exact ⟨htokens, hlast, hsize, hle _ _ hlast⟩

end TokenStream

end NibbleAsm
