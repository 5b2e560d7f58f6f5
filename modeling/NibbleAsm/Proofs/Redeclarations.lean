import NibbleAsm.CommandLine.Log
import NibbleAsm.Proofs.Declarations
import Mathlib.Data.List.Forall2

/-!
# Declarations of names declared before

The first pass records a declaration whenever the table binds its name already. The table binds a
name where the last word so far declares it, so the record says where the nearest earlier one
stands. Each word that declares a name again has one record, in the order of the words, and is
warned of with what the record says. Every declaration adds either a label or a record, so there are
no records exactly if no name is declared twice.
-/
namespace NibbleAsm

/-- The words that are no tokens declare names, each by itself. -/
theorem Word.exists_names (words : List Word) :
    ∃ names : List String,
      words.filter (fun word => !word.isToken) = names.map declaration := by
  induction words with
  | nil => exact ⟨[], rfl⟩
  | cons word words ih =>
    obtain ⟨names, hnames⟩ := ih
    rcases word.isToken_or_declaration with htoken | ⟨name, rfl⟩
    · exact ⟨names, by simp [htoken, hnames]⟩
    · exact ⟨name :: names, by simp [hnames]⟩

/-- The word at this place declares a name that an earlier word declares. -/
def Word.Redeclares (entries : List (Word × ℕ)) (place : ℕ) : Prop :=
  ∃ (name : String) (line : ℕ), entries[place]? = some (declaration name, line) ∧
    declaration name ∈ (entries.take place).map Prod.fst

/-- The record of the word at a place: its name and line, the number of tokens before the nearest
earlier word that declares the name, and the number of tokens before the word itself. -/
structure Redeclaration.Describes (entries : List (Word × ℕ)) (place : ℕ)
    (redeclaration : Redeclaration) : Prop where
  word : entries[place]? = some (Word.declaration redeclaration.label, redeclaration.line)
  previous : Word.LastDeclared ((entries.take place).map Prod.fst) redeclaration.label
    redeclaration.previous
  address : redeclaration.address =
    (((entries.take place).map Prod.fst).filter Word.isToken).length

theorem Redeclaration.Describes.previous_le {entries : List (Word × ℕ)} {place : ℕ}
    {redeclaration : Redeclaration} (h : redeclaration.Describes entries place) :
    redeclaration.previous ≤ redeclaration.address := by
  rw [h.address]
  exact h.previous.le

section

variable {entries : List (Word × ℕ)} {entry : Word × ℕ} {place : ℕ}

theorem Word.Redeclares.lt_length (h : Redeclares entries place) : place < entries.length := by
  obtain ⟨name, line, hword, -⟩ := h
  exact (List.getElem?_eq_some_iff.mp hword).1

/-- Whether the next word declares a name again is seen at its own place. No earlier place changes.
-/
theorem Word.redeclares_append_singleton_iff :
    Redeclares (entries ++ [entry]) place ↔
      Redeclares entries place ∨
        place = entries.length ∧ Redeclares (entries ++ [entry]) entries.length := by
  by_cases hlt : place < entries.length
  · have hsame : Redeclares (entries ++ [entry]) place ↔ Redeclares entries place := by
      simp only [Redeclares, List.getElem?_append_left hlt, List.take_append_of_le_length hlt.le]
    rw [hsame, or_iff_left]
    omega
  · have hnone : ¬ Redeclares entries place := fun h => hlt h.lt_length
    rw [or_iff_right hnone]
    constructor
    · intro h
      have hbound := h.lt_length
      rw [List.length_append, List.length_singleton] at hbound
      obtain rfl : place = entries.length := by omega
      exact ⟨rfl, h⟩
    · rintro ⟨rfl, h⟩
      exact h

/-- The last word declares a name again if it declares one that the others declare. -/
theorem Word.redeclares_last_iff {word : Word} {line : ℕ} :
    Redeclares (entries ++ [(word, line)]) entries.length ↔
      ∃ name, word = declaration name ∧ declaration name ∈ entries.map Prod.fst := by
  rw [Redeclares, List.getElem?_concat_length, List.take_left]
  constructor
  · rintro ⟨name, number, hword, hmem⟩
    exact ⟨name, (Prod.mk.inj (Option.some.inj hword)).1, hmem⟩
  · rintro ⟨name, rfl, hmem⟩
    exact ⟨name, line, rfl, hmem⟩

theorem Redeclaration.Describes.redeclares {redeclaration : Redeclaration}
    (h : redeclaration.Describes entries place) : Word.Redeclares entries place :=
  ⟨_, _, h.word, Word.exists_lastDeclared_iff.mp ⟨_, h.previous⟩⟩

theorem Redeclaration.Describes.append {redeclaration : Redeclaration}
    (h : redeclaration.Describes entries place) (entry : Word × ℕ) :
    redeclaration.Describes (entries ++ [entry]) place := by
  have hlt := h.redeclares.lt_length
  have htake : (entries ++ [entry]).take place = entries.take place :=
    List.take_append_of_le_length hlt.le
  refine ⟨?_, ?_, ?_⟩
  · rw [List.getElem?_append_left hlt, h.word]
  · rw [htake]
    exact h.previous
  · rw [htake]
    exact h.address

end

/-- The places of all words that declare a name again, in order, and the record of each of them. -/
structure Redeclaration.Lists (entries : List (Word × ℕ)) (places : List ℕ)
    (redeclarations : List Redeclaration) : Prop where
  increasing : places.Pairwise (· < ·)
  complete : ∀ place, place ∈ places ↔ Word.Redeclares entries place
  described : List.Forall₂ (Redeclaration.Describes entries) places redeclarations

namespace Redeclaration.Lists

variable {entries : List (Word × ℕ)} {entry : Word × ℕ} {places : List ℕ}
  {redeclarations : List Redeclaration}

theorem described_append (h : Lists entries places redeclarations) (entry : Word × ℕ) :
    List.Forall₂ (Describes (entries ++ [entry])) places redeclarations :=
  h.described.imp (fun _ _ hdescribes => hdescribes.append entry)

/-- The step at any other word. -/
theorem append_other (h : Lists entries places redeclarations)
    (hother : ¬ Word.Redeclares (entries ++ [entry]) entries.length) :
    Lists (entries ++ [entry]) places redeclarations where
  increasing := h.increasing
  complete := by
    intro place
    rw [h.complete, Word.redeclares_append_singleton_iff, or_iff_left]
    exact fun hlast => hother hlast.2
  described := h.described_append entry

/-- The step at a word that declares a name again. -/
theorem append_described (h : Lists entries places redeclarations) {redeclaration : Redeclaration}
    (hlast : redeclaration.Describes (entries ++ [entry]) entries.length) :
    Lists (entries ++ [entry]) (places ++ [entries.length])
      (redeclarations ++ [redeclaration]) where
  increasing := by
    rw [List.pairwise_append]
    refine ⟨h.increasing, List.pairwise_singleton _ _, ?_⟩
    intro place hplace last hmem
    rw [List.mem_singleton.mp hmem]
    exact ((h.complete place).mp hplace).lt_length
  complete := by
    intro place
    rw [List.mem_append, h.complete, List.mem_singleton, Word.redeclares_append_singleton_iff,
      and_iff_left hlast.redeclares]
  described := List.rel_append (h.described_append entry) (.cons hlast .nil)

theorem previous_le (h : Lists entries places redeclarations) {redeclaration : Redeclaration}
    (hmem : redeclaration ∈ redeclarations) :
    redeclaration.previous ≤ redeclaration.address := by
  obtain ⟨i, hi, rfl⟩ := List.getElem_of_mem hmem
  have hplace : i < places.length := h.described.length_eq ▸ hi
  exact (h.described.get hplace hi).previous_le

end Redeclaration.Lists

namespace LabelTable

theorem names_define (table : LabelTable) (name : String) (address : ℕ) :
    (table.define name address).2.names = Insert.insert name table.names := by
  ext other
  rw [mem_names, find?_define, Finset.mem_insert, mem_names]
  by_cases hname : other = name
  · simp [hname]
  · simp [hname]

/-- A new name adds a label. -/
theorem size_define (table : LabelTable) (name : String) (address : ℕ) :
    (table.define name address).2.size =
      if table.find? name = none then table.size + 1 else table.size := by
  rw [← card_names, ← card_names, names_define]
  by_cases hfind : table.find? name = none
  · have hnew : name ∉ table.names := by rwa [mem_names, not_not]
    rw [if_pos hfind, Finset.card_insert_of_notMem hnew]
  · rw [if_neg hfind, Finset.insert_eq_of_mem (mem_names.mpr hfind)]

end LabelTable

namespace Scan

theorem redeclarations_push_declaration (scan : Scan) (line : ℕ) (name : String) :
    (scan.push line (Word.declaration name)).redeclarations =
      match scan.labels.find? name with
      | none => scan.redeclarations
      | some previous => scan.redeclarations.push ⟨name, previous, scan.tokens.size, line⟩ := by
  rw [push, Word.declaredName?_eq_some_iff.mpr rfl]
  dsimp only [LabelTable.define]
  cases scan.labels.find? name with
  | none => rfl
  | some previous => rfl

/-- The records of a whole run, by induction on the words read. -/
theorem exists_lists_read (entries : List (Word × ℕ)) :
    ∃ places, Redeclaration.Lists entries places (read entries).redeclarations.toList := by
  induction entries using List.reverseRecOn with
  | nil => exact ⟨[], .nil, by simp [Word.Redeclares], .nil⟩
  | append_singleton entries entry ih =>
    obtain ⟨places, hlists⟩ := ih
    obtain ⟨word, line⟩ := entry
    rw [read_append_singleton]
    rcases word.isToken_or_declaration with htoken | ⟨name, rfl⟩
    · rw [push_of_isToken htoken]
      refine ⟨places, hlists.append_other ?_⟩
      rw [Word.redeclares_last_iff]
      rintro ⟨name, rfl, -⟩
      rw [Word.isToken_declaration] at htoken
      cases htoken
    · rw [redeclarations_push_declaration]
      cases hfind : (read entries).labels.find? name with
      | none =>
        refine ⟨places, hlists.append_other ?_⟩
        rw [Word.redeclares_last_iff]
        rintro ⟨declared, hword, hmem⟩
        rw [← hword] at hmem
        exact find?_labels_read_eq_none_iff.mp hfind hmem
      | some previous =>
        refine ⟨places ++ [entries.length], ?_⟩
        rw [Array.toList_push]
        apply hlists.append_described
        refine ⟨List.getElem?_concat_length, ?_, ?_⟩
        · rw [List.take_left]
          exact find?_labels_read.mp hfind
        · rw [List.take_left]
          exact size_tokens_read entries

/-- Every declaration adds a label or a record. -/
theorem size_redeclarations_add_size_labels (entries : List (Word × ℕ)) :
    (read entries).redeclarations.size + (read entries).labels.size =
      ((entries.map Prod.fst).filter (fun word => !word.isToken)).length := by
  induction entries using List.reverseRecOn with
  | nil => rfl
  | append_singleton entries entry ih =>
    obtain ⟨word, line⟩ := entry
    rw [read_append_singleton, List.map_append, List.filter_append]
    rcases word.isToken_or_declaration with htoken | ⟨name, rfl⟩
    · simpa [push_of_isToken htoken, htoken] using ih
    · rw [redeclarations_push_declaration, labels_push_declaration, LabelTable.size_define]
      cases hfind : (read entries).labels.find? name with
      | none => simp [← ih, Nat.add_assoc]
      | some previous => simp [← ih, Nat.add_right_comm]

/-- Without records the declarations are all different, and the other way round. -/
theorem redeclarations_read_eq_empty_iff (entries : List (Word × ℕ)) :
    (read entries).redeclarations = #[] ↔
      ((entries.map Prod.fst).filter (fun word => !word.isToken)).Nodup := by
  have hcount := size_redeclarations_add_size_labels entries
  rw [size_labels_read, List.card_toFinset] at hcount
  generalize (entries.map Prod.fst).filter (fun word => !word.isToken) = words at hcount
  rw [← Array.size_eq_zero_iff, ← List.dedup_eq_self, ← (List.dedup_sublist words).length_eq]
  omega

end Scan

/-- The event is a warning that a label is declared again, and carries what the record says. -/
structure LogEvent.WarnsOf (event : LogEvent) (redeclaration : Redeclaration) : Prop where
  level : event.level = .warn
  target : event.target = .tokens
  message : event.message = "label redeclared"
  fields : event.fields = [("label", Text.quoted redeclaration.label),
    ("previous", Numeral.decimal redeclaration.previous),
    ("address", Numeral.decimal redeclaration.address),
    ("line", Numeral.decimal redeclaration.line)]

/-- The first pass reports its records, one warning for each. -/
theorem Scan.forall₂_warnsOf_events (spans : List String) (scan : Scan) :
    List.Forall₂ LogEvent.WarnsOf (scan.events spans) scan.redeclarations.toList := by
  rw [events, List.forall₂_map_left_iff, List.forall₂_same]
  intro redeclaration _
  exact ⟨rfl, rfl, rfl, rfl⟩

/-- The warnings of a run are those of its first pass. -/
theorem Attempt.filter_warn_events (attempt : Attempt) :
    attempt.events.filter (fun event => event.level = .warn) =
      attempt.scan.events [attempt.span] := by
  have hrecords : (attempt.scan.events [attempt.span]).filter
      (fun event => event.level = .warn) = attempt.scan.events [attempt.span] := by
    rw [List.filter_eq_self]
    intro event hevent
    obtain ⟨redeclaration, -, rfl⟩ := List.mem_map.mp hevent
    rfl
  have hinstructions : (attempt.walk.trace.map attempt.instructionEvent).filter
      (fun event => event.level = .warn) = [] := by
    rw [List.filter_eq_nil_iff]
    intro event hevent
    obtain ⟨instruction, -, rfl⟩ := List.mem_map.mp hevent
    simp [instructionEvent]
  rw [events, List.filter_append, List.filter_append, List.filter_append, hrecords, hinstructions]
  cases attempt.walk.result with
  | ok encoded => simp [scanEvent, walkEvent]
  | error error => simp [scanEvent]

namespace Scan

/-- The first pass records each word that declares a name again, once and in the order of the words,
with the places of this declaration and of the one before it. It reports one warning for each
record, with what the record says, and a run warns of nothing else. -/
theorem ofLines_records_redeclarations (lines : List SourceLine) :
    ∃ (entries : List (Word × ℕ)) (names : List String),
      (∀ others : List (Word × ℕ), Word.RunsOfLines lines others ↔ others = entries) ∧
      (entries.map Prod.fst).filter (fun word => !word.isToken) = names.map Word.declaration ∧
      (∃ places, Redeclaration.Lists entries places (ofLines lines).redeclarations.toList) ∧
      (∀ spans : List String, List.Forall₂ LogEvent.WarnsOf ((ofLines lines).events spans)
        (ofLines lines).redeclarations.toList) ∧
      (∀ redeclaration ∈ (ofLines lines).redeclarations,
        redeclaration.previous ≤ redeclaration.address) ∧
      (ofLines lines).redeclarations.size + (TokenStream.ofLines lines).labels.size =
        names.length ∧
      ((ofLines lines).redeclarations = #[] ↔ names.Nodup) ∧
      ∀ source : String, SourceLine.ofSource source = lines →
        (Attempt.ofSource source).events.filter (fun event => event.level = .warn) =
          (ofLines lines).events [(Attempt.ofSource source).span] := by
  have hread := ofLines_eq_read lines
  obtain ⟨names, hnames⟩ := Word.exists_names ((lines.flatMap Word.entriesOf).map Prod.fst)
  obtain ⟨places, hlists⟩ := exists_lists_read (lines.flatMap Word.entriesOf)
  rw [← hread] at hlists
  refine ⟨lines.flatMap Word.entriesOf, names, fun _ => Word.runsOfLines_iff, hnames,
    ⟨places, hlists⟩, fun spans => forall₂_warnsOf_events spans _, ?_, ?_, ?_, ?_⟩
  · intro redeclaration hmem
    exact hlists.previous_le (Array.mem_toList_iff.mpr hmem)
  · have hcount := size_redeclarations_add_size_labels (lines.flatMap Word.entriesOf)
    rwa [← hread, hnames, List.length_map] at hcount
  · rw [hread, redeclarations_read_eq_empty_iff, hnames,
      List.nodup_map_iff Word.declaration_injective]
  · rintro source rfl
    exact Attempt.filter_warn_events (Attempt.ofSource source)

/-- A name declared three times and one declared once. -/
theorem ofLines_records_third_declaration :
    (∃ places, Redeclaration.Lists [("x:".toList, 1), ("KA".toList, 1), ("x:".toList, 1),
        ("y:".toList, 1), ("AO".toList, 2), ("x:".toList, 2)] places
      [⟨"x", 0, 1, 1⟩, ⟨"x", 1, 2, 2⟩]) ∧
    (TokenStream.ofLines [⟨"x: KA x: y:", 1⟩, ⟨"AO x:", 2⟩]).labels.size = 2 ∧
    List.Forall₂ LogEvent.WarnsOf ((Attempt.ofSource "x: KA x: y:\nAO x:").events.filter
      (fun event => event.level = .warn)) [⟨"x", 0, 1, 1⟩, ⟨"x", 1, 2, 2⟩] := by
  obtain ⟨entries, names, hruns, hnames, ⟨places, hlists⟩, hevents, -, hcount, -, hwarnings⟩ :=
    ofLines_records_redeclarations [⟨"x: KA x: y:", 1⟩, ⟨"AO x:", 2⟩]
  have hentries : [("x:".toList, 1), ("KA".toList, 1), ("x:".toList, 1), ("y:".toList, 1),
      ("AO".toList, 2), ("x:".toList, 2)] = entries := by
    rw [← hruns, Word.runsOfLines_iff]
    decide +kernel
  have hrecords : (ofLines [⟨"x: KA x: y:", 1⟩, ⟨"AO x:", 2⟩]).redeclarations =
      #[⟨"x", 0, 1, 1⟩, ⟨"x", 1, 2, 2⟩] := by decide +kernel
  have hlength : names.length = 4 := by
    rw [← List.length_map Word.declaration, ← hnames, ← hentries]
    decide
  have hsource : SourceLine.ofSource "x: KA x: y:\nAO x:" =
      [⟨"x: KA x: y:", 1⟩, ⟨"AO x:", 2⟩] := by decide +kernel
  rw [hrecords] at hlists hcount hevents
  rw [hlength] at hcount
  refine ⟨⟨places, hentries ▸ hlists⟩, Nat.add_left_cancel hcount, ?_⟩
  rw [hwarnings _ hsource]
  exact hevents _

end Scan

end NibbleAsm
