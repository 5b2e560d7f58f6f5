import NibbleAsm.Proofs.Layout
import NibbleAsm.Proofs.Relabeling

/-!
# Labels that no jump can reach

A declaration is no token, so it shifts no address, and it binds no name but its own. The second
pass looks up the texts of tokens that are no numbers. A declaration of a number, or of a name that
is the text of no token, may therefore be written anywhere, in front of an operand as well, and even
if it declares the name again.
-/
namespace NibbleAsm

namespace Word

/-- The text consists of separators. -/
def Separators (text : List Char) : Prop :=
  ∀ c ∈ text, isSeparator c = true

instance (text : List Char) : Decidable (Separators text) :=
  List.decidableBAll (fun c => isSeparator c = true) text

/-- A word may begin right behind the text. -/
def WordStart (before : List Char) : Prop :=
  ∀ c ∈ before.getLast?, isSeparator c = true

/-- A word must end right in front of the text. -/
def WordEnd (after : List Char) : Prop :=
  ∀ c ∈ after.head?, isSeparator c = true

instance (before : List Char) : Decidable (WordStart before) :=
  Option.decidableForallMem before.getLast?

instance (after : List Char) : Decidable (WordEnd after) :=
  Option.decidableForallMem after.head?

/-- The second line is the first one with a word put in at a word boundary. Separators keep the word
apart from its neighbours, and may be put in with it. -/
inductive Inserted (word : Word) : List Char → List Char → Prop where
  | between (left blanks blanks' right : List Char) (boundary : WordStart left ∨ WordEnd right)
      (separators : Separators (blanks ++ blanks'))
      (apart : WordStart (left ++ blanks)) (apart' : WordEnd (blanks' ++ right)) :
      Inserted word (left ++ right) (left ++ (blanks ++ word ++ blanks') ++ right)

theorem ofLine_append_of_wordStart {left : List Char} (h : WordStart left) (right : List Char) :
    ofLine (left ++ right) = ofLine left ++ ofLine right := by
  rcases List.eq_nil_or_concat' left with rfl | ⟨start, c, rfl⟩
  · rfl
  · have hc : isSeparator c = true := h c (by simp)
    have hstart : ofLine (start ++ [c]) = ofLine start := by
      rw [ofLine_append_cons hc]
      exact List.append_nil _
    rw [hstart, List.append_assoc, List.singleton_append, ofLine_append_cons hc]

theorem ofLine_append_of_wordEnd {right : List Char} (h : WordEnd right) (left : List Char) :
    ofLine (left ++ right) = ofLine left ++ ofLine right := by
  cases right with
  | nil => simp [ofLine]
  | cons c right =>
    have hc : isSeparator c = true := h c rfl
    rw [ofLine_append_cons hc, ofLine_cons_of_separator hc]

/-- The word that is put in comes to stand between the words of the line. -/
theorem Inserted.ofLine {word : Word} {line line' : List Char} (h : Inserted word line line')
    (nonempty : word ≠ []) (own : SeparatorFree word) :
    ∃ before after, Word.ofLine line = before ++ after ∧
      Word.ofLine line' = before ++ word :: after := by
  cases h with
  | between left blanks blanks' right boundary separators apart apart' =>
    have hleft : Word.ofLine (left ++ blanks) = Word.ofLine left := by
      have hblanks : Separators blanks := fun c hc => separators c (by simp [hc])
      have hend : WordEnd blanks := fun c hc => hblanks c (List.mem_of_mem_head? hc)
      have hnone : Word.ofLine blanks = [] := by
        simpa [Word.ofLine] using ofLine_separators_append hblanks []
      rw [ofLine_append_of_wordEnd hend, hnone, List.append_nil]
    have hright : Word.ofLine (blanks' ++ right) = Word.ofLine right :=
      ofLine_separators_append (fun c hc => separators c (by simp [hc])) right
    refine ⟨Word.ofLine left, Word.ofLine right, ?_, ?_⟩
    · rcases boundary with hstart | hend
      · exact ofLine_append_of_wordStart hstart right
      · exact ofLine_append_of_wordEnd hend left
    · calc Word.ofLine (left ++ (blanks ++ word ++ blanks') ++ right)
        _ = Word.ofLine ((left ++ blanks) ++ (word ++ (blanks' ++ right))) := by
          simp only [List.append_assoc]
        _ = Word.ofLine (left ++ blanks) ++ word :: Word.ofLine (blanks' ++ right) := by
          rw [ofLine_append_of_wordStart apart, ofLine_append nonempty own apart']
        _ = Word.ofLine left ++ word :: Word.ofLine right := by rw [hleft, hright]

/-- A declaration that is put into a line comes to stand between the words of all lines. -/
theorem exists_entries_of_inserted (earlier later : List SourceLine) {line line' : SourceLine}
    {name : String} (own : SeparatorFree name.toList)
    (inserted : Inserted (declaration name) line.text.toList line'.text.toList)
    (hnumber : line'.number = line.number) :
    ∃ first second, (earlier ++ line :: later).flatMap entriesOf = first ++ second ∧
      (earlier ++ line' :: later).flatMap entriesOf =
        first ++ (declaration name, line.number) :: second := by
  have hcolon : SeparatorFree (declaration name) := by
    intro c hc
    rcases List.mem_append.mp hc with hmem | hmem
    · exact own c hmem
    · rw [List.mem_singleton.mp hmem]
      decide
  obtain ⟨before, after, hline, hline'⟩ := inserted.ofLine (by simp [declaration]) hcolon
  refine ⟨earlier.flatMap entriesOf ++ before.map (fun word => (word, line.number)),
    after.map (fun word => (word, line.number)) ++ later.flatMap entriesOf, ?_, ?_⟩
  · simp [entriesOf, hline]
  · simp [entriesOf, hline', hnumber]

end Word

namespace Scan

/-- One more declaration changes no token. -/
theorem toList_tokens_read_declaration (first second : List (Word × ℕ)) (name : String)
    (line : ℕ) :
    (read (first ++ (Word.declaration name, line) :: second)).tokens.toList =
      (read (first ++ second)).tokens.toList := by
  rw [toList_tokens_read, toList_tokens_read]
  simp

/-- One more declaration binds no other name. -/
theorem find?_labels_read_declaration (first second : List (Word × ℕ)) (line : ℕ)
    {name other : String} (h : other ≠ name) :
    (read (first ++ (Word.declaration name, line) :: second)).labels.find? other =
      (read (first ++ second)).labels.find? other := by
  have hfind : (read (first ++ [(Word.declaration name, line)])).labels.find? other =
      (read first).labels.find? other := by
    rw [read_append_singleton, labels_push_declaration, LabelTable.find?_define, if_neg h]
  have hsize : (read (first ++ [(Word.declaration name, line)])).tokens = (read first).tokens := by
    rw [read_append_singleton, tokens_push_declaration]
  rw [← List.singleton_append, ← List.append_assoc, find?_labels_read_append _ second, hfind,
    hsize, find?_labels_read_append]

end Scan

namespace TokenStream

/-- The second pass looks up nothing but the texts of tokens that are no numbers. -/
theorem encode_congr_labels {tokens : List Token} {labels labels' : LabelTable}
    (agree : ∀ token ∈ tokens, Numeral.exactHex? token.text = none →
      labels'.find? token.text = labels.find? token.text) :
    encode ⟨tokens, labels'⟩ = encode ⟨tokens, labels⟩ := by
  have agrees : ∀ texts : List String, texts ⊆ tokens.map Token.text →
      ∀ name ∈ Jump.operand? texts, Jump.Agrees id labels labels' name := by
    intro texts hsub name hname hreads
    obtain ⟨token, htoken, rfl⟩ := List.mem_map.mp (hsub (Jump.mem_of_mem_operand? hname))
    exact ⟨hreads, agree token htoken hreads⟩
  obtain ⟨phrases, own, rest, rfl, hown, hrest⟩ := Phrase.exists_phrases labels tokens
  have hphrases : ∀ phrase ∈ phrases, ∀ name ∈ Jump.operand? phrase.texts,
      Jump.Agrees id labels labels' name := by
    intro phrase hphrase
    apply agrees
    rw [List.map_append, hown]
    intro text htext
    exact List.mem_append_left _ (List.mem_flatMap.mpr ⟨phrase, hphrase, htext⟩)
  rcases hrest with rfl | ⟨cause, hfault⟩
  · rw [List.append_nil, encode_phrases phrases hown,
      encode_renamed_phrases phrases hphrases (by simpa using hown), Encoded.renameLabels_id]
  · cases rest with
    | nil => cases hfault
    | cons token rest =>
      have htexts := agrees ((token :: rest).map Token.text) (by simp)
      rw [encode_fault phrases hown hfault,
        encode_renamed_fault phrases hphrases (by simpa using hown) hfault htexts (by simp),
        AssembleError.renameLabel_id]

/-- A declaration that is put in at a word boundary changes nothing but the binding of its own name,
if the name is a number or the text of no token. -/
theorem inert_declaration (earlier later : List SourceLine) (line line' : SourceLine)
    {name : String} (own : Word.SeparatorFree name.toList)
    (inserted : Word.Inserted (Word.declaration name) line.text.toList line'.text.toList)
    (hnumber : line'.number = line.number)
    (unreachable : Numeral.exactHex? name ≠ none ∨
      ∀ token ∈ (ofLines (earlier ++ line :: later)).tokens, token.text ≠ name) :
    (ofLines (earlier ++ line' :: later)).tokens = (ofLines (earlier ++ line :: later)).tokens ∧
    (∀ other : String, other ≠ name →
      (ofLines (earlier ++ line' :: later)).labels.find? other =
        (ofLines (earlier ++ line :: later)).labels.find? other) ∧
    (ofLines (earlier ++ line' :: later)).encode =
      (ofLines (earlier ++ line :: later)).encode := by
  obtain ⟨first, second, hentries, hentries'⟩ :=
    Word.exists_entries_of_inserted earlier later own inserted hnumber
  have htokens : (ofLines (earlier ++ line' :: later)).tokens =
      (ofLines (earlier ++ line :: later)).tokens := by
    rw [ofLines_eq_read, ofLines_eq_read, hentries, hentries']
    exact Scan.toList_tokens_read_declaration first second name line.number
  have hlabels : ∀ other : String, other ≠ name →
      (ofLines (earlier ++ line' :: later)).labels.find? other =
        (ofLines (earlier ++ line :: later)).labels.find? other := by
    intro other hother
    rw [ofLines_eq_read, ofLines_eq_read, hentries, hentries']
    exact Scan.find?_labels_read_declaration first second line.number hother
  refine ⟨htokens, hlabels, ?_⟩
  generalize ofLines (earlier ++ line' :: later) = stream' at htokens hlabels ⊢
  generalize ofLines (earlier ++ line :: later) = stream at htokens hlabels unreachable ⊢
  obtain ⟨tokens, labels⟩ := stream
  obtain ⟨tokens', labels'⟩ := stream'
  obtain rfl : tokens' = tokens := htokens
  apply encode_congr_labels
  intro token htoken hreads
  apply hlabels
  rintro rfl
  rcases unreachable with hnumeral | habsent
  · exact hnumeral hreads
  · exact habsent token htoken rfl

/-- The name spells an instruction and is declared for the second time, between a jump and its
operand. The jump still finds its label. -/
theorem inert_declaration_before_operand :
    (ofLines [⟨"CH: KA go:", 1⟩, ⟨"JUMP\tCH:\tgo", 2⟩]).encode =
      .ok ⟨[0x0, 0xF, 0, 1], [⟨0, 0, .ka, 0, .absent⟩,
        ⟨1, 1, .jump, 0xF, .jump 1 (some "go") ⟨0, 1⟩⟩]⟩ := by
  have own : Word.SeparatorFree "CH".toList := by decide
  have inserted : Word.Inserted (Word.declaration "CH") "JUMP\tgo".toList
      "JUMP\tCH:\tgo".toList :=
    .between "JUMP\t".toList [] ['\t'] "go".toList (by decide) (by decide) (by decide) (by decide)
  have absent : ∀ token ∈ (ofLines [⟨"CH: KA go:", 1⟩, ⟨"JUMP\tgo", 2⟩]).tokens,
      token.text ≠ "CH" := by decide +kernel
  obtain ⟨-, -, hencode⟩ := inert_declaration [⟨"CH: KA go:", 1⟩] [] ⟨"JUMP\tgo", 2⟩
    ⟨"JUMP\tCH:\tgo", 2⟩ own inserted rfl (Or.inr absent)
  calc (ofLines [⟨"CH: KA go:", 1⟩, ⟨"JUMP\tCH:\tgo", 2⟩]).encode
    _ = (ofLines [⟨"CH: KA go:", 1⟩, ⟨"JUMP\tgo", 2⟩]).encode := hencode
    _ = _ := by decide +kernel

end TokenStream

end NibbleAsm
