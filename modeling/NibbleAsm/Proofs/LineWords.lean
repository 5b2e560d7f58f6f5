import NibbleAsm.Proofs.Comment
import NibbleAsm.Proofs.FirstPass

/-!
# Sources as words line by line

Assembling a source depends on the words that each of its lines keeps in front of its comment, and
on nothing else. An edit without line feeds changes one line, so it is harmless if that line keeps
its words.
-/
namespace NibbleAsm

namespace Text

/-- A line begins behind the text. -/
def LineStart (before : List Char) : Prop :=
  ∀ c ∈ before.getLast?, c = '\n'

/-- A line ends in front of the text. -/
def LineEnd (after : List Char) : Prop :=
  ∀ c ∈ after.head?, c = '\n'

instance (before : List Char) : Decidable (LineStart before) :=
  Option.decidableForallMem before.getLast?

instance (after : List Char) : Decidable (LineEnd after) :=
  Option.decidableForallMem after.head?

theorem length_lines (source : List Char) : (lines source).length = source.count '\n' + 1 :=
  length_splitWhere _ source

theorem eq_nil_of_lineStart {before last : List Char} {earlier : List (List Char)}
    (h : LineStart before) (hlines : lines before = earlier ++ [last]) : last = [] := by
  have hempty : ∃ pieces, lines before = pieces ++ [[]] := by
    rcases List.eq_nil_or_concat' before with rfl | ⟨start, c, rfl⟩
    · exact ⟨[], rfl⟩
    · obtain rfl : c = '\n' := h c (by simp)
      exact ⟨_, splitWhere_append_cons rfl start []⟩
  obtain ⟨pieces, hpieces⟩ := hempty
  rw [hpieces] at hlines
  exact (List.singleton_inj.mp (List.append_inj' hlines rfl).2).symm

theorem eq_nil_of_lineEnd {after first : List Char} {later : List (List Char)}
    (h : LineEnd after) (hlines : lines after = first :: later) : first = [] := by
  cases after with
  | nil => exact (List.cons.inj hlines).1.symm
  | cons c after =>
    obtain rfl : c = '\n' := h c rfl
    rw [lines, splitWhere_cons, if_pos (beq_self_eq_true _)] at hlines
    exact (List.cons.inj hlines).1.symm

/-- Text without line feeds stands in one line, and which text it is changes no other. -/
theorem exists_line_around (before after : List Char) :
    ∃ earlier left right later, (LineStart before → left = []) ∧ (LineEnd after → right = []) ∧
      ∀ text : List Char, '\n' ∉ text →
        lines (before ++ text ++ after) = earlier ++ (left ++ text ++ right) :: later := by
  obtain ⟨earlier, left, hbefore, happend⟩ := exists_last_piece (· == '\n') before
  obtain ⟨right, later, hafter⟩ :=
    List.exists_cons_of_ne_nil (splitWhere_ne_nil (· == '\n') after)
  refine ⟨earlier, left, right, later, ?_, ?_, ?_⟩
  · intro h
    exact eq_nil_of_lineStart h hbefore
  · intro h
    exact eq_nil_of_lineEnd h hafter
  · intro text htext
    have hown : ∀ c ∈ text, (c == '\n') = false := by
      intro c hc
      simpa using ne_of_mem_of_not_mem hc htext
    have hrest := splitWhere_append_of_forall hown hafter
    rw [lines, List.append_assoc, happend hrest, List.append_assoc]

end Text

namespace Word

/-- The words that a line keeps in front of its comment. -/
def ofSourceLine (line : List Char) : List Word :=
  ofLine (Comment.strip line)

/-- The words of each line of a source. -/
def linesOf (source : List Char) : List (List Word) :=
  (Text.lines source).map ofSourceLine

theorem entriesOfSource_eq_flatMap (source : String) :
    entriesOfSource source =
      ((linesOf source.toList).zipIdx 1).flatMap
        (fun line => line.1.map (fun word => (word, line.2))) := by
  simp [entriesOfSource, SourceLine.ofSource, linesOf, Text.lines, List.zipIdx_map,
    List.flatMap_map, entriesOf, ofSourceLine]

theorem map_fst_entriesOfSource (source : String) :
    (entriesOfSource source).map Prod.fst = (linesOf source.toList).flatten := by
  rw [entriesOfSource_eq_flatMap, List.map_flatMap]
  simp only [List.map_map, Function.comp_def, List.map_id']
  rw [List.flatMap_def]
  exact congrArg List.flatten (List.zipIdx_map_fst 1 _)

/-- Lines joined by line feeds have their own words, one line behind the other. -/
theorem flatten_linesOf_intercalate {lines : List (List Char)}
    (hlines : ∀ line ∈ lines, '\n' ∉ line) :
    (linesOf (['\n'].intercalate lines)).flatten = lines.flatMap ofSourceLine := by
  by_cases hne : lines = []
  · rw [hne]
    rfl
  · have hpieces : ∀ line ∈ lines, ∀ c ∈ line, (c == '\n') = false := by
      intro line hline c hc
      simpa using ne_of_mem_of_not_mem hc (hlines line hline)
    rw [linesOf, Text.lines, Text.splitWhere_intercalate (by decide) hpieces hne]
    rfl

/-- An edit of one line keeps the words of all lines if it keeps those of that line. -/
theorem linesOf_congr {before text text' after : List Char} (htext : '\n' ∉ text)
    (htext' : '\n' ∉ text')
    (hline : ∀ left right, (Text.LineStart before → left = []) →
      (Text.LineEnd after → right = []) →
      ofSourceLine (left ++ text ++ right) = ofSourceLine (left ++ text' ++ right)) :
    linesOf (before ++ text ++ after) = linesOf (before ++ text' ++ after) := by
  obtain ⟨earlier, left, right, later, hleft, hright, hlines⟩ :=
    Text.exists_line_around before after
  rw [linesOf, linesOf, hlines text htext, hlines text' htext', List.map_append, List.map_append,
    List.map_cons, List.map_cons, hline left right hleft hright]

/-- Text at the end of a line is harmless if it gives no line another word. -/
theorem linesOf_insert_of_lineEnd {tail after : List Char} (htail : '\n' ∉ tail)
    (hline : ∀ line, ofSourceLine (line ++ tail) = ofSourceLine line) (hend : Text.LineEnd after)
    (before : List Char) : linesOf (before ++ tail ++ after) = linesOf (before ++ after) := by
  have hlines : linesOf (before ++ tail ++ after) = linesOf (before ++ [] ++ after) := by
    apply linesOf_congr htail List.not_mem_nil
    intro left right _ hright
    rw [hright hend, List.append_nil, List.append_nil, List.append_nil, hline]
  rwa [List.append_nil] at hlines

/-- Text at the beginning of a line is harmless if it gives no line another word. -/
theorem linesOf_insert_of_lineStart {before head : List Char} (hhead : '\n' ∉ head)
    (hline : ∀ line, ofSourceLine (head ++ line) = ofSourceLine line)
    (hstart : Text.LineStart before) (after : List Char) :
    linesOf (before ++ head ++ after) = linesOf (before ++ after) := by
  have hlines : linesOf (before ++ head ++ after) = linesOf (before ++ [] ++ after) := by
    apply linesOf_congr hhead List.not_mem_nil
    intro left right hleft _
    rw [hleft hstart, List.nil_append, List.nil_append, List.nil_append, hline]
  rwa [List.append_nil] at hlines

end Word

/-- The words of each line decide about the result, an error's line included. -/
theorem assemble_congr {source source' : String}
    (h : Word.linesOf source.toList = Word.linesOf source'.toList) :
    assemble source = assemble source' := by
  have hentries : Word.entriesOfSource source = Word.entriesOfSource source' := by
    rw [Word.entriesOfSource_eq_flatMap, h, Word.entriesOfSource_eq_flatMap]
  have hstream : TokenStream.ofSource source = TokenStream.ofSource source' := by
    rw [TokenStream.ofSource_eq_read, hentries, TokenStream.ofSource_eq_read]
  rw [assemble_eq_map_encode, hstream, ← assemble_eq_map_encode]

end NibbleAsm
