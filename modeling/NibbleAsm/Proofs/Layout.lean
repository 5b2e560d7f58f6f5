import NibbleAsm.Proofs.LineWords

/-!
# Layout and comments

White space within a line separates words and does nothing else. How much of it there is, which
characters it consists of, and whether there is some at either end of a line makes no difference,
inside a comment or in front of it. Comments themselves make no difference either, provided that a
`//` is kept apart from a `/` in front of it.
-/
namespace NibbleAsm

namespace Word

/-- White space that stays within a line. -/
def Blank (text : List Char) : Prop :=
  ∀ c ∈ text, isSeparator c = true ∧ c ≠ '\n'

instance (text : List Char) : Decidable (Blank text) :=
  List.decidableBAll (fun c => isSeparator c = true ∧ c ≠ '\n') text

/-- Separators in front of a line leave no trace. -/
theorem ofLine_separators_append {blanks : List Char} (h : ∀ c ∈ blanks, isSeparator c = true)
    (line : List Char) : ofLine (blanks ++ line) = ofLine line := by
  induction blanks with
  | nil => rfl
  | cons c blanks ih =>
    rw [List.cons_append, ofLine_cons_of_separator (h c List.mem_cons_self),
      ih (fun d hd => h d (List.mem_cons_of_mem c hd))]

/-- A separator ends the words before it. -/
theorem ofLine_append_cons {c : Char} (hc : isSeparator c = true) (line rest : List Char) :
    ofLine (line ++ c :: rest) = ofLine line ++ ofLine rest := by
  rw [ofLine, Text.splitWhere_append_cons hc, List.filter_append]
  rfl

namespace Blank

variable {blanks : List Char}

theorem singleton {c : Char} (hc : isSeparator c = true) (hne : c ≠ '\n') : Blank [c] := by
  simp [Blank, hc, hne]

theorem not_mem_newline (h : Blank blanks) : '\n' ∉ blanks := by
  intro hmem
  exact (h _ hmem).2 rfl

/-- No marker contains white space. -/
theorem ne_marker (h : Blank blanks) : ∀ c ∈ blanks, c ≠ ';' ∧ c ≠ '/' := by
  intro c hc
  have hseparator := (h c hc).1
  constructor
  · rintro rfl
    exact absurd hseparator (by decide)
  · rintro rfl
    exact absurd hseparator (by decide)

theorem head?_append_ne (h : Blank blanks) (hne : blanks ≠ []) (rest : List Char) :
    (blanks ++ rest).head? ≠ some '/' := by
  cases blanks with
  | nil => exact absurd rfl hne
  | cons c blanks =>
    have hc := (h.ne_marker c List.mem_cons_self).2
    simpa using hc

theorem ofLine_append (h : Blank blanks) (line : List Char) :
    ofLine (blanks ++ line) = ofLine line :=
  ofLine_separators_append (fun c hc => (h c hc).1) line

theorem ofLine_between (h : Blank blanks) (hne : blanks ≠ []) (left right : List Char) :
    ofLine (left ++ (blanks ++ right)) = ofLine left ++ ofLine right := by
  cases blanks with
  | nil => exact absurd rfl hne
  | cons c blanks =>
    have hrest : Blank blanks := fun d hd => h d (List.mem_cons_of_mem c hd)
    rw [List.cons_append, ofLine_append_cons (h c List.mem_cons_self).1, hrest.ofLine_append]

/-- White space between two texts separates their words, unless a comment that opens in the first
hides the second. The white space itself leaves no trace. -/
theorem ofSourceLine_between (h : Blank blanks) (hne : blanks ≠ []) (left right : List Char) :
    ofSourceLine (left ++ blanks ++ right) =
      if Comment.strip left = left then ofLine left ++ ofSourceLine right
      else ofSourceLine left := by
  rw [ofSourceLine, List.append_assoc, Comment.strip_append (h.head?_append_ne hne right),
    Comment.strip_append_of_forall h.ne_marker]
  split_ifs
  · exact h.ofLine_between hne left (Comment.strip right)
  · rfl

theorem ofSourceLine_append (h : Blank blanks) (line : List Char) :
    ofSourceLine (blanks ++ line) = ofSourceLine line := by
  rw [ofSourceLine, Comment.strip_append_of_forall h.ne_marker, h.ofLine_append]
  rfl

/-- Text without words, kept apart by white space, adds no words. -/
theorem ofSourceLine_append_wordless (h : Blank blanks) (hne : blanks ≠ []) (line : List Char)
    {rest : List Char} (hrest : ofSourceLine rest = []) :
    ofSourceLine (line ++ blanks ++ rest) = ofSourceLine line := by
  rw [h.ofSourceLine_between hne, hrest, List.append_nil]
  split_ifs with hstrip
  · rw [ofSourceLine, hstrip]
  · rfl

theorem ofSourceLine_append_right (h : Blank blanks) (line : List Char) :
    ofSourceLine (line ++ blanks) = ofSourceLine line := by
  by_cases hne : blanks = []
  · rw [hne, List.append_nil]
  · have hline := h.ofSourceLine_append_wordless hne line (show ofSourceLine [] = [] from rfl)
    rwa [List.append_nil] at hline

/-- One run of white space is as good as another. -/
theorem linesOf_replace {blanks' : List Char} (h : Blank blanks) (h' : Blank blanks')
    (hne : blanks ≠ []) (hne' : blanks' ≠ []) (before after : List Char) :
    linesOf (before ++ blanks ++ after) = linesOf (before ++ blanks' ++ after) := by
  apply linesOf_congr h.not_mem_newline h'.not_mem_newline
  intro left right _ _
  rw [h.ofSourceLine_between hne, h'.ofSourceLine_between hne']

/-- White space at either end of a line is as good as none. -/
theorem linesOf_insert (h : Blank blanks) {before after : List Char}
    (hplace : Text.LineStart before ∨ Text.LineEnd after) :
    linesOf (before ++ blanks ++ after) = linesOf (before ++ after) := by
  rcases hplace with hstart | hend
  · exact linesOf_insert_of_lineStart h.not_mem_newline h.ofSourceLine_append hstart after
  · exact linesOf_insert_of_lineEnd h.not_mem_newline h.ofSourceLine_append_right hend before

end Blank

end Word

/-- Every line feed with a carriage return in front of it. -/
def Text.withCarriageReturns (source : List Char) : List Char :=
  source.flatMap (fun c => if c = '\n' then ['\r', '\n'] else [c])

theorem Text.withCarriageReturns_cons (c : Char) (source : List Char) :
    withCarriageReturns (c :: source) =
      (if c = '\n' then ['\r', '\n'] else [c]) ++ withCarriageReturns source := rfl

theorem Word.linesOf_append_withCarriageReturns (before source : List Char) :
    linesOf (before ++ Text.withCarriageReturns source) = linesOf (before ++ source) := by
  -- Line feeds are treated from left to right; what is already treated belongs to `before`.
  induction source generalizing before with
  | nil => rfl
  | cons c source ih =>
    rw [Text.withCarriageReturns_cons, ← List.append_assoc, ih]
    split_ifs with hc
    · subst hc
      have hblank : Blank ['\r'] := .singleton (by decide) (by decide)
      have hend : Text.LineEnd ('\n' :: source) := by simp [Text.LineEnd]
      have hinsert : linesOf (before ++ ['\r'] ++ '\n' :: source) =
          linesOf (before ++ '\n' :: source) := hblank.linesOf_insert (Or.inr hend)
      simpa using hinsert
    · rw [List.append_assoc, List.singleton_append]

/-- The layout of white space never changes the result of assembling a source: one run of white
space may be replaced by another, white space may stand at either end of any line, lines may end in
a carriage return, and the source may begin with a byte-order mark. -/
theorem assemble_layout :
    (∀ before blanks blanks' after : String, Word.Blank blanks.toList → blanks ≠ "" →
      Word.Blank blanks'.toList → blanks' ≠ "" →
      assemble (before ++ blanks ++ after) = assemble (before ++ blanks' ++ after)) ∧
    (∀ before blanks after : String, Word.Blank blanks.toList →
      Text.LineStart before.toList ∨ Text.LineEnd after.toList →
      assemble (before ++ blanks ++ after) = assemble (before ++ after)) ∧
    (∀ source : String,
      assemble (String.ofList (Text.withCarriageReturns source.toList)) = assemble source) ∧
    ∀ source : String,
      assemble (String.singleton Word.byteOrderMark ++ source) = assemble source := by
  refine ⟨?_, ?_, ?_, ?_⟩
  · intro before blanks blanks' after h hne h' hne'
    apply assemble_congr
    simp only [String.toList_append]
    exact h.linesOf_replace h' (by simpa using hne) (by simpa using hne') _ _
  · intro before blanks after h hplace
    apply assemble_congr
    simp only [String.toList_append]
    exact h.linesOf_insert hplace
  · intro source
    apply assemble_congr
    rw [String.toList_ofList]
    exact Word.linesOf_append_withCarriageReturns [] source.toList
  · intro source
    have hblank : Word.Blank [Word.byteOrderMark] := .singleton (by decide) (by decide)
    have hstart : Text.LineStart [] := by simp [Text.LineStart]
    apply assemble_congr
    rw [String.toList_append, String.toList_singleton]
    exact hblank.linesOf_insert (Or.inl hstart)

/-- White space of several kinds, once in front of an operand and once behind a comment. The error
behind it is reported in its line. -/
theorem assemble_layout_mixed :
    assemble "TIA\u3000\t5 ; note\t\nFOO" = .error ⟨.undefinedMnemonic, 2, "FOO", 2⟩ := by
  obtain ⟨hreplace, hinsert, -, -⟩ := assemble_layout
  have hrun : assemble ("TIA" ++ "\u3000\t" ++ "5 ; note\t\nFOO") =
      assemble ("TIA" ++ " " ++ "5 ; note\t\nFOO") :=
    hreplace _ _ _ _ (by decide) (by decide) (by decide) (by decide)
  have hend : assemble ("TIA 5 ; note" ++ "\t" ++ "\nFOO") = assemble ("TIA 5 ; note" ++ "\nFOO") :=
    hinsert _ _ _ (by decide) (Or.inr (by decide))
  calc assemble "TIA\u3000\t5 ; note\t\nFOO"
    _ = assemble "TIA 5 ; note\t\nFOO" := hrun
    _ = assemble "TIA 5 ; note\nFOO" := hend
    _ = .error ⟨.undefinedMnemonic, 2, "FOO", 2⟩ := by decide +kernel

namespace Word

theorem ofSourceLine_append_semicolon (comment line : List Char) :
    ofSourceLine (line ++ ';' :: comment) = ofSourceLine line := by
  rw [ofSourceLine, Comment.strip_append_semicolon]
  rfl

/-- Right behind a `/` the marker would begin one character too early, so white space is needed. -/
theorem Blank.ofSourceLine_append_slashes {blanks : List Char} (h : Blank blanks)
    (hne : blanks ≠ []) (comment line : List Char) :
    ofSourceLine (line ++ (blanks ++ '/' :: '/' :: comment)) = ofSourceLine line := by
  have hopens : Comment.Opens ('/' :: '/' :: comment) :=
    Or.inr (List.prefix_append ['/', '/'] comment)
  have hrest : ofSourceLine ('/' :: '/' :: comment) = [] := by
    rw [ofSourceLine, Comment.strip_of_opens hopens]
    rfl
  rw [← List.append_assoc]
  exact h.ofSourceLine_append_wordless hne line hrest

/-- One text behind a marker is as good as another. -/
theorem linesOf_replace_comment {marker comment comment' after : List Char}
    (hmarker : Comment.IsMarker marker) (hcomment : '\n' ∉ comment) (hcomment' : '\n' ∉ comment')
    (hend : Text.LineEnd after) (before : List Char) :
    linesOf (before ++ (marker ++ comment) ++ after) =
      linesOf (before ++ (marker ++ comment') ++ after) := by
  apply linesOf_congr
  · simp [hmarker.not_mem_newline, hcomment]
  · simp [hmarker.not_mem_newline, hcomment']
  · intro left right _ hright
    rw [hright hend, List.append_nil, List.append_nil, ← List.append_assoc, ← List.append_assoc,
      ofSourceLine, ofSourceLine, Comment.strip_append_marker hmarker,
      Comment.strip_append_marker hmarker]

end Word

/-- Comments never change the result of assembling a source. Any line may get one, and the text
behind any marker of a line, the first one included, may be replaced. -/
theorem assemble_comments :
    (∀ before comment after : String, '\n' ∉ comment.toList → Text.LineEnd after.toList →
      assemble (before ++ ";" ++ comment ++ after) = assemble (before ++ after)) ∧
    (∀ (before : String) (c : Char) (comment after : String), Word.isSeparator c = true →
      c ≠ '\n' → '\n' ∉ comment.toList → Text.LineEnd after.toList →
      assemble (before ++ String.singleton c ++ "//" ++ comment ++ after) =
        assemble (before ++ after)) ∧
    ∀ before marker comment comment' after : String, Comment.IsMarker marker.toList →
      '\n' ∉ comment.toList → '\n' ∉ comment'.toList → Text.LineEnd after.toList →
      assemble (before ++ marker ++ comment ++ after) =
        assemble (before ++ marker ++ comment' ++ after) := by
  refine ⟨?_, ?_, ?_⟩
  · intro before comment after hcomment hend
    have htail : '\n' ∉ ';' :: comment.toList := by simp [hcomment]
    have hlines := Word.linesOf_insert_of_lineEnd htail
      (Word.ofSourceLine_append_semicolon comment.toList) hend before.toList
    apply assemble_congr
    simpa using hlines
  · intro before c comment after hc hne hcomment hend
    have hblank : Word.Blank [c] := .singleton hc hne
    have htail : '\n' ∉ [c] ++ '/' :: '/' :: comment.toList := by simp [hcomment, hne.symm]
    have hlines := Word.linesOf_insert_of_lineEnd htail
      (hblank.ofSourceLine_append_slashes (List.cons_ne_nil c []) _) hend before.toList
    apply assemble_congr
    simpa using hlines
  · intro before marker comment comment' after hmarker hcomment hcomment' hend
    have hlines := Word.linesOf_replace_comment hmarker hcomment hcomment' hend before.toList
    apply assemble_congr
    simpa using hlines

/-- A separator keeps the marker apart from a slash, which stays a word of its own. -/
theorem assemble_comments_behind_slash :
    assemble "KA / //a;b:\nAO" = .error ⟨.undefinedMnemonic, 1, "/", 1⟩ := by
  obtain ⟨-, hslashes, -⟩ := assemble_comments
  calc assemble "KA / //a;b:\nAO"
    _ = assemble ("KA /" ++ "\nAO") :=
      hslashes "KA /" ' ' "a;b:" "\nAO" (by decide) (by decide) (by decide) (by decide)
    _ = .error ⟨.undefinedMnemonic, 1, "/", 1⟩ := by decide +kernel

end NibbleAsm
