import NibbleAsm.Proofs.Acceptance
import NibbleAsm.Proofs.Layout

/-!
# Line breaks

A token carries its line for reports about errors and for nothing else: both passes depend on the
words of a source in their order, wherever the lines end. A line feed behind a line without a
comment may therefore become a blank. Where a line ends in a comment this would hide the next one.
-/
namespace NibbleAsm

/-- What an error says, its line apart. -/
def AssembleError.withoutLine (error : AssembleError) : AssembleError.Cause × ℕ × String :=
  (error.cause, error.index, error.token)

/-- The lines of the tokens show in the line of an error only. -/
theorem TokenStream.mapError_encode_congr {labels : LabelTable} {tokens tokens' : List Token}
    (h : tokens.map Token.text = tokens'.map Token.text) :
    (encode ⟨tokens, labels⟩).mapError AssembleError.withoutLine =
      (encode ⟨tokens', labels⟩).mapError AssembleError.withoutLine := by
  obtain ⟨phrases, own, rest, rfl, hown, rfl | ⟨cause, hfault⟩⟩ :=
    Phrase.exists_phrases labels tokens
  · rw [List.append_nil] at h ⊢
    rw [encode_phrases phrases hown, encode_phrases phrases (h.symm.trans hown)]
  · cases rest with
    | nil => cases hfault
    | cons token rest =>
      -- The other tokens are cut at the same place, since the texts are the same.
      rw [List.map_append] at h
      obtain ⟨own', others, rfl, hown', hothers⟩ := List.map_eq_append_iff.mp h.symm
      obtain ⟨token', rest', rfl, htoken, hrest⟩ := List.map_eq_cons_iff.mp hothers
      have hlength : own'.length = own.length := by
        have hcount := congrArg List.length hown'
        simpa using hcount
      have hfault' : Fault labels (token'.text :: rest'.map Token.text) cause := by
        rwa [htoken, hrest]
      rw [encode_fault phrases hown hfault, encode_fault phrases (hown'.trans hown) hfault',
        hlength, htoken]
      rfl

/-- The sequence of words decides about the result, an error's line apart. -/
theorem mapError_assemble_congr {source source' : String}
    (h : (Word.linesOf source.toList).flatten = (Word.linesOf source'.toList).flatten) :
    (assemble source).mapError AssembleError.withoutLine =
      (assemble source').mapError AssembleError.withoutLine := by
  rw [← Word.map_fst_entriesOfSource, ← Word.map_fst_entriesOfSource] at h
  have htexts : (TokenStream.ofSource source).tokens.map Token.text =
      (TokenStream.ofSource source').tokens.map Token.text := by
    rw [TokenStream.map_text_tokens_ofSource, h, TokenStream.map_text_tokens_ofSource]
  have hlabels : (TokenStream.ofSource source).labels = (TokenStream.ofSource source').labels := by
    rw [TokenStream.ofSource_eq_read, TokenStream.ofSource_eq_read]
    exact Scan.labels_read_congr h
  rw [assemble_eq_map_encode, assemble_eq_map_encode]
  generalize TokenStream.ofSource source = stream at htexts hlabels ⊢
  generalize TokenStream.ofSource source' = stream' at htexts hlabels ⊢
  obtain ⟨tokens, labels⟩ := stream
  obtain ⟨tokens', labels'⟩ := stream'
  obtain rfl : labels = labels' := hlabels
  have hsize : tokens.length = tokens'.length := by
    have hcount := congrArg List.length htexts
    simpa using hcount
  have hassembly : Assembly.ofEncoded ⟨tokens, labels⟩ = Assembly.ofEncoded ⟨tokens', labels⟩ := by
    funext encoded
    simp [Assembly.ofEncoded, TokenStream.size, hsize]
  have hcommute : ∀ result : Except AssembleError Encoded,
      (result.map (Assembly.ofEncoded ⟨tokens', labels⟩)).mapError AssembleError.withoutLine =
        (result.mapError AssembleError.withoutLine).map (Assembly.ofEncoded ⟨tokens', labels⟩) := by
    intro result
    cases result <;> rfl
  rw [hassembly, hcommute, hcommute, TokenStream.mapError_encode_congr htexts]

namespace Word

/-- A line without a comment keeps its words if it is joined to the next line by a blank. -/
theorem flatten_linesOf_join {before line : List Char} (hstart : Text.LineStart before)
    (hline : '\n' ∉ line) (hmarked : ¬ Comment.Marked line) (after : List Char) :
    (linesOf (before ++ line ++ ' ' :: after)).flatten =
      (linesOf (before ++ line ++ '\n' :: after)).flatten := by
  obtain ⟨earlier, last, hbefore, happend⟩ := Text.exists_last_piece (· == '\n') before
  obtain rfl : last = [] := Text.eq_nil_of_lineStart hstart hbefore
  obtain ⟨first, later, hafter⟩ :=
    List.exists_cons_of_ne_nil (Text.splitWhere_ne_nil (· == '\n') after)
  have hown : ∀ c ∈ line, (c == '\n') = false := by
    intro c hc
    simpa using ne_of_mem_of_not_mem hc hline
  have hjoined : Text.splitWhere (· == '\n') (line ++ ' ' :: after) =
      (line ++ ' ' :: first) :: later := by
    apply Text.splitWhere_append_of_forall hown
    simp [Text.splitWhere_cons, hafter, Text.extendFirst]
  have hbroken : Text.splitWhere (· == '\n') (line ++ '\n' :: after) =
      (line ++ []) :: first :: later := by
    apply Text.splitWhere_append_of_forall hown
    simp [Text.splitWhere_cons, hafter]
  have hstrip := Comment.strip_eq_self_iff.mpr hmarked
  have hblank : Blank [' '] := .singleton (by decide) (by decide)
  have hwords : ofSourceLine (line ++ ' ' :: first) = ofSourceLine line ++ ofSourceLine first := by
    have hbetween := hblank.ofSourceLine_between (List.cons_ne_nil _ _) line first
    rw [if_pos hstrip] at hbetween
    simpa [ofSourceLine, hstrip] using hbetween
  rw [linesOf, linesOf, Text.lines, Text.lines, List.append_assoc, List.append_assoc,
    happend hjoined, happend hbroken]
  simp [hwords]

end Word

/-- Line breaks show in the line of an error only. A line without a comment may be joined to the
next one by a blank. -/
theorem assemble_join_lines (before line after : String)
    (hstart : Text.LineStart before.toList) (hline : '\n' ∉ line.toList)
    (hmarked : ¬ Comment.Marked line.toList) :
    (assemble (before ++ line ++ " " ++ after)).mapError AssembleError.withoutLine =
      (assemble (before ++ line ++ "\n" ++ after)).mapError AssembleError.withoutLine := by
  apply mapError_assemble_congr
  have hjoin := Word.flatten_linesOf_join hstart hline hmarked after.toList
  simpa using hjoin

/-- Two slashes that stand at either side of the line break do not become a marker. -/
theorem assemble_join_lines_at_slashes :
    assemble "/: JUMP\n/\n/" = .error ⟨.undefinedMnemonic, 2, "/", 3⟩ ∧
    (assemble "/: JUMP\n/ /").mapError AssembleError.withoutLine =
      .error (.undefinedMnemonic, 2, "/") := by
  have hbroken : assemble "/: JUMP\n/\n/" = .error ⟨.undefinedMnemonic, 2, "/", 3⟩ := by
    decide +kernel
  refine ⟨hbroken, ?_⟩
  have hjoin := assemble_join_lines "/: JUMP\n" "/" "/" (by decide) (by decide) (by decide)
  calc (assemble "/: JUMP\n/ /").mapError AssembleError.withoutLine
    _ = (assemble "/: JUMP\n/\n/").mapError AssembleError.withoutLine := hjoin
    _ = .error (.undefinedMnemonic, 2, "/") := by
      rw [hbroken]
      rfl

end NibbleAsm
