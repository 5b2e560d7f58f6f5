import NibbleAsm.Proofs.Encoding

/-!
# What the second pass accepts, and what it reports

A list of tokens is accepted exactly when its texts are a concatenation of phrases. The result is
then the concatenation of their meanings, with one record for each phrase. A list that is refused is
refused at its first fault: the tokens before the error's index are accepted, and the error is the
fault of the tokens from there on.
-/
namespace NibbleAsm

open AssembleError (Cause)

namespace Phrase

variable {labels : LabelTable}

/-- The code units and records of a program that consists of the given phrases. -/
def encoded (phrases : List (Phrase labels)) : Encoded :=
  ⟨(records 0 0 phrases).flatMap Instruction.units, records 0 0 phrases⟩

/-- Each phrase has its record, in the same place of the list, with its name and units. -/
theorem map_units_records (index offset : ℕ) (phrases : List (Phrase labels)) :
    (records index offset phrases).map
        (fun record => (record.mnemonic, record.units.map Fin.val)) =
      phrases.map (fun phrase => (phrase.mnemonic, phrase.units)) := by
  induction phrases generalizing index offset with
  | nil => rfl
  | cons phrase phrases ih =>
    rw [records, List.map_cons, List.map_cons, map_val_units_record, ih]
    rfl

theorem map_val_codes_encoded (phrases : List (Phrase labels)) :
    (encoded phrases).codes.map Fin.val = phrases.flatMap units := by
  calc (encoded phrases).codes.map Fin.val
    _ = ((records 0 0 phrases).map
          (fun record => (record.mnemonic, record.units.map Fin.val))).flatMap Prod.snd := by
      rw [encoded, List.map_flatMap, List.flatMap_map]
    _ = phrases.flatMap units := by rw [map_units_records, List.flatMap_map]

end Phrase

/-- The causes exclude each other, for the walk reports one of them. -/
theorem Fault.unique {labels : LabelTable} {texts : List String} {first second : Cause}
    (hfirst : Fault labels texts first) (hsecond : Fault labels texts second) :
    first = second := by
  obtain ⟨tokens, rfl⟩ : ∃ tokens : List Token, tokens.map Token.text = texts :=
    ⟨texts.map (fun text => ⟨text, 0⟩), by simp [Function.comp_def]⟩
  cases tokens with
  | nil => cases hfirst
  | cons token rest =>
    have h := Instruction.take_fault hfirst 0 0 []
    rw [List.map_cons] at hsecond
    rw [Instruction.take_fault hsecond, Except.error.injEq, AssembleError.mk.injEq] at h
    exact h.1.symm

namespace TokenStream

theorem walk_phrases {labels : LabelTable} (phrases : List (Phrase labels)) {tokens : List Token}
    (htexts : tokens.map Token.text = phrases.flatMap Phrase.texts) :
    walk ⟨tokens, labels⟩ = ⟨Output.empty.pushAll (Phrase.records 0 0 phrases), none⟩ := by
  have hwalk := Walk.ofCursor_phrases phrases htexts .empty [] []
  rw [List.append_nil, Walk.ofCursor_behind_nil] at hwalk
  rw [walk, Cursor.start_eq_behind, hwalk]
  rfl

theorem walk_fault {labels : LabelTable} (phrases : List (Phrase labels)) {own rest : List Token}
    {token : Token} {cause : Cause} (htexts : own.map Token.text = phrases.flatMap Phrase.texts)
    (hfault : Fault labels (token.text :: rest.map Token.text) cause) :
    walk ⟨own ++ token :: rest, labels⟩ =
      ⟨Output.empty.pushAll (Phrase.records 0 0 phrases),
        some ⟨cause, own.length, token.text, token.line⟩⟩ := by
  have hwalk := Walk.ofCursor_phrases phrases htexts .empty [] (token :: rest)
  rw [List.nil_append, Walk.ofCursor_fault hfault] at hwalk
  rw [walk, Cursor.start_eq_behind, hwalk]
  rfl

theorem encode_phrases {labels : LabelTable} (phrases : List (Phrase labels)) {tokens : List Token}
    (htexts : tokens.map Token.text = phrases.flatMap Phrase.texts) :
    encode ⟨tokens, labels⟩ = .ok (Phrase.encoded phrases) := by
  rw [encode, walk_phrases phrases htexts]
  simp [Walk.result, Phrase.encoded]

theorem encode_fault {labels : LabelTable} (phrases : List (Phrase labels)) {own rest : List Token}
    {token : Token} {cause : Cause} (htexts : own.map Token.text = phrases.flatMap Phrase.texts)
    (hfault : Fault labels (token.text :: rest.map Token.text) cause) :
    encode ⟨own ++ token :: rest, labels⟩ =
      .error ⟨cause, own.length, token.text, token.line⟩ := by
  rw [encode, walk_fault phrases htexts hfault]
  rfl

/-- An accepted list is a concatenation of phrases, and the result is theirs. -/
theorem exists_phrases_of_encode_ok {labels : LabelTable} {tokens : List Token} {encoded : Encoded}
    (h : encode ⟨tokens, labels⟩ = .ok encoded) :
    ∃ phrases : List (Phrase labels), tokens.map Token.text = phrases.flatMap Phrase.texts ∧
      encoded = Phrase.encoded phrases := by
  obtain ⟨phrases, own, rest, rfl, hown, rfl | ⟨cause, hfault⟩⟩ :=
    Phrase.exists_phrases labels tokens
  · rw [List.append_nil] at h ⊢
    rw [encode_phrases phrases hown] at h
    exact ⟨phrases, hown, (Except.ok.inj h).symm⟩
  · cases rest with
    | nil => cases hfault
    | cons token rest =>
      rw [encode_fault phrases hown hfault] at h
      cases h

/-- A refused list is phrases up to a fault, and the error is that fault. -/
theorem exists_fault_of_encode_error {labels : LabelTable} {tokens : List Token}
    {error : AssembleError} (h : encode ⟨tokens, labels⟩ = .error error) :
    ∃ (phrases : List (Phrase labels)) (own : List Token) (token : Token) (rest : List Token)
      (cause : Cause), tokens = own ++ token :: rest ∧
      own.map Token.text = phrases.flatMap Phrase.texts ∧
      Fault labels (token.text :: rest.map Token.text) cause ∧
      error = ⟨cause, own.length, token.text, token.line⟩ := by
  obtain ⟨phrases, own, rest, rfl, hown, rfl | ⟨cause, hfault⟩⟩ :=
    Phrase.exists_phrases labels tokens
  · rw [List.append_nil, encode_phrases phrases hown] at h
    cases h
  · cases rest with
    | nil => cases hfault
    | cons token rest =>
      rw [encode_fault phrases hown hfault] at h
      exact ⟨phrases, own, token, rest, cause, rfl, hown, hfault, (Except.error.inj h).symm⟩

/-- The second pass accepts the concatenations of phrases and nothing else. The phrases are
determined by the texts; the trace has one record for each of them, and the code is the
concatenation of their units. -/
theorem encode_ok_iff_phrases (labels : LabelTable) (tokens : List Token) :
    ((∃ encoded, encode ⟨tokens, labels⟩ = .ok encoded) ↔
      ∃ phrases : List (Phrase labels),
        phrases.flatMap Phrase.texts = tokens.map Token.text) ∧
    ∀ phrases : List (Phrase labels), phrases.flatMap Phrase.texts = tokens.map Token.text →
      (∀ others : List (Phrase labels),
        others.flatMap Phrase.texts = tokens.map Token.text → others = phrases) ∧
      ∃ encoded, encode ⟨tokens, labels⟩ = .ok encoded ∧
        encoded.trace.map (fun record => (record.mnemonic, record.units.map Fin.val)) =
          phrases.map (fun phrase => (phrase.mnemonic, phrase.units)) ∧
        encoded.codes.map Fin.val = phrases.flatMap Phrase.units := by
  refine ⟨⟨?_, ?_⟩, ?_⟩
  · rintro ⟨encoded, h⟩
    obtain ⟨phrases, htexts, -⟩ := exists_phrases_of_encode_ok h
    exact ⟨phrases, htexts.symm⟩
  · rintro ⟨phrases, htexts⟩
    exact ⟨_, encode_phrases phrases htexts.symm⟩
  · intro phrases htexts
    refine ⟨?_, Phrase.encoded phrases, encode_phrases phrases htexts.symm, ?_, ?_⟩
    · intro others hothers
      exact Phrase.flatMap_texts_injective (hothers.trans htexts.symm)
    · exact Phrase.map_units_records 0 0 phrases
    · exact Phrase.map_val_codes_encoded phrases

/-- All kinds of operands, a label above the limit of numbers, and digits of either case. -/
theorem encode_mixed_program :
    ∃ encoded, encode ⟨[⟨"KA", 1⟩, ⟨"TIA", 1⟩, ⟨"0f", 2⟩, ⟨"JUMP", 2⟩, ⟨"far", 4⟩, ⟨"JUMP", 4⟩,
        ⟨"4F", 4⟩, ⟨"CAL", 5⟩, ⟨"DEM+", 5⟩], .ofList [("far", 200), ("4F", 1)]⟩ = .ok encoded ∧
      encoded.codes.map Fin.val = [0x0, 0x8, 0xF, 0xF, 13, 5, 0xF, 5, 4, 0xE, 0xF] := by
  obtain ⟨-, h⟩ := encode_ok_iff_phrases (.ofList [("far", 200), ("4F", 1)])
    [⟨"KA", 1⟩, ⟨"TIA", 1⟩, ⟨"0f", 2⟩, ⟨"JUMP", 2⟩, ⟨"far", 4⟩, ⟨"JUMP", 4⟩, ⟨"4F", 4⟩,
      ⟨"CAL", 5⟩, ⟨"DEM+", 5⟩]
  obtain ⟨-, encoded, hencode, -, hcodes⟩ := h
    [.plain .ka rfl, .immediate .tia rfl "0f" 15 (by decide) (by decide),
      .jumpLabel "far" 200 (by decide) (by decide) (by decide),
      .jumpNumber "4F" 0x4F (by decide) (by decide), .service .demPlus] rfl
  exact ⟨encoded, hencode, hcodes⟩

/-- The reported error is the first fault. -/
theorem encode_error_iff_first_fault (labels : LabelTable) (tokens : List Token)
    (error : AssembleError) :
    (encode ⟨tokens, labels⟩ = .error error ↔
      ∃ h : error.index < tokens.length,
        (∃ encoded, encode ⟨tokens.take error.index, labels⟩ = .ok encoded) ∧
        error.token = tokens[error.index].text ∧ error.line = tokens[error.index].line ∧
        Fault labels ((tokens.drop error.index).map Token.text) error.cause) ∧
    ∀ (texts : List String) (first second : Cause),
      Fault labels texts first → Fault labels texts second → first = second := by
  refine ⟨⟨?_, ?_⟩, ?_⟩
  · intro h
    obtain ⟨phrases, own, token, rest, cause, rfl, hown, hfault, rfl⟩ :=
      exists_fault_of_encode_error h
    refine ⟨by simp, ?_, by simp, by simp, by simpa using hfault⟩
    rw [List.take_left]
    exact ⟨_, encode_phrases phrases hown⟩
  · rintro ⟨h, ⟨encoded, hencode⟩, htoken, hline, hfault⟩
    obtain ⟨phrases, hown, -⟩ := exists_phrases_of_encode_ok hencode
    rw [List.drop_eq_getElem_cons h, List.map_cons] at hfault
    have herror := encode_fault phrases hown hfault
    rw [← List.drop_eq_getElem_cons h, List.take_append_drop, ← htoken, ← hline,
      List.length_take, Nat.min_eq_left (Nat.le_of_lt h)] at herror
    exact herror
  · intro texts first second
    exact Fault.unique

/-- A limit exceeded behind an accepted jump. The numeral is longer than any value of 64 bits, and
the error stands at the name. -/
theorem encode_overlong_immediate :
    encode ⟨[⟨"JUMP", 1⟩, ⟨"end", 1⟩, ⟨"TIA", 3⟩, ⟨"10000000000000000F", 4⟩],
        .ofList [("end", 4)]⟩ =
      .error ⟨.operandOutOfRange "10000000000000000F" 15, 2, "TIA", 3⟩ := by
  obtain ⟨h, -⟩ := encode_error_iff_first_fault (.ofList [("end", 4)])
    [⟨"JUMP", 1⟩, ⟨"end", 1⟩, ⟨"TIA", 3⟩, ⟨"10000000000000000F", 4⟩]
    ⟨.operandOutOfRange "10000000000000000F" 15, 2, "TIA", 3⟩
  refine h.mpr ⟨by decide, ⟨⟨[0xF, 0, 4], [⟨0, 0, .jump, 0xF, .jumpTo (some "end") 4⟩]⟩, ?_⟩,
    rfl, rfl, ?_⟩
  · decide +kernel
  · have hreads : Numeral.exactHex? "10000000000000000F" = some 0x10000000000000000F := by decide
    have hkind : Mnemonic.tia.operandKind = .nibble := rfl
    exact .immediateOutOfRange hkind hreads (by decide)

end TokenStream

end NibbleAsm
