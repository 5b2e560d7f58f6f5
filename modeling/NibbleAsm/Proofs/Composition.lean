import NibbleAsm.Proofs.Acceptance

/-!
# Encoding one list of tokens behind another

Under a fixed label table the second pass composes. Phrases followed by phrases are phrases again,
and the records of the second list are its own records moved on by the tokens and the units of the
first. A fault stays the same fault with more tokens behind it, with one exception: an operand that
was missing at the end may be found there. Such an error therefore stands at the last token.
-/
namespace NibbleAsm

open AssembleError (Cause)

namespace Instruction

/-- The same instruction behind so many more tokens and units. -/
def shift (tokens units : ℕ) (instruction : Instruction) : Instruction :=
  { instruction with index := instruction.index + tokens, offset := instruction.offset + units }

@[simp] theorem units_shift (tokens units : ℕ) (instruction : Instruction) :
    (instruction.shift tokens units).units = instruction.units := rfl

end Instruction

namespace Phrase

variable {labels : LabelTable}

theorem records_append (index offset : ℕ) (first second : List (Phrase labels)) :
    records index offset (first ++ second) = records index offset first ++
      records (index + (first.flatMap texts).length) (offset + (first.flatMap units).length)
        second := by
  induction first generalizing index offset with
  | nil => simp [records]
  | cons phrase first ih => simp [records, ih, Nat.add_assoc]

/-- What is recorded does not depend on the place, which is only added to. -/
theorem records_add (index offset tokens units : ℕ) (phrases : List (Phrase labels)) :
    records (index + tokens) (offset + units) phrases =
      (records index offset phrases).map (Instruction.shift tokens units) := by
  induction phrases generalizing index offset with
  | nil => rfl
  | cons phrase phrases ih =>
    rw [records, records, List.map_cons, ← ih, Nat.add_right_comm index, Nat.add_right_comm offset]
    rfl

theorem length_codes_encoded (phrases : List (Phrase labels)) :
    (encoded phrases).codes.length = (phrases.flatMap units).length := by
  rw [← map_val_codes_encoded, List.length_map]

/-- The second program follows the first, moved on by its tokens and its units. -/
theorem encoded_append (first second : List (Phrase labels)) :
    encoded (first ++ second) =
      ⟨(encoded first).codes ++ (encoded second).codes,
        (encoded first).trace ++ (encoded second).trace.map
          (Instruction.shift (first.flatMap texts).length (encoded first).codes.length)⟩ := by
  have hrecords : records 0 0 (first ++ second) = records 0 0 first ++ (records 0 0 second).map
      (Instruction.shift (first.flatMap texts).length (encoded first).codes.length) := by
    rw [records_append, length_codes_encoded, ← records_add]
  have hunits : ((records 0 0 second).map (Instruction.shift (first.flatMap texts).length
      (encoded first).codes.length)).flatMap Instruction.units =
        (records 0 0 second).flatMap Instruction.units := by
    simp only [List.flatMap_map, Instruction.units_shift]
  rw [encoded, hrecords, List.flatMap_append, hunits]
  rfl

end Phrase

namespace Fault

variable {labels : LabelTable} {texts : List String}

/-- More tokens repair nothing but a missing operand. -/
theorem append {cause : Cause} (h : Fault labels texts cause) (hcause : cause ≠ .truncatedOperand)
    (more : List String) : Fault labels (texts ++ more) cause := by
  cases h with
  | undefinedMnemonic unknown => exact .undefinedMnemonic unknown
  | truncatedOperand kind => exact absurd rfl hcause
  | invalidNumeral kind reads => exact .invalidNumeral kind reads
  | immediateOutOfRange kind reads above => exact .immediateOutOfRange kind reads above
  | numberOutOfRange reads above => exact .numberOutOfRange reads above
  | undefinedLabel reads unbound => exact .undefinedLabel reads unbound
  | labelOutOfRange reads bound above => exact .labelOutOfRange reads bound above
  | undefinedServiceCall unknown => exact .undefinedServiceCall unknown

/-- An operand is missing only behind the last text. -/
theorem length_of_truncatedOperand (h : Fault labels texts .truncatedOperand) :
    texts.length = 1 := by
  cases h
  rfl

end Fault

namespace TokenStream

variable {labels : LabelTable} {first second : List Token} {encoded encoded' : Encoded}
  {error : AssembleError}

theorem encode_append_of_ok (hfirst : encode ⟨first, labels⟩ = .ok encoded)
    (hsecond : encode ⟨second, labels⟩ = .ok encoded') :
    encode ⟨first ++ second, labels⟩ =
      .ok ⟨encoded.codes ++ encoded'.codes, encoded.trace ++
        encoded'.trace.map (Instruction.shift first.length encoded.codes.length)⟩ := by
  obtain ⟨phrases, htexts, rfl⟩ := exists_phrases_of_encode_ok hfirst
  obtain ⟨phrases', htexts', rfl⟩ := exists_phrases_of_encode_ok hsecond
  have hboth : (first ++ second).map Token.text = (phrases ++ phrases').flatMap Phrase.texts := by
    rw [List.map_append, htexts, htexts', List.flatMap_append]
  have hlength : first.length = (phrases.flatMap Phrase.texts).length := by
    rw [← htexts, List.length_map]
  rw [encode_phrases _ hboth, Phrase.encoded_append, hlength]

theorem encode_append_of_error_behind (hfirst : encode ⟨first, labels⟩ = .ok encoded)
    (hsecond : encode ⟨second, labels⟩ = .error error) :
    encode ⟨first ++ second, labels⟩ =
      .error { error with index := error.index + first.length } := by
  obtain ⟨phrases, htexts, rfl⟩ := exists_phrases_of_encode_ok hfirst
  obtain ⟨phrases', own, token, rest, cause, rfl, hown, hfault, rfl⟩ :=
    exists_fault_of_encode_error hsecond
  have hboth : (first ++ own).map Token.text = (phrases ++ phrases').flatMap Phrase.texts := by
    rw [List.map_append, htexts, hown, List.flatMap_append]
  rw [← List.append_assoc, encode_fault _ hboth hfault, List.length_append, Nat.add_comm]

theorem encode_append_of_error (hfirst : encode ⟨first, labels⟩ = .error error)
    (hcause : error.cause ≠ .truncatedOperand) (second : List Token) :
    encode ⟨first ++ second, labels⟩ = .error error := by
  obtain ⟨phrases, own, token, rest, cause, rfl, hown, hfault, rfl⟩ :=
    exists_fault_of_encode_error hfirst
  have hmore := hfault.append hcause (second.map Token.text)
  rw [List.cons_append, ← List.map_append] at hmore
  rw [List.append_assoc, List.cons_append, encode_fault _ hown hmore]

theorem index_of_truncatedOperand (hfirst : encode ⟨first, labels⟩ = .error error)
    (hcause : error.cause = .truncatedOperand) : error.index + 1 = first.length := by
  obtain ⟨phrases, own, token, rest, cause, rfl, hown, hfault, rfl⟩ :=
    exists_fault_of_encode_error hfirst
  obtain rfl : cause = .truncatedOperand := hcause
  have hlength := hfault.length_of_truncatedOperand
  simp only [List.length_cons, List.length_map, Nat.add_eq_right] at hlength
  simp [hlength]

/-- A list of tokens behind an accepted one is accepted or refused as it is by itself, with its
places moved on. A refused list is refused with the same error whatever follows, unless its last
token lacks an operand. -/
theorem encode_append (labels : LabelTable) (first second : List Token) :
    (∀ encoded encoded' : Encoded, encode ⟨first, labels⟩ = .ok encoded →
      encode ⟨second, labels⟩ = .ok encoded' →
      encode ⟨first ++ second, labels⟩ = .ok ⟨encoded.codes ++ encoded'.codes, encoded.trace ++
        encoded'.trace.map (Instruction.shift first.length encoded.codes.length)⟩) ∧
    (∀ (encoded : Encoded) (error : AssembleError), encode ⟨first, labels⟩ = .ok encoded →
      encode ⟨second, labels⟩ = .error error →
      encode ⟨first ++ second, labels⟩ =
        .error { error with index := error.index + first.length }) ∧
    (∀ error : AssembleError, encode ⟨first, labels⟩ = .error error →
      error.cause ≠ .truncatedOperand →
      encode ⟨first ++ second, labels⟩ = .error error) ∧
    ∀ error : AssembleError, encode ⟨first, labels⟩ = .error error →
      error.cause = .truncatedOperand → error.index + 1 = first.length := by
  refine ⟨?_, ?_, ?_, ?_⟩
  · intro encoded encoded' hfirst hsecond
    exact encode_append_of_ok hfirst hsecond
  · intro encoded error hfirst hsecond
    exact encode_append_of_error_behind hfirst hsecond
  · intro error hfirst hcause
    exact encode_append_of_error hfirst hcause second
  · intro error hfirst hcause
    exact index_of_truncatedOperand hfirst hcause

/-- A jump in front moves the offset of the second program by three and its index by two, and so
the place of an error. An unknown routine is not repaired by more tokens, but a missing operand is.
-/
theorem encode_append_behind_jump :
    let labels := LabelTable.ofList [("end", 20)]
    encode ⟨[⟨"JUMP", 1⟩, ⟨"end", 1⟩, ⟨"TIA", 2⟩, ⟨"F", 3⟩], labels⟩ =
      .ok ⟨[0xF, 1, 5, 0x8, 0xF], [⟨0, 0, .jump, 0xF, .jump 20 (some "end") ⟨1, 5⟩⟩,
        ⟨2, 3, .tia, 0x8, .immediate 0xF⟩]⟩ ∧
    encode ⟨[⟨"JUMP", 1⟩, ⟨"end", 1⟩, ⟨"TIA", 2⟩], labels⟩ =
      .error ⟨.truncatedOperand, 2, "TIA", 2⟩ ∧
    encode ⟨[⟨"CAL", 1⟩, ⟨"end", 1⟩, ⟨"TIA", 2⟩], labels⟩ =
      .error ⟨.undefinedServiceCall "end", 0, "CAL", 1⟩ ∧
    ∃ error, encode ⟨[⟨"TIA", 2⟩], labels⟩ = .error error ∧
      error.cause = .truncatedOperand ∧ error.index + 1 = [(⟨"TIA", 2⟩ : Token)].length := by
  intro labels
  have hjump : encode ⟨[⟨"JUMP", 1⟩, ⟨"end", 1⟩], labels⟩ =
      .ok ⟨[0xF, 1, 5], [⟨0, 0, .jump, 0xF, .jump 20 (some "end") ⟨1, 5⟩⟩]⟩ := by decide +kernel
  have hwhole : encode ⟨[⟨"TIA", 2⟩, ⟨"F", 3⟩], labels⟩ =
      .ok ⟨[0x8, 0xF], [⟨0, 0, .tia, 0x8, .immediate 0xF⟩]⟩ := by decide +kernel
  have hpart : encode ⟨[⟨"TIA", 2⟩], labels⟩ =
      .error ⟨.truncatedOperand, 0, "TIA", 2⟩ := by decide +kernel
  have hcall : encode ⟨[⟨"CAL", 1⟩, ⟨"end", 1⟩], labels⟩ =
      .error ⟨.undefinedServiceCall "end", 0, "CAL", 1⟩ := by decide +kernel
  obtain ⟨hok, -, -, -⟩ := encode_append labels [⟨"JUMP", 1⟩, ⟨"end", 1⟩] [⟨"TIA", 2⟩, ⟨"F", 3⟩]
  obtain ⟨-, hbehind, -, -⟩ := encode_append labels [⟨"JUMP", 1⟩, ⟨"end", 1⟩] [⟨"TIA", 2⟩]
  obtain ⟨-, -, hrefused, -⟩ := encode_append labels [⟨"CAL", 1⟩, ⟨"end", 1⟩] [⟨"TIA", 2⟩]
  obtain ⟨-, -, -, hlast⟩ := encode_append labels [⟨"TIA", 2⟩] [⟨"F", 3⟩]
  exact ⟨hok _ _ hjump hwhole, hbehind _ _ hjump hpart, hrefused _ hcall (by decide),
    _, hpart, rfl, hlast _ hpart rfl⟩

end TokenStream

end NibbleAsm
