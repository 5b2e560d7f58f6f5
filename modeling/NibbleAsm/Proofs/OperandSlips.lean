import NibbleAsm.Proofs.Relabeling

/-!
# A forgotten or a doubled operand

Names of instructions, names of routines and numbers are three vocabularies without a common text.
An instruction that has lost its operand takes the name behind it for the operand, and no operand is
read from a name. An operand written twice leaves its copy where a name is expected, and it is none.
So either slip is reported: the first at the instruction, the second at the copy. Only labels can
blur the vocabularies, since a label may be declared under the name of an instruction.
-/
namespace NibbleAsm

open AssembleError (Cause)

theorem Mnemonic.exactHex?_spelling (name : Mnemonic) : Numeral.exactHex? name.spelling = none := by
  cases name <;> decide

theorem ServiceCall.spelling_ne_mnemonic (call : ServiceCall) (name : Mnemonic) :
    call.spelling ≠ name.spelling := by
  have hnone : ∀ name : Mnemonic, ofSpelling? name.spelling = none := by
    intro name
    cases name <;> decide
  exact ofSpelling?_eq_none_iff.mp (hnone name) call

/-- A number is no name. -/
theorem Mnemonic.spelling_ne_of_exactHex? {text : String} {value : ℕ}
    (reads : Numeral.exactHex? text = some value) (name : Mnemonic) : name.spelling ≠ text := by
  rintro rfl
  rw [exactHex?_spelling] at reads
  cases reads

namespace Phrase

variable {labels : LabelTable}

/-- A name that takes an operand has one text behind it. The text is no name, unless the operand is
a label that has the spelling of one. -/
theorem exists_operand_text (phrase : Phrase labels)
    (takes : phrase.mnemonic.operandKind ≠ .none) :
    ∃ text, phrase.texts = [phrase.mnemonic.spelling, text] ∧
      ((∀ label ∈ phrase.operand.label?, ∀ other : Mnemonic, other.spelling ≠ label) →
        ∀ other : Mnemonic, other.spelling ≠ text) := by
  cases phrase with
  | plain name kind => exact absurd kind takes
  | immediate name kind text value reads fits =>
    exact ⟨text, rfl, fun _ => Mnemonic.spelling_ne_of_exactHex? reads⟩
  | jumpNumber text target reads fits =>
    exact ⟨text, rfl, fun _ => Mnemonic.spelling_ne_of_exactHex? reads⟩
  | jumpLabel text target reads bound fits => exact ⟨text, rfl, fun nameless => nameless text rfl⟩
  | service call =>
    exact ⟨call.spelling, rfl, fun _ other => (call.spelling_ne_mnemonic other).symm⟩

/-- What phrases make begins with a name. -/
theorem exists_spelling_of_flatMap_texts {phrases : List (Phrase labels)} {text : String}
    {rest : List String} (h : text :: rest = phrases.flatMap texts) :
    ∃ name : Mnemonic, text = name.spelling := by
  cases phrases with
  | nil => cases h
  | cons phrase phrases =>
    have hhead := congrArg List.head? h
    rw [List.flatMap_cons, List.head?_append_of_ne_nil _ phrase.texts_ne_nil, head?_texts] at hhead
    exact ⟨phrase.mnemonic, Option.some.inj hhead⟩

end Phrase

/-- A name that stands where an operand is expected is reported, as each kind of operand has it. -/
theorem Fault.of_name_as_operand (labels : LabelTable) (name other : Mnemonic)
    (rest : List String) :
    (name.operandKind = .nibble →
      Fault labels (name.spelling :: other.spelling :: rest) (.invalidNumeral other.spelling)) ∧
    (name = .cal →
      Fault labels (name.spelling :: other.spelling :: rest)
        (.undefinedServiceCall other.spelling)) ∧
    (name = .jump → labels.find? other.spelling = none →
      Fault labels (name.spelling :: other.spelling :: rest) (.undefinedLabel other.spelling)) := by
  refine ⟨?_, ?_, ?_⟩
  · intro kind
    exact .invalidNumeral kind other.exactHex?_spelling
  · rintro rfl
    exact .undefinedServiceCall (fun call => call.spelling_ne_mnemonic other)
  · rintro rfl unbound
    exact .undefinedLabel other.exactHex?_spelling unbound

namespace TokenStream

variable {labels : LabelTable} {tokens own rest : List Token} {name operand : Token}
  {encoded : Encoded}

/-- An instruction with an operand is two tokens between accepted ones. -/
theorem exists_tokens_of_mem_trace (h : encode ⟨tokens, labels⟩ = .ok encoded)
    {record : Instruction} (hmem : record ∈ encoded.trace)
    (takes : record.mnemonic.operandKind ≠ .none) :
    ∃ (before after : List (Phrase labels)) (phrase : Phrase labels) (own rest : List Token)
      (name operand : Token) (offset : ℕ),
      tokens = own ++ name :: operand :: rest ∧ own.map Token.text = before.flatMap Phrase.texts ∧
      [name.text, operand.text] = phrase.texts ∧
      rest.map Token.text = after.flatMap Phrase.texts ∧
      record = phrase.record own.length offset := by
  obtain ⟨phrases, htexts, rfl⟩ := exists_phrases_of_encode_ok h
  obtain ⟨before, phrase, after, rfl, rfl⟩ := Phrase.exists_append_of_mem_records hmem
  obtain ⟨text, hphrase, -⟩ := phrase.exists_operand_text takes
  rw [List.flatMap_append, List.flatMap_cons] at htexts
  obtain ⟨own, behind, rfl, hown, hbehind⟩ := List.map_eq_append_iff.mp htexts
  rw [hphrase] at hbehind
  obtain ⟨name, behind, rfl, hname, hbehind⟩ := List.map_eq_cons_iff.mp hbehind
  obtain ⟨operand, rest, rfl, hoperand, hrest⟩ := List.map_eq_cons_iff.mp hbehind
  refine ⟨before, after, phrase, own, rest, name, operand, 0 + (before.flatMap Phrase.units).length,
    rfl, hown, ?_, hrest, ?_⟩
  · rw [hname, hoperand, hphrase]
  · rw [Nat.zero_add, ← hown, List.length_map]

/-- Without its operand, the instruction fails for the fault that what is left begins with. -/
theorem encode_eraseIdx_operand {before : List (Phrase labels)}
    (hown : own.map Token.text = before.flatMap Phrase.texts) {cause : Cause}
    (hfault : Fault labels (name.text :: rest.map Token.text) cause) (operand : Token) :
    encode ⟨(own ++ name :: operand :: rest).eraseIdx (own.length + 1), labels⟩ =
      .error ⟨cause, own.length, name.text, name.line⟩ := by
  have herase :
      (own ++ name :: operand :: rest).eraseIdx (own.length + 1) = own ++ name :: rest := by
    rw [List.eraseIdx_append_of_length_le (by omega)]
    simp
  rw [herase, encode_fault before hown hfault]

/-- A second copy of the operand stands where a name is expected. -/
theorem encode_double_operand {before : List (Phrase labels)} {phrase : Phrase labels}
    (hown : own.map Token.text = before.flatMap Phrase.texts)
    (hphrase : [name.text, operand.text] = phrase.texts)
    (nameless : ∀ other : Mnemonic, other.spelling ≠ operand.text) :
    encode ⟨(own ++ name :: operand :: rest).take (own.length + 2) ++
        operand :: (own ++ name :: operand :: rest).drop (own.length + 2), labels⟩ =
      .error ⟨.undefinedMnemonic, own.length + 2, operand.text, operand.line⟩ := by
  have hinsert : (own ++ name :: operand :: rest).take (own.length + 2) ++
      operand :: (own ++ name :: operand :: rest).drop (own.length + 2) =
        (own ++ [name, operand]) ++ operand :: rest := by
    simp [List.take_length_add_append]
  have hboth : (own ++ [name, operand]).map Token.text =
      (before ++ [phrase]).flatMap Phrase.texts := by
    simp [hown, hphrase]
  rw [hinsert, encode_fault _ hboth (.undefinedMnemonic nameless), List.length_append]
  rfl

/-- An operand that is left out or written twice is detected, at its place. -/
theorem encode_detects_operand_slips (h : encode ⟨tokens, labels⟩ = .ok encoded)
    {record : Instruction} (hmem : record ∈ encoded.trace)
    (takes : record.mnemonic.operandKind ≠ .none) :
    ∃ name operand : Token, tokens[record.index]? = some name ∧
      tokens[record.index + 1]? = some operand ∧
      (tokens[record.index + 2]? = none →
        encode ⟨tokens.eraseIdx (record.index + 1), labels⟩ =
          .error ⟨.truncatedOperand, record.index, name.text, name.line⟩) ∧
      (∀ next : Token, tokens[record.index + 2]? = some next →
        (record.mnemonic.operandKind = .nibble →
          encode ⟨tokens.eraseIdx (record.index + 1), labels⟩ =
            .error ⟨.invalidNumeral next.text, record.index, name.text, name.line⟩) ∧
        (record.mnemonic = .cal →
          encode ⟨tokens.eraseIdx (record.index + 1), labels⟩ =
            .error ⟨.undefinedServiceCall next.text, record.index, name.text, name.line⟩) ∧
        (record.mnemonic = .jump → (∀ other : Mnemonic, labels.find? other.spelling = none) →
          encode ⟨tokens.eraseIdx (record.index + 1), labels⟩ =
            .error ⟨.undefinedLabel next.text, record.index, name.text, name.line⟩)) ∧
      ((∀ label ∈ record.operand.label?, ∀ other : Mnemonic, other.spelling ≠ label) →
        encode ⟨tokens.take (record.index + 2) ++ operand :: tokens.drop (record.index + 2),
            labels⟩ =
          .error ⟨.undefinedMnemonic, record.index + 2, operand.text, operand.line⟩) := by
  obtain ⟨before, after, phrase, own, rest, name, operand, offset, rfl, hown, hphrase, hrest,
    rfl⟩ := exists_tokens_of_mem_trace h hmem takes
  obtain ⟨text, htexts, nameless⟩ := phrase.exists_operand_text takes
  obtain ⟨hname, hoperand⟩ : name.text = phrase.mnemonic.spelling ∧ operand.text = text := by
    simpa [htexts] using hphrase
  subst hoperand
  refine ⟨name, operand, by simp [Phrase.record], by simp [Phrase.record], ?_, ?_, ?_⟩
  · intro hlast
    obtain rfl : rest = [] := by simpa [Phrase.record] using hlast
    refine encode_eraseIdx_operand hown ?_ operand
    rw [hname]
    exact .truncatedOperand takes
  · intro next hnext
    obtain ⟨later, rfl⟩ : ∃ later, rest = next :: later := by
      cases rest with
      | nil => simp [Phrase.record] at hnext
      | cons first later => exact ⟨later, by simpa [Phrase.record] using hnext⟩
    -- The name of the next instruction is read in place of the operand.
    obtain ⟨other, hother⟩ := Phrase.exists_spelling_of_flatMap_texts hrest
    obtain ⟨hnibble, hcal, hjump⟩ :=
      Fault.of_name_as_operand labels phrase.mnemonic other (later.map Token.text)
    rw [← hname, ← hother] at hnibble hcal hjump
    refine ⟨?_, ?_, ?_⟩
    · intro kind
      exact encode_eraseIdx_operand hown (hnibble kind) operand
    · intro calls
      exact encode_eraseIdx_operand hown (hcal calls) operand
    · intro jumps unbound
      have hunbound : labels.find? next.text = none := by rw [hother, unbound]
      exact encode_eraseIdx_operand hown (hjump jumps hunbound) operand
  · intro hlabel
    exact encode_double_operand hown hphrase (nameless hlabel)

/-- Without its operand, a jump takes the name behind it for a label. With two of them, the second
is taken for a name. -/
theorem encode_detects_slips_of_jump :
    let labels := LabelTable.ofList [("end", 4)]
    encode ⟨[⟨"JUMP", 1⟩, ⟨"CAL", 2⟩, ⟨"DEM+", 2⟩], labels⟩ =
      .error ⟨.undefinedLabel "CAL", 0, "JUMP", 1⟩ ∧
    encode ⟨[⟨"JUMP", 1⟩, ⟨"end", 1⟩, ⟨"end", 1⟩, ⟨"CAL", 2⟩, ⟨"DEM+", 2⟩], labels⟩ =
      .error ⟨.undefinedMnemonic, 2, "end", 1⟩ := by
  intro labels
  have h : encode ⟨[⟨"JUMP", 1⟩, ⟨"end", 1⟩, ⟨"CAL", 2⟩, ⟨"DEM+", 2⟩], labels⟩ =
      .ok ⟨[0xF, 0, 4, 0xE, 0xF], [⟨0, 0, .jump, 0xF, .jump 4 (some "end") ⟨0, 4⟩⟩,
        ⟨2, 3, .cal, 0xE, .service .demPlus⟩]⟩ := by decide +kernel
  obtain ⟨name, operand, hname, hoperand, -, hforgotten, hdoubled⟩ :=
    encode_detects_operand_slips h List.mem_cons_self (by decide)
  obtain rfl : ⟨"JUMP", 1⟩ = name := Option.some.inj hname
  obtain rfl : ⟨"end", 1⟩ = operand := Option.some.inj hoperand
  obtain ⟨-, -, hjump⟩ := hforgotten ⟨"CAL", 2⟩ rfl
  have unbound : ∀ other : Mnemonic, labels.find? other.spelling = none := by
    intro other
    cases other <;> decide
  have nameless : ∀ label ∈ some "end", ∀ other : Mnemonic, other.spelling ≠ label := by
    intro label hlabel other
    obtain rfl := Option.mem_some.mp hlabel
    cases other <;> decide
  exact ⟨hjump rfl unbound, hdoubled nameless⟩

end TokenStream

end NibbleAsm
