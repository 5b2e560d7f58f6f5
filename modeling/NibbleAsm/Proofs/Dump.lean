import NibbleAsm.Proofs.LabelResolution
import NibbleAsm.Proofs.PrintedLines
import NibbleAsm.Proofs.Provenance
import NibbleAsm.Proofs.Relabeling
import NibbleAsm.Proofs.SourceForm
import NibbleAsm.Proofs.Tiling

/-!
# A dump loses nothing

The fields of a listing line are divided by blanks, and no field holds one, for the names of labels
come from words of the source. The column of units gives the code, the code gives the trace up to
the names of labels, and these stand behind the names of the jumps. The lines of the label table are
read in the same way. A dump is these lines under their headings, and a heading is not indented.
-/
namespace NibbleAsm

theorem Nibble.isSeparator_digit (unit : Nibble) : Word.isSeparator unit.digit = false := by
  revert unit
  decide

theorem Numeral.separatorFree_decimal (n : ℕ) : Word.SeparatorFree (decimal n).toList := by
  intro c hc
  rw [toList_decimal] at hc
  obtain ⟨d, hd, rfl⟩ := List.mem_map.mp hc
  have hlt : d < 10 := digits_lt (by decide) hd
  exact Nibble.isSeparator_digit ⟨d, by omega⟩

theorem Nibble.separatorFree_digitText (units : List Nibble) :
    Word.SeparatorFree (digitText units).toList := by
  intro c hc
  rw [digitText, String.toList_ofList] at hc
  obtain ⟨unit, -, rfl⟩ := List.mem_map.mp hc
  exact unit.isSeparator_digit

theorem Nibble.digit_injective : Function.Injective digit := by
  intro a b h
  have hread := congrArg Numeral.hexDigit? h
  rw [hexDigit?_digit, hexDigit?_digit, Option.some.injEq] at hread
  exact Fin.ext hread

theorem Nibble.digitText_injective : Function.Injective digitText := by
  intro first second h
  exact List.map_injective_iff.mpr digit_injective (String.ofList_injective h)

namespace Instruction

/-- The record fits together as an assembled one does, and the name of its label is one word that
is no number. -/
structure Printable (record : Instruction) : Prop where
  opcode : record.opcode = record.mnemonic.opcode
  operand : record.operand.kind = record.mnemonic.operandKind
  label : ∀ name ∈ record.operand.label?,
    Word.SeparatorFree name.toList ∧ Numeral.exactHex? name = none

theorem eq_of_eraseLabel {first second : Instruction}
    (herase : first.eraseLabel = second.eraseLabel)
    (hlabel : first.operand.label? = second.operand.label?) : first = second := by
  obtain ⟨index, offset, mnemonic, opcode, operand⟩ := first
  obtain ⟨index', offset', mnemonic', opcode', operand'⟩ := second
  simp only [eraseLabel, mk.injEq] at herase ⊢
  obtain ⟨hindex, hoffset, hmnemonic, hopcode, hoperand⟩ := herase
  refine ⟨hindex, hoffset, hmnemonic, hopcode, ?_⟩
  cases operand <;> cases operand' <;> simp_all [Operand.eraseLabel, Operand.label?]

/-- Traces that agree up to the names of labels and in these names are equal. -/
theorem trace_eq_of_eraseLabel {first second : List Instruction}
    (herase : first.map eraseLabel = second.map eraseLabel)
    (hlabel : first.map (fun record => record.operand.label?) =
      second.map (fun record => record.operand.label?)) : first = second := by
  have hinjective : Function.Injective
      (fun record : Instruction => (record.eraseLabel, record.operand.label?)) := by
    intro a b h
    exact eq_of_eraseLabel (congrArg Prod.fst h) (congrArg Prod.snd h)
  apply List.map_injective_iff.mpr hinjective
  rw [← List.zip_map', herase, hlabel, List.zip_map']

/-- What is printed behind the name of a jump begins with its label or else with a number. -/
theorem toList_text_jump {record : Instruction} {target : ℕ} {label : Option String}
    {units : JumpAddress.Units} (h : record.operand = .jump target label units)
    (rest : List Char) :
    ∃ after, record.text.toList ++ ' ' :: rest = record.mnemonic.spelling.toList ++
      ' ' :: ((label.getD (Numeral.hexAtLeast 2 target)).toList ++ ' ' :: after) := by
  cases label with
  | none =>
    have hne : Numeral.hexAtLeast 2 target ≠ "" := by
      rw [Ne, ← String.toList_inj, Numeral.toList_hexAtLeast]
      simpa using Numeral.paddedDigits_ne_nil 2 target
    exact ⟨rest, by simp [text, h, Operand.text, hne]⟩
  | some name =>
    exact ⟨("(@" ++ Numeral.decimal target ++ ")").toList ++ ' ' :: rest,
      by simp [text, h, Operand.text]⟩

theorem Printable.separatorFree_shown {record : Instruction} (hrecord : record.Printable)
    {target : ℕ} {label : Option String} {units : JumpAddress.Units}
    (h : record.operand = .jump target label units) :
    Word.SeparatorFree (label.getD (Numeral.hexAtLeast 2 target)).toList := by
  cases label with
  | none => exact (Numeral.plain_hexAtLeast 2 target).separatorFree
  | some name => exact (hrecord.label name (by rw [h]; rfl)).1

/-- The printed forms of two instructions of one name tell their labels. -/
theorem label?_eq_of_text {first second : Instruction} (hfirst : first.Printable)
    (hsecond : second.Printable) (hname : first.mnemonic = second.mnemonic)
    {rest rest' : List Char}
    (h : first.text.toList ++ ' ' :: rest = second.text.toList ++ ' ' :: rest') :
    first.operand.label? = second.operand.label? := by
  have hkind : first.operand.kind = second.operand.kind := by
    rw [hfirst.operand, hsecond.operand, hname]
  cases hoperand : first.operand with
  | jump target label units =>
    cases hoperand' : second.operand with
    | jump target' label' units' =>
      -- The field behind the name is the label or a number, and no label is a number.
      obtain ⟨after, hafter⟩ := toList_text_jump hoperand rest
      obtain ⟨after', hafter'⟩ := toList_text_jump hoperand' rest'
      rw [hafter, hafter', hname] at h
      have hfields := List.cons.inj (List.append_cancel_left h)
      obtain ⟨hshown, -⟩ := Text.append_blank_inj
        (hfirst.separatorFree_shown hoperand).blank_not_mem
        (hsecond.separatorFree_shown hoperand').blank_not_mem hfields.2
      have hlabel := hfirst.label
      have hlabel' := hsecond.label
      rw [hoperand] at hlabel
      rw [hoperand'] at hlabel'
      rw [String.toList_inj] at hshown
      cases label with
      | none =>
        cases label' with
        | none => rfl
        | some name' =>
          have hreads := (hlabel' name' rfl).2
          rw [← show _ = name' from hshown, Option.getD_none,
            Numeral.exactHex?_hexAtLeast] at hreads
          cases hreads
      | some name =>
        cases label' with
        | none =>
          have hreads := (hlabel name rfl).2
          rw [show name = _ from hshown, Option.getD_none,
            Numeral.exactHex?_hexAtLeast] at hreads
          cases hreads
        | some name' => exact congrArg some hshown
    | _ => simp [hoperand, hoperand', Operand.kind] at hkind
  | _ =>
    cases hoperand' : second.operand with
    | jump target' label' units' => simp [hoperand, hoperand', Operand.kind] at hkind
    | _ => rfl

theorem Printable.inline_text {record : Instruction} (h : record.Printable) :
    Text.Inline record.text := by
  have hname : Text.Inline record.mnemonic.spelling :=
    record.mnemonic.plain_spelling.separatorFree.inline
  have hoperand : Text.Inline record.operand.text := by
    cases hoperand : record.operand with
    | absent => decide
    | immediate value => exact value.plain_text.separatorFree.inline
    | service call => exact call.plain_spelling.separatorFree.inline
    | jump target label units =>
      have hshown := (h.separatorFree_shown hoperand).inline
      cases label with
      | none => exact hshown
      | some name =>
        have htarget := (Numeral.separatorFree_decimal target).inline
        simp only [Operand.text, Text.inline_append]
        exact ⟨⟨⟨hshown, by decide⟩, htarget⟩, by decide⟩
  rw [text]
  split
  · exact hname
  · simp only [Text.inline_append]
    exact ⟨⟨hname, by decide⟩, hoperand⟩

end Instruction

namespace Listing

/-- The fields of a line: the offset, the units, the source form, and what follows it. -/
theorem toList_line (record : Instruction) :
    ∃ rest, (line record).toList =
      (Numeral.hexAtLeast 2 record.offset ++ ":").toList ++ ' ' ::
        ((Nibble.digitText record.units).toList ++ ' ' ::
          (List.replicate (unitsColumn - (Nibble.digitText record.units).length) ' ' ++
            (record.text.toList ++ ' ' :: rest))) := by
  refine ⟨List.replicate (textColumn - record.text.length) ' ' ++
    ("; token " ++ Numeral.decimal record.index).toList, ?_⟩
  rw [← Text.toList_padRight_append, ← Text.toList_padRight_append]
  simp [line]

/-- A line tells the units of its instruction and the name of its label. -/
theorem units_eq_and_label?_eq {first second : Instruction} (hfirst : first.Printable)
    (hsecond : second.Printable) (h : line first = line second) :
    first.units = second.units ∧ first.operand.label? = second.operand.label? := by
  have hoffset : ∀ n : ℕ, ' ' ∉ (Numeral.hexAtLeast 2 n ++ ":").toList := by
    intro n
    have hplain := (Numeral.plain_hexAtLeast 2 n).separatorFree.blank_not_mem
    simpa using hplain
  obtain ⟨rest, hline⟩ := toList_line first
  obtain ⟨rest', hline'⟩ := toList_line second
  rw [h, hline'] at hline
  obtain ⟨-, hbehind⟩ := Text.append_blank_inj (hoffset _) (hoffset _) hline
  obtain ⟨hunits, htext⟩ := Text.append_blank_inj
    (Nibble.separatorFree_digitText _).blank_not_mem
    (Nibble.separatorFree_digitText _).blank_not_mem hbehind
  have hsame : second.units = first.units :=
    Nibble.digitText_injective (String.toList_inj.mp hunits)
  have hname : first.mnemonic = second.mnemonic := by
    have hopcode := (List.cons.inj hsame).1
    rw [hfirst.opcode, hsecond.opcode] at hopcode
    rw [← Mnemonic.ofOpcode_opcode first.mnemonic, ← hopcode, Mnemonic.ofOpcode_opcode]
  rw [hsame] at htext
  exact ⟨hsame.symm,
    Instruction.label?_eq_of_text hfirst hsecond hname (List.append_cancel_left htext).symm⟩

theorem inline_line {record : Instruction} (h : record.Printable) : Text.Inline (line record) := by
  have hpadded : ∀ (width : ℕ) {text : String}, Text.Inline text →
      Text.Inline (Text.padRight width text) := by
    intro width text htext
    rw [Text.padRight, Text.inline_append]
    refine ⟨htext, ?_⟩
    intro c hc
    rw [Text.filler, String.toList_ofList] at hc
    rw [List.eq_of_mem_replicate hc]
    decide
  have hoffset := (Numeral.plain_hexAtLeast 2 record.offset).separatorFree.inline
  have hunits := hpadded unitsColumn (Nibble.separatorFree_digitText record.units).inline
  have htext := hpadded textColumn h.inline_text
  have hindex := (Numeral.separatorFree_decimal record.index).inline
  simp only [line, Text.inline_append]
  exact ⟨⟨⟨⟨⟨⟨hoffset, by decide⟩, hunits⟩, by decide⟩, htext⟩, by decide⟩, hindex⟩

theorem line_ne_empty (record : Instruction) : line record ≠ "" := by
  intro h
  obtain ⟨rest, hline⟩ := toList_line record
  simp [h] at hline

end Listing

namespace LabelTable

/-- Every name of the table is one word. -/
def Printable (table : LabelTable) : Prop :=
  ∀ entry ∈ table.byAddress, Word.SeparatorFree entry.1.toList

/-- The line of a label tells its name and its address. -/
theorem entry_eq_of_line {first second : String × ℕ} (hfirst : Word.SeparatorFree first.1.toList)
    (hsecond : Word.SeparatorFree second.1.toList)
    (h : first.1 ++ ": " ++ Numeral.decimal first.2 =
      second.1 ++ ": " ++ Numeral.decimal second.2) : first = second := by
  have hfield : ∀ {entry : String × ℕ}, Word.SeparatorFree entry.1.toList →
      ' ' ∉ (entry.1 ++ ":").toList := by
    intro entry hentry
    simpa using hentry.blank_not_mem
  have hlist : (first.1 ++ ":").toList ++ ' ' :: (Numeral.decimal first.2).toList =
      (second.1 ++ ":").toList ++ ' ' :: (Numeral.decimal second.2).toList := by
    simpa using congrArg String.toList h
  obtain ⟨hname, haddress⟩ := Text.append_blank_inj (hfield hfirst) (hfield hsecond) hlist
  rw [String.toList_append, String.toList_append] at hname
  apply Prod.ext
  · exact String.toList_inj.mp (List.append_cancel_right hname)
  · exact Numeral.decimal_injective (String.toList_inj.mp haddress)

theorem eq_of_textLines {first second : LabelTable} (hfirst : first.Printable)
    (hsecond : second.Printable) (h : first.textLines = second.textLines) : first = second := by
  apply byAddress_injective
  have hentries := Text.map_eq_of_map_eq (g := id) (fun a ha b hb =>
    entry_eq_of_line (hfirst a ha) (hsecond b hb)) h
  simpa using hentries

theorem Printable.inline_of_mem {table : LabelTable} (h : table.Printable) {line : String}
    (hmem : line ∈ table.textLines) : Text.Inline line := by
  obtain ⟨entry, hentry, rfl⟩ := List.mem_map.mp hmem
  simp only [Text.inline_append]
  exact ⟨⟨(h entry hentry).inline, by decide⟩, (Numeral.separatorFree_decimal entry.2).inline⟩

theorem Printable.rows_text {table : LabelTable} (h : table.Printable) :
    Text.rows table.text = table.textLines := by
  apply Text.rows_intercalate
  · intro line hline
    exact h.inline_of_mem hline
  · intro line hline hempty
    obtain ⟨entry, -, rfl⟩ := List.mem_map.mp hline
    simp at hempty

end LabelTable

/-- Every record and every label of the program is printed as separate fields. -/
structure Assembly.Printable (assembly : Assembly) : Prop where
  trace : ∀ record ∈ assembly.trace, record.Printable
  labels : assembly.labels.Printable

/-- Labels come from words of the source, in the table and in the records. -/
theorem Assembly.printable_of_assemble {source : String} {assembly : Assembly}
    (h : assemble source = .ok assembly) : assembly.Printable := by
  obtain ⟨encoded, hencode, rfl⟩ := exists_encode_of_assemble_ok h
  constructor
  · intro record hmem
    obtain ⟨hopcode, hkind, -, -⟩ := TokenStream.shape_of_mem_trace hencode hmem
    refine ⟨hopcode, hkind, ?_⟩
    intro name hname
    cases hoperand : record.operand with
    | jump target label units =>
      obtain rfl : label = some name := by simpa [hoperand, Operand.label?] using hname
      obtain ⟨-, -, text, -, -, hcase⟩ := TokenStream.jump_of_encode_ok hencode hmem hoperand
      rcases hcase with ⟨hlabel, -⟩ | ⟨hlabel, hreads, hfind⟩
      · cases hlabel
      · obtain rfl := Option.some.inj hlabel
        exact ⟨TokenStream.separatorFree_of_find? hfind, hreads⟩
    | _ => simp [hoperand, Operand.label?] at hname
  · rintro ⟨name, address⟩ hmem
    exact TokenStream.separatorFree_of_find? (LabelTable.mem_byAddress.mp hmem)

namespace Listing

variable {assembly assembly' : Assembly}

theorem rows_text (h : assembly.Printable) : Text.rows (text assembly) = lines assembly := by
  apply Text.rows_intercalate
  · intro row hrow
    obtain ⟨record, hmem, rfl⟩ := List.mem_map.mp hrow
    exact inline_line (h.trace record hmem)
  · intro row hrow
    obtain ⟨record, -, rfl⟩ := List.mem_map.mp hrow
    exact line_ne_empty record

/-- The lines of a dump are the lines of its parts. -/
theorem rows_dump (h : assembly.Printable) : Text.rows (dump assembly) = dumpLines assembly := by
  have hlabels := h.labels.rows_text
  have hlines := rows_text h
  apply Text.rows_join
  have hindented : ∀ {row : String}, Text.Inline row → Text.Inline ("  " ++ row) := by
    intro row hrow
    exact Text.inline_append.mpr ⟨by decide, hrow⟩
  intro row hrow
  simp only [dumpLines, hlabels, hlines, List.mem_append, List.mem_cons, List.not_mem_nil,
    or_false] at hrow
  rcases hrow with (((rfl | rfl) | hlabel) | rfl) | hline
  · exact Text.inline_append.mpr ⟨by decide, (Nibble.separatorFree_digitText _).inline⟩
  · decide
  · obtain ⟨line, hmem, rfl⟩ := List.mem_map.mp hlabel
    exact hindented (h.labels.inline_of_mem hmem)
  · decide
  · obtain ⟨line, hmem, rfl⟩ := List.mem_map.mp hline
    obtain ⟨record, hrecord, rfl⟩ := List.mem_map.mp hmem
    exact hindented (inline_line (h.trace record hrecord))

/-- The lines of two listings that agree were printed from the same trace. -/
theorem trace_eq_of_lines {source source' : String} (hfirst : assemble source = .ok assembly)
    (hsecond : assemble source' = .ok assembly') (h : lines assembly = lines assembly') :
    assembly.trace = assembly'.trace ∧ assembly.codes = assembly'.codes ∧
      assembly.tokenCount = assembly'.tokenCount := by
  have hprintable := Assembly.printable_of_assemble hfirst
  have hprintable' := Assembly.printable_of_assemble hsecond
  have hunits := Text.map_eq_of_map_eq (g := Instruction.units) (fun a ha b hb hline =>
    (units_eq_and_label?_eq (hprintable.trace a ha) (hprintable'.trace b hb) hline).1) h
  have hlabels := Text.map_eq_of_map_eq (g := fun record => record.operand.label?)
    (fun a ha b hb hline =>
      (units_eq_and_label?_eq (hprintable.trace a ha) (hprintable'.trace b hb) hline).2) h
  obtain ⟨encoded, hencode, rfl⟩ := exists_encode_of_assemble_ok hfirst
  obtain ⟨encoded', hencode', rfl⟩ := exists_encode_of_assemble_ok hsecond
  have hcodes : encoded.codes = encoded'.codes := by
    rw [TokenStream.codes_eq_flatMap_units hencode, TokenStream.codes_eq_flatMap_units hencode',
      List.flatMap_def, List.flatMap_def]
    exact congrArg List.flatten hunits
  have herased : encoded.trace.map Instruction.eraseLabel =
      encoded'.trace.map Instruction.eraseLabel := by
    rw [← TokenStream.decodeFrom_codes hencode, hcodes, TokenStream.decodeFrom_codes hencode']
  have htrace := Instruction.trace_eq_of_eraseLabel herased hlabels
  have hcount := TokenStream.length_tokens_eq_add_countP hencode
  rw [htrace, ← TokenStream.length_tokens_eq_add_countP hencode'] at hcount
  exact ⟨htrace, hcodes, hcount⟩

/-- The lines of two dumps agree only if those of all their parts do. -/
theorem parts_eq_of_dumpLines (h : dumpLines assembly = dumpLines assembly') :
    Text.rows assembly.labels.text = Text.rows assembly'.labels.text ∧
      Text.rows (text assembly) = Text.rows (text assembly') := by
  have hindented : Function.Injective (fun line : String => "  " ++ line) := by
    intro a b hab
    simpa [← String.toList_inj] using hab
  have hheading : ∀ rows : List String, "trace:" ∉ rows.map (fun line => "  " ++ line) := by
    intro rows hmem
    obtain ⟨row, -, hrow⟩ := List.mem_map.mp hmem
    simp [← String.toList_inj] at hrow
  simp only [dumpLines, List.append_assoc, List.cons_append, List.nil_append, List.cons.injEq,
    true_and] at h
  obtain ⟨hlabels, -, hlines⟩ := (List.append_cons_inj_of_notMem (hheading _) (hheading _)).mp h.2
  exact ⟨List.map_injective_iff.mpr hindented hlabels, List.map_injective_iff.mpr hindented hlines⟩

/-- Programs with the same listing have the same trace, and programs with the same dump are the
same. A dump has one line for the code, one for each label and each instruction, and a heading
before the labels and before the trace. -/
theorem dump_lossless {source source' : String} (hfirst : assemble source = .ok assembly)
    (hsecond : assemble source' = .ok assembly') :
    (text assembly = text assembly' → assembly.trace = assembly'.trace ∧
      assembly.codes = assembly'.codes ∧ assembly.tokenCount = assembly'.tokenCount) ∧
    (dump assembly = dump assembly' → assembly = assembly') ∧
    Text.rows (dump assembly) = ["code: " ++ Nibble.digitText assembly.codes, "labels:"] ++
      (Text.rows assembly.labels.text).map (fun line => "  " ++ line) ++ ["trace:"] ++
      (Text.rows (text assembly)).map (fun line => "  " ++ line) ∧
    (Text.rows (dump assembly)).length = 3 + assembly.labels.size + assembly.trace.length := by
  have hprintable := Assembly.printable_of_assemble hfirst
  have hprintable' := Assembly.printable_of_assemble hsecond
  refine ⟨?_, ?_, ?_, ?_⟩
  · intro h
    apply trace_eq_of_lines hfirst hsecond
    rw [← rows_text hprintable, h, rows_text hprintable']
  · intro h
    have hlines : dumpLines assembly = dumpLines assembly' := by
      rw [← rows_dump hprintable, h, rows_dump hprintable']
    obtain ⟨hlabels, htrace⟩ := parts_eq_of_dumpLines hlines
    rw [hprintable.labels.rows_text, hprintable'.labels.rows_text] at hlabels
    rw [rows_text hprintable, rows_text hprintable'] at htrace
    obtain ⟨htrace, hcodes, hcount⟩ := trace_eq_of_lines hfirst hsecond htrace
    have htable := LabelTable.eq_of_textLines hprintable.labels hprintable'.labels hlabels
    cases assembly
    cases assembly'
    simp_all
  · rw [rows_dump hprintable, dumpLines]
  · rw [rows_dump hprintable, dumpLines, hprintable.labels.rows_text, rows_text hprintable]
    simp only [LabelTable.textLines, lines, List.length_append, List.length_map,
      List.length_cons, List.length_nil, LabelTable.length_byAddress]
    omega

/-- The same code under two labels, one of which looks like the target printed behind it. -/
theorem dump_lossless_like_target :
    text ⟨[0xF, 0, 0], .ofList [("(@0)", 0)],
        [⟨0, 0, .jump, 0xF, .jump 0 (some "(@0)") ⟨0, 0⟩⟩], 2⟩ ≠
      text ⟨[0xF, 0, 0], .ofList [("0:", 0), ("x", 0)],
        [⟨0, 0, .jump, 0xF, .jump 0 (some "x") ⟨0, 0⟩⟩], 2⟩ ∧
    (Text.rows (dump ⟨[0xF, 0, 0], .ofList [("0:", 0), ("x", 0)],
      [⟨0, 0, .jump, 0xF, .jump 0 (some "x") ⟨0, 0⟩⟩], 2⟩)).length = 3 + 2 + 1 := by
  have hfirst : assemble "(@0): JUMP (@0)" = .ok ⟨[0xF, 0, 0], .ofList [("(@0)", 0)],
      [⟨0, 0, .jump, 0xF, .jump 0 (some "(@0)") ⟨0, 0⟩⟩], 2⟩ := by decide +kernel
  have hsecond : assemble "0:: x:\nJUMP x" = .ok ⟨[0xF, 0, 0], .ofList [("0:", 0), ("x", 0)],
      [⟨0, 0, .jump, 0xF, .jump 0 (some "x") ⟨0, 0⟩⟩], 2⟩ := by decide +kernel
  constructor
  · intro htext
    exact absurd ((dump_lossless hfirst hsecond).1 htext).1 (by decide)
  · exact (dump_lossless hsecond hfirst).2.2.2

end Listing

end NibbleAsm
