import NibbleAsm.Proofs.Dump
import NibbleAsm.Proofs.FrontEnds
import NibbleAsm.Proofs.Linking

/-!
# A report agrees with its own code

A report lists the code, the labels and an entry for each instruction. The units of an entry are
those of the code at its offset, and all else that an entry shows follows from them: the first is
the opcode of its name, the two behind a jump join to its target, and the one behind a call selects
its routine. Only the name of a label is not in the code. It stands in the source form of its jump,
in front of the target, and the two are a label of the report.
-/
namespace NibbleAsm

/-- A list that holds one blank is cut there and nowhere else. -/
theorem Text.append_blank_inj_of_single {first second first' second' : List Char}
    (hfirst : ' ' ∉ first) (hsecond : ' ' ∉ second)
    (h : first ++ ' ' :: second = first' ++ ' ' :: second') :
    first = first' ∧ second = second' := by
  have hcount := congrArg (List.count ' ') h
  rw [List.count_append, List.count_append, List.count_cons_self, List.count_cons_self,
    List.count_eq_zero_of_not_mem hfirst, List.count_eq_zero_of_not_mem hsecond] at hcount
  have hfirst' : ' ' ∉ first' := List.count_eq_zero.mp (by omega)
  exact append_blank_inj hfirst hfirst' h

/-- Only the name of a label brings a blank into a printed operand. -/
theorem Operand.exists_label_of_blank {operand : Operand} (h : ' ' ∈ operand.text.toList) :
    ∃ target name units, operand = .jump target (some name) units := by
  cases operand with
  | absent => simp [text] at h
  | immediate value => exact absurd h value.plain_text.separatorFree.blank_not_mem
  | service call => exact absurd h call.plain_spelling.separatorFree.blank_not_mem
  | jump target label units =>
    cases label with
    | none => exact absurd h (Numeral.plain_hexAtLeast 2 target).separatorFree.blank_not_mem
    | some name => exact ⟨target, name, units, rfl⟩

/-- A source form that shows a name and something in parentheses behind it is that of a jump to the
name, and what the parentheses show is its target. -/
theorem Instruction.eq_of_text_eq {record : Instruction} (hrecord : record.Printable)
    {name shown : String} (h : record.text = "JUMP " ++ name ++ " (@" ++ shown ++ ")") :
    ∃ target units, record.operand = .jump target (some name) units ∧
      shown = Numeral.decimal target := by
  have hlist : record.text.toList = "JUMP".toList ++ ' ' ::
      (name.toList ++ ' ' :: ("(@" ++ shown ++ ")").toList) := by
    simp [h]
  have hname := record.mnemonic.plain_spelling.separatorFree.blank_not_mem
  by_cases hempty : record.operand.text = ""
  · have htext : record.text = record.mnemonic.spelling := by simp [text, hempty]
    rw [← htext, hlist] at hname
    simp at hname
  · have htext : record.text.toList =
        record.mnemonic.spelling.toList ++ ' ' :: record.operand.text.toList := by
      simp [text, hempty]
    rw [htext] at hlist
    obtain ⟨-, hoperand⟩ := Text.append_blank_inj hname (by decide) hlist
    have hblank : ' ' ∈ record.operand.text.toList := by simp [hoperand]
    obtain ⟨target, label, units, hjump⟩ := Operand.exists_label_of_blank hblank
    obtain ⟨hlabel, -⟩ := hrecord.label label (by rw [hjump]; rfl)
    -- Neither the label nor what is printed behind it holds a blank.
    have hbehind : ' ' ∉ ("(@" ++ Numeral.decimal target ++ ")").toList := by
      simpa using (Numeral.separatorFree_decimal target).blank_not_mem
    have hfields : label.toList ++ ' ' :: ("(@" ++ Numeral.decimal target ++ ")").toList =
        name.toList ++ ' ' :: ("(@" ++ shown ++ ")").toList := by
      rw [← hoperand, hjump]
      simp [Operand.text]
    obtain ⟨hsame, hshown⟩ :=
      Text.append_blank_inj_of_single hlabel.blank_not_mem hbehind hfields
    obtain rfl := String.toList_inj.mp hsame
    refine ⟨target, units, hjump, ?_⟩
    rw [← String.toList_inj]
    simpa using hshown.symm

namespace Report

/-- What an entry shows can be read off the code at its offset. -/
structure Entry.ReadsFrom (codes : List Nibble) (entry : Entry) : Prop where
  inside : entry.offset + entry.mnemonic.operandKind.unitCount ≤ codes.length
  units : entry.units = (codes.drop entry.offset).take entry.mnemonic.operandKind.unitCount
  mnemonic : entry.units[0]?.map Mnemonic.ofOpcode = some entry.mnemonic
  isSome_target : entry.target.isSome ↔ entry.mnemonic = .jump
  target : ∀ target ∈ entry.target, ∃ high low, entry.units[1]? = some high ∧
    entry.units[2]? = some low ∧ target = JumpAddress.join ⟨high, low⟩
  isSome_service : entry.service.isSome ↔ entry.mnemonic = .cal
  service : ∀ call ∈ entry.service, ∃ code, entry.units[1]? = some code ∧ call = .ofCode code

end Report

theorem Operand.isSome_target?_iff (operand : Operand) :
    operand.target?.isSome ↔ operand.kind = .jumpTarget := by
  cases operand <;> simp [target?, kind]

theorem Operand.isSome_service?_iff (operand : Operand) :
    operand.service?.isSome ↔ operand.kind = .serviceCall := by
  cases operand <;> simp [service?, kind]

theorem Mnemonic.operandKind_eq_jumpTarget_iff (name : Mnemonic) :
    name.operandKind = .jumpTarget ↔ name = jump := by
  refine ⟨eq_jump_of_operandKind, ?_⟩
  rintro rfl
  rfl

theorem Mnemonic.operandKind_eq_serviceCall_iff (name : Mnemonic) :
    name.operandKind = .serviceCall ↔ name = cal := by
  refine ⟨eq_cal_of_operandKind, ?_⟩
  rintro rfl
  rfl

namespace TokenStream

variable {stream : TokenStream} {encoded : Encoded} {record : Instruction}

theorem offset_add_unitCount_le (h : stream.encode = .ok encoded) (hmem : record ∈ encoded.trace) :
    record.offset + record.unitCount ≤ encoded.codes.length := by
  obtain ⟨i, hrecord⟩ := List.getElem?_of_mem hmem
  have hcovers := covers_of_encode_ok h hrecord
  have hlength := congrArg List.length hcovers.units
  rw [hcovers.length_units, List.length_take, List.length_drop] at hlength
  have hpositive : 0 < record.unitCount := by
    rw [← hcovers.length_units]
    exact Nat.succ_pos _
  omega

/-- The entry of an instruction is read off the code. -/
theorem readsFrom_ofInstruction (h : stream.encode = .ok encoded) (hmem : record ∈ encoded.trace) :
    (Report.Entry.ofInstruction record).ReadsFrom encoded.codes := by
  obtain ⟨i, hrecord⟩ := List.getElem?_of_mem hmem
  have hcovers := covers_of_encode_ok h hrecord
  refine ⟨offset_add_unitCount_le h hmem, hcovers.units.symm, ?_, ?_, ?_, ?_, ?_⟩
  · simp [Report.Entry.ofInstruction, Instruction.units, hcovers.opcode]
  · rw [← Mnemonic.operandKind_eq_jumpTarget_iff]
    exact hcovers.operand ▸ record.operand.isSome_target?_iff
  · intro target htarget
    cases hoperand : record.operand with
    | jump address label units =>
      obtain rfl : address = target := by
        simpa [Report.Entry.ofInstruction, hoperand, Operand.target?] using htarget
      obtain ⟨hsplit, -⟩ := jump_of_encode_ok h hmem hoperand
      obtain ⟨hjoin, -⟩ := JumpAddress.split_eq_ok_iff.mp hsplit
      refine ⟨units.high, units.low, ?_, ?_, hjoin.symm⟩ <;>
        simp [Report.Entry.ofInstruction, Instruction.units, hoperand, Operand.units]
    | _ => simp [Report.Entry.ofInstruction, hoperand, Operand.target?] at htarget
  · rw [← Mnemonic.operandKind_eq_serviceCall_iff]
    exact hcovers.operand ▸ record.operand.isSome_service?_iff
  · intro call hcall
    cases hoperand : record.operand with
    | service selected =>
      obtain rfl : selected = call := by
        simpa [Report.Entry.ofInstruction, hoperand, Operand.service?] using hcall
      refine ⟨selected.code, ?_, (ServiceCall.ofCode_code selected).symm⟩
      simp [Report.Entry.ofInstruction, Instruction.units, hoperand, Operand.units]
    | _ => simp [Report.Entry.ofInstruction, hoperand, Operand.service?] at hcall

end TokenStream

namespace Report

theorem mem_labels_ofAssembly {assembly : Assembly} {name : String} {address : ℕ} :
    ⟨name, address⟩ ∈ (ofAssembly assembly).labels ↔
      assembly.labels.find? name = some address := by
  simp [ofAssembly, ← LabelTable.mem_byAddress]

theorem map_name_labels_ofAssembly (assembly : Assembly) :
    (ofAssembly assembly).labels.map Label.name = assembly.labels.byAddress.map Prod.fst := by
  simp [ofAssembly, Function.comp_def]

/-- Everything in an entry of a report but the name of a label is read off the code of the report,
and the entries cover the code. A name that is shown is a label of the report, with the target of
the jump as its address. The labels increase strictly and are the names that the source declares,
each once. -/
theorem entries_read_from_codes {source : String} {report : Report}
    (h : ofSource source = .ok report) :
    (∀ entry ∈ report.trace, entry.ReadsFrom report.codes ∧
      ∀ name shown : String, entry.text = "JUMP " ++ name ++ " (@" ++ shown ++ ")" →
        ∃ address, shown = Numeral.decimal address ∧ entry.target = some address ∧
          ⟨name, address⟩ ∈ report.labels) ∧
    report.trace.flatMap Entry.units = report.codes ∧
    report.labels.Pairwise
      (fun a b => a.address < b.address ∨ a.address = b.address ∧ a.name < b.name) ∧
    (report.labels.map Label.name).Nodup ∧
    ∀ name, name ∈ report.labels.map Label.name ↔ Declares source name := by
  obtain ⟨assembly, hassemble, rfl⟩ := ofSource_eq_ok_iff.mp h
  have hprintable := Assembly.printable_of_assemble hassemble
  obtain ⟨encoded, hencode, rfl⟩ := exists_encode_of_assemble_ok hassemble
  refine ⟨?_, ?_, ?_, ?_, ?_⟩
  · intro entry hentry
    obtain ⟨record, hmem, rfl⟩ := List.mem_map.mp hentry
    refine ⟨TokenStream.readsFrom_ofInstruction hencode hmem, ?_⟩
    intro name shown htext
    obtain ⟨target, units, hjump, rfl⟩ :=
      Instruction.eq_of_text_eq (hprintable.trace record hmem) htext
    refine ⟨target, rfl, by simp [Entry.ofInstruction, hjump, Operand.target?], ?_⟩
    obtain ⟨-, -, text, -, -, ⟨hlabel, -⟩ | ⟨hlabel, -, hfind⟩⟩ :=
      TokenStream.jump_of_encode_ok hencode hmem hjump
    · cases hlabel
    · obtain rfl := Option.some.inj hlabel
      exact mem_labels_ofAssembly.mpr hfind
  · rw [ofAssembly, List.flatMap_map]
    exact (TokenStream.codes_eq_flatMap_units hencode).symm
  · exact List.pairwise_map.mpr (LabelTable.byAddress_increasing _)
  · rw [map_name_labels_ofAssembly]
    exact List.pairwise_map.mpr (LabelTable.byAddress_distinct _)
  · intro name
    rw [map_name_labels_ofAssembly, ← not_iff_not,
      ← TokenStream.find?_labels_ofSource_eq_none_iff, Option.eq_none_iff_forall_ne_some]
    simp [LabelTable.mem_byAddress, Assembly.ofEncoded]

/-- The name of the label looks like a target itself. -/
theorem entries_read_from_codes_like_target :
    let jump : Entry := ⟨1, 1, .jump, [0xF, 0, 1], "JUMP (@2) (@1)", some 1, none⟩
    jump.ReadsFrom [0x0, 0xF, 0, 1, 0xE, 0xF] ∧
    (∃ address, "1" = Numeral.decimal address ∧ jump.target = some address ∧
      ⟨"(@2)", address⟩ ∈ [(⟨"(@2)", 1⟩ : Label)]) ∧
    Declares "KA (@2): JUMP (@2)\nCAL DEM+" "(@2)" := by
  intro jump
  have h : ofSource "KA (@2): JUMP (@2)\nCAL DEM+" =
      .ok ⟨[0x0, 0xF, 0, 1, 0xE, 0xF], [⟨"(@2)", 1⟩],
        [⟨0, 0, .ka, [0x0], "KA", none, none⟩, jump,
          ⟨3, 4, .cal, [0xE, 0xF], "CAL DEM+", none, some .demPlus⟩]⟩ := by decide +kernel
  obtain ⟨hentries, -, -, -, hdeclared⟩ := entries_read_from_codes h
  obtain ⟨hreads, hlabel⟩ := hentries jump (by simp)
  exact ⟨hreads, hlabel "(@2)" "1" (by decide), (hdeclared "(@2)").mp (by decide)⟩

end Report

end NibbleAsm
