import NibbleAsm.Proofs.Rendering
import NibbleAsm.Proofs.Run

/-!
# The front ends agree

A source is assembled for a check, for a build and for a report. All three accept the same sources.
The file of a build reads back as the units and the labels of the report, in either format, and the
lengths that a check and a build print are those of the report. A refused source is refused by a
check and a build in the same words, which end in the message of the report.
-/
namespace NibbleAsm

namespace Report

theorem ofSource_eq_ok_iff {source : String} {report : Report} :
    ofSource source = .ok report ↔
      ∃ assembly, assemble source = .ok assembly ∧ ofAssembly assembly = report := by
  rw [ofSource]
  cases assemble source <;> simp [Except.map, Except.mapError]

theorem ofSource_eq_error_iff {source message : String} :
    ofSource source = .error message ↔
      ∃ error, assemble source = .error error ∧ error.message = message := by
  rw [ofSource]
  cases assemble source <;> simp [Except.map, Except.mapError]

@[simp] theorem length_trace_ofAssembly (assembly : Assembly) :
    (ofAssembly assembly).trace.length = assembly.trace.length :=
  List.length_map Entry.ofInstruction

/-- A text in the given format reads as the units of a report and, in a format with labels, as its
labels, each name once. -/
def WrittenAs (report : Report) (text : String) : Format → Prop
  | .hex => Format.readHex? text = some (report.codes.map Fin.val)
  | .json => ∃ members, Format.readJson? text = some (report.codes.map Fin.val, members) ∧
      (members.map Prod.fst).Nodup ∧
      report.labels.Perm (members.map (fun member => ⟨member.1, member.2⟩))

/-- The file of a program holds its report. The labels are listed by name in the one and by address
in the other. -/
theorem writtenAs_render (assembly : Assembly) (format : Format) :
    (ofAssembly assembly).WrittenAs (format.render assembly) format := by
  cases format with
  | hex => exact Format.readHex?_render assembly
  | json =>
    refine ⟨assembly.labels.entries, Format.readJson?_render assembly, ?_, ?_⟩
    · exact List.pairwise_map.mpr assembly.labels.entries_distinct
    · exact assembly.labels.byAddress_perm.map _

end Report

variable {σ φ : Type}

/-- The program of a source, if there is one, can be written to the path. -/
def FileSystem.Accepts (system : FileSystem σ φ) (state : σ) (path : PathName) (source : String)
    (format : Format) : Prop :=
  ∀ assembly, assemble source = .ok assembly →
    system.Writable state path (format.render assembly).toUTF8

namespace Command

section

variable {system : FileSystem σ φ} {state : σ} {input : PathName} {source : String}
  (hread : system.readAt state input = .ok source.toUTF8)
include hread

theorem assembles_iff {assembly : Assembly} :
    system.Assembles state input assembly ↔ assemble source = .ok assembly := by
  constructor
  · rintro ⟨other, hother, hassemble⟩
    obtain rfl : source = other :=
      String.toByteArray_inj.mp (Except.ok.inj (hread.symm.trans hother))
    exact hassemble
  · intro hassemble
    exact ⟨source, hread, hassemble⟩

theorem exists_assembles_iff :
    (∃ assembly, system.Assembles state input assembly) ↔
      ∃ report, Report.ofSource source = .ok report := by
  simp only [assembles_iff hread, Report.ofSource_eq_ok_iff]
  constructor
  · rintro ⟨assembly, hassemble⟩
    exact ⟨_, assembly, hassemble, rfl⟩
  · rintro ⟨report, assembly, hassemble, -⟩
    exact ⟨assembly, hassemble⟩

variable (lawful : system.Lawful) (requested : Option LogLimit)
include lawful

section

variable {output : Option PathName} {format : Format}
  (haccepts : system.Accepts state (outputPath input output format) source format)
  (verbose : Bool)
include haccepts

/-- A build whose output can be written succeeds exactly if there is a report. -/
theorem run_build_exit_eq_zero_iff_report :
    (((build input output format verbose).perform system.access requested).run state).1.exit = 0 ↔
      ∃ report, Report.ofSource source = .ok report := by
  rw [run_build_exit_eq_zero_iff lawful, ← exists_assembles_iff hread]
  constructor
  · rintro ⟨assembly, hbuilds⟩
    exact ⟨assembly, hbuilds.assembles⟩
  · rintro ⟨assembly, hassembles⟩
    exact ⟨assembly, hassembles, haccepts assembly ((assembles_iff hread).mp hassembles)⟩

/-- Its file holds the report. -/
theorem run_build_of_report {assembly : Assembly} (h : assemble source = .ok assembly) :
    let built := ((build input output format verbose).perform system.access requested).run state
    built.1.stdout = "Assembled " ++ input.text ++ " (" ++
        Numeral.decimal (Report.ofAssembly assembly).codes.length ++ " units) -> " ++
        (outputPath input output format).text ++ "\n" ∧
      ∃ text, system.Holds built.2 (outputPath input output format) text.toUTF8 ∧
        (Report.ofAssembly assembly).WrittenAs text format := by
  intro built
  have hassembles := (assembles_iff hread).mpr h
  have hwritable := haccepts assembly h
  obtain ⟨stderr, hrun⟩ := run_build_of_builds lawful requested verbose ⟨hassembles, hwritable⟩
  have hbuilt : built = _ := hrun
  rw [hbuilt]
  exact ⟨rfl, format.render assembly, (lawful.write_ok hwritable).holds,
    Report.writtenAs_render assembly format⟩

end

section

variable {error : AssembleError} (h : assemble source = .error error)
include h

/-- A check and a quiet build refuse a source in the same words, whatever is logged. -/
theorem run_check_eq_run_build_of_refused (output : Option PathName) (format : Format) :
    ((check input).perform system.access requested).run state =
      ((build input output format false).perform system.access requested).run state := by
  rw [run_of_refused lawful requested (check input) hread h,
    run_of_refused lawful requested (build input output format false) hread h]
  rfl

/-- The last of these words are the message of the error, with the place of the error in front. -/
theorem run_check_of_refused :
    let checked := ((check input).perform system.access requested).run state
    checked.1.exit = 1 ∧ ∃ log, checked.1.stderr =
      log ++ (input.text ++ ":" ++ Numeral.decimal error.line ++ ": error: " ++ error.message ++
        "\n") := by
  intro checked
  have hchecked : checked = _ := run_of_refused lawful requested (check input) hread h
  rw [hchecked]
  refine ⟨rfl, assemblyLog requested false source, ?_⟩
  simp only [AssembleError.messageIn, String.append_assoc]
  rfl

end

end

/-- A check and a build whose output can be written succeed exactly if there is a report. They print
the lengths of its parts, and the file reads back as the report. Where there is none, a check and a
quiet build show the same, and the last that they show is the error of the report. -/
theorem run_agrees_with_report {σ φ : Type} {system : FileSystem σ φ} (lawful : system.Lawful)
    {state : σ} {input : PathName} {source : String}
    (hread : system.readAt state input = .ok source.toUTF8) (requested : Option LogLimit)
    (output : Option PathName) (format : Format) :
    let checked := ((check input).perform system.access requested).run state
    let built (verbose : Bool) :=
      ((build input output format verbose).perform system.access requested).run state
    let path := outputPath input output format
    (checked.1.exit = 0 ↔ ∃ report, Report.ofSource source = .ok report) ∧
    (∀ verbose, system.Accepts state path source format →
      ((built verbose).1.exit = 0 ↔ ∃ report, Report.ofSource source = .ok report)) ∧
    (∀ report, Report.ofSource source = .ok report →
      checked.1.stdout = input.text ++ ": ok (" ++ Numeral.decimal report.trace.length ++
        " instructions, " ++ Numeral.decimal report.codes.length ++ " units)\n" ∧
      ∀ verbose, system.Accepts state path source format →
        (built verbose).1.stdout = "Assembled " ++ input.text ++ " (" ++
          Numeral.decimal report.codes.length ++ " units) -> " ++ path.text ++ "\n" ∧
        ∃ text, system.Holds (built verbose).2 path text.toUTF8 ∧ report.WrittenAs text format) ∧
    (∀ message, Report.ofSource source = .error message →
      checked.1 = (built false).1 ∧ checked.1.exit = 1 ∧
      ∃ error log, assemble source = .error error ∧
        checked.1.stderr = log ++ (input.text ++ ":" ++ Numeral.decimal error.line ++
          ": error: " ++ message ++ "\n")) := by
  intro checked built path
  refine ⟨?_, ?_, ?_, ?_⟩
  · exact (run_check_exit_eq_zero_iff lawful requested).trans (exists_assembles_iff hread)
  · intro verbose haccepts
    exact run_build_exit_eq_zero_iff_report hread lawful requested haccepts verbose
  · intro report hreport
    obtain ⟨assembly, hassemble, rfl⟩ := Report.ofSource_eq_ok_iff.mp hreport
    obtain ⟨stderr, hrun⟩ :=
      run_check_of_assembles lawful requested ((assembles_iff hread).mpr hassemble)
    have hchecked : checked = _ := hrun
    rw [hchecked, Report.length_trace_ofAssembly]
    refine ⟨rfl, ?_⟩
    intro verbose haccepts
    exact run_build_of_report hread lawful requested haccepts verbose hassemble
  · intro message hmessage
    obtain ⟨error, hassemble, rfl⟩ := Report.ofSource_eq_error_iff.mp hmessage
    have hsame :=
      run_check_eq_run_build_of_refused hread lawful requested hassemble output format
    obtain ⟨hexit, log, hlog⟩ := run_check_of_refused hread lawful requested hassemble
    exact ⟨congrArg Prod.fst hsame, hexit, error, log, hassemble, hlog⟩

/-- A program with a quote as its label is written as JSON, and one with an unknown instruction on
its second line is refused with all events logged. -/
theorem run_agrees_with_report_second_line :
    let accepted := (Directory.empty []).addFile (.ofText "p") "\": JUMP \"".toUTF8
    let refused := (Directory.empty []).addFile (.ofText "p") "KA\nFOO".toUTF8
    (((check (.ofText "p")).perform Directory.access none).run accepted).1.stdout =
      "p: ok (1 instructions, 3 units)\n" ∧
    (∃ text, Directory.fileSystem.Holds
      (((build (.ofText "p") none .json true).perform Directory.access none).run accepted).2
        (outputPath (.ofText "p") none .json) text.toUTF8 ∧
      Report.WrittenAs ⟨[15, 0, 0], [⟨"\"", 0⟩],
        [⟨0, 0, .jump, [15, 0, 0], "JUMP \" (@0)", some 0, none⟩]⟩ text .json) ∧
    Report.ofSource "KA\nFOO" = .error "token 1 `FOO`: undefined mnemonic" ∧
    ∃ log, (((build (.ofText "p") none .hex false).perform Directory.access
      (some (some .trace))).run refused).1.stderr =
        log ++ "p:2: error: token 1 `FOO`: undefined mnemonic\n" := by
  intro accepted refused
  have haccepted : Directory.fileSystem.readAt accepted (.ofText "p") =
      .ok "\": JUMP \"".toUTF8 := by decide +kernel
  have hrefused : Directory.fileSystem.readAt refused (.ofText "p") = .ok "KA\nFOO".toUTF8 := by
    decide +kernel
  have hreport : Report.ofSource "\": JUMP \"" = .ok ⟨[15, 0, 0], [⟨"\"", 0⟩],
      [⟨0, 0, .jump, [15, 0, 0], "JUMP \" (@0)", some 0, none⟩]⟩ := by decide +kernel
  have hmessage : Report.ofSource "KA\nFOO" = .error "token 1 `FOO`: undefined mnemonic" := by
    decide +kernel
  have hassemble : assemble "KA\nFOO" = .error ⟨.undefinedMnemonic, 1, "FOO", 2⟩ := by
    decide +kernel
  have haccepts : Directory.fileSystem.Accepts accepted (outputPath (.ofText "p") none .json)
      "\": JUMP \"" .json := by
    intro assembly _
    have htarget : accepted.target (outputPath (.ofText "p") none .json) =
        .ok [PathName.ofText "p.json"] := by decide +kernel
    rw [FileSystem.Writable, Directory.run_write_of_target htarget]
  obtain ⟨-, -, hsuccess, -⟩ :=
    run_agrees_with_report Directory.lawful_fileSystem haccepted none none .json
  obtain ⟨hchecked, hbuilt⟩ := hsuccess _ hreport
  obtain ⟨-, -, -, hfailure⟩ := run_agrees_with_report Directory.lawful_fileSystem hrefused
    (some (some .trace)) none .hex
  obtain ⟨hsame, -, error, log, herror, hlog⟩ := hfailure _ hmessage
  obtain rfl := Except.error.inj (hassemble.symm.trans herror)
  refine ⟨hchecked.trans (by decide +kernel), (hbuilt true haccepts).2, hmessage, log, ?_⟩
  have hshown := (congrArg Outcome.stderr hsame).symm.trans hlog
  exact hshown.trans (congrArg (log ++ ·) (by decide +kernel))

end Command

end NibbleAsm
