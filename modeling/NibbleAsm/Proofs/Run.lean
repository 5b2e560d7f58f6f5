import NibbleAsm.CommandLine.Run
import NibbleAsm.Proofs.Directory

/-!
# What a run changes

A run ends where its input holds no text, where the text does not assemble, where a check has
passed, where the output cannot be written, or where it was written. Only in the last case does the
state of the files change, and then in nothing but the file that was written. This holds in every
file system in which writing fails without a change or replaces a whole file.
-/
namespace NibbleAsm

/-- What is read as a source is the encoding of a text. -/
theorem sourceOf_eq_ok_iff {content : Except FileError ByteArray} {source : String} :
    sourceOf content = .ok source ↔ content = .ok source.toUTF8 := by
  cases content with
  | error error => simp [sourceOf]
  | ok bytes =>
    rw [sourceOf, Except.ok.injEq, ← Utf8.fromUTF8?_eq_some_iff]
    cases String.fromUTF8? bytes <;> simp

variable {σ φ : Type} {system : FileSystem σ φ}

/-- The path reads as a text that assembles. -/
def FileSystem.Assembles (system : FileSystem σ φ) (state : σ) (path : PathName)
    (assembly : Assembly) : Prop :=
  ∃ source, system.readAt state path = .ok source.toUTF8 ∧ assemble source = .ok assembly

namespace Command

/-- The log lines about the assembling of a source. -/
def assemblyLog (requested : Option LogLimit) (verbose : Bool) (source : String) : String :=
  (LogFilter.choose requested verbose).render (Attempt.ofSource source).events

/-- The input of a build assembles, and the program can be written to its output. -/
structure Builds (system : FileSystem σ φ) (state : σ) (input : PathName)
    (output : Option PathName) (format : Format) (assembly : Assembly) : Prop where
  assembles : system.Assembles state input assembly
  writable : system.Writable state (outputPath input output format)
    (format.render assembly).toUTF8

/-- The command fails and changes nothing. -/
structure Fails (system : FileSystem σ φ) (requested : Option LogLimit) (command : Command)
    (state : σ) : Prop where
  exit : ((command.perform system.access requested).run state).1.exit = 1
  unchanged : ((command.perform system.access requested).run state).2 = state

section

variable (lawful : system.Lawful) (requested : Option LogLimit) {state : σ}
include lawful

/-- A run goes on with what its input reads as, in the state that it began in. -/
theorem run_perform_eq_finish (command : Command) :
    (command.perform system.access requested).run state =
      ((command.afterReading requested (system.readAt state command.input)).finish
        system.access).run state := by
  rw [run_perform, lawful.read]
  rfl

theorem run_of_unreadable (command : Command) {error : ReadError}
    (h : sourceOf (system.readAt state command.input) = .error error) :
    (command.perform system.access requested).run state =
      (⟨1, "", "error: failed to read " ++ command.input.text ++ ": " ++ error.message ++ "\n"⟩,
        state) := by
  rw [run_perform_eq_finish lawful]
  simp only [afterReading, h, Stage.run_finish_done]

theorem run_of_refused (command : Command) {source : String} {error : AssembleError}
    (hread : system.readAt state command.input = .ok source.toUTF8)
    (h : assemble source = .error error) :
    (command.perform system.access requested).run state =
      (⟨1, "", assemblyLog requested command.verbose source ++
        error.messageIn command.input.text ++ "\n"⟩, state) := by
  have hsource := sourceOf_eq_ok_iff.mpr hread
  have hresult : (Attempt.ofSource source).result = .error error := h
  rw [run_perform_eq_finish lawful]
  simp only [afterReading, hsource, hresult, assemblyLog, Stage.run_finish_done]

/-- A run whose source assembles goes on to what the command asks for. -/
theorem exists_run_eq_conclude (command : Command) {assembly : Assembly}
    (h : system.Assembles state command.input assembly) :
    ∃ log, (command.perform system.access requested).run state =
      ((command.conclude (.choose requested command.verbose) log assembly).finish
        system.access).run state := by
  obtain ⟨source, hread, hassemble⟩ := h
  have hsource := sourceOf_eq_ok_iff.mpr hread
  have hresult : (Attempt.ofSource source).result = .ok assembly := hassemble
  refine ⟨assemblyLog requested command.verbose source, ?_⟩
  rw [run_perform_eq_finish lawful]
  simp only [afterReading, hsource, hresult, assemblyLog]

theorem run_check_of_assembles {input : PathName} {assembly : Assembly}
    (h : system.Assembles state input assembly) :
    ∃ stderr, ((check input).perform system.access requested).run state =
      (⟨0, input.text ++ ": ok (" ++ Numeral.decimal assembly.trace.length ++ " instructions, " ++
        Numeral.decimal assembly.codes.length ++ " units)\n", stderr⟩, state) := by
  obtain ⟨log, hrun⟩ := exists_run_eq_conclude lawful requested (check input) h
  exact ⟨_, hrun⟩

/-- Where nothing assembles, every command fails. -/
theorem fails_of_not_assembles (command : Command)
    (h : ∀ assembly, ¬ system.Assembles state command.input assembly) :
    Fails system requested command state := by
  cases hsource : sourceOf (system.readAt state command.input) with
  | error error =>
    have hrun := run_of_unreadable lawful requested command hsource
    exact ⟨by rw [hrun], by rw [hrun]⟩
  | ok source =>
    have hread := sourceOf_eq_ok_iff.mp hsource
    cases hassemble : assemble source with
    | error error =>
      have hrun := run_of_refused lawful requested command hread hassemble
      exact ⟨by rw [hrun], by rw [hrun]⟩
    | ok assembly => exact absurd ⟨source, hread, hassemble⟩ (h assembly)

variable {input : PathName} {output : Option PathName} {format : Format} (verbose : Bool)

theorem run_check_unchanged :
    (((check input).perform system.access requested).run state).2 = state := by
  by_cases hassembles : ∃ assembly, system.Assembles state input assembly
  · obtain ⟨assembly, hassembly⟩ := hassembles
    obtain ⟨stderr, hrun⟩ := run_check_of_assembles lawful requested hassembly
    rw [hrun]
  · exact (fails_of_not_assembles lawful requested (check input)
      (not_exists.mp hassembles)).unchanged

theorem run_check_exit_eq_zero_iff :
    (((check input).perform system.access requested).run state).1.exit = 0 ↔
      ∃ assembly, system.Assembles state input assembly := by
  constructor
  · intro hexit
    by_contra hnot
    have hfails := fails_of_not_assembles lawful requested (check input) (not_exists.mp hnot)
    exact absurd (hexit.symm.trans hfails.exit) (by decide)
  · rintro ⟨assembly, h⟩
    obtain ⟨stderr, hrun⟩ := run_check_of_assembles lawful requested h
    rw [hrun]

/-- A build that can be carried out writes the program and reports on it. -/
theorem run_build_of_builds {assembly : Assembly}
    (h : Builds system state input output format assembly) :
    ∃ stderr, ((build input output format verbose).perform system.access requested).run state =
      (⟨0, "Assembled " ++ input.text ++ " (" ++ Numeral.decimal assembly.codes.length ++
        " units) -> " ++ (outputPath input output format).text ++ "\n", stderr⟩,
        ((system.access.write (outputPath input output format)
          (format.render assembly).toUTF8).run state).2) := by
  obtain ⟨log, hrun⟩ := exists_run_eq_conclude lawful requested
    (build input output format verbose) h.assembles
  have hwritten : ((system.access.write (outputPath input output format)
      (format.render assembly).toUTF8).run state).1 = .ok () := h.writable
  rw [hrun, conclude, Stage.run_finish_write, hwritten]
  exact ⟨_, rfl⟩

/-- A build whose output cannot be written fails. -/
theorem fails_of_unwritable {assembly : Assembly} {error : FileError}
    (h : system.Assembles state input assembly)
    (hwrite : ((system.access.write (outputPath input output format)
      (format.render assembly).toUTF8).run state).1 = .error error) :
    Fails system requested (build input output format verbose) state := by
  obtain ⟨log, hrun⟩ :=
    exists_run_eq_conclude lawful requested (build input output format verbose) h
  rw [conclude, Stage.run_finish_write, hwrite] at hrun
  refine ⟨by rw [hrun]; rfl, ?_⟩
  rw [hrun]
  exact lawful.write_error hwrite

/-- A build that cannot be carried out fails. -/
theorem fails_of_not_builds (h : ∀ assembly, ¬ Builds system state input output format assembly) :
    Fails system requested (build input output format verbose) state := by
  by_cases hassembles : ∃ assembly, system.Assembles state input assembly
  · obtain ⟨assembly, hassembly⟩ := hassembles
    cases hwrite : ((system.access.write (outputPath input output format)
        (format.render assembly).toUTF8).run state).1 with
    | error error => exact fails_of_unwritable lawful requested verbose hassembly hwrite
    | ok written => exact absurd ⟨hassembly, hwrite⟩ (h assembly)
  · exact fails_of_not_assembles lawful requested _ (not_exists.mp hassembles)

theorem run_build_exit_eq_zero_iff :
    (((build input output format verbose).perform system.access requested).run state).1.exit = 0 ↔
      ∃ assembly, Builds system state input output format assembly := by
  constructor
  · intro hexit
    by_contra hnot
    have hfails := fails_of_not_builds lawful requested verbose (not_exists.mp hnot)
    exact absurd (hexit.symm.trans hfails.exit) (by decide)
  · rintro ⟨assembly, h⟩
    obtain ⟨stderr, hrun⟩ := run_build_of_builds lawful requested verbose h
    rw [hrun]

end

/-- A check changes nothing. A build succeeds exactly if its input assembles and its output can be
written; then the output holds the program in the format asked for, and no other file has changed.
Whatever fails has changed nothing. -/
theorem run_changes_output_only {σ φ : Type} {system : FileSystem σ φ} (lawful : system.Lawful)
    (requested : Option LogLimit) (state : σ) (input : PathName) :
    let checked := ((check input).perform system.access requested).run state
    checked.2 = state ∧
    (checked.1.exit = 0 ↔ ∃ assembly, system.Assembles state input assembly) ∧
    (checked.1.exit ≠ 0 → checked.1.exit = 1) ∧
    ∀ (output : Option PathName) (format : Format) (verbose : Bool),
      let built := ((build input output format verbose).perform system.access requested).run state
      (built.1.exit = 0 ↔ ∃ assembly, Builds system state input output format assembly) ∧
      (∀ assembly, Builds system state input output format assembly →
        system.Replaced state built.2 (outputPath input output format)
          (format.render assembly).toUTF8) ∧
      (built.1.exit ≠ 0 → built.1.exit = 1 ∧ built.2 = state) := by
  intro checked
  refine ⟨run_check_unchanged lawful requested, run_check_exit_eq_zero_iff lawful requested,
    ?_, ?_⟩
  · intro hexit
    apply (fails_of_not_assembles lawful requested (check input) _).exit
    intro assembly hassembles
    exact hexit ((run_check_exit_eq_zero_iff lawful requested).mpr ⟨assembly, hassembles⟩)
  intro output format verbose built
  refine ⟨run_build_exit_eq_zero_iff lawful requested verbose, ?_, ?_⟩
  · intro assembly hbuilds
    obtain ⟨stderr, hrun⟩ := run_build_of_builds lawful requested verbose hbuilds
    have hafter : built.2 = _ := congrArg Prod.snd hrun
    rw [hafter]
    exact lawful.write_ok hbuilds.writable
  · intro hexit
    have hnone : ∀ assembly, ¬ Builds system state input output format assembly := by
      intro assembly hbuilds
      exact hexit ((run_build_exit_eq_zero_iff lawful requested verbose).mpr ⟨assembly, hbuilds⟩)
    have hfails := fails_of_not_builds lawful requested verbose hnone
    exact ⟨hfails.exit, hfails.unchanged⟩

/-- A build over its own input replaces it, also by way of the folder above, and no other file. A
build whose output may not be written changes nothing. -/
theorem run_changes_output_only_at_input :
    let home : Location := [PathName.ofText "w"]
    let directory := ((Directory.empty home).addFile (.ofText "p") "TIA F".toUTF8).addFile
      (.ofText "p.hex") "old".toUTF8
    let guarded := directory.refuse .write (home.child (PathName.ofText "p.hex")) .denied
    let replacing := ((build (.ofText "p") (some (.ofText "../w/p")) .hex true).perform
      Directory.access none).run directory
    let beside := ((build (.ofText "p") none .hex true).perform Directory.access none).run guarded
    replacing.1.exit = 0 ∧
      replacing.2.content? (home.child (PathName.ofText "p")) = some "8F\n".toUTF8 ∧
      replacing.2.content? (home.child (PathName.ofText "p.hex")) = some "old".toUTF8 ∧
      beside.1.exit = 1 ∧ beside.2 = guarded := by
  intro home directory guarded replacing beside
  have hassemble : assemble "TIA F" =
      .ok ⟨[8, 15], .ofList [], [⟨0, 0, .tia, 8, .immediate 15⟩], 2⟩ := by decide +kernel
  have hbuilds : Builds Directory.fileSystem directory (.ofText "p") (some (.ofText "../w/p")) .hex
      ⟨[8, 15], .ofList [], [⟨0, 0, .tia, 8, .immediate 15⟩], 2⟩ :=
    ⟨⟨"TIA F", by decide +kernel, hassemble⟩, by decide +kernel⟩
  obtain ⟨-, -, -, hbuild⟩ :=
    run_changes_output_only Directory.lawful_fileSystem none directory (.ofText "p")
  obtain ⟨-, -, -, hbuild'⟩ :=
    run_changes_output_only Directory.lawful_fileSystem none guarded (.ofText "p")
  obtain ⟨hexit, hreplaced, -⟩ := hbuild (some (.ofText "../w/p")) .hex true
  obtain ⟨hexit', -, hunchanged⟩ := hbuild' none .hex true
  obtain ⟨file, hfile, hcontent, hothers⟩ := hreplaced _ hbuilds
  have hplace : Directory.find? replacing.2 (.ofText "../w/p") =
      some (home.child (PathName.ofText "p")) := by decide +kernel
  obtain rfl : home.child (PathName.ofText "p") = file :=
    Option.some.inj (hplace.symm.trans hfile)
  have hold : directory.content? (home.child (PathName.ofText "p.hex")) = some "old".toUTF8 := by
    decide +kernel
  have hrefused : beside.1.exit ≠ 0 := by
    intro hzero
    obtain ⟨assembly, -, hwritable⟩ := hexit'.mp hzero
    obtain ⟨place, htarget⟩ := Directory.exists_target_of_writable hwritable
    have hdenied : guarded.target (outputPath (.ofText "p") none .hex) = .error .denied := by
      decide +kernel
    rw [hdenied] at htarget
    cases htarget
  exact ⟨hexit.mpr ⟨_, hbuilds⟩, hcontent, (hothers _ (by decide)).trans hold,
    hunchanged hrefused⟩

end Command

end NibbleAsm
