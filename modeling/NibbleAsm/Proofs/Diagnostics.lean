import NibbleAsm.CommandLine.Directory
import NibbleAsm.CommandLine.Run

/-!
# Diagnostics do not interfere

What a run logs depends on the log limit, and what it shows of the program besides on whether it is
verbose. Two runs of a command that differ in nothing else are compared stage by stage: they read
the same content, they refuse it for the same reason or go on with the same program, and they write
the same file. So they end with the same status, the same output and the same files, whatever
reading and writing do, and only the error stream tells them apart. With all events filtered out, a
quiet run that succeeds shows nothing there.
-/
namespace NibbleAsm

/-- The outcomes differ at most in what the error stream shows. -/
structure Outcome.Agrees (first second : Outcome) : Prop where
  exit : first.exit = second.exit
  stdout : first.stdout = second.stdout

/-- The jobs differ at most in what the error stream shows around them. -/
structure WriteJob.Agrees (first second : WriteJob) : Prop where
  path : first.path = second.path
  content : first.content = second.content
  summary : first.summary = second.summary

/-- The runs go on in the same way. -/
inductive Stage.Agrees : Stage → Stage → Prop where
  | done {first second : Outcome} (h : first.Agrees second) :
      Agrees (.done first) (.done second)
  | write {first second : WriteJob} (h : first.Agrees second) :
      Agrees (.write first) (.write second)

theorem WriteJob.Agrees.outcome {first second : WriteJob} (h : first.Agrees second)
    (written : Except FileError Unit) :
    (first.outcome written).Agrees (second.outcome written) := by
  cases written with
  | ok written => exact ⟨rfl, h.summary⟩
  | error error => exact ⟨rfl, rfl⟩

section

variable {σ : Type} (access : FileAccess (StateM σ)) {state : σ}

/-- Runs that go on in the same way end in the same way. -/
theorem Stage.Agrees.finish {first second : Stage} (h : first.Agrees second) (state : σ) :
    ((first.finish access).run state).1.Agrees ((second.finish access).run state).1 ∧
      ((first.finish access).run state).2 = ((second.finish access).run state).2 := by
  cases h with
  | done h => exact ⟨h, rfl⟩
  | write h =>
    rw [Stage.run_finish_write, Stage.run_finish_write, h.path, h.content]
    exact ⟨h.outcome _, rfl⟩

/-- If the run goes on to succeed, the error stream shows nothing. -/
def Stage.Silent : Stage → Prop
  | done outcome => outcome.exit = 0 → outcome.stderr = ""
  | write job => job.log ++ job.details = ""

theorem Stage.Silent.stderr_finish {stage : Stage} (h : stage.Silent)
    (hexit : ((stage.finish access).run state).1.exit = 0) :
    ((stage.finish access).run state).1.stderr = "" := by
  cases stage with
  | done outcome => exact h hexit
  | write job =>
    rw [Stage.run_finish_write] at hexit ⊢
    cases hwrite : ((access.write job.path job.content.toUTF8).run state).1 with
    | error error =>
      rw [hwrite] at hexit
      cases hexit
    | ok written => exact h

end

/-- Nothing is logged where no event passes. -/
theorem LogFilter.render_choose_off (verbose : Bool) (events : List LogEvent) :
    (choose (some none) verbose).render events = "" := by
  have hnone : events.filter (choose (some none) verbose).passes = [] := by
    rw [List.filter_eq_nil_iff]
    intro event _
    have hlimit : (choose (some none) verbose).limit event.target = none := by
      cases event.target <;> rfl
    simp [passes, hlimit, LogLimit.passes]
  rw [render, hnone]
  rfl

namespace Command

/-- The same command, made verbose or quiet where it is a build. -/
def withVerbose (verbose : Bool) : Command → Command
  | build input output format _ => build input output format verbose
  | check input => check input

@[simp] theorem input_withVerbose (verbose : Bool) (command : Command) :
    (command.withVerbose verbose).input = command.input := by
  cases command <;> rfl

theorem verbose_withVerbose_false (command : Command) :
    (command.withVerbose false).verbose = false := by
  cases command <;> rfl

/-- Whatever was logged, an assembled program is written or reported on in the same way. -/
theorem conclude_agrees (command : Command) (assembly : Assembly) (verbose verbose' : Bool)
    (filter filter' : LogFilter) (log log' : String) :
    ((command.withVerbose verbose).conclude filter log assembly).Agrees
      ((command.withVerbose verbose').conclude filter' log' assembly) := by
  cases command with
  | build input output format _ => exact .write ⟨rfl, rfl, rfl⟩
  | check input => exact .done ⟨rfl, rfl⟩

theorem afterReading_agrees (command : Command) (content : Except FileError ByteArray)
    (verbose verbose' : Bool) (requested requested' : Option LogLimit) :
    ((command.withVerbose verbose).afterReading requested content).Agrees
      ((command.withVerbose verbose').afterReading requested' content) := by
  cases hsource : sourceOf content with
  | error error =>
    simp only [afterReading, hsource, input_withVerbose]
    exact .done ⟨rfl, rfl⟩
  | ok source =>
    cases hresult : (Attempt.ofSource source).result with
    | error error =>
      simp only [afterReading, hsource, hresult, input_withVerbose]
      exact .done ⟨rfl, rfl⟩
    | ok assembly =>
      simp only [afterReading, hsource, hresult]
      exact command.conclude_agrees assembly verbose verbose' _ _ _ _

theorem conclude_silent (command : Command) (assembly : Assembly) :
    ((command.withVerbose false).conclude (.choose (some none) false) "" assembly).Silent := by
  cases command <;> simp [withVerbose, conclude, Stage.Silent, LogFilter.render_choose_off]

theorem afterReading_silent (command : Command) (content : Except FileError ByteArray) :
    ((command.withVerbose false).afterReading (some none) content).Silent := by
  cases hsource : sourceOf content with
  | error error => simp [afterReading, hsource, Stage.Silent]
  | ok source =>
    cases hresult : (Attempt.ofSource source).result with
    | error error => simp [afterReading, hsource, hresult, Stage.Silent]
    | ok assembly =>
      simp only [afterReading, hsource, hresult, verbose_withVerbose_false,
        LogFilter.render_choose_off]
      exact command.conclude_silent assembly

/-- Neither the log limit nor a request for details changes the status, the output or the files of a
run. A quiet run that succeeds while nothing is logged shows nothing on the error stream. -/
theorem run_independent_of_diagnostics {σ : Type} (access : FileAccess (StateM σ))
    (command : Command) (state : σ) :
    (∀ (requested requested' : Option LogLimit) (verbose verbose' : Bool),
      let first := ((command.withVerbose verbose).perform access requested).run state
      let second := ((command.withVerbose verbose').perform access requested').run state
      first.1.exit = second.1.exit ∧ first.1.stdout = second.1.stdout ∧ first.2 = second.2) ∧
    let quiet := ((command.withVerbose false).perform access (LogLimit.ofName? "off")).run state
    (quiet.1.exit = 0 → quiet.1.stderr = "") := by
  constructor
  · intro requested requested' verbose verbose' first second
    have hagrees := command.afterReading_agrees ((access.read command.input).run state).1
      verbose verbose' requested requested'
    obtain ⟨hshown, hfiles⟩ := hagrees.finish access ((access.read command.input).run state).2
    have hfirst : first = _ := run_perform access requested (command.withVerbose verbose) state
    have hsecond : second = _ := run_perform access requested' (command.withVerbose verbose') state
    rw [hfirst, hsecond, input_withVerbose, input_withVerbose]
    exact ⟨hshown.exit, hshown.stdout, hfiles⟩
  · intro quiet
    have hquiet : quiet = _ := run_perform access _ (command.withVerbose false) state
    rw [hquiet, input_withVerbose]
    exact (command.afterReading_silent _).stderr_finish access

/-- A label that is declared twice is warned of in one run and listed, and not mentioned in the
other. -/
theorem run_independent_of_diagnostics_redeclared :
    let directory := (Directory.empty []).addFile (.ofText "p") "x: KA x:".toUTF8
    let loud := ((build (.ofText "p") none .hex true).perform Directory.access
      (some (some .trace))).run directory
    let quiet := ((build (.ofText "p") none .hex false).perform Directory.access
      (LogLimit.ofName? "off")).run directory
    loud.1.exit = quiet.1.exit ∧ loud.1.stdout = quiet.1.stdout ∧ loud.2 = quiet.2 ∧
      loud.1.stderr ≠ "" ∧ quiet.1.stderr = "" := by
  intro directory loud quiet
  obtain ⟨hsame, hsilent⟩ := run_independent_of_diagnostics Directory.access
    (build (.ofText "p") none .hex false) directory
  have hexit : quiet.1.exit = 0 := by decide +kernel
  have hloud : loud.1.stderr ≠ "" := by decide +kernel
  obtain ⟨hstatus, hshown, hfiles⟩ := hsame (some (some .trace)) (LogLimit.ofName? "off") true false
  exact ⟨hstatus, hshown, hfiles, hloud, hsilent hexit⟩

end Command

end NibbleAsm
