import NibbleAsm.CommandLine.Arguments
import NibbleAsm.CommandLine.FileAccess
import NibbleAsm.CommandLine.Log

/-!
# Runs

A command reads its input, assembles it, and either reports on it or writes the program to a file.
The steps between reading and writing depend on nothing but the command, the log limit and the
content read.
-/
namespace NibbleAsm

/-- What a run shows when it has ended. -/
structure Outcome where
  exit : Nat
  stdout : String
  stderr : String
  deriving DecidableEq

/-- Why there is no source to assemble. -/
inductive ReadError where
  | file (error : FileError)
  /-- The content is not UTF-8. -/
  | notText
  deriving DecidableEq

def ReadError.message : ReadError → String
  | file error => error.message
  | notText => "stream did not contain valid UTF-8"

/-- The source in the content of a file. -/
def sourceOf (content : Except FileError ByteArray) : Except ReadError String :=
  match content with
  | .error error => .error (.file error)
  | .ok bytes =>
    match String.fromUTF8? bytes with
    | some source => .ok source
    | none => .error .notText

/-- A program to be written, and what the run shows around it. -/
structure WriteJob where
  path : PathName
  content : String
  /-- Shown before writing. -/
  log : String
  /-- Shown after writing, for a verbose run. -/
  details : String
  /-- Printed after writing. -/
  summary : String
  deriving DecidableEq

/-- How a run goes on after its input was read. -/
inductive Stage where
  | done (outcome : Outcome)
  | write (job : WriteJob)
  deriving DecidableEq

/-- The end of a run, given whether its output could be written. -/
def WriteJob.outcome (job : WriteJob) : Except FileError Unit → Outcome
  | .ok () => ⟨0, job.summary, job.log ++ job.details⟩
  | .error error =>
    ⟨1, "", job.log ++ "error: failed to write output: " ++ error.message ++ "\n"⟩

/-- Carry out what remains of a run. -/
def Stage.finish {m : Type → Type} [Monad m] (access : FileAccess m) : Stage → m Outcome
  | done outcome => pure outcome
  | write job => do return job.outcome (← access.write job.path job.content.toUTF8)

namespace Command

def input : Command → PathName
  | build input _ _ _ => input
  | check input => input

def verbose : Command → Bool
  | build _ _ _ verbose => verbose
  | check _ => false

/-- The file that a build writes: the one asked for, or one beside the input. -/
def outputPath (input : PathName) (output : Option PathName) (format : Format) : PathName :=
  output.getD (input.withExtension format.name)

def writingEvent (output : PathName) (format : Format) : LogEvent where
  level := .debug
  target := .tool
  spans := []
  message := "writing output"
  fields := [("output", output.text), ("format", format.logName)]

def checkedEvent (assembly : Assembly) : LogEvent where
  level := .info
  target := .tool
  spans := []
  message := "check passed"
  fields := [("units", Numeral.decimal assembly.codes.length)]

/-- The listing and the labels, if there are any. -/
def details (assembly : Assembly) : String :=
  Listing.text assembly ++ "\n" ++
    if assembly.labels.isEmpty then "" else "labels:\n" ++ assembly.labels.text ++ "\n"

/-- What remains to be done for an assembled program. -/
def conclude (filter : LogFilter) (log : String) (assembly : Assembly) : Command → Stage
  | build input output format verbose =>
    let path := outputPath input output format
    .write {
      path := path
      content := format.render assembly
      log := log ++ filter.render [writingEvent path format]
      details := if verbose then details assembly else ""
      summary := "Assembled " ++ input.text ++ " (" ++ Numeral.decimal assembly.codes.length ++
        " units) -> " ++ path.text ++ "\n" }
  | check input =>
    .done {
      exit := 0
      stdout := input.text ++ ": ok (" ++ Numeral.decimal assembly.trace.length ++
        " instructions, " ++ Numeral.decimal assembly.codes.length ++ " units)\n"
      stderr := log ++ filter.render [checkedEvent assembly] }

/-- How a run goes on when its input was read or could not be read. -/
def afterReading (requested : Option LogLimit) (command : Command)
    (content : Except FileError ByteArray) : Stage :=
  match sourceOf content with
  | .error error =>
    .done ⟨1, "", "error: failed to read " ++ command.input.text ++ ": " ++ error.message ++ "\n"⟩
  | .ok source =>
    let filter := LogFilter.choose requested command.verbose
    let attempt := Attempt.ofSource source
    let log := filter.render attempt.events
    match attempt.result with
    | .error error => .done ⟨1, "", log ++ error.messageIn command.input.text ++ "\n"⟩
    | .ok assembly => command.conclude filter log assembly

/-- Run a command. -/
def perform {m : Type → Type} [Monad m] (access : FileAccess m) (requested : Option LogLimit)
    (command : Command) : m Outcome := do
  let content ← access.read command.input
  (command.afterReading requested content).finish access

end Command

section

variable {σ : Type} (access : FileAccess (StateM σ))

@[simp] theorem Stage.run_finish_done (outcome : Outcome) (state : σ) :
    ((Stage.done outcome).finish access).run state = (outcome, state) := rfl

/-- A run that has come to writing ends as the writing does. -/
theorem Stage.run_finish_write (job : WriteJob) (state : σ) :
    ((Stage.write job).finish access).run state =
      (job.outcome ((access.write job.path job.content.toUTF8).run state).1,
        ((access.write job.path job.content.toUTF8).run state).2) := rfl

/-- A run reads its input and goes on with what it has read. -/
theorem Command.run_perform (requested : Option LogLimit) (command : Command) (state : σ) :
    (command.perform access requested).run state =
      ((command.afterReading requested ((access.read command.input).run state).1).finish
        access).run ((access.read command.input).run state).2 := rfl

end

/-- Run the tool with the given arguments. -/
def runTool {m : Type → Type} [Monad m] (access : FileAccess m) (requested : Option LogLimit)
    (arguments : List (List UInt8)) : m Outcome :=
  match Arguments.read arguments with
  | .run command => command.perform access requested
  | .inform text => pure ⟨0, text, ""⟩
  | .misuse error => pure ⟨2, "", error.message ++ "\n"⟩

end NibbleAsm
