import NibbleAsm.Assembly
import NibbleAsm.Text.Column
import NibbleAsm.Text.Quoted

/-!
# Log lines

A run reports events of five levels. A filter lets events up to a level pass, with one limit for the
assembler and one for the command-line tool. Spans name the work in which an event arose; they are
shown only where debug events pass.
-/
namespace NibbleAsm

/-- Levels of events, the most important first. -/
inductive LogLevel where
  | error
  | warn
  | info
  | debug
  | trace
  deriving DecidableEq

namespace LogLevel

def rank : LogLevel → Nat
  | error => 0
  | warn => 1
  | info => 2
  | debug => 3
  | trace => 4

def name : LogLevel → String
  | error => "ERROR"
  | warn => "WARN"
  | info => "INFO"
  | debug => "DEBUG"
  | trace => "TRACE"

end LogLevel

/-- The last level that passes, or none at all. -/
abbrev LogLimit := Option LogLevel

/-- The limit that a setting names. -/
def LogLimit.ofName? : String → Option LogLimit
  | "off" => some none
  | "error" => some (some .error)
  | "warn" => some (some .warn)
  | "info" => some (some .info)
  | "debug" => some (some .debug)
  | "trace" => some (some .trace)
  | _ => none

/-- Whether events of a level pass a limit. -/
def LogLimit.passes (limit : LogLimit) (level : LogLevel) : Bool :=
  match limit with
  | none => false
  | some last => decide (level.rank ≤ last.rank)

/-- The part of the program that reports an event. -/
inductive LogTarget where
  | tokens
  | encoding
  | assembly
  | tool
  deriving DecidableEq

def LogTarget.name : LogTarget → String
  | tokens => "assembler::tokenizer"
  | encoding => "assembler::encoder"
  | assembly => "assembler::assembler"
  | tool => "ya4ms_asm"

structure LogEvent where
  level : LogLevel
  target : LogTarget
  spans : List String
  message : String
  fields : List (String × String)

/-- The limits for the events of the assembler and for those of the tool. -/
structure LogFilter where
  assembler : LogLimit
  tool : LogLimit
  deriving DecidableEq

namespace LogFilter

/-- A requested limit holds for all events. Without one, a verbose run shows the assembler's events
up to debug and no others, and any other run shows warnings. -/
def choose (requested : Option LogLimit) (verbose : Bool) : LogFilter :=
  match requested with
  | some limit => ⟨limit, limit⟩
  | none => if verbose then ⟨some .debug, none⟩ else ⟨some .warn, some .warn⟩

def limit (filter : LogFilter) : LogTarget → LogLimit
  | .tool => filter.tool
  | _ => filter.assembler

def passes (filter : LogFilter) (event : LogEvent) : Bool :=
  (filter.limit event.target).passes event.level

/-- The spans that are shown around an event. -/
def spans (filter : LogFilter) (event : LogEvent) : List String :=
  if (filter.assembler).passes .debug then event.spans else []

/-- The line of an event. -/
def line (filter : LogFilter) (event : LogEvent) : String :=
  let spans := filter.spans event
  let context := if spans.isEmpty then "" else ":".intercalate spans ++ ": "
  Text.padLeft 5 event.level.name ++ " " ++ context ++ event.target.name ++ ": " ++ event.message ++
    String.join (event.fields.map (fun field => " " ++ field.1 ++ "=" ++ field.2)) ++ "\n"

/-- The lines of the events that pass, in order. -/
def render (filter : LogFilter) (events : List LogEvent) : String :=
  String.join ((events.filter filter.passes).map filter.line)

end LogFilter

/-- The warning about a label that is declared again, within the given spans. -/
def Redeclaration.event (spans : List String) (redeclaration : Redeclaration) : LogEvent where
  level := .warn
  target := .tokens
  spans := spans
  message := "label redeclared"
  fields :=
    [("label", Text.quoted redeclaration.label),
      ("previous", Numeral.decimal redeclaration.previous),
      ("address", Numeral.decimal redeclaration.address),
      ("line", Numeral.decimal redeclaration.line)]

/-- What the first pass reports, within the given spans. -/
def Scan.events (spans : List String) (scan : Scan) : List LogEvent :=
  scan.redeclarations.toList.map (Redeclaration.event spans)

namespace Attempt

/-- The span of a whole attempt. -/
def span (attempt : Attempt) : String :=
  "assemble\x7bbytes=" ++ Numeral.decimal attempt.byteCount ++ "\x7d"

/-- The span of the second pass. -/
def encodeSpan (attempt : Attempt) : String :=
  "encode\x7btokens=" ++ Numeral.decimal attempt.scan.tokens.size ++ " labels=" ++
    Numeral.decimal attempt.scan.labels.size ++ "\x7d"

def scanEvent (attempt : Attempt) : LogEvent where
  level := .debug
  target := .assembly
  spans := [attempt.span]
  message := "pass 1 complete"
  fields :=
    [("lines", Numeral.decimal attempt.lineCount),
      ("tokens", Numeral.decimal attempt.scan.tokens.size),
      ("labels", Numeral.decimal attempt.scan.labels.size)]

/-- Units as a log line shows them. -/
def unitsText (units : List Nibble) : String :=
  let shown := units.map (fun unit => "Nibble(" ++ Numeral.decimal unit.val ++ ")")
  "[" ++ ", ".intercalate shown ++ "]"

def instructionEvent (attempt : Attempt) (instruction : Instruction) : LogEvent where
  level := .trace
  target := .encoding
  spans := [attempt.span, attempt.encodeSpan]
  message := "assembled instruction"
  fields :=
    [("index", Numeral.decimal instruction.index), ("offset", Numeral.decimal instruction.offset),
      ("mnemonic", Text.quoted instruction.mnemonic.spelling),
      ("units", unitsText instruction.units)]

def walkEvent (attempt : Attempt) (encoded : Encoded) : LogEvent where
  level := .debug
  target := .assembly
  spans := [attempt.span]
  message := "pass 2 complete"
  fields :=
    [("units", Numeral.decimal encoded.codes.length),
      ("instructions", Numeral.decimal encoded.trace.length)]

/-- Everything reported while a source is assembled. The instructions before an error are among it.
-/
def events (attempt : Attempt) : List LogEvent :=
  attempt.scan.events [attempt.span] ++ [attempt.scanEvent] ++
    attempt.walk.trace.map attempt.instructionEvent ++
    match attempt.walk.result with
    | .ok encoded => [attempt.walkEvent encoded]
    | .error _ => []

end Attempt

end NibbleAsm
