import NibbleAsm.CommandLine.Format
import NibbleAsm.CommandLine.Help
import NibbleAsm.CommandLine.PathName
import NibbleAsm.Text.ControlSequence

/-!
# Arguments

Arguments are read from left to right. An option's value may be attached to it or be the next
argument, and an argument that begins with a dash is never such a value unless it is a dash alone. A
value is settled, that is checked and stored, when the next known option or input follows or the
arguments end. An unknown option or an input too many is reported before an unsettled value.
-/
namespace NibbleAsm

/-- What the tool is asked to do with a source. -/
inductive Command where
  | build (input : PathName) (output : Option PathName) (format : Format) (verbose : Bool)
  | check (input : PathName)
  deriving DecidableEq

/-- The parameters that take a value. -/
inductive Parameter where
  | input
  | output
  | format
  deriving DecidableEq

/-- A parameter as messages name it. -/
def Parameter.text : Parameter → String
  | input => "<INPUT>"
  | output => "--output <OUTPUT>"
  | format => "--format <FORMAT>"

/-- Why the arguments cannot be understood. -/
inductive UsageError where
  | noCommand
  | unrecognizedCommand (name : String)
  | missingInput
  | unexpectedArgument (argument : String)
  | unexpectedValue (value : String) (option : String)
  | invalidValue (value : String) (parameter : Parameter)
  | missingValue (parameter : Parameter)
  | repeated (option : String)
  deriving DecidableEq

/-- An argument as messages show it. -/
def UsageError.shown (argument : String) : String :=
  "'" ++ Text.plain argument ++ "'"

/-- The report on an error. -/
def UsageError.message : UsageError → String
  | noCommand => Help.about
  | unrecognizedCommand name => "error: unrecognized subcommand " ++ shown name
  | missingInput => "error: the following required arguments were not provided:"
  | unexpectedArgument argument => "error: unexpected argument " ++ shown argument ++ " found"
  | unexpectedValue value option =>
    "error: unexpected value " ++ shown value ++ " for " ++ shown option ++
      " found; no more were expected"
  | invalidValue value parameter =>
    "error: invalid value " ++ shown value ++ " for '" ++ parameter.text ++ "'"
  | missingValue parameter =>
    "error: a value is required for '" ++ parameter.text ++ "' but none was supplied"
  | repeated option => "error: the argument '" ++ option ++ "' cannot be used multiple times"

/-- What the arguments amount to. -/
inductive Invocation where
  | run (command : Command)
  /-- Print a text about the tool. -/
  | inform (text : String)
  | misuse (error : UsageError)
  deriving DecidableEq

namespace Arguments

/-- Why reading the arguments of a command ends early. -/
inductive Stop where
  | inform (text : String)
  | misuse (error : UsageError)

/-- The two commands on sources. -/
inductive Verb where
  | build
  | check
  deriving DecidableEq

/-- What an option does. -/
inductive Switch where
  | help
  | verbose
  | valued (parameter : Parameter)

namespace Verb

def ofName? : String → Option Verb
  | "build" => some build
  | "check" => some check
  | _ => none

/-- The option with a one-letter name. -/
def short? : Verb → Char → Option Switch
  | _, 'h' => some .help
  | build, 'v' => some .verbose
  | build, 'o' => some (.valued .output)
  | build, 'f' => some (.valued .format)
  | _, _ => none

/-- The option with a long name. -/
def long? : Verb → String → Option Switch
  | _, "help" => some .help
  | build, "verbose" => some .verbose
  | build, "output" => some (.valued .output)
  | build, "format" => some (.valued .format)
  | _, _ => none

def longHelp : Verb → String
  | build => Help.buildLong
  | check => Help.check

def shortHelp : Verb → String
  | build => Help.buildShort
  | check => Help.check

end Verb

/-- The values settled so far, and the parameter that waits for its value or for settling. -/
structure Draft where
  input : Option PathName := none
  output : Option PathName := none
  format : Option Format := none
  verbose : Bool := false
  pending : Option (Parameter × Option (List UInt8)) := none
  /-- Whether an input was given, settled or not. -/
  hasInput : Bool := false

namespace Draft

/-- Check and store the value of a parameter that takes a path. -/
def path (parameter : Parameter) (present : Bool) (value : List UInt8) :
    Except Stop PathName :=
  if present then .error (.misuse (.repeated parameter.text))
  else if value.isEmpty then .error (.misuse (.missingValue parameter))
  else .ok value

/-- Check and store a value. A repetition is reported before a bad value. -/
def store (draft : Draft) (parameter : Parameter) (value : List UInt8) : Except Stop Draft :=
  match parameter with
  | .input =>
    (path .input draft.input.isSome value).map (fun path => { draft with input := some path })
  | .output =>
    (path .output draft.output.isSome value).map (fun path => { draft with output := some path })
  | .format =>
    if draft.format.isSome then .error (.misuse (.repeated Parameter.format.text))
    else if value.isEmpty then .error (.misuse (.missingValue .format))
    else
      match (Utf8.decode? value).bind Format.ofName? with
      | some format => .ok { draft with format := some format }
      | none => .error (.misuse (.invalidValue (Utf8.lossy value) .format))

/-- Settle the parameter that waits, if any. -/
def settle (draft : Draft) : Except Stop Draft :=
  match draft.pending with
  | none => .ok draft
  | some (parameter, none) => .error (.misuse (.missingValue parameter))
  | some (parameter, some value) => { draft with pending := none }.store parameter value

/-- Settle, and let a parameter wait for its value. -/
def await (draft : Draft) (parameter : Parameter) : Except Stop Draft := do
  let draft ← draft.settle
  .ok { draft with pending := some (parameter, none) }

/-- Settle, and store a value that is attached to its option. -/
def attach (draft : Draft) (parameter : Parameter) (value : List UInt8) : Except Stop Draft := do
  let draft ← draft.settle
  draft.store parameter value

/-- Settle, and turn on the verbose flag. -/
def beVerbose (draft : Draft) : Except Stop Draft := do
  let draft ← draft.settle
  if draft.verbose then .error (.misuse (.repeated "--verbose"))
  else .ok { draft with verbose := true }

/-- Settle, and stop with a help text. -/
def stopWith (draft : Draft) (text : String) : Except Stop Draft := do
  let _ ← draft.settle
  .error (.inform text)

/-- Take an argument as the input. There is only one. -/
def addInput (draft : Draft) (argument : List UInt8) : Except Stop Draft := do
  if draft.hasInput then .error (.misuse (.unexpectedArgument (Utf8.lossy argument)))
  else
    let draft ← draft.settle
    .ok { draft with pending := some (.input, some argument), hasInput := true }

end Draft

/-- The byte between a long option and its value. -/
def equals : UInt8 := 0x3D

/-- The byte in front of an option. -/
@[match_pattern] def dash : UInt8 := 0x2D

/-- A long option without its dashes: its name and its value, if one is attached. -/
def splitLong (argument : List UInt8) : List UInt8 × Option (List UInt8) :=
  let name := argument.takeWhile (· != equals)
  match argument.drop name.length with
  | [] => (name, none)
  | _ :: value => (name, some value)

/-- Read a long option. -/
def readLong (verb : Verb) (draft : Draft) (argument : List UInt8) : Except Stop Draft :=
  let (name, value) := splitLong argument
  let unexpected := Stop.misuse (.unexpectedArgument ("--" ++ Utf8.lossy name))
  match (Utf8.decode? name).bind verb.long? with
  | none => .error unexpected
  | some (.valued parameter) =>
    match value with
    | some value => draft.attach parameter value
    | none => draft.await parameter
  | some flag =>
    match value, flag with
    | some value, _ =>
      .error (.misuse (.unexpectedValue (Utf8.lossy value) ("--" ++ Utf8.lossy name)))
    | none, .help => draft.stopWith verb.longHelp
    | none, _ => draft.beVerbose

/-- Read one-letter options that stand together. The rest after an option with a value is its value,
an equals sign in front of it not counted. -/
def readShort (verb : Verb) (draft : Draft) (letters : List UInt8) : Except Stop Draft :=
  match letters with
  | [] => .ok draft
  | first :: others =>
    match _ : Utf8.uncons? (first :: others) with
    | none => .error (.misuse (.unexpectedArgument ("-" ++ Utf8.lossy (first :: others))))
    | some (letter, rest) =>
      match verb.short? letter with
      | none => .error (.misuse (.unexpectedArgument ("-" ++ String.singleton letter)))
      | some .help => draft.stopWith verb.shortHelp
      | some .verbose => do readShort verb (← draft.beVerbose) rest
      | some (.valued parameter) =>
        match rest with
        | [] => draft.await parameter
        | byte :: value =>
          draft.attach parameter (if byte = equals then value else byte :: value)
termination_by letters.length
decreasing_by exact Utf8.length_lt_of_unconsFrom ‹_›

/-- Read the arguments of a command. After a double dash all of them are inputs. -/
def readAll (verb : Verb) (draft : Draft) (onlyInputs : Bool) :
    List (List UInt8) → Except Stop Draft
  | [] => draft.settle
  | argument :: rest => do
    if onlyInputs then
      readAll verb (← draft.addInput argument) true rest
    else
      match argument with
      | dash :: dash :: [] => readAll verb draft true rest
      | dash :: dash :: long => readAll verb (← readLong verb draft long) false rest
      | dash :: letter :: letters =>
        readAll verb (← readShort verb draft (letter :: letters)) false rest
      | value =>
        match draft.pending with
        | some (parameter, none) =>
          readAll verb { draft with pending := some (parameter, some value) } false rest
        | _ => readAll verb (← draft.addInput value) false rest

/-- The command that a draft describes. -/
def finish (verb : Verb) (draft : Draft) : Invocation :=
  match draft.input, verb with
  | none, _ => .misuse .missingInput
  | some input, .build => .run (.build input draft.output (draft.format.getD .hex) draft.verbose)
  | some input, .check => .run (.check input)

/-- Read a command with its arguments. -/
def readCommand (verb : Verb) (arguments : List (List UInt8)) : Invocation :=
  match readAll verb {} false arguments with
  | .ok draft => finish verb draft
  | .error (.inform text) => .inform text
  | .error (.misuse error) => .misuse error

/-- Read the names after `help`. No command has commands of its own. -/
def readHelp : List (List UInt8) → Invocation
  | [] => .inform Help.overview
  | name :: rest =>
    let text := match Utf8.decode? name with
      | some "help" => some Help.help
      | some other => (Verb.ofName? other).map Verb.longHelp
      | none => none
    match text, rest with
    | none, _ => .misuse (.unrecognizedCommand (Utf8.lossy name))
    | some text, [] => .inform text
    | some _, next :: _ => .misuse (.unrecognizedCommand (Utf8.lossy next))

/-- Whether an argument names a command. -/
def isCommand (argument : List UInt8) : Bool :=
  match Utf8.decode? argument with
  | some name => name == "help" || (Verb.ofName? name).isSome
  | none => false

/-- A long option in front of any command. -/
def readTopLong (argument : List UInt8) : Invocation :=
  let (name, value) := splitLong argument
  let option := "--" ++ Utf8.lossy name
  let text := match Utf8.decode? name with
    | some "help" => some Help.overview
    | some "version" => some Help.version
    | _ => none
  match text, value with
  | none, _ => .misuse (.unexpectedArgument option)
  | some _, some value => .misuse (.unexpectedValue (Utf8.lossy value) option)
  | some text, none => .inform text

/-- One-letter options in front of any command. The first decides. -/
def readTopShort (letters : List UInt8) : Invocation :=
  match Utf8.uncons? letters with
  | none => .misuse (.unexpectedArgument ("-" ++ Utf8.lossy letters))
  | some ('h', _) => .inform Help.overview
  | some ('V', _) => .inform Help.version
  | some (letter, _) => .misuse (.unexpectedArgument ("-" ++ String.singleton letter))

/-- Read all arguments of the tool. -/
def read : List (List UInt8) → Invocation
  | [] => .misuse .noCommand
  | argument :: rest =>
    match argument with
    | dash :: dash :: [] =>
      match rest with
      | [] => .misuse .noCommand
      | next :: _ =>
        if isCommand next then .misuse (.unexpectedArgument (Utf8.lossy next))
        else .misuse (.unrecognizedCommand (Utf8.lossy next))
    | dash :: dash :: long => readTopLong long
    | dash :: letter :: letters => readTopShort (letter :: letters)
    | name =>
      match Utf8.decode? name with
      | some "help" => readHelp rest
      | some text =>
        match Verb.ofName? text with
        | some verb => readCommand verb rest
        | none => .misuse (.unrecognizedCommand text)
      | none => .misuse (.unrecognizedCommand (Utf8.lossy name))

end Arguments

end NibbleAsm
