import NibbleAsm.Text.Utf8

/-!
# Control sequences

An escape character begins a control sequence, by which a terminal is told to change colour, move,
take a title and the like. A stream that is no terminal gets the text without these sequences, and
without the control characters that are not white space.

White space inside a sequence is still shown, and so is the text after it: the sequence is
suspended. The next control character resumes it, and a character outside ASCII ends it.
-/
namespace NibbleAsm.Text

/-- How far a control sequence has been read. -/
inductive SequenceState where
  /-- No sequence is open. -/
  | none
  /-- The escape character has been read. -/
  | escape
  /-- A sequence of few characters awaits its last one. -/
  | short
  /-- A control sequence proper awaits its last character. -/
  | control
  /-- A device command has just begun. -/
  | device
  /-- A device command is at its parameters. -/
  | deviceParameter
  /-- A device command is past its parameters. -/
  | deviceIntermediate
  /-- The text of a system command runs up to a bell. -/
  | system
  /-- Any other text runs up to a byte `9C`. -/
  | string
  deriving DecidableEq

namespace SequenceState

def escapeChar : Char := '\x1b'

/-- The two characters that break off any sequence. -/
def isCancel (c : Char) : Bool :=
  c == '\x18' || c == '\x1a'

/-- The white space among the control characters, except for the vertical tab. -/
def isLayout (c : Char) : Bool :=
  c == '\t' || c == '\n' || c == '\x0c' || c == '\r'

/-- Whether a character lies in an inclusive range. -/
def between (first last c : Char) : Bool :=
  decide (first ≤ c) && decide (c ≤ last)

/-- Whether a character that has been read is shown. -/
def shows (state : SequenceState) (c : Char) : Bool :=
  match state with
  | none => isLayout c || (decide (' ' ≤ c) && c != '\x7f')
  | escape | short | control => isLayout c
  | _ => false

/-- The state after a character inside a sequence. Characters outside ASCII and control characters
leave most sequences open. -/
def inside (state : SequenceState) (c : Char) : SequenceState :=
  match state with
  | none => none
  | escape =>
    if c == '[' then control
    else if c == ']' then system
    else if c == 'P' then device
    else if c == 'X' || c == '^' || c == '_' then string
    else if between ' ' '/' c then short
    else if between '0' '~' c then none
    else escape
  | short => if between '0' '~' c then none else short
  | control => if between '@' '~' c then none else control
  | device =>
    if between ' ' '/' c then deviceIntermediate
    else if between '0' '?' c then deviceParameter
    else if between '@' '~' c then string
    else device
  | deviceParameter =>
    if between ' ' '/' c then deviceIntermediate
    else if between '<' '~' c then string
    else deviceParameter
  | deviceIntermediate => if between '0' '~' c then string else deviceIntermediate
  | system => if c == '\x07' then none else system
  | string => if (Utf8.encode (String.singleton c)).contains 0x9C then none else string

/-- The state after any character. -/
def next (state : SequenceState) (c : Char) : SequenceState :=
  if c == escapeChar then escape
  else if isCancel c then none
  else state.inside c

/-- The characters that are shown. While a sequence is suspended they are those of plain text. -/
def shown (state : SequenceState) (suspended : Bool) : List Char → List Char
  | [] => []
  | c :: rest =>
    if suspended then
      if shows none c then
        if c ≤ '\x7f' then c :: shown state true rest else c :: shown none false rest
      else shown (state.next c) false rest
    else if state.shows c then c :: shown state (state != none) rest
    else shown (state.next c) false rest

end SequenceState

/-- The text without control sequences and control characters. -/
def plain (text : String) : String :=
  String.ofList (SequenceState.shown .none false text.toList)

end NibbleAsm.Text
