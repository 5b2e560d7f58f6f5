import NibbleAsm.Report

/-!
# Output formats

A program is written as one hexadecimal digit per unit, or as a JSON object with its units and
labels. Both texts end in a line feed.
-/
namespace NibbleAsm

inductive Format where
  | hex
  | json
  deriving DecidableEq

namespace Format

/-- The name of a format, as an option value and as the extension of its files. -/
def name : Format → String
  | hex => "hex"
  | json => "json"

/-- The name of a format in log lines. -/
def logName : Format → String
  | hex => "Hex"
  | json => "Json"

def ofName? : String → Option Format
  | "hex" => some hex
  | "json" => some json
  | _ => none

/-- The labels of a program as a JSON object, in the order of their names. -/
def labelsJson (labels : LabelTable) : String :=
  Json.object (labels.entries.map (fun entry => (entry.1, Json.natural entry.2)))

/-- A program in the given format. -/
def render (format : Format) (assembly : Assembly) : String :=
  match format with
  | hex => Nibble.digitText assembly.codes ++ "\n"
  | json =>
    Json.object [("codes", Report.unitsJson assembly.codes), ("labels", labelsJson assembly.labels)]
      ++ "\n"

end Format

end NibbleAsm
