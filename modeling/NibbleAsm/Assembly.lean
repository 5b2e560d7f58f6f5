import NibbleAsm.Encoding

/-!
# Assembling a source

A source is split into lines, its words are read in a first pass and encoded in a second one. The
result depends on the source alone.
-/
namespace NibbleAsm

/-- An assembled program. -/
structure Assembly where
  codes : List Nibble
  labels : LabelTable
  trace : List Instruction
  /-- The number of tokens, label declarations not counted. -/
  tokenCount : Nat
  deriving DecidableEq

/-- What both passes made of a source, whether or not it assembles. -/
structure Attempt where
  byteCount : Nat
  lineCount : Nat
  scan : Scan
  walk : Walk

namespace Attempt

/-- Run both passes on a source. -/
def ofSource (source : String) : Attempt :=
  let lines := SourceLine.ofSource source
  let scan := Scan.ofLines lines
  ⟨source.utf8ByteSize, lines.length, scan, scan.stream.walk⟩

/-- The assembled program, or the first error. -/
def result (attempt : Attempt) : Except AssembleError Assembly :=
  match attempt.walk.result with
  | .error error => .error error
  | .ok encoded =>
    .ok ⟨encoded.codes, attempt.scan.labels, encoded.trace, attempt.scan.tokens.size⟩

end Attempt

/-- Assemble a source. -/
def assemble (source : String) : Except AssembleError Assembly :=
  (Attempt.ofSource source).result

end NibbleAsm
