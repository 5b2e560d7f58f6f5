import NibbleAsm.LabelTable
import NibbleAsm.Source.Line
import NibbleAsm.Source.Word
import NibbleAsm.Token

/-!
# Token streams

The first pass reads the words of the lines in order. A word that declares a label is bound to the
number of tokens before it and is itself no token; every other word is a token. Nothing fails here.
A label declared again keeps its last address, and each such declaration is recorded.
-/
namespace NibbleAsm

/-- The tokens of a program and the labels it declares. -/
structure TokenStream where
  tokens : List Token
  labels : LabelTable
  deriving DecidableEq

/-- A declaration of a label that was declared before. -/
structure Redeclaration where
  label : String
  previous : Nat
  address : Nat
  line : Nat
  deriving DecidableEq

/-- What the first pass has read. -/
structure Scan where
  tokens : Array Token
  labels : LabelTable
  redeclarations : Array Redeclaration

namespace Scan

def empty : Scan :=
  ⟨#[], .empty, #[]⟩

/-- Read one word of a line. -/
def push (scan : Scan) (line : Nat) (word : Word) : Scan :=
  match word.declaredName? with
  | none => { scan with tokens := scan.tokens.push ⟨String.ofList word, line⟩ }
  | some name =>
    let address := scan.tokens.size
    let (replaced, labels) := scan.labels.define name address
    match replaced with
    | none => { scan with labels := labels }
    | some previous =>
      { scan with
        labels := labels
        redeclarations := scan.redeclarations.push ⟨name, previous, address, line⟩ }

/-- Read every word of a line. -/
def pushLine (scan : Scan) (line : SourceLine) : Scan :=
  (Word.ofLine line.text.toList).foldl (fun scan word => scan.push line.number word) scan

/-- Read all lines. -/
def ofLines (lines : List SourceLine) : Scan :=
  lines.foldl pushLine empty

/-- The tokens and labels read. -/
def stream (scan : Scan) : TokenStream :=
  ⟨scan.tokens.toList, scan.labels⟩

end Scan

namespace TokenStream

/-- The tokens and labels of lines that are already without comments. -/
def ofLines (lines : List SourceLine) : TokenStream :=
  (Scan.ofLines lines).stream

/-- The tokens and labels of a source. -/
def ofSource (source : String) : TokenStream :=
  ofLines (SourceLine.ofSource source)

/-- The number of tokens. -/
def size (stream : TokenStream) : Nat :=
  stream.tokens.length

def isEmpty (stream : TokenStream) : Bool :=
  stream.tokens.isEmpty

end TokenStream

end NibbleAsm
