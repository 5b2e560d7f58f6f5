import NibbleAsm.Listing
import NibbleAsm.Text.Json

/-!
# Reports

A report presents an assembled program as plain data for another program: the code units, the labels
by address, and one entry per instruction with its source form and what its operand selects.
-/
namespace NibbleAsm.Report

/-- A label and its token address. -/
structure Label where
  name : String
  address : Nat
  deriving DecidableEq

/-- One instruction. -/
structure Entry where
  index : Nat
  offset : Nat
  mnemonic : Mnemonic
  units : List Nibble
  text : String
  /-- The target of a jump. -/
  target : Option Nat
  /-- The routine that a call selects. -/
  service : Option ServiceCall
  deriving DecidableEq

def Entry.ofInstruction (instruction : Instruction) : Entry :=
  ⟨instruction.index, instruction.offset, instruction.mnemonic, instruction.units,
    instruction.text, instruction.operand.target?, instruction.operand.service?⟩

end Report

/-- An assembled program as data. -/
structure Report where
  codes : List Nibble
  labels : List Report.Label
  trace : List Report.Entry
  deriving DecidableEq

namespace Report

def ofAssembly (assembly : Assembly) : Report :=
  ⟨assembly.codes, assembly.labels.byAddress.map (fun entry => ⟨entry.1, entry.2⟩),
    assembly.trace.map Entry.ofInstruction⟩

/-- The report on a source, or the message of the first error. -/
def ofSource (source : String) : Except String Report :=
  ((assemble source).map ofAssembly).mapError AssembleError.message

/-- Units as a JSON array of numbers. -/
def unitsJson (units : List Nibble) : String :=
  Json.array (units.map (fun unit => Json.natural unit.val))

/-- An entry as a JSON object, without the members it has no value for. -/
def Entry.json (entry : Entry) : String :=
  Json.object
    ([("index", Json.natural entry.index), ("offset", Json.natural entry.offset),
      ("mnemonic", Json.string entry.mnemonic.identifier), ("units", unitsJson entry.units),
      ("text", Json.string entry.text)] ++
      (entry.target.map (fun target => ("target", Json.natural target))).toList ++
      (entry.service.map (fun call => ("service", Json.string call.identifier))).toList)

def Label.json (label : Label) : String :=
  Json.object [("name", Json.string label.name), ("address", Json.natural label.address)]

/-- The report as a JSON object. -/
def json (report : Report) : String :=
  Json.object
    [("codes", unitsJson report.codes), ("labels", Json.array (report.labels.map Label.json)),
      ("trace", Json.array (report.trace.map Entry.json))]

end Report

end NibbleAsm
