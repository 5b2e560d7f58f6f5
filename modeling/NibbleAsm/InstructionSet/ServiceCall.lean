import NibbleAsm.Nibble

/-!
# Service routines

The sixteen routines that `CAL` can select, their codes, spellings and identifiers.
-/
namespace NibbleAsm

/-- The service routines, in code order. -/
inductive ServiceCall where
  /-- Clear the numeric display. -/
  | rsto
  /-- Light the lamp selected by Y. -/
  | setr
  /-- Turn off the lamp selected by Y. -/
  | rstr
  /-- An external connection, which the machine does not implement. -/
  | undefined
  /-- Complement A. -/
  | cmpl
  /-- Swap the register banks. -/
  | chng
  /-- Shift A right. -/
  | shft
  /-- Play the end sound. -/
  | ends
  /-- Play the error sound. -/
  | errs
  /-- Play a short beep. -/
  | shts
  /-- Play a long beep. -/
  | lons
  /-- Play the note selected by A. -/
  | sund
  /-- Wait (A + 1) tenths of a second. -/
  | timr
  /-- Show memory on the lamps. -/
  | dspr
  /-- Decimal subtract A from memory. -/
  | demMinus
  /-- Decimal add A to memory. -/
  | demPlus
  deriving DecidableEq

namespace ServiceCall

/-- Every routine, in code order. -/
def all : List ServiceCall :=
  [rsto, setr, rstr, undefined, cmpl, chng, shft, ends, errs, shts, lons, sund, timr, dspr,
    demMinus, demPlus]

/-- The operand unit that selects the routine. -/
def code : ServiceCall → Nibble
  | rsto => .truncate 0x0
  | setr => .truncate 0x1
  | rstr => .truncate 0x2
  | undefined => .truncate 0x3
  | cmpl => .truncate 0x4
  | chng => .truncate 0x5
  | shft => .truncate 0x6
  | ends => .truncate 0x7
  | errs => .truncate 0x8
  | shts => .truncate 0x9
  | lons => .truncate 0xA
  | sund => .truncate 0xB
  | timr => .truncate 0xC
  | dspr => .truncate 0xD
  | demMinus => .truncate 0xE
  | demPlus => .truncate 0xF

/-- The routine selected by a unit. Every code is assigned. -/
def ofCode (unit : Nibble) : ServiceCall :=
  match unit.val with
  | 0x0 => rsto
  | 0x1 => setr
  | 0x2 => rstr
  | 0x3 => undefined
  | 0x4 => cmpl
  | 0x5 => chng
  | 0x6 => shft
  | 0x7 => ends
  | 0x8 => errs
  | 0x9 => shts
  | 0xA => lons
  | 0xB => sund
  | 0xC => timr
  | 0xD => dspr
  | 0xE => demMinus
  | _ => demPlus

@[simp] theorem ofCode_code (call : ServiceCall) : ofCode call.code = call := by
  cases call <;> rfl

@[simp] theorem code_ofCode (unit : Nibble) : (ofCode unit).code = unit := by
  revert unit
  decide

/-- The routine's name in sources. -/
def spelling : ServiceCall → String
  | rsto => "RSTO"
  | setr => "SETR"
  | rstr => "RSTR"
  | undefined => "UNDEFINED"
  | cmpl => "CMPL"
  | chng => "CHNG"
  | shft => "SHFT"
  | ends => "ENDS"
  | errs => "ERRS"
  | shts => "SHTS"
  | lons => "LONS"
  | sund => "SUND"
  | timr => "TIMR"
  | dspr => "DSPR"
  | demMinus => "DEM-"
  | demPlus => "DEM+"

/-- The routine's name as data. -/
def identifier : ServiceCall → String
  | rsto => "Rsto"
  | setr => "Setr"
  | rstr => "Rstr"
  | undefined => "Undefined"
  | cmpl => "Cmpl"
  | chng => "Chng"
  | shft => "Shft"
  | ends => "Ends"
  | errs => "Errs"
  | shts => "Shts"
  | lons => "Lons"
  | sund => "Sund"
  | timr => "Timr"
  | dspr => "Dspr"
  | demMinus => "DemMinus"
  | demPlus => "DemPlus"

/-- The routine with the given spelling. Case matters. -/
def ofSpelling? (text : String) : Option ServiceCall :=
  all.find? (fun call => call.spelling == text)

theorem mem_all (call : ServiceCall) : call ∈ all := by
  cases call <;> decide

theorem spelling_of_ofSpelling? {text : String} {call : ServiceCall}
    (h : ofSpelling? text = some call) : call.spelling = text := by
  simpa using List.find?_some h

@[simp] theorem ofSpelling?_spelling (call : ServiceCall) :
    ofSpelling? call.spelling = some call := by
  cases call <;> decide

end ServiceCall

end NibbleAsm
