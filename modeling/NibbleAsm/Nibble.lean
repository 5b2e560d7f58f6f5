import NibbleAsm.Numeral
import NibbleAsm.Text.Column

/-!
# Code units

Machine code is a sequence of four-bit units. A unit is printed as one upper-case hexadecimal digit.
-/
namespace NibbleAsm

/-- A code unit: a value that fits in four bits. -/
abbrev Nibble := Fin 16

namespace Nibble

/-- The smallest unit. -/
def zero : Nibble := 0

/-- The largest unit. -/
def max : Nibble := 15

/-- The unit with the given value, if it fits in four bits. -/
def ofNat? (n : Nat) : Option Nibble :=
  if h : n < 16 then some ⟨n, h⟩ else none

/-- The unit of the low four bits of `n`. -/
def truncate (n : Nat) : Nibble :=
  ⟨n % 16, Nat.mod_lt n (by decide)⟩

/-- A value refused because it needs more than four bits. -/
structure OutOfRange where
  value : Nat
  deriving DecidableEq

def OutOfRange.message (refused : OutOfRange) : String :=
  "value 0x" ++ Numeral.hex refused.value ++ " does not fit in 4 bits"

/-- The unit with the given value, or the refused value. -/
def check (n : Nat) : Except OutOfRange Nibble :=
  match ofNat? n with
  | some unit => .ok unit
  | none => .error ⟨n⟩

/-- The digit that denotes a unit. -/
def digit (unit : Nibble) : Char :=
  Numeral.digitChar unit.val

/-- The unit as text: exactly one digit. -/
def text (unit : Nibble) : String :=
  String.singleton unit.digit

/-- How a unit is written in hexadecimal: the least number of digits, whether `0x` stands in front,
and the least width, reached by blanks behind. -/
structure HexStyle where
  digits : Nat := 1
  marked : Bool := false
  width : Nat := 0

def hexText (unit : Nibble) (style : HexStyle) : String :=
  Text.padRight style.width
    ((if style.marked then "0x" else "") ++ Numeral.hexAtLeast style.digits unit.val)

/-- The digits of a sequence of units, without anything between them. -/
def digitText (units : List Nibble) : String :=
  String.ofList (units.map digit)

theorem truncate_val_of_lt {n : Nat} (h : n < 16) : (truncate n).val = n :=
  Nat.mod_eq_of_lt h

@[simp] theorem ofNat?_val (unit : Nibble) : ofNat? unit.val = some unit := by
  simp [ofNat?]

theorem ofNat?_eq_none_iff {n : Nat} : ofNat? n = none ↔ 15 < n := by
  unfold ofNat?
  split <;> simp <;> omega

/-- A unit's digit reads back as the unit. -/
theorem hexDigit?_digit (unit : Nibble) : Numeral.hexDigit? unit.digit = some unit.val := by
  revert unit
  decide

end Nibble

end NibbleAsm
