import NibbleAsm.Numeral
import NibbleAsm.Numeral.Binary64

/-!
# Number literals

Data write a number as digits, perhaps with a point and a power of ten. A literal without these is
an integer as long as it fits in 64 bits. Every other literal is read as a floating-point number:
its digits are collected in a 64-bit significand while they fit, and the significand is then rounded
and scaled by the power of ten that is left. Both steps round, so the result may differ from the
nearest number in its last place.
-/
namespace NibbleAsm.Numeral

/-- A number as it is written. -/
structure Literal where
  negative : Bool
  /-- The digits before the point. -/
  whole : List Nat
  /-- The digits after the point, if there is one. -/
  fraction : Option (List Nat)
  power : Option Int
  deriving DecidableEq

/-- Append digits to a significand until one no longer fits in 64 bits: the significand, and the
digits that are left over. -/
def appendDigits (significand : Nat) : List Nat → Nat × List Nat
  | [] => (significand, [])
  | d :: rest =>
    if significand * 10 + d ≤ limit then appendDigits (significand * 10 + d) rest
    else (significand, d :: rest)

namespace Literal

/-- The integer that a literal without point and power denotes. A negative zero is none. -/
def integer? (x : Literal) : Option Int :=
  let size := value 10 x.whole
  if x.fraction.isSome || x.power.isSome then none
  else if x.negative then
    if 0 < size ∧ size ≤ 0x8000000000000000 then some (-(size : Int)) else none
  else if size ≤ limit then some (size : Int)
  else none

/-- The 64-bit significand of a literal, and its power of ten. A digit before the point that does
not fit counts for the power; one after the point is ignored with all that follow. -/
def parts (x : Literal) : Nat × Int :=
  let (start, dropped) := appendDigits 0 x.whole
  let places := x.fraction.getD []
  let (significand, ignored) := appendDigits start places
  let shift := (dropped.length : Int) + (ignored.length : Int) - (places.length : Int)
  (significand, shift + x.power.getD 0)

/-- The size of a literal as a floating-point number, `none` above the largest one. -/
def size? (x : Literal) : Option Binary64 :=
  let (significand, power) := x.parts
  (Binary64.round significand 1).scale? power

end Literal

end NibbleAsm.Numeral
