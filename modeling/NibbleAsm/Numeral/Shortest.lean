import NibbleAsm.Numeral
import NibbleAsm.Numeral.Binary64

/-!
# Shortest decimals

The text of a floating-point number is the shortest decimal that lies closer to it than to any other
one. It is found by trying one digit, then two, and so on: of each length only the two neighbours of
the number can do. All arithmetic is exact.
-/
namespace NibbleAsm.Numeral

/-- A decimal `significand * 10 ^ exponent`. -/
structure Decimal where
  significand : Nat
  exponent : Int
  deriving DecidableEq

namespace Decimal

/-- Digits with the point after the given number of them, and at least one digit on each side of it.
-/
def positional (ds : List Char) (point : Int) : String :=
  if point ≤ 0 then "0." ++ String.ofList (List.replicate (-point).toNat '0' ++ ds)
  else
    let whole := ds.take point.toNat ++ List.replicate (point.toNat - ds.length) '0'
    let fraction := ds.drop point.toNat
    String.ofList whole ++ "." ++ (if fraction.isEmpty then "0" else String.ofList fraction)

/-- Digits with the point after the first of them, and a signed power of ten. -/
def scientific (ds : List Char) (power : Int) : String :=
  let fraction := ds.drop 1
  String.ofList (ds.take 1) ++ (if fraction.isEmpty then "" else "." ++ String.ofList fraction) ++
    "e" ++ (if 0 ≤ power then "+" else "-") ++ decimal power.natAbs

/-- A decimal from `10 ^ -5` to below `10 ^ 16`, or zero, is written in positional form, any other
one with a power of ten. No form ends in a zero that could be left out. -/
def text (d : Decimal) : String :=
  let ds := digits 10 d.significand
  let point := (ds.length : Int) + d.exponent
  let kept := (ds.reverse.dropWhile (· == 0)).reverse.map digitChar
  if -5 < point ∧ point ≤ 16 then positional kept point else scientific kept (point - 1)

end Decimal

namespace Binary64

/-- Whether the next smaller number is only half as far away as the next larger one. -/
def narrowBelow (x : Binary64) : Bool :=
  decide (x.significand = leastFull) && decide (leastExponent < x.exponent)

/-- The power of ten of the leading digit of a quotient of two positive numbers. -/
def magnitude (numerator denominator : Nat) : Int :=
  if denominator ≤ numerator then ((digits 10 (numerator / denominator)).length : Int) - 1
  else
    let inverse := (digits 10 (denominator / numerator)).length
    if denominator ≤ numerator * Nat.pow 10 (inverse - 1) then 1 - (inverse : Int)
    else -(inverse : Int)

/-- The nearest decimal with the given number of digits, if it reads back as the number. Four
quarters of the last binary place make the bounds of the number whole. -/
def ofLength? (x : Binary64) (length : Nat) : Option Decimal :=
  let place := x.exponent - 2
  let center := 4 * x.significand
  let low := if x.narrowBelow then center - 1 else center - 2
  let high := center + 2
  let twoUp := Nat.pow 2 place.toNat
  let twoDown := Nat.pow 2 (-place).toNat
  let scale := magnitude (center * twoUp) twoDown + 1 - length
  let tenUp := Nat.pow 10 scale.toNat
  let tenDown := Nat.pow 10 (-scale).toNat
  let inside (candidate : Nat) : Bool :=
    let value := candidate * tenUp * twoDown
    let lowest := low * twoUp * tenDown
    let highest := high * twoUp * tenDown
    if x.significand % 2 = 0 then lowest ≤ value && value ≤ highest
    else lowest < value && value < highest
  let numerator := center * twoUp * tenDown
  let denominator := tenUp * twoDown
  let below := numerator / denominator
  let nearest := roundQuotient numerator denominator
  let other := if nearest = below then below + 1 else below
  if inside nearest then some ⟨nearest, scale⟩
  else if inside other then some ⟨other, scale⟩
  else none

/-- The shortest decimal that reads back as the number; at most seventeen digits are needed. -/
def shortest (x : Binary64) : Decimal :=
  if x.significand = 0 then ⟨0, 0⟩
  else ((List.range 17).findSome? (fun n => ofLength? x (n + 1))).getD ⟨x.significand, x.exponent⟩

/-- The number with the fewest digits that read back. -/
def text (x : Binary64) : String :=
  x.shortest.text

end Binary64

end NibbleAsm.Numeral
