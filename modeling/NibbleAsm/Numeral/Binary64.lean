/-!
# Binary floating-point numbers

A number of the 64-bit format is a significand of at most 53 binary digits times a power of two.
Products and quotients are computed exactly and rounded once: to the nearest number of the format,
and halfway between two of them to the one with the even significand.
-/
namespace NibbleAsm.Numeral

/-- A number `significand * 2 ^ exponent` that is not negative. -/
structure Binary64 where
  significand : Nat
  exponent : Int
  deriving DecidableEq

/-- A quotient rounded to a whole number, a half to the even neighbour. -/
def roundQuotient (numerator denominator : Nat) : Nat :=
  let below := numerator / denominator
  let rest := 2 * (numerator % denominator)
  if rest < denominator ∨ (rest = denominator ∧ below % 2 = 0) then below else below + 1

namespace Binary64

/-- The least significand of 53 binary digits. -/
def leastFull : Nat := 0x10000000000000

/-- The power of two of the smallest numbers. Their significands may have fewer digits. -/
def leastExponent : Int := -1074

/-- The power of two of the largest numbers. -/
def greatestExponent : Int := 971

/-- The greatest power of two that is at most the quotient of two positive numbers. -/
def leadingPlace (numerator denominator : Nat) : Int :=
  let estimate := (Nat.log2 numerator : Int) - (Nat.log2 denominator : Int)
  if denominator * Nat.pow 2 estimate.toNat ≤ numerator * Nat.pow 2 (-estimate).toNat then estimate
  else estimate - 1

/-- The number nearest to a quotient. The power of two is not limited from above. -/
def round (numerator denominator : Nat) : Binary64 :=
  let wanted := leadingPlace numerator denominator - 52
  let exponent := if wanted < leastExponent then leastExponent else wanted
  let significand := roundQuotient (numerator * Nat.pow 2 (-exponent).toNat)
    (denominator * Nat.pow 2 exponent.toNat)
  if significand = 0 then ⟨0, leastExponent⟩
  else if significand = 2 * leastFull then ⟨leastFull, exponent + 1⟩
  else ⟨significand, exponent⟩

/-- The number as a fraction: its numerator. -/
def numerator (x : Binary64) : Nat :=
  x.significand * Nat.pow 2 x.exponent.toNat

/-- The number as a fraction: its denominator. -/
def denominator (x : Binary64) : Nat :=
  Nat.pow 2 (-x.exponent).toNat

def mul (x y : Binary64) : Binary64 :=
  round (x.numerator * y.numerator) (x.denominator * y.denominator)

def div (x y : Binary64) : Binary64 :=
  round (x.numerator * y.denominator) (x.denominator * y.numerator)

/-- The number nearest to a power of ten. -/
def powerOfTen (n : Nat) : Binary64 :=
  round (Nat.pow 10 n) 1

/-- The greatest power of ten in the format. -/
def greatestPower : Nat := 308

/-- The number times a power of ten, `none` above the largest number. It is multiplied or divided by
that power in the format; a power below `10 ^ -308` takes several divisions. -/
def scale? (x : Binary64) (power : Int) : Option Binary64 :=
  if power.natAbs ≤ greatestPower then
    if 0 ≤ power then
      let product := x.mul (powerOfTen power.natAbs)
      if product.exponent ≤ greatestExponent then some product else none
    else some (x.div (powerOfTen power.natAbs))
  else if x.significand = 0 then some x
  else if 0 ≤ power then none
  else scale? (x.div (powerOfTen greatestPower)) (power + greatestPower)
termination_by power.natAbs
decreasing_by
  simp only [greatestPower] at *
  omega

end Binary64

end NibbleAsm.Numeral
