import NibbleAsm.Nibble

/-!
# Jump addresses

A jump address takes two units, a quotient and a remainder by fifteen. The low unit of a split
address is therefore never fifteen, and the largest address is 239. A target written as a number has
the smaller limit 0x4F.
-/
namespace NibbleAsm.JumpAddress

/-- The divisor that splits an address into two units. -/
def radix : Nat := 15

/-- The largest target that may be written as a number. -/
def immediateMax : Nat := 0x4F

/-- The largest address whose quotient fits in one unit. -/
def max : Nat := 15 * radix + (radix - 1)

/-- The two units of a jump address. -/
structure Units where
  high : Nibble
  low : Nibble
  deriving DecidableEq

/-- An address refused because its quotient needs more than one unit. -/
structure TooLarge where
  address : Nat
  deriving DecidableEq

def TooLarge.message (refused : TooLarge) : String :=
  "jump address " ++ Numeral.decimal refused.address ++ " exceeds encodable maximum " ++
    Numeral.decimal max

/-- The units of an address, or the refused address. -/
def split (address : Nat) : Except TooLarge Units :=
  if max < address then .error ⟨address⟩
  else .ok ⟨Nibble.truncate (address / radix), Nibble.truncate (address % radix)⟩

/-- The address of two units. -/
def join (units : Units) : Nat :=
  units.high.val * radix + units.low.val

theorem split_eq_ok_iff {address : Nat} {units : Units} :
    split address = .ok units ↔ join units = address ∧ units.low.val < radix := by
  obtain ⟨⟨high, hhigh⟩, ⟨low, hlow⟩⟩ := units
  by_cases h : max < address
  · simp only [split, if_pos h, join, reduceCtorEq, false_iff, not_and]
    simp only [max, radix] at *
    omega
  · simp only [split, if_neg h, Except.ok.injEq, Units.mk.injEq, Nibble.truncate, Fin.mk.injEq,
      join]
    simp only [max, radix] at *
    omega

end NibbleAsm.JumpAddress
