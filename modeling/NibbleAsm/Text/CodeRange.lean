/-!
# Ranges of code points

Character classes are lists of inclusive ranges of code points.
-/
namespace NibbleAsm.Text

/-- Whether a character lies in one of the inclusive ranges. -/
def inRanges (ranges : List (Nat × Nat)) (c : Char) : Bool :=
  ranges.any (fun range => decide (range.1 ≤ c.toNat) && decide (c.toNat ≤ range.2))

end NibbleAsm.Text
