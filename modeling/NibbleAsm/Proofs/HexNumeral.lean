import NibbleAsm.Proofs.Encoding
import Mathlib.Data.Nat.Digits.Defs

/-!
# Hexadecimal numerals

A numeral is a run of hexadecimal digits, and its value is the sum of their values times powers of
sixteen. The operand reader refuses every other text, wherever the character stands that is no
digit. A numeral it reads as its value, or as the largest one of 64 bits. Zeros in front and the
case of letters do not change the value, and the limits of operands lie so far below the largest
value that saturation never decides about them.
-/
namespace NibbleAsm

namespace Numeral

/-- One of the digits `0` to `9`, `A` to `F` and `a` to `f`. -/
def IsHexDigit (c : Char) : Prop :=
  ('0' ≤ c ∧ c ≤ '9') ∨ ('A' ≤ c ∧ c ≤ 'F') ∨ ('a' ≤ c ∧ c ≤ 'f')

instance (c : Char) : Decidable (IsHexDigit c) :=
  inferInstanceAs (Decidable (_ ∨ _))

/-- The place of a digit among the sixteen digits, which is the same for both cases. -/
def digitValue (c : Char) : ℕ :=
  "0123456789abcdef".toList.idxOf c.toLower

/-- The value of a text of digits: the last digit counts once, the one before it sixteen times, and
so on. -/
def hexValue (text : String) : ℕ :=
  Nat.ofDigits 16 (text.toList.map digitValue).reverse

/-- A non-empty run of hexadecimal digits. -/
structure IsNumeral (text : String) : Prop where
  nonempty : text ≠ ""
  digits : ∀ c ∈ text.toList, IsHexDigit c

instance (text : String) : Decidable (IsNumeral text) :=
  decidable_of_iff (text ≠ "" ∧ text.toList.all (fun c => decide (IsHexDigit c)) = true)
    ⟨fun h => ⟨h.1, by simpa using h.2⟩, fun h => ⟨h.nonempty, by simpa using h.digits⟩⟩

theorem not_isNumeral_iff {text : String} :
    ¬ IsNumeral text ↔ text = "" ∨ ∃ c ∈ text.toList, ¬ IsHexDigit c := by
  constructor
  · intro h
    by_contra hnot
    push Not at hnot
    exact h ⟨hnot.1, hnot.2⟩
  · rintro (rfl | ⟨c, hc, hdigit⟩) h
    · exact h.nonempty rfl
    · exact hdigit (h.digits c hc)

theorem IsHexDigit.toNat_lt {c : Char} (h : IsHexDigit c) : c.toNat < 103 := by
  rcases h with ⟨-, hle⟩ | ⟨-, hle⟩ | ⟨-, hle⟩
  · exact Nat.lt_of_le_of_lt hle (by decide)
  · exact Nat.lt_of_le_of_lt hle (by decide)
  · exact Nat.lt_of_le_of_lt hle (by decide)

theorem hexDigit?_eq_none_iff {c : Char} : hexDigit? c = none ↔ ¬ IsHexDigit c := by
  unfold hexDigit? IsHexDigit
  split_ifs <;> simp_all

/-- A digit is read as its place. -/
theorem hexDigit?_of_isHexDigit {c : Char} (h : IsHexDigit c) :
    hexDigit? c = some (digitValue c) := by
  have hall : ∀ n < 103, IsHexDigit (Char.ofNat n) →
      hexDigit? (Char.ofNat n) = some (digitValue (Char.ofNat n)) := by decide
  have hc := hall c.toNat h.toNat_lt
  rw [Char.ofNat_toNat] at hc
  exact hc h

/-- A letter in the other case is a digit or is none as before. -/
theorem isHexDigit_toLower_iff {c : Char} : IsHexDigit c.toLower ↔ IsHexDigit c := by
  have hall : ∀ n < 103, IsHexDigit (Char.ofNat n).toLower ↔ IsHexDigit (Char.ofNat n) := by decide
  by_cases hlt : c.toNat < 103
  · have hc := hall c.toNat hlt
    rwa [Char.ofNat_toNat] at hc
  · have hnot : ¬ (c.val ≥ 'A'.val ∧ c.val ≤ 'Z'.val) := by
      rintro ⟨-, hle⟩
      exact hlt (Nat.lt_of_le_of_lt hle (by decide))
    have hlower : c.toLower = c := dif_neg hnot
    rw [hlower]

theorem mapM_hexDigit?_of_forall {cs : List Char} (h : ∀ c ∈ cs, IsHexDigit c) :
    cs.mapM hexDigit? = some (cs.map digitValue) := by
  induction cs with
  | nil => rfl
  | cons c cs ih =>
    have hrest := ih (fun d hd => h d (List.mem_cons_of_mem c hd))
    simp [hexDigit?_of_isHexDigit (h c List.mem_cons_self), hrest]

/-- One character that is no digit is enough, wherever it stands. -/
theorem mapM_hexDigit?_of_mem {cs : List Char} {c : Char} (hc : c ∈ cs) (h : ¬ IsHexDigit c) :
    cs.mapM hexDigit? = none := by
  induction cs with
  | nil => cases hc
  | cons d cs ih =>
    rcases List.mem_cons.mp hc with rfl | hmem
    · simp [hexDigit?_eq_none_iff.mpr h]
    · simp [ih hmem]

theorem value_eq_ofDigits (ds : List ℕ) : value 16 ds = Nat.ofDigits 16 ds.reverse := by
  rw [value, Nat.ofDigits_eq_foldr, List.foldr_reverse]
  simp [Nat.add_comm, Nat.mul_comm]

theorem exactHex?_of_isNumeral {text : String} (h : IsNumeral text) :
    exactHex? text = some (hexValue text) := by
  have hne : text.toList ≠ [] := by simpa using h.nonempty
  rw [exactHex?]
  split
  · rename_i hnil
    exact absurd hnil hne
  · rw [mapM_hexDigit?_of_forall h.digits, Option.map_some, value_eq_ofDigits, hexValue]

theorem exactHex?_of_not_isNumeral {text : String} (h : ¬ IsNumeral text) :
    exactHex? text = none := by
  rcases not_isNumeral_iff.mp h with rfl | ⟨c, hc, hdigit⟩
  · rfl
  · rw [exactHex?]
    split
    · rfl
    · rw [mapM_hexDigit?_of_mem hc hdigit, Option.map_none]

theorem readHex?_of_isNumeral {text : String} (h : IsNumeral text) :
    readHex? text = some (min (hexValue text) (2 ^ 64 - 1)) := by
  rw [readHex?_of_exactHex?_some (exactHex?_of_isNumeral h), Nat.min_comm]
  rfl

theorem readHex?_eq_none_iff {text : String} : readHex? text = none ↔ ¬ IsNumeral text := by
  constructor
  · intro h hnumeral
    rw [readHex?_of_isNumeral hnumeral] at h
    cases h
  · intro h
    exact readHex?_of_exactHex?_none (exactHex?_of_not_isNumeral h)

/-- What is read depends on the value alone. -/
theorem readHex?_congr {text other : String} (hnumeral : IsNumeral other ↔ IsNumeral text)
    (hvalue : hexValue other = hexValue text) : readHex? other = readHex? text := by
  by_cases h : IsNumeral text
  · rw [readHex?_of_isNumeral (hnumeral.mpr h), readHex?_of_isNumeral h, hvalue]
  · rw [readHex?_eq_none_iff.mpr h, readHex?_eq_none_iff, hnumeral]
    exact h

/-- Zeros in front do not count, unless they are all there is. -/
theorem readHex?_zeros_append {text : String} (h : text ≠ "") (count : ℕ) :
    readHex? (String.ofList (List.replicate count '0') ++ text) = readHex? text := by
  have hzero : IsHexDigit '0' := by decide
  apply readHex?_congr
  · constructor
    · intro hall
      exact ⟨h, fun c hc => hall.digits c (by simp [hc])⟩
    · intro hnumeral
      refine ⟨by simp [h], ?_⟩
      intro c hc
      rw [String.toList_append, String.toList_ofList] at hc
      rcases List.mem_append.mp hc with hfront | hown
      · rwa [List.eq_of_mem_replicate hfront]
      · exact hnumeral.digits c hown
  · have hvalue : digitValue '0' = 0 := by decide
    simp [hexValue, hvalue, Nat.ofDigits_append_replicate_zero]

/-- Letters count the same in both cases. -/
theorem readHex?_congr_toLower {text other : String}
    (h : other.toList.map Char.toLower = text.toList.map Char.toLower) :
    readHex? other = readHex? text := by
  have hlower : ∀ s : String, IsNumeral s ↔
      s.toList.map Char.toLower ≠ [] ∧ ∀ c ∈ s.toList.map Char.toLower, IsHexDigit c := by
    intro s
    simp only [List.forall_mem_map, isHexDigit_toLower_iff, ne_eq, List.map_eq_nil_iff,
      String.toList_eq_nil_iff]
    exact ⟨fun hs => ⟨hs.nonempty, hs.digits⟩, fun hs => ⟨hs.1, hs.2⟩⟩
  have hplaces : ∀ s : String, s.toList.map digitValue =
      (s.toList.map Char.toLower).map "0123456789abcdef".toList.idxOf := by
    intro s
    rw [List.map_map]
    rfl
  apply readHex?_congr
  · rw [hlower, hlower, h]
  · rw [hexValue, hexValue, hplaces, hplaces, h]

end Numeral

namespace Operand

open Numeral

theorem exists_readImmediate_iff {text : String} (h : IsNumeral text) :
    (∃ operand, readImmediate text = .ok operand) ↔ hexValue text ≤ 15 := by
  have reads := exactHex?_of_isNumeral h
  constructor
  · rintro ⟨operand, hread⟩
    by_contra habove
    rw [readImmediate_of_lt reads (Nat.lt_of_not_le habove)] at hread
    cases hread
  · intro hle
    exact ⟨_, readImmediate_of_le reads hle⟩

theorem exists_readJump_iff {text : String} (h : IsNumeral text) (labels : LabelTable) :
    (∃ operand, readJump labels text = .ok operand) ↔ hexValue text ≤ 0x4F := by
  have reads := exactHex?_of_isNumeral h
  constructor
  · rintro ⟨operand, hread⟩
    by_contra habove
    rw [readJump_number_of_lt labels reads (Nat.lt_of_not_le habove)] at hread
    cases hread
  · intro hle
    exact ⟨_, readJump_number labels reads hle⟩

end Operand

namespace Numeral

/-- An operand is read as its exact value, saturated once, or refused for a character that is no
digit. Zeros in front and the case of letters do not matter, and the limits of operands hold of the
value read exactly if they hold of the exact one. -/
theorem readHex?_saturates_value (text : String) :
    (readHex? text = none ↔ text = "" ∨ ∃ c ∈ text.toList, ¬ IsHexDigit c) ∧
    (text ≠ "" → (∀ c ∈ text.toList, IsHexDigit c) →
      readHex? text = some (min (hexValue text) (2 ^ 64 - 1)) ∧
      (∀ value, readHex? text = some value →
        (value ≤ 15 ↔ hexValue text ≤ 15) ∧ (value ≤ 0x4F ↔ hexValue text ≤ 0x4F)) ∧
      ((∃ operand, Operand.readImmediate text = .ok operand) ↔ hexValue text ≤ 15) ∧
      ∀ labels, (∃ operand, Operand.readJump labels text = .ok operand) ↔
        hexValue text ≤ 0x4F) ∧
    (text ≠ "" → ∀ count : ℕ,
      readHex? (String.ofList (List.replicate count '0') ++ text) = readHex? text) ∧
    ∀ other : String, other.toList.map Char.toLower = text.toList.map Char.toLower →
      readHex? other = readHex? text := by
  refine ⟨readHex?_eq_none_iff.trans not_isNumeral_iff, ?_, readHex?_zeros_append,
    fun _ => readHex?_congr_toLower⟩
  intro nonempty digits
  have hnumeral : IsNumeral text := ⟨nonempty, digits⟩
  have hread := readHex?_of_isNumeral hnumeral
  refine ⟨hread, ?_, Operand.exists_readImmediate_iff hnumeral,
    Operand.exists_readJump_iff hnumeral⟩
  intro value hvalue
  obtain rfl := Option.some.inj (hread.symm.trans hvalue)
  omega

/-- The last sixteen digits alone would denote fifteen. The numeral is too large in each spelling,
and one letter too many makes it no numeral. -/
theorem readHex?_saturates_overlong :
    readHex? "1000000000000000f" = some (2 ^ 64 - 1) ∧
    (¬ ∃ operand, Operand.readImmediate "1000000000000000f" = .ok operand) ∧
    readHex? "001000000000000000f" = readHex? "1000000000000000f" ∧
    readHex? "1000000000000000F" = readHex? "1000000000000000f" ∧
    readHex? "1000000000000000fg" = none := by
  have hdigits : IsNumeral "1000000000000000f" := by decide
  obtain ⟨-, hnumeral, hzeros, hcase⟩ := readHex?_saturates_value "1000000000000000f"
  obtain ⟨hnone, -⟩ := readHex?_saturates_value "1000000000000000fg"
  have hvalue : hexValue "1000000000000000f" = 2 ^ 64 + 15 := by decide +kernel
  obtain ⟨hread, -, hreads, -⟩ := hnumeral hdigits.nonempty hdigits.digits
  rw [hvalue] at hread hreads
  refine ⟨hread, by rw [hreads]; decide, hzeros hdigits.nonempty 2, hcase _ (by decide), ?_⟩
  exact hnone.mpr (Or.inr ⟨'g', by decide, by decide⟩)

end Numeral

end NibbleAsm
