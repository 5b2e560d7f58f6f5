import NibbleAsm.Text.Utf8
import Mathlib.Algebra.Ring.Nat
import Mathlib.Data.List.Basic

/-!
# The order of UTF-8 bytes

A character is encoded by its digits to the base sixty-four, most significant first, and its first
byte also shows how many follow. A character with more bytes begins with a larger one, and among
characters with equally many bytes the digits decide. So the encodings of two characters differ at a
byte of both, and texts are ordered by their bytes as they are by their characters.
-/
namespace NibbleAsm.Utf8

open String (utf8EncodeChar)

/-- The number of bytes that follow the first byte of a code point. -/
def following (v : ℕ) : ℕ :=
  if v ≤ 0x7F then 0 else if v ≤ 0x7FF then 1 else if v ≤ 0xFFFF then 2 else 3

/-- The first byte of a code point: the digits in front of those that follow, and a mark for their
number. -/
def leading (v : ℕ) : ℕ :=
  v / 64 ^ following v +
    if v ≤ 0x7F then 0 else if v ≤ 0x7FF then 0xC0 else if v ≤ 0xFFFF then 0xE0 else 0xF0

/-- The last digits of a code point, a byte for each. -/
def trailing : ℕ → ℕ → List UInt8
  | 0, _ => []
  | count + 1, v => UInt8.ofNat (v / 64 ^ count % 64 + 0x80) :: trailing count v

theorem toNat_val_lt (c : Char) : c.val.toNat < 0x110000 := by
  rcases c.valid with h | h <;> omega

theorem encodeChar_eq_cons (c : Char) :
    utf8EncodeChar c =
      UInt8.ofNat (leading c.val.toNat) :: trailing (following c.val.toNat) c.val.toNat := by
  have hmax := toNat_val_lt c
  generalize hv : c.val.toNat = v at hmax
  rw [utf8EncodeChar, hv, leading, following]
  -- Each bound leaves the first digits below the mask that is put on them.
  split_ifs
  · simp [trailing]
  · have hdigits : v / 64 < 32 := by omega
    simp [trailing, Nat.mod_eq_of_lt hdigits]
  · have hdigits : v / 4096 < 16 := by omega
    simp [trailing, Nat.mod_eq_of_lt hdigits]
  · have hdigits : v / 262144 < 8 := by omega
    simp [trailing, Nat.mod_eq_of_lt hdigits]

theorem leading_lt (c : Char) : leading c.val.toNat < UInt8.size := by
  have hmax := toNat_val_lt c
  generalize c.val.toNat = v at hmax
  unfold leading following UInt8.size
  split_ifs <;> omega

/-- A larger code point has a larger first byte, or the same one with as many bytes behind it. -/
theorem leading_lt_or_eq {v w : ℕ} (h : v < w) :
    leading v < leading w ∨ leading v = leading w ∧ following v = following w ∧
      v / 64 ^ following v = w / 64 ^ following w := by
  unfold leading following
  split_ifs <;> omega

/-- Digits in front of which two code points agree decide about their order. -/
theorem trailing_append_lt {count v w : ℕ} (h : v < w) (hsame : v / 64 ^ count = w / 64 ^ count)
    (rest rest' : List UInt8) : trailing count v ++ rest < trailing count w ++ rest' := by
  induction count with
  | zero =>
    rw [Nat.pow_zero, Nat.div_one, Nat.div_one] at hsame
    omega
  | succ count ih =>
    rw [trailing, trailing, List.cons_append, List.cons_append, List.cons_lt_cons_iff]
    by_cases heq : v / 64 ^ count = w / 64 ^ count
    · exact Or.inr ⟨by rw [heq], ih heq⟩
    · have hle : v / 64 ^ count ≤ w / 64 ^ count := Nat.div_le_div_right (Nat.le_of_lt h)
      rw [Nat.pow_succ, ← Nat.div_div_eq_div_mul, ← Nat.div_div_eq_div_mul] at hsame
      refine Or.inl ((UInt8.ofNat_lt_iff_lt ?_ ?_).mpr ?_)
      · rw [UInt8.size]
        omega
      · rw [UInt8.size]
        omega
      · omega

/-- The encodings of two characters differ at a byte of both, whatever follows them. -/
theorem encodeChar_append_lt {c d : Char} (h : c < d) (rest rest' : List UInt8) :
    utf8EncodeChar c ++ rest < utf8EncodeChar d ++ rest' := by
  have hval : c.val.toNat < d.val.toNat := h
  rw [encodeChar_eq_cons, encodeChar_eq_cons, List.cons_append, List.cons_append,
    List.cons_lt_cons_iff, UInt8.ofNat_lt_iff_lt (leading_lt c) (leading_lt d)]
  rcases leading_lt_or_eq hval with hlt | ⟨hlead, hcount, hsame⟩
  · exact Or.inl hlt
  · rw [hcount] at hsame ⊢
    exact Or.inr ⟨by rw [hlead], trailing_append_lt hval hsame rest rest'⟩

theorem encode_eq_flatMap (text : String) : encode text = text.toList.flatMap utf8EncodeChar := by
  have h : text.toUTF8 = text.toList.utf8Encode := (String.utf8Encode_toList).symm
  rw [encode, h, List.utf8Encode]
  simp

theorem flatMap_encodeChar_lt {cs ds : List Char} (h : cs < ds) :
    cs.flatMap utf8EncodeChar < ds.flatMap utf8EncodeChar := by
  induction cs generalizing ds with
  | nil =>
    cases ds with
    | nil => exact absurd h (List.lt_irrefl _)
    | cons d ds =>
      rw [List.flatMap_cons, encodeChar_eq_cons]
      exact List.nil_lt_cons _ _
  | cons c cs ih =>
    cases ds with
    | nil => exact absurd h (List.not_lt_nil _)
    | cons d ds =>
      rw [List.flatMap_cons, List.flatMap_cons]
      rcases List.cons_lt_cons_iff.mp h with hlt | ⟨rfl, hrest⟩
      · exact encodeChar_append_lt hlt _ _
      · exact List.append_left_lt (ih hrest)

/-- Texts are ordered as their bytes are. -/
theorem encode_lt_encode_iff {first second : String} :
    encode first < encode second ↔ first < second := by
  have hmono : ∀ {a b : String}, a < b → encode a < encode b := by
    intro a b h
    rw [encode_eq_flatMap, encode_eq_flatMap]
    exact flatMap_encodeChar_lt (String.lt_iff.mp h)
  refine ⟨?_, hmono⟩
  intro h
  by_contra hnot
  by_cases hlt : second < first
  · exact List.lt_asymm h (hmono hlt)
  · obtain rfl := String.le_antisymm (String.not_lt.mp hlt) (String.not_lt.mp hnot)
    exact List.lt_irrefl _ h

end NibbleAsm.Utf8
