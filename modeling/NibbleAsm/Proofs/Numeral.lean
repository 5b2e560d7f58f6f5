import NibbleAsm.Nibble
import Mathlib.Data.List.Basic

/-!
# Saturating numerals

Reading an operand saturates at every digit. Saturating once, at the end, gives the same value, so
the reader agrees with the exact value wherever an instruction compares it with a smaller limit.
Written numbers have their value, whatever their width.
-/
namespace NibbleAsm.Numeral

/-- Appending a digit to a saturated value saturates like appending it to the exact one. -/
lemma pushSaturating_min (total d : ℕ) :
    pushSaturating (min limit total) d = min limit (total * 16 + d) := by
  unfold pushSaturating limit
  omega

lemma foldlM_pushSaturating (cs : List Char) (total : ℕ) :
    cs.foldlM (fun total c => (hexDigit? c).map (pushSaturating total)) (min limit total) =
      (cs.mapM hexDigit?).map
        (fun ds => min limit (ds.foldl (fun total d => total * 16 + d) total)) := by
  induction cs generalizing total with
  | nil => simp
  | cons c cs ih =>
    cases hc : hexDigit? c with
    | none => simp [hc]
    | some d =>
      simp only [List.foldlM_cons, List.mapM_cons, hc, Option.map_some, Option.bind_eq_bind,
        Option.bind_some, pushSaturating_min, ih]
      cases cs.mapM hexDigit? <;> simp

/-- The operand reader saturates the exact value, once. -/
theorem readHex?_eq_map_exactHex? (text : String) :
    readHex? text = (exactHex? text).map (min limit) := by
  unfold readHex? exactHex?
  cases text.toList with
  | nil => rfl
  | cons c cs =>
    have h := foldlM_pushSaturating (c :: cs) 0
    simpa [value, Function.comp_def] using h

theorem readHex?_of_exactHex?_none {text : String} (reads : exactHex? text = none) :
    readHex? text = none := by
  rw [readHex?_eq_map_exactHex?, reads, Option.map_none]

theorem readHex?_of_exactHex?_some {text : String} {n : ℕ} (reads : exactHex? text = some n) :
    readHex? text = some (min limit n) := by
  rw [readHex?_eq_map_exactHex?, reads, Option.map_some]

theorem hexDigit?_digitChar {d : ℕ} (h : d < 16) : hexDigit? (digitChar d) = some d :=
  Nibble.hexDigit?_digit ⟨d, h⟩

theorem mapM_hexDigit?_map_digitChar {ds : List ℕ} (h : ∀ d ∈ ds, d < 16) :
    (ds.map digitChar).mapM hexDigit? = some ds := by
  induction ds with
  | nil => rfl
  | cons d ds ih =>
    have hrest := ih (fun e he => h e (List.mem_cons_of_mem d he))
    simp [hexDigit?_digitChar (h d List.mem_cons_self), hrest]

/-- Zeros in front do not count. -/
theorem value_replicate_zero_append (base width : ℕ) (ds : List ℕ) :
    value base (List.replicate width 0 ++ ds) = value base ds := by
  induction width with
  | zero => rfl
  | succ width ih =>
    rw [List.replicate_succ, List.cons_append]
    simpa [value] using ih

theorem digits_ne_nil (base n : ℕ) : digits base n ≠ [] := by
  rw [digits]
  split <;> simp

/-- The digits of a written number, zeros in front included. -/
def paddedDigits (width n : ℕ) : List ℕ :=
  List.replicate (width - (digits 16 n).length) 0 ++ digits 16 n

theorem lt_of_mem_paddedDigits {width n d : ℕ} (h : d ∈ paddedDigits width n) : d < 16 := by
  rcases List.mem_append.mp h with hzero | hdigit
  · rw [List.eq_of_mem_replicate hzero]
    decide
  · exact digits_lt (by decide) hdigit

theorem toList_hexAtLeast (width n : ℕ) :
    (hexAtLeast width n).toList = (paddedDigits width n).map digitChar := by
  simp only [hexAtLeast, paddedDigits, String.toList_ofList, List.length_map, List.map_append,
    List.map_replicate]
  rfl

theorem paddedDigits_ne_nil (width n : ℕ) : paddedDigits width n ≠ [] := by
  simp [paddedDigits, digits_ne_nil]

/-- A written number reads as itself. -/
theorem exactHex?_hexAtLeast (width n : ℕ) : exactHex? (hexAtLeast width n) = some n := by
  have hdigits : ∀ d ∈ paddedDigits width n, d < 16 := fun d => lt_of_mem_paddedDigits
  have hvalue : value 16 (paddedDigits width n) = n := by
    rw [paddedDigits, value_replicate_zero_append, value_digits]
  rw [exactHex?, toList_hexAtLeast]
  split
  · rename_i hnil
    exact absurd (List.map_eq_nil_iff.mp hnil) (paddedDigits_ne_nil width n)
  · rw [mapM_hexDigit?_map_digitChar hdigits, Option.map_some, hvalue]

/-- The number that decimal digits denote. -/
def ofDecimal (cs : List Char) : ℕ :=
  value 10 (cs.map (fun c => c.toNat - 48))

theorem toNat_digitChar {d : ℕ} (h : d < 10) : (digitChar d).toNat - 48 = d := by
  have hall : ∀ d : Fin 10, (digitChar d.val).toNat - 48 = d.val := by decide
  exact hall ⟨d, h⟩

theorem isDigit_digitChar {d : ℕ} (h : d < 10) : (digitChar d).isDigit = true := by
  have hall : ∀ d : Fin 10, (digitChar d.val).isDigit = true := by decide
  exact hall ⟨d, h⟩

theorem toList_decimal (n : ℕ) : (decimal n).toList = (digits 10 n).map digitChar :=
  String.toList_ofList

theorem toList_decimal_ne_nil (n : ℕ) : (decimal n).toList ≠ [] := by
  simpa [toList_decimal] using digits_ne_nil 10 n

theorem isDigit_of_mem_decimal {n : ℕ} {c : Char} (h : c ∈ (decimal n).toList) :
    c.isDigit = true := by
  rw [toList_decimal] at h
  obtain ⟨d, hd, rfl⟩ := List.mem_map.mp h
  exact isDigit_digitChar (digits_lt (by decide) hd)

/-- Decimal text denotes the number it was written for. -/
theorem ofDecimal_decimal (n : ℕ) : ofDecimal (decimal n).toList = n := by
  have hdigits : (digits 10 n).map (fun d => (digitChar d).toNat - 48) = (digits 10 n).map id := by
    apply List.map_congr_left
    intro d hd
    exact toNat_digitChar (digits_lt (by decide) hd)
  rw [List.map_id] at hdigits
  rw [ofDecimal, toList_decimal, List.map_map]
  exact (congrArg (value 10) hdigits).trans (value_digits 10 n)

theorem decimal_injective : Function.Injective decimal := by
  intro m n h
  rw [← ofDecimal_decimal m, h, ofDecimal_decimal]

end NibbleAsm.Numeral
