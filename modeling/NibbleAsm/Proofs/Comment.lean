import NibbleAsm.Source.Comment
import Mathlib.Data.List.Basic

/-!
# Where comments begin

A comment opens at a `;` or at a `//`. Reading a line from left to right, characters are kept up to
the first place where a comment opens, and whether one opens is decided by two characters at most.
Text behind a marker is therefore never seen, and text in front of a character other than `/` is
kept or cut as if it stood alone.
-/
namespace NibbleAsm.Comment

/-- A comment begins at the first character. -/
def Opens (text : List Char) : Prop :=
  [';'] <+: text ∨ ['/', '/'] <+: text

instance (text : List Char) : Decidable (Opens text) :=
  inferInstanceAs (Decidable (_ ∨ _))

theorem opens_cons_iff {c : Char} {rest : List Char} :
    Opens (c :: rest) ↔ c = ';' ∨ c = '/' ∧ rest.head? = some '/' := by
  cases rest <;> simp [Opens, List.cons_prefix_cons, eq_comm]

theorem slashesFrom_succ (position : ℕ) (line : List Char) :
    slashesFrom (position + 1) line = (slashesFrom position line).map (· + 1) := by
  fun_induction slashesFrom position line with
  | case1 position => rfl
  | case2 position c => rfl
  | case3 position a b rest h => simp [slashesFrom, h]
  | case4 position a b rest h ih => rw [slashesFrom, if_neg h, ih]

theorem slashes?_cons (c : Char) (line : List Char) :
    slashes? (c :: line) =
      if c = '/' ∧ line.head? = some '/' then some 0 else (slashes? line).map (· + 1) := by
  cases line with
  | nil => simp [slashes?, slashesFrom]
  | cons d rest => simp [slashes?, slashesFrom, slashesFrom_succ]

/-- The first marker is at the beginning, or it is the first one of the rest. -/
theorem start?_cons (c : Char) (line : List Char) :
    start? (c :: line) =
      if Opens (c :: line) then some 0 else (start? line).map (· + 1) := by
  have hsemicolon : semicolon? (c :: line) =
      if c = ';' then some 0 else (semicolon? line).map (· + 1) := by
    simp [semicolon?, List.findIdx?_cons]
  simp only [start?, hsemicolon, slashes?_cons, opens_cons_iff]
  by_cases hc : c = ';'
  · cases slashes? line <;> simp [hc]
  · by_cases hslashes : c = '/' ∧ line.head? = some '/'
    · cases semicolon? line <;> simp [hslashes]
    · rw [if_neg hc, if_neg hslashes, if_neg (not_or.mpr ⟨hc, hslashes⟩)]
      cases semicolon? line <;> cases slashes? line <;> simp [Nat.add_min_add_right]

@[simp] theorem strip_nil : strip [] = [] := rfl

theorem strip_cons (c : Char) (line : List Char) :
    strip (c :: line) = if Opens (c :: line) then [] else c :: strip line := by
  rw [strip, start?_cons]
  split_ifs with hopens
  · rfl
  · rw [strip]
    cases start? line <;> rfl

/-- Nothing is kept where a comment opens. -/
theorem strip_of_opens {line : List Char} (h : Opens line) : strip line = [] := by
  cases line with
  | nil => rfl
  | cons c line => rw [strip_cons, if_pos h]

/-- Characters of no marker are kept. -/
theorem strip_append_of_forall {text : List Char} (htext : ∀ c ∈ text, c ≠ ';' ∧ c ≠ '/')
    (line : List Char) : strip (text ++ line) = text ++ strip line := by
  induction text with
  | nil => rfl
  | cons c text ih =>
    obtain ⟨hsemicolon, hslash⟩ := htext c List.mem_cons_self
    have hopens : ¬ Opens (c :: (text ++ line)) := by
      rw [opens_cons_iff]
      rintro (h | ⟨h, -⟩)
      · exact hsemicolon h
      · exact hslash h
    rw [List.cons_append, strip_cons, if_neg hopens, ih (fun d hd => htext d (by simp [hd])),
      List.cons_append]

/-- A marker stands somewhere in the line. -/
def Marked (line : List Char) : Prop :=
  [';'] <:+: line ∨ ['/', '/'] <:+: line

instance (line : List Char) : Decidable (Marked line) :=
  inferInstanceAs (Decidable (_ ∨ _))

theorem marked_cons_iff {c : Char} {line : List Char} :
    Marked (c :: line) ↔ Opens (c :: line) ∨ Marked line := by
  rw [Marked, List.infix_cons_iff, List.infix_cons_iff, or_or_or_comm]
  rfl

/-- Exactly the lines without a marker are kept whole. -/
theorem strip_eq_self_iff {line : List Char} : strip line = line ↔ ¬ Marked line := by
  induction line with
  | nil => simp [Marked]
  | cons c line ih =>
    rw [strip_cons, marked_cons_iff]
    by_cases hopens : Opens (c :: line)
    · simp [hopens]
    · simp [hopens, ih]

/-- No comment opens at a place that is kept. -/
theorem not_opens_drop {line : List Char} {i : ℕ} (h : i < (strip line).length) :
    ¬ Opens (line.drop i) := by
  induction line generalizing i with
  | nil => simp at h
  | cons c line ih =>
    rw [strip_cons] at h
    by_cases hopens : Opens (c :: line)
    · simp [hopens] at h
    · rw [if_neg hopens, List.length_cons] at h
      cases i with
      | zero => exact hopens
      | succ i => exact ih (Nat.lt_of_succ_lt_succ h)

theorem Opens.of_isPrefix {text line : List Char} (h : Opens text) (hfront : text <+: line) :
    Opens line :=
  h.imp (·.trans hfront) (·.trans hfront)

/-- A marker in a part of a line is a marker in the line. -/
theorem Marked.of_isInfix {text line : List Char} (h : Marked text) (hwithin : text <:+: line) :
    Marked line :=
  h.imp (·.trans hwithin) (·.trans hwithin)

/-- No marker is kept. -/
theorem not_marked_strip (line : List Char) : ¬ Marked (strip line) := by
  induction line with
  | nil => simp [Marked]
  | cons c line ih =>
    have hkept := strip_isPrefix (c :: line)
    rw [strip_cons] at hkept ⊢
    by_cases hopens : Opens (c :: line)
    · simp [hopens, Marked]
    · rw [if_neg hopens] at hkept ⊢
      rw [marked_cons_iff]
      rintro (hstart | hrest)
      · exact hopens (hstart.of_isPrefix hkept)
      · exact ih hrest

/-- In front of a character other than `/`, a line is cut where it would be cut by itself. If it is
not cut at all, what follows is stripped on its own. -/
theorem strip_append {rest : List Char} (hrest : rest.head? ≠ some '/') (line : List Char) :
    strip (line ++ rest) = if strip line = line then line ++ strip rest else strip line := by
  induction line with
  | nil => rfl
  | cons c line ih =>
    have hopens : Opens (c :: (line ++ rest)) ↔ Opens (c :: line) := by
      rw [opens_cons_iff, opens_cons_iff]
      cases line with
      | nil => simp [hrest]
      | cons d line => rfl
    rw [List.cons_append, strip_cons, strip_cons]
    by_cases h : Opens (c :: line)
    · simp [hopens, h]
    · simp only [hopens, h, if_false, ih, List.cons.injEq, true_and, List.cons_append]
      split_ifs <;> rfl

/-- A semicolon cuts a line at its end or leaves the cut where it is. -/
theorem strip_append_semicolon (line comment : List Char) :
    strip (line ++ ';' :: comment) = strip line := by
  have hopens : Opens (';' :: comment) := Or.inl (List.prefix_append [';'] comment)
  rw [strip_append (by simp), strip_of_opens hopens, List.append_nil]
  split_ifs with h
  · exact h.symm
  · rfl

/-- One of the two texts with which a comment opens. -/
def IsMarker (marker : List Char) : Prop :=
  marker = [';'] ∨ marker = ['/', '/']

theorem IsMarker.opens_append {marker : List Char} (h : IsMarker marker) (text : List Char) :
    Opens (marker ++ text) := by
  rcases h with rfl | rfl
  · exact Or.inl (List.prefix_append _ _)
  · exact Or.inr (List.prefix_append _ _)

theorem IsMarker.not_mem_newline {marker : List Char} (h : IsMarker marker) : '\n' ∉ marker := by
  rcases h with rfl | rfl <;> decide

/-- What stands behind a marker does not matter, wherever the line is cut. -/
theorem strip_append_marker {marker : List Char} (hmarker : IsMarker marker)
    (line text : List Char) : strip (line ++ marker ++ text) = strip (line ++ marker) := by
  induction line with
  | nil =>
    have hempty := hmarker.opens_append []
    rw [List.append_nil] at hempty
    rw [List.nil_append, strip_of_opens (hmarker.opens_append text), strip_of_opens hempty]
  | cons c line ih =>
    have hne : line ++ marker ≠ [] := by
      rcases hmarker with rfl | rfl <;> simp
    have hopens : Opens (c :: (line ++ marker ++ text)) ↔ Opens (c :: (line ++ marker)) := by
      rw [opens_cons_iff, opens_cons_iff, List.head?_append_of_ne_nil _ hne]
    rw [List.cons_append, List.cons_append, strip_cons, strip_cons, ih, if_congr hopens rfl rfl]

end NibbleAsm.Comment
