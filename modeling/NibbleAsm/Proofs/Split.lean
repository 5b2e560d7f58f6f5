import NibbleAsm.Text.Split
import Mathlib.Data.List.Basic

/-!
# Pieces of a list

A cut ends one list of pieces and begins another. Without a cut between them, the last piece of one
list goes on into the first piece of the next. Pieces that hold no cut are found again when they are
joined by one.
-/
namespace NibbleAsm.Text

variable {α : Type} {cut : α → Bool}

/-- Cutting is the splitting of the standard library. -/
theorem splitWhere_eq_splitOnP (cut : α → Bool) (xs : List α) :
    splitWhere cut xs = xs.splitOnP cut := by
  induction xs with
  | nil => rfl
  | cons a xs ih =>
    obtain ⟨piece, pieces, hpieces⟩ := List.exists_cons_of_ne_nil (List.splitOnP_ne_nil cut xs)
    rw [splitWhere_cons, List.splitOnP_cons_eq_if_modifyHead, ih, hpieces]
    split_ifs <;> rfl

theorem length_extendFirst {a : α} {pieces : List (List α)} (h : pieces ≠ []) :
    (extendFirst a pieces).length = pieces.length := by
  cases pieces with
  | nil => exact absurd rfl h
  | cons piece pieces => rfl

/-- There is one piece more than there are cuts. -/
theorem length_splitWhere (cut : α → Bool) (xs : List α) :
    (splitWhere cut xs).length = xs.countP cut + 1 := by
  induction xs with
  | nil => rfl
  | cons a xs ih =>
    rw [splitWhere_cons, List.countP_cons]
    split_ifs
    · rw [List.length_cons, ih]
    · rw [length_extendFirst (splitWhere_ne_nil cut xs), ih]

/-- Elements that are no cuts stay in front of the first piece. -/
theorem splitWhere_append_of_forall {xs : List α} (hxs : ∀ a ∈ xs, cut a = false)
    {ys piece : List α} {pieces : List (List α)} (hys : splitWhere cut ys = piece :: pieces) :
    splitWhere cut (xs ++ ys) = (xs ++ piece) :: pieces := by
  induction xs with
  | nil => exact hys
  | cons a xs ih =>
    have ha : cut a = false := hxs a (by simp)
    have hrest := ih (fun b hb => hxs b (by simp [hb]))
    simp [splitWhere_cons, ha, hrest, extendFirst]

/-- A cut ends one list of pieces and begins another. -/
theorem splitWhere_append_cons {a : α} (ha : cut a = true) (xs ys : List α) :
    splitWhere cut (xs ++ a :: ys) = splitWhere cut xs ++ splitWhere cut ys := by
  simp only [splitWhere_eq_splitOnP]
  exact List.splitOnP_append_cons xs ys ha

/-- The last piece of a list goes on into what follows. -/
theorem exists_last_piece (cut : α → Bool) (xs : List α) :
    ∃ earlier last, splitWhere cut xs = earlier ++ [last] ∧
      ∀ {ys first : List α} {later : List (List α)}, splitWhere cut ys = first :: later →
        splitWhere cut (xs ++ ys) = earlier ++ (last ++ first) :: later := by
  induction xs with
  | nil => exact ⟨[], [], rfl, fun hys => hys⟩
  | cons a xs ih =>
    obtain ⟨earlier, last, hxs, happend⟩ := ih
    by_cases ha : cut a = true
    · refine ⟨[] :: earlier, last, by simp [splitWhere_cons, ha, hxs], ?_⟩
      intro ys first later hys
      simp [splitWhere_cons, ha, happend hys]
    · cases earlier with
      | nil =>
        refine ⟨[], a :: last, by simp [splitWhere_cons, ha, hxs, extendFirst], ?_⟩
        intro ys first later hys
        simp [splitWhere_cons, ha, happend hys, extendFirst]
      | cons piece earlier =>
        refine ⟨(a :: piece) :: earlier, last, by simp [splitWhere_cons, ha, hxs, extendFirst], ?_⟩
        intro ys first later hys
        simp [splitWhere_cons, ha, happend hys, extendFirst]

/-- Pieces joined by a cut are the pieces again. -/
theorem splitWhere_intercalate {a : α} (ha : cut a = true) {pieces : List (List α)}
    (hpieces : ∀ piece ∈ pieces, ∀ b ∈ piece, cut b = false) (hne : pieces ≠ []) :
    splitWhere cut ([a].intercalate pieces) = pieces := by
  induction pieces with
  | nil => exact absurd rfl hne
  | cons piece pieces ih =>
    have hpiece : splitWhere cut piece = [piece] := by
      rw [splitWhere_eq_splitOnP, List.splitOnP_eq_singleton]
      intro b hb
      simp [hpieces piece List.mem_cons_self b hb]
    cases pieces with
    | nil => rw [List.intercalate_singleton, hpiece]
    | cons second others =>
      have hrest := ih (fun p hp => hpieces p (List.mem_cons_of_mem piece hp))
        (List.cons_ne_nil second others)
      rw [List.intercalate_cons_cons, List.append_assoc, List.singleton_append,
        splitWhere_append_cons ha, hpiece, hrest, List.singleton_append]

end NibbleAsm.Text
