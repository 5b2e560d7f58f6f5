/-!
# Splitting at single elements

`splitWhere` cuts a list at every element that satisfies a test. The pieces keep their order, none
contains such an element, and there is one piece more than there are cuts.
-/
namespace NibbleAsm.Text

/-- Put an element that is no cut in front of the first piece. -/
def extendFirst {α : Type} (a : α) : List (List α) → List (List α)
  | [] => [[a]]
  | piece :: pieces => (a :: piece) :: pieces

/-- The pieces of a list between the elements that satisfy `cut`. -/
def splitWhere {α : Type} (cut : α → Bool) (xs : List α) : List (List α) :=
  xs.foldr (fun a pieces => if cut a then [] :: pieces else extendFirst a pieces) [[]]

@[simp] theorem splitWhere_nil {α : Type} (cut : α → Bool) : splitWhere cut [] = [[]] := rfl

theorem splitWhere_cons {α : Type} (cut : α → Bool) (a : α) (xs : List α) :
    splitWhere cut (a :: xs) =
      if cut a then [] :: splitWhere cut xs else extendFirst a (splitWhere cut xs) := rfl

/-- There is always a first piece. -/
theorem splitWhere_ne_nil {α : Type} (cut : α → Bool) (xs : List α) : splitWhere cut xs ≠ [] := by
  cases xs with
  | nil => simp
  | cons a xs =>
    rw [splitWhere_cons]
    split
    · simp
    · cases splitWhere cut xs <;> simp [extendFirst]

theorem mem_extendFirst {α : Type} {a b : α} {piece : List α} {pieces : List (List α)}
    (hpiece : piece ∈ extendFirst a pieces) (hb : b ∈ piece) :
    b = a ∨ ∃ p ∈ pieces, b ∈ p := by
  cases pieces with
  | nil =>
    simp only [extendFirst, List.mem_singleton] at hpiece
    subst hpiece
    exact Or.inl (List.mem_singleton.mp hb)
  | cons p pieces =>
    simp only [extendFirst, List.mem_cons] at hpiece
    rcases hpiece with rfl | hmem
    · rcases List.mem_cons.mp hb with rfl | hb
      · exact Or.inl rfl
      · exact Or.inr ⟨p, by simp, hb⟩
    · exact Or.inr ⟨piece, by simp [hmem], hb⟩

/-- No piece contains a cut. -/
theorem cut_eq_false_of_mem_splitWhere {α : Type} {cut : α → Bool} {xs piece : List α} {b : α}
    (hpiece : piece ∈ splitWhere cut xs) (hb : b ∈ piece) : cut b = false := by
  induction xs generalizing piece with
  | nil =>
    rw [splitWhere_nil, List.mem_singleton] at hpiece
    simp [hpiece] at hb
  | cons a xs ih =>
    rw [splitWhere_cons] at hpiece
    split at hpiece
    · rcases List.mem_cons.mp hpiece with rfl | hmem
      · simp at hb
      · exact ih hmem hb
    · rename_i ha
      rcases mem_extendFirst hpiece hb with rfl | ⟨p, hp, hbp⟩
      · simpa using ha
      · exact ih hp hbp

end NibbleAsm.Text
