import NibbleAsm.Proofs.LineWords
import NibbleAsm.Text.Column

/-!
# Printed lines

Lines that hold neither a line feed nor a carriage return are read back, whether line feeds stand
between them or behind each of them. Within a line, a field without separators ends at the first
blank.
-/
namespace NibbleAsm

namespace Text

/-- The text holds no character that can end a line. -/
def Inline (text : String) : Prop :=
  ∀ c ∈ text.toList, c ≠ '\n' ∧ c ≠ '\r'

instance (text : String) : Decidable (Inline text) :=
  List.decidableBAll (fun c => c ≠ '\n' ∧ c ≠ '\r') text.toList

@[simp] theorem inline_append {first second : String} :
    Inline (first ++ second) ↔ Inline first ∧ Inline second := by
  simp only [Inline, String.toList_append, List.forall_mem_append]

theorem endedLine_of_inline {line : String} (h : Inline line) :
    endedLine line.toList = line.toList := by
  rw [endedLine, if_neg]
  intro hlast
  exact (h '\r' (List.mem_of_getLast? hlast)).2 rfl

theorem lines_intercalate {rows : List String} (hrows : ∀ row ∈ rows, Inline row)
    (hne : rows ≠ []) :
    lines ("\n".intercalate rows).toList = rows.map String.toList := by
  rw [String.toList_intercalate, lines]
  apply splitWhere_intercalate (by decide)
  · intro piece hpiece c hc
    obtain ⟨row, hrow, rfl⟩ := List.mem_map.mp hpiece
    simpa using (hrows row hrow c hc).1
  · simpa using hne

/-- The last piece is read as a line only if it is not empty. -/
theorem rows_of_lines {text last : String} {ended : List String}
    (h : lines text.toList = (ended ++ [last]).map String.toList)
    (hended : ∀ row ∈ ended, Inline row) :
    rows text = ended ++ if last = "" then [] else [last] := by
  have hkept : (ended.map String.toList).map endedLine = ended.map String.toList := by
    rw [List.map_map]
    apply List.map_congr_left
    intro row hrow
    exact endedLine_of_inline (hended row hrow)
  rw [rows, h]
  simp only [List.map_append, List.map_singleton, List.dropLast_concat, List.getLast?_concat,
    Option.toList_some, hkept]
  by_cases hlast : last = "" <;> simp [hlast, Function.comp_def]

/-- Lines with line feeds between them are read back. -/
theorem rows_intercalate {rows : List String} (hrows : ∀ row ∈ rows, Inline row)
    (hne : ∀ row ∈ rows, row ≠ "") : Text.rows ("\n".intercalate rows) = rows := by
  rcases List.eq_nil_or_concat' rows with rfl | ⟨ended, last, rfl⟩
  · rfl
  · have hlines := lines_intercalate hrows (by simp)
    rw [rows_of_lines hlines (fun row hrow => hrows row (by simp [hrow])),
      if_neg (hne last (by simp))]

/-- Lines with a line feed behind each of them are read back. -/
theorem rows_join {rows : List String} (hrows : ∀ row ∈ rows, Inline row) :
    Text.rows (String.join (rows.map (fun row => row ++ "\n"))) = rows := by
  have htext : String.join (rows.map (fun row => row ++ "\n")) =
      "\n".intercalate (rows ++ [""]) := by
    induction rows with
    | nil => rfl
    | cons row rows ih =>
      have hrest := ih (fun other hother => hrows other (List.mem_cons_of_mem row hother))
      obtain ⟨second, others, hsecond⟩ := List.exists_cons_of_ne_nil
        (List.append_ne_nil_of_right_ne_nil rows (List.cons_ne_nil "" []))
      rw [List.map_cons, String.join_cons, hrest, List.cons_append, hsecond,
        String.intercalate_cons_cons]
  have hall : ∀ row ∈ rows ++ [""], Inline row := by
    rw [List.forall_mem_append]
    exact ⟨hrows, by decide⟩
  rw [htext, rows_of_lines (lines_intercalate hall (by simp)) hrows, if_pos rfl, List.append_nil]

/-- A list is cut at its first blank in one way only. -/
theorem append_blank_inj {first second rest rest' : List Char} (hfirst : ' ' ∉ first)
    (hsecond : ' ' ∉ second) (h : first ++ ' ' :: rest = second ++ ' ' :: rest') :
    first = second ∧ rest = rest' := by
  have hfield : ∀ {field : List Char}, ' ' ∉ field → ∀ after,
      (field ++ ' ' :: after).takeWhile (· != ' ') = field := by
    intro field hfield after
    rw [List.takeWhile_append_of_pos]
    · simp
    · intro c hc
      simpa using ne_of_mem_of_not_mem hc hfield
  have hsame : first = second := by
    rw [← hfield hfirst rest, h, hfield hsecond]
  subst hsame
  simpa using h

/-- A field that is padded to a column still ends at its first blank. -/
theorem toList_padRight_append (width : ℕ) (text : String) (rest : List Char) :
    (padRight width text).toList ++ ' ' :: rest =
      text.toList ++ ' ' :: (List.replicate (width - text.length) ' ' ++ rest) := by
  have hswap : List.replicate (width - text.length) ' ' ++ ' ' :: rest =
      ' ' :: (List.replicate (width - text.length) ' ' ++ rest) := by
    rw [← List.singleton_append, ← List.append_assoc, ← List.replicate_succ',
      List.replicate_succ, List.cons_append]
  simp [padRight, filler, hswap]

/-- Lists whose members print alike agree in everything that is read off a printed member. -/
theorem map_eq_of_map_eq {α β γ : Type} {f : α → β} {g : α → γ} {xs ys : List α}
    (hread : ∀ x ∈ xs, ∀ y ∈ ys, f x = f y → g x = g y) (h : xs.map f = ys.map f) :
    xs.map g = ys.map g := by
  induction xs generalizing ys with
  | nil =>
    obtain rfl := List.map_eq_nil_iff.mp h.symm
    rfl
  | cons x xs ih =>
    cases ys with
    | nil => simp at h
    | cons y ys =>
      obtain ⟨hhead, htail⟩ := List.cons.inj h
      have hrest := ih (fun a ha b hb => hread a (by simp [ha]) b (by simp [hb])) htail
      rw [List.map_cons, List.map_cons, hrest, hread x (by simp) y (by simp) hhead]

end Text

namespace Word.SeparatorFree

variable {text : List Char}

theorem blank_not_mem (h : SeparatorFree text) : ' ' ∉ text := by
  intro hmem
  exact absurd (h ' ' hmem) (by decide)

theorem inline {text : String} (h : SeparatorFree text.toList) : Text.Inline text := by
  intro c hc
  constructor
  · rintro rfl
    exact absurd (h _ hc) (by decide)
  · rintro rfl
    exact absurd (h _ hc) (by decide)

end Word.SeparatorFree

end NibbleAsm
