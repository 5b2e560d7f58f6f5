import NibbleAsm.LabelTable
import Mathlib.Data.List.Basic
import Mathlib.Data.List.Induction

/-!
# Label tables by their bindings

The names of a table are distinct, so a name is found with an address exactly if the two are an
entry. A table is therefore known by what is found in it, and renaming its names along an injective
function moves every binding to the new name. Putting the bindings in the order of their addresses
keeps every one of them.
-/
namespace NibbleAsm.LabelTable

theorem lookup_eq_some_iff {entries : List (String × ℕ)} {name : String} {address : ℕ}
    (distinct : entries.Pairwise (fun a b => a.1 ≠ b.1)) :
    entries.lookup name = some address ↔ (name, address) ∈ entries := by
  induction entries with
  | nil => simp
  | cons head rest ih =>
    obtain ⟨key, value⟩ := head
    obtain ⟨hhead, hrest⟩ := List.pairwise_cons.mp distinct
    rw [lookup_cons_eq_ite, List.mem_cons]
    by_cases hname : name = key
    · subst hname
      have hnot : (name, address) ∉ rest := by
        intro hmem
        exact hhead _ hmem rfl
      simp [hnot, eq_comm]
    · simp [hname, ih hrest]

theorem entries_distinct (table : LabelTable) :
    table.entries.Pairwise (fun a b => a.1 ≠ b.1) := by
  apply table.increasing.imp
  intro a b hlt heq
  exact String.lt_irrefl b.1 (heq ▸ hlt)

/-- What is found is an entry. -/
theorem find?_eq_some_iff {table : LabelTable} {name : String} {address : ℕ} :
    table.find? name = some address ↔ (name, address) ∈ table.entries :=
  lookup_eq_some_iff table.entries_distinct

/-- Tables with the same bindings are equal. -/
theorem ext_find? {first second : LabelTable}
    (h : ∀ name, first.find? name = second.find? name) : first = second := by
  have hmem : ∀ entry, entry ∈ first.entries ↔ entry ∈ second.entries := by
    rintro ⟨name, address⟩
    have hname : first.find? name = some address ↔ second.find? name = some address := by
      rw [h]
    rwa [find?_eq_some_iff, find?_eq_some_iff] at hname
  have nodup : ∀ table : LabelTable, table.entries.Nodup := by
    intro table
    exact table.entries_distinct.imp (fun hne heq => hne (congrArg Prod.fst heq))
  have hperm := (List.perm_ext_iff_of_nodup (nodup first) (nodup second)).mpr hmem
  have hentries : first.entries = second.entries := by
    apply List.Perm.eq_of_pairwise _ first.increasing second.increasing hperm
    intro a b _ _ hlt hgt
    exact absurd (String.lt_trans hlt hgt) (String.lt_irrefl a.1)
  cases first
  cases second
  simpa using hentries

/-- Names that are bound once keep their bindings. -/
theorem find?_ofList_eq_some_iff {bindings : List (String × ℕ)} {name : String} {address : ℕ}
    (distinct : bindings.Pairwise (fun a b => a.1 ≠ b.1)) :
    (ofList bindings).find? name = some address ↔ (name, address) ∈ bindings := by
  induction bindings using List.reverseRecOn with
  | nil => simp [ofList]
  | append_singleton bindings last ih =>
    obtain ⟨key, value⟩ := last
    obtain ⟨hinit, -, hlast⟩ := List.pairwise_append.mp distinct
    have hdefine : (ofList (bindings ++ [(key, value)])).find? name =
        if name = key then some value else (ofList bindings).find? name := by
      rw [ofList, List.foldl_append]
      exact find?_define (ofList bindings) key name value
    rw [hdefine, List.mem_append, List.mem_singleton]
    by_cases hname : name = key
    · subst hname
      have hnot : (name, address) ∉ bindings := by
        intro hmem
        exact hlast _ hmem (name, value) (List.mem_singleton_self _) rfl
      simp [hnot, eq_comm]
    · simp [hname, ih hinit]

/-- The same addresses under other names. -/
def rename (ρ : String → String) (table : LabelTable) : LabelTable :=
  ofList (table.entries.map (fun entry => (ρ entry.1, entry.2)))

/-- A name is found under its new name, with the same address or not at all. -/
theorem find?_rename {ρ : String → String} (injective : Function.Injective ρ) (table : LabelTable)
    (name : String) : (table.rename ρ).find? (ρ name) = table.find? name := by
  have distinct : (table.entries.map (fun entry => (ρ entry.1, entry.2))).Pairwise
      (fun a b => a.1 ≠ b.1) := by
    apply List.pairwise_map.mpr
    exact table.entries_distinct.imp (fun hne heq => hne (injective heq))
  apply Option.ext
  intro address
  rw [rename, find?_ofList_eq_some_iff distinct, find?_eq_some_iff, List.mem_map]
  constructor
  · rintro ⟨⟨own, value⟩, hmem, hentry⟩
    obtain ⟨hname, rfl⟩ := Prod.ext_iff.mp hentry
    obtain rfl := injective hname
    exact hmem
  · intro hmem
    exact ⟨(name, address), hmem, rfl⟩

/-- Ordering the bindings by address neither adds nor drops one. -/
theorem byAddress_perm (table : LabelTable) : table.byAddress.Perm table.entries :=
  List.mergeSort_perm table.entries precedes

theorem mem_byAddress {table : LabelTable} {name : String} {address : ℕ} :
    (name, address) ∈ table.byAddress ↔ table.find? name = some address := by
  rw [find?_eq_some_iff]
  exact table.byAddress_perm.mem_iff

theorem length_byAddress (table : LabelTable) : table.byAddress.length = table.size :=
  table.byAddress_perm.length_eq

/-- A table is known by its bindings in the order of their addresses. -/
theorem byAddress_injective : Function.Injective byAddress := by
  intro first second h
  apply ext_find?
  intro name
  apply Option.ext
  intro address
  rw [← mem_byAddress, h, mem_byAddress]

theorem byAddress_distinct (table : LabelTable) :
    table.byAddress.Pairwise (fun a b => a.1 ≠ b.1) :=
  table.byAddress_perm.symm.pairwise table.entries_distinct Ne.symm

/-- Binding the names in the order of their addresses gives the table again. -/
theorem ofList_byAddress (table : LabelTable) : ofList table.byAddress = table := by
  apply ext_find?
  intro name
  apply Option.ext
  intro address
  rw [find?_ofList_eq_some_iff table.byAddress_distinct, mem_byAddress]

theorem precedes_iff {a b : String × ℕ} :
    precedes a b = true ↔ a.2 < b.2 ∨ a.2 = b.2 ∧ a.1 ≤ b.1 := by
  simp [precedes]

/-- The bindings increase strictly by address, and by name at the same address. -/
theorem byAddress_increasing (table : LabelTable) :
    table.byAddress.Pairwise (fun a b => a.2 < b.2 ∨ a.2 = b.2 ∧ a.1 < b.1) := by
  have hsorted : table.byAddress.Pairwise (fun a b => precedes a b = true) := by
    apply List.pairwise_mergeSort
    · intro a b c hab hbc
      rw [precedes_iff] at hab hbc ⊢
      have hnames : a.1 ≤ b.1 → b.1 ≤ c.1 → a.1 ≤ c.1 := String.le_trans
      grind
    · intro a b
      have hnames := String.le_total a.1 b.1
      rw [Bool.or_eq_true, precedes_iff, precedes_iff]
      grind
  -- Names are distinct, so no two bindings are in order both ways.
  refine hsorted.imp₂ ?_ table.byAddress_distinct
  intro a b hprecedes hname
  refine (precedes_iff.mp hprecedes).imp_right (And.imp_right ?_)
  intro hle
  rw [← String.not_le]
  intro hge
  exact hname (String.le_antisymm hle hge)

end NibbleAsm.LabelTable
