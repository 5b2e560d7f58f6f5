/-!
# Label tables

A label table binds names to token addresses. Its entries are kept in strictly increasing order of
their names, so two tables with the same bindings are equal. Names are ordered by code points, which
is also the order of their UTF-8 bytes.
-/
namespace NibbleAsm

/-- Bindings of names to addresses. -/
structure LabelTable where
  entries : List (String × Nat)
  increasing : entries.Pairwise (fun a b => a.1 < b.1)
  deriving DecidableEq

namespace LabelTable

def empty : LabelTable :=
  ⟨[], List.Pairwise.nil⟩

/-- Bind a name in a list of entries, in place of an earlier binding. -/
def insert (name : String) (address : Nat) : List (String × Nat) → List (String × Nat)
  | [] => [(name, address)]
  | entry :: rest =>
    if name < entry.1 then (name, address) :: entry :: rest
    else if name = entry.1 then (name, address) :: rest
    else entry :: insert name address rest

theorem mem_insert {name : String} {address : Nat} {entries : List (String × Nat)}
    {entry : String × Nat} (h : entry ∈ insert name address entries) :
    entry = (name, address) ∨ entry ∈ entries := by
  induction entries with
  | nil => exact Or.inl (List.mem_singleton.mp h)
  | cons head rest ih =>
    rw [insert] at h
    split at h
    · exact List.mem_cons.mp h
    · split at h
      · rcases List.mem_cons.mp h with heq | hmem
        · exact Or.inl heq
        · exact Or.inr (List.mem_cons_of_mem head hmem)
      · rcases List.mem_cons.mp h with heq | hmem
        · exact Or.inr (heq ▸ List.mem_cons_self)
        · exact (ih hmem).imp_right (List.mem_cons_of_mem head)

theorem insert_increasing (name : String) (address : Nat) {entries : List (String × Nat)}
    (h : entries.Pairwise (fun a b => a.1 < b.1)) :
    (insert name address entries).Pairwise (fun a b => a.1 < b.1) := by
  induction entries with
  | nil => simp [insert]
  | cons head rest ih =>
    obtain ⟨hhead, hrest⟩ := List.pairwise_cons.mp h
    rw [insert]
    split
    · rename_i hlt
      refine List.pairwise_cons.mpr ⟨?_, h⟩
      intro entry hentry
      rcases List.mem_cons.mp hentry with rfl | hmem
      · exact hlt
      · exact String.lt_trans hlt (hhead entry hmem)
    · split
      · rename_i heq
        exact List.pairwise_cons.mpr ⟨fun entry hmem => heq ▸ hhead entry hmem, hrest⟩
      · rename_i hlt hne
        refine List.pairwise_cons.mpr ⟨?_, ih hrest⟩
        intro entry hentry
        rcases mem_insert hentry with rfl | hmem
        · by_cases hle : name ≤ head.1
          · exact absurd (String.le_antisymm hle (String.not_lt.mp hlt)) hne
          · exact String.not_le.mp hle
        · exact hhead entry hmem

/-- The address bound to a name. -/
def find? (table : LabelTable) (name : String) : Option Nat :=
  table.entries.lookup name

/-- Bind a name, in place of an earlier binding. The result also holds the address replaced. -/
def define (table : LabelTable) (name : String) (address : Nat) : Option Nat × LabelTable :=
  (table.find? name,
    ⟨insert name address table.entries, insert_increasing name address table.increasing⟩)

theorem lookup_cons_eq_ite (other : String) (entry : String × Nat) (rest : List (String × Nat)) :
    (entry :: rest).lookup other = if other = entry.1 then some entry.2 else rest.lookup other := by
  obtain ⟨key, value⟩ := entry
  by_cases h : other = key
  · simp [h]
  · have hne : (other == key) = false := by simpa using h
    simp [List.lookup_cons, hne, h]

theorem lookup_insert (name other : String) (address : Nat) (entries : List (String × Nat)) :
    (insert name address entries).lookup other =
      if other = name then some address else entries.lookup other := by
  induction entries with
  | nil => simp [insert, lookup_cons_eq_ite]
  | cons head rest ih =>
    rw [insert]
    split
    · rw [lookup_cons_eq_ite]
    · split
      · rename_i heq
        rw [lookup_cons_eq_ite, lookup_cons_eq_ite, ← heq]
        split <;> rfl
      · rename_i hne
        rw [lookup_cons_eq_ite, lookup_cons_eq_ite, ih]
        by_cases h : other = head.1
        · have hother : other ≠ name := by
            intro hname
            exact hne (hname.symm.trans h)
          rw [if_pos h, if_neg hother, if_pos h]
        · rw [if_neg h, if_neg h]

@[simp] theorem find?_empty (name : String) : empty.find? name = none := rfl

/-- The last binding of a name wins, and no other name is touched. -/
theorem find?_define (table : LabelTable) (name other : String) (address : Nat) :
    (table.define name address).2.find? other =
      if other = name then some address else table.find? other :=
  lookup_insert name other address table.entries

/-- Bind names one after another. -/
def ofList (bindings : List (String × Nat)) : LabelTable :=
  bindings.foldl (fun table binding => (table.define binding.1 binding.2).2) empty

/-- The number of names bound. -/
def size (table : LabelTable) : Nat :=
  table.entries.length

def isEmpty (table : LabelTable) : Bool :=
  table.entries.isEmpty

/-- Order by address, and by name at the same address. -/
def precedes (a b : String × Nat) : Bool :=
  decide (a.2 < b.2) || (a.2 == b.2 && decide (a.1 ≤ b.1))

/-- The bindings ordered by address, then by name. -/
def byAddress (table : LabelTable) : List (String × Nat) :=
  table.entries.mergeSort precedes

end LabelTable

end NibbleAsm
