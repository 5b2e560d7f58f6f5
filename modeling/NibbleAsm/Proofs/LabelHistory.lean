import NibbleAsm.Listing
import NibbleAsm.Proofs.LabelTable
import NibbleAsm.Proofs.Utf8Order
import Mathlib.Data.Finset.Card
import Mathlib.Data.Finset.Dedup

/-!
# Label tables by their history

A table is filled by binding names one after another, and of the bindings of a name the last one
counts. The view by address depends on nothing else. It is strictly increasing by address and by the
bytes of the name, a strict total order, so it is what any way of sorting makes of the bindings, in
whatever order they are listed.
-/
namespace NibbleAsm.LabelTable

/-- The name is bound, for the last time to this address. -/
def LastBound (bindings : List (String × ℕ)) (name : String) (address : ℕ) : Prop :=
  ∃ before after, bindings = before ++ (name, address) :: after ∧
    ∀ binding ∈ after, binding.1 ≠ name

theorem ofList_append_singleton (bindings : List (String × ℕ)) (name : String) (address : ℕ) :
    ofList (bindings ++ [(name, address)]) = ((ofList bindings).define name address).2 := by
  rw [ofList, List.foldl_append]
  rfl

/-- The last binding of a name is the first one from the end. -/
theorem find?_ofList (bindings : List (String × ℕ)) (name : String) :
    (ofList bindings).find? name = bindings.reverse.lookup name := by
  induction bindings using List.reverseRecOn with
  | nil => rfl
  | append_singleton bindings last ih =>
    obtain ⟨other, address⟩ := last
    rw [ofList_append_singleton, find?_define, List.reverse_append, List.reverse_singleton,
      List.singleton_append, lookup_cons_eq_ite, ih]

theorem find?_ofList_eq_none_iff {bindings : List (String × ℕ)} {name : String} :
    (ofList bindings).find? name = none ↔ ∀ binding ∈ bindings, binding.1 ≠ name := by
  rw [find?_ofList, List.lookup_eq_none_iff]
  simp only [List.mem_reverse, bne_iff_ne]
  exact forall₂_congr (fun binding _ => ne_comm)

theorem find?_ofList_eq_some_iff_lastBound {bindings : List (String × ℕ)} {name : String}
    {address : ℕ} :
    (ofList bindings).find? name = some address ↔ LastBound bindings name address := by
  rw [find?_ofList, List.lookup_eq_some_iff]
  constructor
  · rintro ⟨after, before, hreverse, hother⟩
    refine ⟨before.reverse, after.reverse, ?_, ?_⟩
    · rw [← List.reverse_inj, hreverse]
      simp
    · intro binding hbinding
      exact (bne_iff_ne.mp (hother binding (List.mem_reverse.mp hbinding))).symm
  · rintro ⟨before, after, rfl, hother⟩
    refine ⟨after.reverse, before.reverse, by simp, ?_⟩
    intro binding hbinding
    exact bne_iff_ne.mpr (hother binding (List.mem_reverse.mp hbinding)).symm

/-- The names that a table binds. -/
def names (table : LabelTable) : Finset String :=
  (table.entries.map Prod.fst).toFinset

theorem mem_names {table : LabelTable} {name : String} :
    name ∈ table.names ↔ table.find? name ≠ none := by
  rw [names, List.mem_toFinset, List.mem_map, Option.ne_none_iff_exists']
  simp [find?_eq_some_iff]

theorem card_names (table : LabelTable) : table.names.card = table.size := by
  have nodup : (table.entries.map Prod.fst).Nodup := List.pairwise_map.mpr table.entries_distinct
  rw [names, List.toFinset_card_of_nodup nodup, List.length_map, size]

/-- As many names are bound as there are different ones among the bindings. -/
theorem size_ofList (bindings : List (String × ℕ)) :
    (ofList bindings).size = (bindings.map Prod.fst).toFinset.card := by
  rw [← card_names]
  congr 1
  ext name
  rw [mem_names, Ne, find?_ofList_eq_none_iff]
  simp

theorem isEmpty_eq_true_iff {table : LabelTable} : table.isEmpty = true ↔ table.size = 0 := by
  rw [isEmpty, size, List.isEmpty_iff, List.length_eq_zero_iff]

/-- The first binding has the smaller address, or the smaller name at the same address. Names are
compared by their bytes. -/
def Before (a b : String × ℕ) : Prop :=
  a.2 < b.2 ∨ a.2 = b.2 ∧ Utf8.encode a.1 < Utf8.encode b.1

instance (a b : String × ℕ) : Decidable (Before a b) :=
  inferInstanceAs (Decidable (_ ∨ _))

theorem before_iff {a b : String × ℕ} : Before a b ↔ a.2 < b.2 ∨ a.2 = b.2 ∧ a.1 < b.1 := by
  rw [Before, Utf8.encode_lt_encode_iff]

theorem Before.asymm {a b : String × ℕ} (h : Before a b) : ¬ Before b a := by
  rw [before_iff] at h ⊢
  have hnames : a.1 < b.1 → ¬ b.1 < a.1 := fun hlt hgt =>
    String.lt_irrefl a.1 (String.lt_trans hlt hgt)
  grind

/-- Of two different bindings one comes before the other. -/
theorem eq_of_not_before {a b : String × ℕ} (hab : ¬ Before a b) (hba : ¬ Before b a) : a = b := by
  rw [before_iff] at hab hba
  have hnames : ¬ a.1 < b.1 → ¬ b.1 < a.1 → a.1 = b.1 := fun hlt hgt =>
    String.le_antisymm (String.not_lt.mp hgt) (String.not_lt.mp hlt)
  apply Prod.ext <;> grind

theorem byAddress_before (table : LabelTable) : table.byAddress.Pairwise Before :=
  table.byAddress_increasing.imp before_iff.mpr

/-- The list holds each binding of the table once, in any order. -/
structure Enumerates (table : LabelTable) (listing : List (String × ℕ)) : Prop where
  nodup : listing.Nodup
  mem_iff : ∀ name address, (name, address) ∈ listing ↔ table.find? name = some address

theorem enumerates_entries (table : LabelTable) : table.Enumerates table.entries where
  nodup := table.entries_distinct.imp (fun hne heq => hne (congrArg Prod.fst heq))
  mem_iff := fun _ _ => find?_eq_some_iff.symm

theorem enumerates_byAddress (table : LabelTable) : table.Enumerates table.byAddress where
  nodup := table.byAddress_perm.nodup_iff.mpr table.enumerates_entries.nodup
  mem_iff := fun _ _ => mem_byAddress

/-- However the bindings are listed and sorted, the result is the view by address. -/
theorem Enumerates.eq_byAddress {table : LabelTable} {listing sorted : List (String × ℕ)}
    (h : table.Enumerates listing) (hperm : sorted.Perm listing)
    (hsorted : sorted.Pairwise (fun a b => ¬ Before b a)) : sorted = table.byAddress := by
  have hview := table.enumerates_byAddress
  have hmem : ∀ binding, binding ∈ listing ↔ binding ∈ table.byAddress := by
    rintro ⟨name, address⟩
    rw [h.mem_iff, hview.mem_iff]
  have hlisting := (List.perm_ext_iff_of_nodup h.nodup hview.nodup).mpr hmem
  have hincreasing := table.byAddress_before.imp Before.asymm
  apply List.Perm.eq_of_pairwise _ hsorted hincreasing (hperm.trans hlisting)
  intro a b _ _ hba hab
  exact eq_of_not_before hab hba

/-- The last binding of a name wins, and the view by address is determined by what is found. -/
theorem ofList_last_wins (bindings : List (String × ℕ)) :
    (∀ (name : String) (address : ℕ),
      (((ofList bindings).define name address).1 = none ↔
        ∀ binding ∈ bindings, binding.1 ≠ name) ∧
      (∀ previous : ℕ, ((ofList bindings).define name address).1 = some previous ↔
        LastBound bindings name previous) ∧
      ((ofList bindings).define name address).2 = ofList (bindings ++ [(name, address)])) ∧
    (∀ name : String, (ofList bindings).find? name = none ↔
      ∀ binding ∈ bindings, binding.1 ≠ name) ∧
    (∀ (name : String) (address : ℕ), (ofList bindings).find? name = some address ↔
      LastBound bindings name address) ∧
    (ofList bindings).size = (bindings.map Prod.fst).toFinset.card ∧
    ((ofList bindings).isEmpty = true ↔ (ofList bindings).size = 0) ∧
    (ofList bindings).byAddress.Pairwise Before ∧
    (ofList bindings).byAddress.length = (ofList bindings).size ∧
    (∀ (name : String) (address : ℕ), (name, address) ∈ (ofList bindings).byAddress ↔
      (ofList bindings).find? name = some address) ∧
    ∀ others : List (String × ℕ),
      (∀ name : String, (ofList others).find? name = (ofList bindings).find? name) →
      (ofList others).byAddress = (ofList bindings).byAddress ∧
      (ofList others).text = (ofList bindings).text ∧
      ∀ listing sorted : List (String × ℕ), (ofList others).Enumerates listing →
        sorted.Perm listing → sorted.Pairwise (fun a b => ¬ Before b a) →
        sorted = (ofList bindings).byAddress := by
  refine ⟨?_, fun _ => find?_ofList_eq_none_iff, fun _ _ => find?_ofList_eq_some_iff_lastBound,
    size_ofList bindings, isEmpty_eq_true_iff, byAddress_before _, length_byAddress _,
    fun _ _ => mem_byAddress, ?_⟩
  · intro name address
    -- What a definition gives back is what was found before it.
    exact ⟨find?_ofList_eq_none_iff, fun _ => find?_ofList_eq_some_iff_lastBound,
      (ofList_append_singleton bindings name address).symm⟩
  · intro others hfind
    have hsorted : ∀ listing sorted : List (String × ℕ), (ofList others).Enumerates listing →
        sorted.Perm listing → sorted.Pairwise (fun a b => ¬ Before b a) →
        sorted = (ofList bindings).byAddress := by
      intro listing sorted henumerates hperm hsorted
      have hsame : (ofList bindings).Enumerates listing := by
        refine ⟨henumerates.nodup, ?_⟩
        intro name address
        rw [henumerates.mem_iff, hfind]
      exact hsame.eq_byAddress hperm hsorted
    have hview := hsorted _ _ (enumerates_byAddress _) (List.Perm.refl _)
      ((byAddress_before _).imp Before.asymm)
    exact ⟨hview, by rw [text, textLines, hview]; rfl, hsorted⟩

/-- Two histories with the same last bindings have the same text. Names at one address stand in the
order of their bytes, in which `z` comes before `é`. -/
theorem ofList_last_wins_rebound :
    ((ofList [("é", 1), ("end", 9), ("z", 2)]).define "é" 2).1 = some 1 ∧
    (ofList [("z", 2), ("end", 9), ("é", 2)]).text =
      (ofList [("é", 1), ("end", 9), ("z", 2), ("é", 2)]).text ∧
    [("z", 2), ("é", 2), ("end", 9)] =
      (ofList [("é", 1), ("end", 9), ("z", 2), ("é", 2)]).byAddress := by
  obtain ⟨hdefine, -⟩ := ofList_last_wins [("é", 1), ("end", 9), ("z", 2)]
  have hlast : LastBound [("é", 1), ("end", 9), ("z", 2)] "é" 1 :=
    ⟨[], [("end", 9), ("z", 2)], rfl, by decide⟩
  have htable : ofList [("z", 2), ("end", 9), ("é", 2)] =
      ofList [("é", 1), ("end", 9), ("z", 2), ("é", 2)] := by decide +kernel
  obtain ⟨-, -, -, -, -, -, -, -, hothers⟩ :=
    ofList_last_wins [("é", 1), ("end", 9), ("z", 2), ("é", 2)]
  obtain ⟨-, htext, hview⟩ := hothers [("z", 2), ("end", 9), ("é", 2)] (fun name => by rw [htable])
  refine ⟨((hdefine "é" 2).2.1 1).mpr hlast, htext, ?_⟩
  exact hview _ _ (enumerates_entries _) (by decide +kernel) (by decide +kernel)

end NibbleAsm.LabelTable
