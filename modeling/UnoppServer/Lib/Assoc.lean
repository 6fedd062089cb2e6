import Mathlib.Data.List.AList
import UnoppServer.Lib.FindIf

/-!
# Finite maps with an iteration order

Finite maps are Mathlib's `AList`. `Assoc.Map κ ν` is the map without dependent
values, `mapValues` applies a function to every value, and `ranked rank s` lists
the entries in one of the orders in which an unordered map may be iterated over.
-/

namespace Assoc

open FindIf

universe u v

/-- A finite map. -/
abbrev Map (κ : Type u) (ν : Type v) := AList fun _ : κ => ν

variable {κ : Type u} {ν : Type v}

/-- Apply a function to every value. -/
def mapValues (f : ν → ν) (s : Map κ ν) : Map κ ν where
  entries := s.entries.map fun e => ⟨e.1, f e.2⟩
  nodupKeys := by
    have hkeys : (s.entries.map fun e => (⟨e.1, f e.2⟩ : Sigma fun _ : κ => ν)).keys =
        s.entries.keys := by
      simp [List.keys, Function.comp_def]
    show List.Nodup (List.keys _)
    rw [hkeys]
    exact s.nodupKeys

/-- The entries in the order given by a ranking of the keys. -/
def ranked (rank : κ → Nat) (s : Map κ ν) : List (κ × ν) :=
  hashOrder rank Prod.fst (s.entries.map fun e => (e.1, e.2))

theorem length_ranked (rank : κ → Nat) (s : Map κ ν) :
    (ranked rank s).length = s.entries.length := by
  rw [ranked, (hashOrder_perm ..).length_eq, List.length_map]

variable [DecidableEq κ]

/-- The ranked entries are the entries that are found. -/
theorem mem_ranked {rank : κ → Nat} {s : Map κ ν} {k : κ} {v : ν} :
    (k, v) ∈ ranked rank s ↔ s.lookup k = some v := by
  rw [ranked, (hashOrder_perm ..).mem_iff, List.mem_map]
  constructor
  · rintro ⟨⟨k', v'⟩, he, h⟩
    obtain ⟨rfl, rfl⟩ := Prod.mk.inj h
    exact AList.mem_lookup_iff.mpr he
  · intro h
    exact ⟨⟨k, v⟩, AList.mem_lookup_iff.mp h, rfl⟩

/-- Changing all values changes the one that is found. -/
theorem lookup_mapValues (f : ν → ν) (s : Map κ ν) (k : κ) :
    (mapValues f s).lookup k = (s.lookup k).map f := by
  cases h : s.lookup k with
  | none =>
    rw [AList.lookup_eq_none] at h
    refine AList.lookup_eq_none.mpr fun hmem => h ?_
    rw [AList.mem_keys] at hmem ⊢
    simpa [mapValues, AList.keys, List.keys, Function.comp_def] using hmem
  | some v =>
    refine AList.mem_lookup_iff.mpr ?_
    exact List.mem_map.mpr ⟨⟨k, v⟩, AList.mem_lookup_iff.mp h, rfl⟩

theorem lookup_insert_eq (s : Map κ ν) (k k' : κ) (v : ν) :
    (s.insert k v).lookup k' = if k' = k then some v else s.lookup k' := by
  by_cases h : k' = k
  · rw [if_pos h, h]
    exact AList.lookup_insert s
  · rw [if_neg h]
    exact AList.lookup_insert_ne h

theorem lookup_erase_eq (s : Map κ ν) (k k' : κ) :
    (s.erase k).lookup k' = if k' = k then none else s.lookup k' := by
  by_cases h : k' = k
  · rw [if_pos h, h]
    exact AList.lookup_erase k s
  · rw [if_neg h]
    exact AList.lookup_erase_ne h

/-! ## Values -/

/-- The values of a map. -/
def values (s : Map κ ν) : Multiset ν := (s.entries.map fun e => e.2 : List ν)

theorem values_insert (s : Map κ ν) (k : κ) (v : ν) :
    values (s.insert k v) = v ::ₘ values (s.erase k) := by
  rw [values, AList.entries_insert, List.map_cons, ← Multiset.cons_coe]
  rfl

theorem erase_of_lookup {s : Map κ ν} {k : κ} (h : s.lookup k = none) : s.erase k = s :=
  AList.ext (List.kerase_of_notMem_keys (AList.lookup_eq_none.mp h))

/-- Erasing a key takes its value out. -/
theorem values_of_lookup {s : Map κ ν} {k : κ} {v : ν} (h : s.lookup k = some v) :
    values s = v ::ₘ values (s.erase k) := by
  have hmem : k ∈ s := AList.lookup_isSome.mp (by rw [h, Option.isSome_some])
  obtain ⟨v', l₁, l₂, -, hs, herase⟩ := List.exists_of_kerase (AList.mem_keys.mp hmem)
  have hv : (⟨k, v'⟩ : Sigma fun _ : κ => ν) ∈ s.entries :=
    hs ▸ List.mem_append_right _ List.mem_cons_self
  obtain rfl : v' = v := Option.some.inj ((AList.mem_lookup_iff.mpr hv).symm.trans h)
  have hperm : (s.entries.map fun e => e.2).Perm
      (v' :: (s.erase k).entries.map fun e => e.2) := by
    change List.Perm _ (v' :: (List.kerase k s.entries).map fun e => e.2)
    rw [herase, hs, List.map_append, List.map_cons, List.map_append]
    exact List.perm_middle
  rw [values, values, Multiset.cons_coe]
  exact Multiset.coe_eq_coe.mpr hperm

omit [DecidableEq κ] in
theorem length_values (s : Map κ ν) : Multiset.card (values s) = s.entries.length := by
  rw [values, Multiset.coe_card, List.length_map]

/-- A value is replaced. -/
theorem length_insert_of_lookup {s : Map κ ν} {k : κ} {v : ν} (h : s.lookup k = some v) (v' : ν) :
    (s.insert k v').entries.length = s.entries.length := by
  rw [← length_values, ← length_values, values_insert, values_of_lookup h, Multiset.card_cons,
    Multiset.card_cons]

/-- A key is the only one iff there is one entry. -/
theorem length_eq_one_iff {s : Map κ ν} {k : κ} {v : ν} (h : s.lookup k = some v) :
    s.entries.length = 1 ↔ ∀ k' v', s.lookup k' = some v' → k' = k := by
  have hlength : s.entries.length = (s.erase k).entries.length + 1 := by
    rw [← length_values, ← length_values, values_of_lookup h, Multiset.card_cons]
  have hother : (∃ k' v', s.lookup k' = some v' ∧ k' ≠ k) ↔ (s.erase k).entries ≠ [] := by
    constructor
    · rintro ⟨k', v', hk', hne⟩
      rw [← AList.lookup_erase_ne hne] at hk'
      exact List.ne_nil_of_mem (AList.mem_lookup_iff.mp hk')
    · intro hne
      obtain ⟨⟨k', v'⟩, he⟩ := List.exists_mem_of_ne_nil _ hne
      have hk' := AList.mem_lookup_iff.mpr he
      rw [lookup_erase_eq] at hk'
      split at hk'
      · cases hk'
      · rename_i hne'
        exact ⟨k', v', hk', hne'⟩
  rw [hlength, Nat.add_eq_right, List.length_eq_zero_iff, ← not_iff_not]
  refine hother.symm.trans ?_
  push Not
  rfl

end Assoc
