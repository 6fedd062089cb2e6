import Mathlib.GroupTheory.Perm.Cycle.Concrete
import UnoppServer.Lib.Shuffle

/-!
# Which orders a shuffle yields

`swapDown` swaps element `i` with an element before it, never with itself, for `i` from the
end down to `1`. So the positions are permuted along one cycle through all of them, and every
such cycle comes up.

- `source pos draw i`: the position from which the swaps `i, i - 1, …, 1` take the element
  of a position;
- `exists_source_iff`: these are the cycles through all positions;
- `shuffle_eq_ofFn`: a shuffle takes the elements of a list from there.
-/

namespace Shuffle

open Equiv

universe u v

variable {α : Type u} {β : Type v}

section Names

variable {pos : Nat → β} {i : Nat}

/-- The names of the positions up to `i`. -/
def names (pos : Nat → β) (i : Nat) : List β := (List.range (i + 1)).map pos

theorem names_succ (pos : Nat → β) (i : Nat) :
    names pos (i + 1) = names pos i ++ [pos (i + 1)] := by
  rw [names, List.range_succ, List.map_append]
  rfl

theorem mem_names {b : β} : b ∈ names pos i ↔ ∃ k ≤ i, pos k = b := by
  simp only [names, List.mem_map, List.mem_range, Nat.lt_succ_iff]

/-- A list can be turned so that a given member is its head. -/
theorem exists_rotated {b : β} {l : List β} (hb : b ∈ l) : ∃ rest, (b :: rest) ~r l := by
  obtain ⟨pre, rest, rfl⟩ := List.append_of_mem hb
  have hrotated : (b :: rest ++ pre) ~r (pre ++ b :: rest) := List.isRotated_append
  exact ⟨rest ++ pre, hrotated⟩

end Names

variable [DecidableEq β]

/-- Where the swaps of the positions `i, i - 1, …, 1` take the elements from. The name of
position `k` is `pos k`. -/
def source (pos : Nat → β) (draw : Nat → Nat) : Nat → Perm β
  | 0 => 1
  | i + 1 => swap (pos (i + 1)) (pos (draw 0 % (i + 1))) * source pos (fun k => draw (k + 1)) i

section Source

variable {pos : Nat → β} {i : Nat} {σ : Perm β}

/-- **The swaps permute along one cycle**: the last position takes its element from a
position of the cycle of the others. -/
theorem exists_formPerm_eq_source (hnd : (names pos i).Nodup) (draw : Nat → Nat) :
    ∃ l : List β, l.Perm (names pos i) ∧ l.formPerm = source pos draw i := by
  induction i generalizing draw with
  | zero => exact ⟨names pos 0, .refl _, List.formPerm_singleton (pos 0)⟩
  | succ i ih =>
    rw [names_succ] at hnd ⊢
    obtain ⟨l, hperm, hl⟩ := ih (List.nodup_append'.mp hnd).1 fun k => draw (k + 1)
    have hmem : pos (draw 0 % (i + 1)) ∈ l :=
      hperm.mem_iff.mpr (mem_names.mpr ⟨_, Nat.lt_succ_iff.mp (Nat.mod_lt _ i.succ_pos), rfl⟩)
    obtain ⟨rest, hrot⟩ := exists_rotated hmem
    refine ⟨pos (i + 1) :: pos (draw 0 % (i + 1)) :: rest, ?_, ?_⟩
    · exact ((hrot.perm.trans hperm).cons _).trans (List.perm_append_singleton _ _).symm
    · have hndl : l.Nodup := hperm.nodup_iff.mpr (List.nodup_append'.mp hnd).1
      rw [List.formPerm_cons_cons, List.formPerm_eq_of_isRotated (hrot.nodup_iff.mpr hndl) hrot, hl]
      rfl

/-- Every cycle comes up. -/
theorem exists_source_eq_formPerm (hnd : (names pos i).Nodup) {l : List β}
    (hl : l.Perm (names pos i)) : ∃ draw, source pos draw i = l.formPerm := by
  induction i generalizing l with
  | zero =>
    obtain rfl : l = [pos 0] := List.perm_singleton.mp hl
    exact ⟨fun _ => 0, (List.formPerm_singleton (pos 0)).symm⟩
  | succ i ih =>
    rw [names_succ] at hnd hl
    have hlast : pos (i + 1) ∈ l :=
      hl.mem_iff.mpr (List.mem_append_right _ (List.mem_singleton_self _))
    obtain ⟨rest, hrot⟩ := exists_rotated hlast
    have hrest : rest.Perm (names pos i) :=
      ((hrot.perm.trans hl).trans (List.perm_append_singleton _ _)).cons_inv
    obtain ⟨b, rest, rfl⟩ : ∃ b rest', rest = b :: rest' := by
      refine List.exists_cons_of_ne_nil fun hnil => ?_
      rw [hnil] at hrest
      exact absurd hrest.length_eq (by simp [names])
    obtain ⟨j, hj, rfl⟩ := mem_names.mp (hrest.mem_iff.mp List.mem_cons_self)
    obtain ⟨draw, hdraw⟩ := ih (List.nodup_append'.mp hnd).1 hrest
    refine ⟨fun | 0 => j | k + 1 => draw k, ?_⟩
    have hndl : l.Nodup := hl.nodup_iff.mpr hnd
    rw [← List.formPerm_eq_of_isRotated (hrot.nodup_iff.mpr hndl) hrot, List.formPerm_cons_cons,
      ← hdraw, source, Nat.mod_eq_of_lt (Nat.lt_succ_iff.mpr hj)]

end Source

/-! ## The positions of a list -/

section Positions

variable {n : Nat} [NeZero n] {i : Nat}

theorem nodup_names (hi : i < n) : (names (Fin.ofNat n) i).Nodup := by
  refine List.nodup_range.map_on fun a ha b hb hab => ?_
  have ha : a < n := (List.mem_range.mp ha).trans_le hi
  have hb : b < n := (List.mem_range.mp hb).trans_le hi
  have hval := congrArg Fin.val hab
  rwa [Fin.val_ofNat, Fin.val_ofNat, Nat.mod_eq_of_lt ha, Nat.mod_eq_of_lt hb] at hval

theorem mem_names_all (k : Fin n) : k ∈ names (Fin.ofNat n) (n - 1) :=
  mem_names.mpr ⟨k, Nat.le_sub_one_of_lt k.isLt, Fin.ofNat_val_eq_self k⟩

/-- Swapping two entries of an array permutes the indices. -/
theorem getElem?_swapIfInBounds {a : Array α} (ha : a.size = n) {j : Nat} (hi : i < n)
    (hj : j < n) (k : Fin n) : (a.swapIfInBounds i j)[(k : Nat)]? =
      a[(swap (Fin.ofNat n i) (Fin.ofNat n j) k : Nat)]? := by
  have hival : (Fin.ofNat n i : Nat) = i := Nat.mod_eq_of_lt hi
  have hjval : (Fin.ofNat n j : Nat) = j := Nat.mod_eq_of_lt hj
  rw [Array.swapIfInBounds_def, dif_pos (ha ▸ hi), dif_pos (ha ▸ hj), Array.getElem?_swap]
  by_cases hki : k = Fin.ofNat n i
  · rw [hki, swap_apply_left, hival, hjval]
    split
    · rename_i hji
      rw [hji, Array.getElem?_eq_getElem (ha ▸ hi)]
    · rw [if_pos rfl, Array.getElem?_eq_getElem (ha ▸ hj)]
  · have hi' : i ≠ k := fun h => hki (Fin.ext (hival.trans h).symm)
    rw [if_neg hi']
    by_cases hkj : k = Fin.ofNat n j
    · rw [hkj, swap_apply_right, hival, hjval, if_pos rfl, Array.getElem?_eq_getElem (ha ▸ hi)]
    · have hj' : j ≠ k := fun h => hkj (Fin.ext (hjval.trans h).symm)
      rw [swap_apply_of_ne_of_ne hki hkj, if_neg hj']

/-- The swaps move the elements of an array as `source` says. -/
theorem getElem?_swapDown {a : Array α} (ha : a.size = n) (hi : i < n) (draw : Nat → Nat)
    (k : Fin n) : (swapDown draw i a)[(k : Nat)]? = a[(source (Fin.ofNat n) draw i k : Nat)]? := by
  induction i generalizing draw a with
  | zero => rfl
  | succ i ih =>
    have hj : draw 0 % (i + 1) < n := (Nat.mod_lt _ i.succ_pos).trans hi
    rw [swapDown, ih ((Array.size_swapIfInBounds ..).trans ha) (Nat.lt_of_succ_lt hi), source,
      Perm.mul_apply, getElem?_swapIfInBounds ha hi hj]

/-- A permutation is a cycle through all positions when a list of all positions says it. -/
theorem exists_formPerm_iff (hn : 2 ≤ n) {σ : Perm (Fin n)} :
    (∃ l : List (Fin n), l.Perm (names (Fin.ofNat n) (n - 1)) ∧ l.formPerm = σ) ↔
      σ.IsCycle ∧ σ.support = Finset.univ := by
  have hnd : (names (Fin.ofNat n) (n - 1)).Nodup := nodup_names (by omega)
  constructor
  · rintro ⟨l, hl, rfl⟩
    have hlen : l.length = n := by
      rw [hl.length_eq, names, List.length_map, List.length_range]
      omega
    have hndl : l.Nodup := hl.nodup_iff.mpr hnd
    refine ⟨List.isCycle_formPerm hndl (hn.trans_eq hlen.symm), ?_⟩
    rw [List.support_formPerm_of_nodup l hndl fun x hx => by simp [hx] at hlen; omega]
    refine Finset.eq_univ_iff_forall.mpr fun k => List.mem_toFinset.mpr ?_
    exact hl.mem_iff.mpr (mem_names_all k)
  · rintro ⟨hcycle, hall⟩
    have hmem (k : Fin n) : k ∈ σ.support := hall ▸ Finset.mem_univ k
    refine ⟨σ.toList 0, ?_, ?_⟩
    · refine (List.perm_ext_iff_of_nodup (σ.nodup_toList 0) hnd).mpr fun k => ?_
      refine iff_of_true (Perm.mem_toList_iff.mpr ⟨?_, hmem 0⟩) (mem_names_all k)
      exact hcycle.sameCycle (Perm.mem_support.mp (hmem 0)) (Perm.mem_support.mp (hmem k))
    · rw [Perm.formPerm_toList, hcycle.cycleOf_eq (Perm.mem_support.mp (hmem 0))]

/-- **The swaps yield** the cycles through all positions. -/
theorem exists_source_iff (hn : 2 ≤ n) {σ : Perm (Fin n)} :
    (∃ draw, source (Fin.ofNat n) draw (n - 1) = σ) ↔ σ.IsCycle ∧ σ.support = Finset.univ := by
  have hnd : (names (Fin.ofNat n) (n - 1)).Nodup := nodup_names (by omega)
  rw [← exists_formPerm_iff hn]
  constructor
  · rintro ⟨draw, rfl⟩
    exact exists_formPerm_eq_source hnd draw
  · rintro ⟨l, hl, rfl⟩
    exact exists_source_eq_formPerm hnd hl

end Positions

section List

variable {l : List α}

/-- **Where a shuffle takes its elements from.** -/
theorem shuffle_eq_ofFn [NeZero l.length] (draw : Nat → Nat) : shuffle draw l =
    List.ofFn fun k => l.get (source (Fin.ofNat l.length) draw (l.length - 1) k) := by
  have hpos : l.length - 1 < l.length := Nat.sub_one_lt (NeZero.ne _)
  refine List.ext_getElem? fun k => ?_
  by_cases hk : k < l.length
  · have hget := getElem?_swapDown (a := l.toArray) (n := l.length) rfl hpos draw ⟨k, hk⟩
    rw [shuffle, Array.getElem?_toList, hget, List.getElem?_toArray, List.getElem?_ofFn, dif_pos hk,
      List.getElem?_eq_getElem (Fin.isLt _)]
    rfl
  · rw [List.getElem?_eq_none (by rw [length_shuffle]; omega),
      List.getElem?_eq_none (by rw [List.length_ofFn]; omega)]

/-- Orders of different elements are equal when they take them from the same positions. -/
theorem ofFn_get_inj (hl : l.Nodup) {σ τ : Perm (Fin l.length)} :
    (List.ofFn fun k => l.get (σ k)) = (List.ofFn fun k => l.get (τ k)) ↔ σ = τ := by
  rw [List.ofFn_inj, funext_iff, Perm.ext_iff]
  exact forall_congr' fun k => hl.injective_get.eq_iff

end List

end Shuffle
