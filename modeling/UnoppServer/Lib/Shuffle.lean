import Mathlib.Data.List.Perm.Basic

/-!
# Shuffling by dependent swaps

`shuffle draw l` swaps element `i` with element `draw k % i`, for `i` from
`l.length - 1` down to `1`, where `draw 0, draw 1, …` are the numbers drawn.
Whatever is drawn, the result is a permutation of `l` (`shuffle_perm`).
-/

namespace Shuffle

universe u v

variable {α : Type u} {β : Type v}

/-- The swaps of the positions `i, i - 1, …, 1`. -/
def swapDown (draw : Nat → Nat) : Nat → Array α → Array α
  | 0, a => a
  | i + 1, a =>
    swapDown (fun k => draw (k + 1)) i (a.swapIfInBounds (i + 1) (draw 0 % (i + 1)))

/-- Shuffle a list with the numbers `draw 0, draw 1, …`. -/
def shuffle (draw : Nat → Nat) (l : List α) : List α :=
  (swapDown draw (l.length - 1) l.toArray).toList

theorem swapIfInBounds_perm (a : Array α) (i j : Nat) : (a.swapIfInBounds i j).Perm a := by
  unfold Array.swapIfInBounds
  split
  · split
    · exact Array.swap_perm _ _
    · exact .refl a
  · exact .refl a

theorem swapDown_perm (draw : Nat → Nat) (i : Nat) (a : Array α) :
    (swapDown draw i a).Perm a := by
  induction i generalizing draw a with
  | zero => exact .refl a
  | succ i ih => exact (ih _ _).trans (swapIfInBounds_perm a _ _)

/-- A shuffle reorders its list. -/
theorem shuffle_perm (draw : Nat → Nat) (l : List α) : (shuffle draw l).Perm l :=
  (swapDown_perm draw _ l.toArray).toList

@[simp] theorem length_shuffle (draw : Nat → Nat) (l : List α) :
    (shuffle draw l).length = l.length :=
  (shuffle_perm draw l).length_eq

/-- Swapping commutes with a map of the entries. -/
theorem map_swapIfInBounds (f : α → β) (a : Array α) (i j : Nat) :
    (a.swapIfInBounds i j).map f = (a.map f).swapIfInBounds i j := by
  simp only [Array.swapIfInBounds_def, Array.size_map]
  split
  · split
    · simp only [Array.swap_def, Array.map_set, Array.getElem_map]
    · rfl
  · rfl

theorem map_swapDown (f : α → β) (draw : Nat → Nat) (i : Nat) (a : Array α) :
    (swapDown draw i a).map f = swapDown draw i (a.map f) := by
  induction i generalizing draw a with
  | zero => rfl
  | succ i ih => rw [swapDown, swapDown, ih, map_swapIfInBounds]

/-- A shuffle looks at no element. -/
theorem map_shuffle (f : α → β) (draw : Nat → Nat) (l : List α) :
    (shuffle draw l).map f = shuffle draw (l.map f) := by
  rw [shuffle, shuffle, List.length_map, ← Array.toList_map, map_swapDown, List.map_toArray]

end Shuffle
