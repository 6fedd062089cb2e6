import UnoppServer.Lib.Cycles
import UnoppServer.Uno.Deal

/-!
# Uno: the orders of seats and cards

The seats and the cards of Uno, and the three decks of Splendor, are shuffled by the same
loop. It swaps an element with `rand() % i`, which is never the element itself.

- `shuffled_iff`: so an order comes up exactly when it is one cycle through all positions;
- `seats_of_new`: no user gets the seat that corresponds to the own place in the list.
-/

namespace UnoppServer

open Shuffle

/-- The elements of a list in another order. -/
def reordered {α : Type} (l : List α) (σ : Equiv.Perm (Fin l.length)) : List α :=
  List.ofFn fun k => l.get (σ k)

/-- **The orders that a shuffle yields**, whatever `rand()` returns. -/
theorem shuffled_iff {α : Type} {l : List α} (hl : l.Nodup) (hn : 2 ≤ l.length)
    (σ : Equiv.Perm (Fin l.length)) :
    (∃ draw, shuffle draw l = reordered l σ) ↔ σ.IsCycle ∧ σ.support = Finset.univ := by
  have : NeZero l.length := ⟨by omega⟩
  rw [← exists_source_iff hn]
  refine exists_congr fun draw => ?_
  rw [shuffle_eq_ofFn, reordered, ofFn_get_inj hl]

theorem shuffled_iff_swap : (∃ draw, shuffle draw [1, 2] = reordered [1, 2] (Equiv.swap 0 1)) ↔
    (Equiv.swap 0 1 : Equiv.Perm (Fin 2)).IsCycle ∧
      (Equiv.swap 0 1 : Equiv.Perm (Fin 2)).support = Finset.univ :=
  shuffled_iff (l := [1, 2]) (by decide) (by decide) (Equiv.swap 0 1)

/-- Two elements always change places. -/
theorem order_never_shuffled : ¬ ∀ l : List Nat, 2 ≤ l.length → l.Nodup → ∀ l' : List Nat,
    l'.Perm l → ∃ draw, shuffle draw l = l' := by
  intro h
  obtain ⟨draw, hdraw⟩ := h [1, 2] (by decide) (by decide) [1, 2] (.refl _)
  have hswap : shuffle draw [1, 2] = [2, 1] := by
    show (#[1, 2].swapIfInBounds 1 (draw 0 % 1)).toList = [2, 1]
    rw [Nat.mod_one]
    rfl
  exact absurd (hswap.symm.trans hdraw) (by decide)

/-- **The seats** of a game: no user gets the one that corresponds to the own place in the list
of users. -/
theorem seats_of_new {users : List Int} {hne : users ≠ []} (hn : 2 ≤ users.length)
    {draw : Nat → Nat} {u : Uno} (h : Uno.new users hne draw = .ok u) :
    ∃ σ : Equiv.Perm (Fin users.length), u.ids = reordered users σ ∧ ∀ k, σ k ≠ k := by
  have : NeZero users.length := ⟨by omega⟩
  obtain ⟨hcycle, hall⟩ := (exists_source_iff hn).mp
    ⟨draw, (rfl : source (Fin.ofNat users.length) draw (users.length - 1) = _)⟩
  refine ⟨_, ?_, fun k => Equiv.Perm.mem_support.mp (hall ▸ Finset.mem_univ k)⟩
  rw [Uno.ids_of_new h, shuffle_eq_ofFn, reordered]

end UnoppServer
