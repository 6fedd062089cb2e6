import UnoppServer.Gomoku.Game
import Mathlib.Data.List.ProdSigma
import Mathlib.Data.List.Nodup

/-!
# Gomoku: the board

What `Board.at` reads after `Board.put`, and how many stones of a colour the board
holds. A trial stone of the search that is put on an empty cell and erased leaves the
board as it was (`Board.put_put_none`).
-/

namespace UnoppServer.Gomoku

theorem mem_cells {c : Nat × Nat} : c ∈ cells ↔ c.1 < 15 ∧ c.2 < 15 := by
  obtain ⟨i, j⟩ := c
  simp [cells]

theorem nodup_cells : cells.Nodup :=
  (List.nodup_range (n := 15)).product (List.nodup_range (n := 15))

namespace Board

variable {b b' : Board} {i j i' j' : Nat} {p q : Piece}

theorem at_of_lt (b : Board) (hi : i < 15) (hj : j < 15) : b.at i j = b[i][j] := by
  simp [Board.at, hi, hj]

/-- Outside the board there is nothing. -/
theorem lt_of_at (h : b.at i j ≠ .none) : i < 15 ∧ j < 15 := by
  by_contra hlt
  refine h ?_
  by_cases hi : i < 15
  · have hj : ¬ j < 15 := fun hj => hlt ⟨hi, hj⟩
    simp [Board.at, hi, hj]
  · simp [Board.at, hi]

@[simp] theorem at_empty (i j : Nat) : Board.empty.at i j = .none := by
  by_cases h : i < 15 ∧ j < 15
  · rw [at_of_lt _ h.1 h.2]
    simp [Board.empty]
  · by_contra hne
    exact h (lt_of_at hne)

/-- A board is what can be read from it. -/
theorem ext_at (h : ∀ c ∈ cells, b.at c.1 c.2 = b'.at c.1 c.2) : b = b' := by
  refine Vector.ext fun i hi => Vector.ext fun j hj => ?_
  have hij := h (i, j) (mem_cells.mpr ⟨hi, hj⟩)
  rwa [at_of_lt b hi hj, at_of_lt b' hi hj] at hij

theorem put_of_lt (b : Board) (hi : i < 15) (hj : j < 15) :
    b.put i j p = b.set i (b[i].set j p hj) hi :=
  dif_pos ⟨hi, hj⟩

theorem at_put_self (b : Board) (hi : i < 15) (hj : j < 15) : (b.put i j p).at i j = p := by
  rw [put_of_lt b hi hj, at_of_lt _ hi hj, Vector.getElem_set_self, Vector.getElem_set_self]

/-- The other cells are as they were. -/
theorem at_put_of_ne (b : Board) (h : (i', j') ≠ (i, j)) :
    (b.put i j p).at i' j' = b.at i' j' := by
  by_cases hlt : i < 15 ∧ j < 15
  · rw [put_of_lt b hlt.1 hlt.2]
    by_cases hlt' : i' < 15 ∧ j' < 15
    · rw [at_of_lt _ hlt'.1 hlt'.2, at_of_lt _ hlt'.1 hlt'.2]
      by_cases hi : i = i'
      · obtain rfl := hi
        have hj : j ≠ j' := fun hj => h (by rw [hj])
        rw [Vector.getElem_set_self, Vector.getElem_set_ne _ _ hj]
      · rw [Vector.getElem_set_ne _ _ hi]
    · rw [← put_of_lt b hlt.1 hlt.2 (p := p)]
      have hnone (b : Board) : b.at i' j' = .none := by
        by_contra hne
        exact hlt' (lt_of_at hne)
      rw [hnone, hnone]
  · rw [Board.put, dif_neg hlt]

theorem at_put (b : Board) (hi : i < 15) (hj : j < 15) (i' j' : Nat) :
    (b.put i j p).at i' j' = if (i', j') = (i, j) then p else b.at i' j' := by
  split
  case isTrue h =>
    obtain ⟨rfl, rfl⟩ := Prod.mk.inj h
    exact at_put_self b hi hj
  case isFalse h => exact at_put_of_ne b h

/-- A trial stone is erased. -/
theorem put_put_none (h : b.at i j = .none) : (b.put i j p).put i j .none = b := by
  by_cases hlt : i < 15 ∧ j < 15
  · refine ext_at fun c _ => ?_
    rw [at_put _ hlt.1 hlt.2, at_put _ hlt.1 hlt.2]
    split
    case isTrue hc =>
      obtain ⟨rfl, rfl⟩ := Prod.mk.inj hc
      exact h.symm
    case isFalse => rfl
  · rw [Board.put, dif_neg hlt, Board.put, dif_neg hlt]

/-! ## Counting stones -/

/-- The number of cells that hold a piece. -/
def count (b : Board) (p : Piece) : Nat := cells.countP fun c => decide (b.at c.1 c.2 = p)

theorem count_le (b : Board) (p : Piece) : b.count p ≤ 225 :=
  List.countP_le_length

theorem count_empty (hp : p ≠ .none) : Board.empty.count p = 0 := by
  refine List.countP_eq_zero.mpr fun c _ => ?_
  rw [at_empty, decide_eq_true_iff]
  exact hp.symm

/-- A stone on an empty cell is one more of its colour. -/
theorem count_put_self (hi : i < 15) (hj : j < 15) (h : b.at i j = .none) (hp : p ≠ .none) :
    (b.put i j p).count p = b.count p + 1 := by
  have hmem : (i, j) ∈ cells := mem_cells.mpr ⟨hi, hj⟩
  obtain ⟨l₁, l₂, hl⟩ := List.append_of_mem hmem
  have hnot : (i, j) ∉ l₁ ∧ (i, j) ∉ l₂ := by
    have hn := nodup_cells
    rw [hl, List.nodup_middle, List.nodup_cons, List.mem_append, not_or] at hn
    exact hn.1
  have hsame (l : List (Nat × Nat)) (hc : (i, j) ∉ l) :
      l.countP (fun c => decide ((b.put i j p).at c.1 c.2 = p)) =
        l.countP fun c => decide (b.at c.1 c.2 = p) := by
    refine List.countP_congr fun c hm => ?_
    have hne : (c.1, c.2) ≠ (i, j) := fun he => hc (he ▸ hm)
    rw [at_put_of_ne b hne]
  show cells.countP _ = cells.countP _ + 1
  rw [hl, List.countP_append, List.countP_append, List.countP_cons, List.countP_cons,
    hsame l₁ hnot.1, hsame l₂ hnot.2, at_put_self b hi hj, h,
    if_pos (decide_eq_true rfl), if_neg (by simpa using hp.symm)]
  omega

/-- The other colour has as many as before. -/
theorem count_put_of_ne (hi : i < 15) (hj : j < 15) (h : b.at i j = .none) (hp : p ≠ .none)
    (hpq : q ≠ p) : (b.put i j q).count p = b.count p := by
  refine List.countP_congr fun c _ => ?_
  rw [at_put b hi hj]
  split
  case isTrue hc =>
    obtain ⟨rfl, rfl⟩ := Prod.mk.inj hc
    rw [h, decide_eq_true_iff, decide_eq_true_iff]
    exact iff_of_false hpq hp.symm
  case isFalse => exact Iff.rfl

end Board

end UnoppServer.Gomoku
