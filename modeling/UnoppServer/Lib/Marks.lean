import Mathlib.Data.Set.Lattice

/-!
# A variable that findings overwrite

A scan goes over its positions and, wherever it finds something, sets a variable to
the mark of what it found; later findings overwrite earlier ones. `Marked mark F s s'`
says that `s'` is the mark of a finding in `F`, or that `F` is empty and the variable
is as before. Two scans one after the other find the union (`Marked.trans`), a loop
finds what its rounds find (`Marked.foldl`).
-/

universe u v w

variable {σ : Type u} {ω : Type v} {α : Type w}

/-- The variable goes from `s` to `s'` in a scan whose findings are `F`. -/
def Marked (mark : ω → σ) (F : Set ω) (s s' : σ) : Prop :=
  (∃ x ∈ F, s' = mark x) ∨ (F = ∅ ∧ s' = s)

namespace Marked

variable {mark : ω → σ} {F G : Set ω} {s s' s'' : σ}

theorem none (mark : ω → σ) (s : σ) : Marked mark ∅ s s := .inr ⟨rfl, rfl⟩

theorem found {x : ω} (hx : x ∈ F) (s : σ) : Marked mark F s (mark x) := .inl ⟨x, hx, rfl⟩

theorem congr (h : Marked mark F s s') (hFG : F = G) : Marked mark G s s' := hFG ▸ h

/-- One scan after the other. -/
theorem trans (h : Marked mark F s s') (h' : Marked mark G s' s'') :
    Marked mark (F ∪ G) s s'' := by
  rcases h' with ⟨x, hx, rfl⟩ | ⟨rfl, rfl⟩
  · exact found (Set.mem_union_right F hx) s
  · rwa [Set.union_empty]

/-- A loop whose rounds are scans. -/
theorem foldl {F : α → Set ω} {round : σ → α → σ}
    (h : ∀ s a, Marked mark (F a) s (round s a)) (l : List α) (s : σ) :
    Marked mark {x | ∃ a ∈ l, x ∈ F a} s (l.foldl round s) := by
  induction l generalizing s with
  | nil => exact (none mark s).congr (by simp)
  | cons a l ih =>
    refine ((h s a).trans (ih (round s a))).congr ?_
    ext x
    simp

/-- Where nothing is found the variable stays. -/
theorem eq_of_empty (h : Marked mark F s s') (hF : ∀ x, x ∉ F) : s' = s := by
  rcases h with ⟨x, hx, -⟩ | ⟨-, rfl⟩
  · exact absurd hx (hF x)
  · rfl

/-- The variable ends at the mark of `x` iff `x` is found, when the marks differ from
the first value and from each other, and only one thing is found. -/
theorem eq_mark_iff (h : Marked mark F s s') {x : ω} (hs : mark x ≠ s)
    (honly : ∀ y ∈ F, mark y = mark x → y = x) (hone : x ∈ F → ∀ y ∈ F, y = x) :
    s' = mark x ↔ x ∈ F := by
  rcases h with ⟨y, hy, rfl⟩ | ⟨rfl, rfl⟩
  · constructor
    · intro he
      exact honly y hy he ▸ hy
    · intro hx
      rw [hone hx y hy]
  · exact iff_of_false (fun he => hs he.symm) (Set.notMem_empty x)

end Marked
