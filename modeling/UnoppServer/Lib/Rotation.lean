import Mathlib.Data.List.Nodup
import Mathlib.Data.List.Rotate

/-!
# Going around in a circle

`around l t k` visits `k` positions of a list, starting at `t` and going back to
the front at the end. Between two visits to one element and with none to it in
between, every other element is visited exactly once: what is visited from the
first of them on is a rotation of the list.
-/

namespace Rotation

universe u

variable {α : Type u}

/-- The `k` positions visited from position `t` on. -/
def around (l : List α) (t k : Nat) : List (Option α) :=
  (List.range k).map fun j => l[(t + j) % l.length]?

/-! ## One position on or back -/

theorem succ_mod {n i : Nat} (hi : i < n) : (i + 1) % n = if i + 1 = n then 0 else i + 1 := by
  split
  · rename_i hlast
    rw [hlast, Nat.mod_self]
  · exact Nat.mod_eq_of_lt (by omega)

theorem pred_mod {n i : Nat} (hi : i < n) : (i + n - 1) % n = if i = 0 then n - 1 else i - 1 := by
  split
  · rename_i hzero
    rw [hzero, Nat.zero_add]
    exact Nat.mod_eq_of_lt (by omega)
  · rw [show i + n - 1 = i - 1 + n by omega, Nat.add_mod_right]
    exact Nat.mod_eq_of_lt (by omega)

/-! ## Walks -/

theorem around_succ (l : List α) (t k : Nat) :
    around l t (k + 1) = around l t k ++ [l[(t + k) % l.length]?] := by
  simp [around, List.range_succ]

theorem getElem?_around {l : List α} {t k i : Nat} (hi : i < k) :
    (around l t k)[i]? = some l[(t + i) % l.length]? := by
  simp [around, hi]

/-- A full circle is a rotation of the list. -/
theorem around_length (l : List α) (t : Nat) :
    around l t l.length = (l.rotate t).map some := by
  apply List.ext_getElem?
  intro i
  rcases Nat.lt_or_ge i l.length with hi | hi
  · rw [getElem?_around hi, List.getElem?_map, List.getElem?_rotate hi, Nat.add_comm t i,
      List.getElem?_eq_getElem (Nat.mod_lt _ (by omega))]
    rfl
  · rw [List.getElem?_eq_none (by simpa [around] using hi),
      List.getElem?_eq_none (by simpa using hi)]

/-- Two visits to one element are a number of full circles apart. -/
theorem mod_eq_of_getElem? {l : List α} (hl : l.Nodup) (hn : 0 < l.length) {i j : Nat}
    (h : l[i % l.length]? = l[j % l.length]?) : i % l.length = j % l.length :=
  (List.getElem?_inj (Nat.mod_lt _ hn) hl).mp h

/-- A piece of a walk is a walk. -/
theorem around_piece {l : List α} {t k : Nat} {l₁ l₂ l₃ : List (Option α)}
    (h : around l t k = l₁ ++ (l₂ ++ l₃)) : l₂ = around l (t + l₁.length) l₂.length := by
  have hk : k = l₁.length + (l₂.length + l₃.length) := by
    have := congrArg List.length h
    simpa [around] using this
  apply List.ext_getElem?
  intro i
  rcases Nat.lt_or_ge i l₂.length with hi | hi
  · have hget : (around l t k)[l₁.length + i]? = l₂[i]? := by
      rw [h, List.getElem?_append_right (by omega), List.getElem?_append_left (by omega),
        Nat.add_sub_cancel_left]
    rw [← hget, getElem?_around (by omega), getElem?_around hi, Nat.add_assoc]
  · rw [List.getElem?_eq_none hi, List.getElem?_eq_none (by simpa [around] using hi)]

/-- **Fairness of a rotation**: from one visit to the next, each element is
visited once. -/
theorem perm_of_around {l : List α} (hl : l.Nodup) (hn : 0 < l.length) {t k : Nat} {a : Option α}
    {l₁ l₂ l₃ : List (Option α)} (h : around l t k = l₁ ++ ((a :: l₂) ++ (a :: l₃)))
    (ha : a ∉ l₂) : (a :: l₂).Perm (l.map some) := by
  have hsplit : around l t k = l₁ ++ (((a :: l₂) ++ [a]) ++ l₃) := by
    rw [h, List.append_assoc]
    rfl
  have hpiece := around_piece hsplit
  have hlen : ((a :: l₂) ++ [a]).length = l₂.length + 1 + 1 := by simp
  rw [hlen] at hpiece
  have hget (i : Nat) (hi : i < l₂.length + 1 + 1) :
      ((a :: l₂) ++ [a])[i]? = some l[(t + l₁.length + i) % l.length]? := by
    rw [hpiece, getElem?_around hi]
  have hfirst : a = l[(t + l₁.length) % l.length]? := by
    simpa using hget 0 (by omega)
  have hlast : a = l[(t + l₁.length + (l₂.length + 1)) % l.length]? := by
    simpa using hget (l₂.length + 1) (by omega)
  have hmod := mod_eq_of_getElem? hl hn (hfirst.symm.trans hlast)
  -- the distance is a multiple of the length, and not a larger one
  have hdvd : l.length ∣ l₂.length + 1 := by
    have := Nat.sub_mod_eq_zero_of_mod_eq hmod.symm
    rw [Nat.add_sub_cancel_left] at this
    exact Nat.dvd_of_mod_eq_zero this
  have hle : l.length ≤ l₂.length + 1 := Nat.le_of_dvd (by omega) hdvd
  have hge : l₂.length + 1 ≤ l.length := by
    by_contra hlt
    -- else one full circle after the first visit there is another one, inside `l₂`
    have hmid := hget l.length (by omega)
    rw [Nat.add_mod_right, ← hfirst, List.getElem?_append_left (by simp; omega)] at hmid
    obtain ⟨i, hi⟩ := Nat.exists_eq_succ_of_ne_zero (show l.length ≠ 0 by omega)
    rw [hi, List.getElem?_cons_succ] at hmid
    exact ha (List.mem_of_getElem? hmid)
  have hcircle := around_piece h
  rw [List.length_cons, show l₂.length + 1 = l.length by omega, around_length] at hcircle
  rw [hcircle]
  exact (List.rotate_perm l _).map some

/-- Between two visits to one element, each other one has exactly one. -/
theorem count_of_around [DecidableEq α] {l : List α} (hl : l.Nodup) (hn : 0 < l.length) {t k : Nat}
    {a : Option α} {l₁ l₂ l₃ : List (Option α)}
    (h : around l t k = l₁ ++ ((a :: l₂) ++ (a :: l₃))) (ha : a ∉ l₂) {b : α} (hb : b ∈ l)
    (hab : some b ≠ a) : l₂.count (some b) = 1 := by
  have hcount := (perm_of_around hl hn h ha).count_eq (some b)
  rw [List.count_cons_of_ne hab.symm] at hcount
  rw [hcount]
  exact List.count_eq_one_of_mem (hl.map fun _ _ => Option.some.inj)
    (List.mem_map.mpr ⟨b, hb, rfl⟩)

end Rotation
