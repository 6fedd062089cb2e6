import Mathlib.Logic.ExistsUnique
import Mathlib.Logic.Function.Basic
import Mathlib.Tactic.Common

/-!
# Who is where

Visitors sit in places under keys, and an index says for each visitor in which
place. `Exact index seated` says that the index is right: whoever sits somewhere
is indexed there, whoever is indexed somewhere sits there, and nobody sits in
one place under two keys.

There is a rule for each way the tables change:

- `Exact.congr`: the same visitors under other descriptions;
- `Exact.place`: a visitor sits down under a key, for the first time or in
  another's stead;
- `Exact.leave`: a visitor is gone;
- `Exact.clear`: a place is gone, with everybody in it.
-/

namespace Occupancy

universe u v w

variable {U : Type u} {R : Type v} {K : Type w}

/-- The index agrees with the seats. -/
structure Exact (index : U → Option R) (seated : R → K → U → Prop) : Prop where
  sound : ∀ {r k u}, seated r k u → index u = some r
  complete : ∀ {r u}, index u = some r → ∃ k, seated r k u
  once : ∀ {r k k' u}, seated r k u → seated r k' u → k = k'

namespace Exact

variable {index : U → Option R} {seated seated' : R → K → U → Prop}

/-- **Exactness**: the index points to a place iff the visitor sits there under
one key only and in no other place. -/
theorem index_iff (h : Exact index seated) (u : U) (r : R) :
    index u = some r ↔ (∃! k, seated r k u) ∧ ∀ r', r' ≠ r → ∀ k, ¬ seated r' k u := by
  constructor
  · intro hu
    obtain ⟨k, hk⟩ := h.complete hu
    refine ⟨⟨k, hk, fun k' hk' => h.once hk' hk⟩, fun r' hne k' hk' => hne ?_⟩
    exact Option.some.inj ((h.sound hk').symm.trans hu)
  · rintro ⟨⟨k, hk, -⟩, -⟩
    exact h.sound hk

theorem empty : Exact (fun _ : U => (none : Option R)) (fun (_ : R) (_ : K) _ => False) :=
  ⟨fun h => h.elim, (fun h => nomatch h), fun h => h.elim⟩

theorem congr (h : Exact index seated) (hs : ∀ r k u, seated' r k u ↔ seated r k u) :
    Exact index seated' :=
  ⟨fun hk => h.sound ((hs _ _ _).mp hk),
    fun hu => (h.complete hu).imp fun k hk => (hs _ k _).mpr hk,
    fun hk hk' => h.once ((hs _ _ _).mp hk) ((hs _ _ _).mp hk')⟩

/-- A visitor now sits in `r` under `k`, and nowhere else. -/
theorem place [DecidableEq U] {u : U} {r : R} {k : K} (h : Exact index seated)
    (hs : ∀ r' k' v, seated' r' k' v ↔ if v = u then r' = r ∧ k' = k else seated r' k' v) :
    Exact (Function.update index u (some r)) seated' := by
  -- each part holds of `u` by what `hs` says of it, and of the others as before
  constructor
  · intro r' k' v hk
    have hk := (hs _ _ _).mp hk
    by_cases hv : v = u
    · rw [if_pos hv] at hk
      rw [hv, Function.update_self, hk.1]
    · rw [if_neg hv] at hk
      rw [Function.update_of_ne hv]
      exact h.sound hk
  · intro r' v hv
    by_cases hvu : v = u
    · rw [hvu, Function.update_self] at hv
      exact ⟨k, (hs _ _ _).mpr (by rw [if_pos hvu]; exact ⟨(Option.some.inj hv).symm, rfl⟩)⟩
    · rw [Function.update_of_ne hvu] at hv
      exact (h.complete hv).imp fun k' hk => (hs _ _ _).mpr (by rw [if_neg hvu]; exact hk)
  · intro r' k₁ k₂ v h₁ h₂
    have h₁ := (hs _ _ _).mp h₁
    have h₂ := (hs _ _ _).mp h₂
    by_cases hv : v = u
    · rw [if_pos hv] at h₁ h₂
      exact h₁.2.trans h₂.2.symm
    · rw [if_neg hv] at h₁ h₂
      exact h.once h₁ h₂

/-- A set of visitors is gone. -/
theorem remove {index' : U → Option R} (h : Exact index seated) (gone : U → Prop)
    (hgone : ∀ v, gone v → index' v = none) (hstay : ∀ v, ¬ gone v → index' v = index v)
    (hs : ∀ r k v, seated' r k v ↔ ¬ gone v ∧ seated r k v) : Exact index' seated' := by
  constructor
  · intro r k v hk
    obtain ⟨hv, hk⟩ := (hs _ _ _).mp hk
    rw [hstay _ hv]
    exact h.sound hk
  · intro r v hv
    have hng : ¬ gone v := fun hg => by rw [hgone v hg] at hv; cases hv
    rw [hstay v hng] at hv
    exact (h.complete hv).imp fun k hk => (hs _ _ _).mpr ⟨hng, hk⟩
  · intro r k₁ k₂ v h₁ h₂
    exact h.once ((hs _ _ _).mp h₁).2 ((hs _ _ _).mp h₂).2

theorem leave [DecidableEq U] {u : U} (h : Exact index seated)
    (hs : ∀ r k v, seated' r k v ↔ v ≠ u ∧ seated r k v) :
    Exact (Function.update index u none) seated' :=
  h.remove (fun v => v = u) (fun v hv => by rw [hv, Function.update_self])
    (fun v hv => Function.update_of_ne hv none index) hs

/-- The place `r` is gone, and its visitors are in none. -/
theorem clear {index' : U → Option R} {r : R} (h : Exact index seated)
    (hgone : ∀ k v, seated r k v → index' v = none)
    (hstay : ∀ v, (∀ k, ¬ seated r k v) → index' v = index v)
    (hs : ∀ r' k v, seated' r' k v ↔ r' ≠ r ∧ seated r' k v) : Exact index' seated' := by
  refine h.remove (fun v => ∃ k, seated r k v) (fun v hv => ?_) (fun v hv => ?_)
    fun r' k v => ?_
  · obtain ⟨k, hk⟩ := hv
    exact hgone k v hk
  · exact hstay v fun k hk => hv ⟨k, hk⟩
  · refine (hs r' k v).trans (and_congr_left fun hk => not_congr ⟨?_, ?_⟩)
    · rintro rfl
      exact ⟨k, hk⟩
    · rintro ⟨k', hk'⟩
      exact Option.some.inj ((h.sound hk).symm.trans (h.sound hk'))

end Exact

end Occupancy
