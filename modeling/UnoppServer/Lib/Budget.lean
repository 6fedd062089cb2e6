import UnoppServer.Lib.Ensures

/-!
# Computations that spend a budget

A state has a budget `size s`, and some of it, `kept s`, never changes.
`Spends size kept s k x state` says that the computation `x`, started in `s`,
yields a value iff the budget suffices for `k` units, and that the state it
yields has `k` units less and the same kept part.

The rules follow how a computation is built: `Spends.ok`, `Spends.bind`, where
the costs add up, and `Spends.ite`; `Spends.pay` and `Spends.after` start from an
earlier state.
-/

universe u v w x

/-- The state `s'` has `k` units less than `s`, and the same kept part. -/
structure Spent {σ : Type u} {γ : Type v} (size : σ → Nat) (kept : σ → γ) (k : Nat) (s s' : σ) :
    Prop where
  size : size s' + k = size s
  kept : kept s' = kept s

/-- The computation yields a value iff the budget has `k` units, and spends
them. -/
structure Spends {σ : Type u} {γ : Type v} {ε : Type w} {α : Type x} (size : σ → Nat)
    (kept : σ → γ) (s : σ) (k : Nat) (r : Except ε α) (state : α → σ) : Prop where
  yields : (∃ a, r = .ok a) ↔ k ≤ size s
  spent : Ensures r fun a => Spent size kept k s (state a)

section Rules

variable {σ : Type u} {γ : Type v} {ε : Type w} {size : σ → Nat} {kept : σ → γ}

theorem Spent.refl (s : σ) : Spent size kept 0 s s := ⟨rfl, rfl⟩

theorem Spent.trans {j k : Nat} {s s' s'' : σ} (h : Spent size kept k s s')
    (h' : Spent size kept j s' s'') : Spent size kept (k + j) s s'' := by
  refine ⟨?_, h'.kept.trans h.kept⟩
  have := h.size
  have := h'.size
  omega

namespace Spends

variable {s s' : σ} {k j : Nat} {α : Type x} {state : α → σ}

theorem ok {a : α} (h : Spent size kept 0 s (state a)) :
    Spends size kept s 0 (.ok a : Except ε α) state :=
  ⟨iff_of_true ⟨a, rfl⟩ (Nat.zero_le _), .ok h⟩

/-- Some units are spent before. -/
theorem pay {r : Except ε α} (h : Spent size kept k s s') (hr : Spends size kept s' j r state) :
    Spends size kept s (k + j) r state := by
  refine ⟨hr.yields.trans ?_, hr.spent.mono fun a ha => h.trans ha⟩
  have := h.size
  omega

/-- The state has changed at no cost before. -/
theorem after {r : Except ε α} (h : Spent size kept 0 s s') (hr : Spends size kept s' k r state) :
    Spends size kept s k r state := by
  have hpay := hr.pay h
  rwa [Nat.zero_add] at hpay

/-- The costs of the parts add up. -/
theorem bind {β : Type x} {state' : β → σ} {r : Except ε α} {f : α → Except ε β}
    (hr : Spends size kept s k r state)
    (hf : ∀ a, r = .ok a → Spends size kept (state a) j (f a) state') :
    Spends size kept s (k + j) (r >>= f) state' := by
  constructor
  · constructor
    · rintro ⟨b, hb⟩
      cases r with
      | error e => cases hb
      | ok a =>
        have hj := (hf a rfl).yields.mp ⟨b, hb⟩
        have := (hr.spent a rfl).size
        omega
    · intro hk
      obtain ⟨a, rfl⟩ := hr.yields.mpr (Nat.le_trans (Nat.le_add_right k j) hk)
      have := (hr.spent a rfl).size
      exact (hf a rfl).yields.mpr (by omega)
  · exact .bind' fun a ha => (hf a ha).spent.mono fun b hb => (hr.spent a ha).trans hb

theorem ite {c : Prop} [Decidable c] {r r' : Except ε α} (hr : c → Spends size kept s k r state)
    (hr' : ¬ c → Spends size kept s j r' state) :
    Spends size kept s (if c then k else j) (if c then r else r') state := by
  split
  · exact hr ‹c›
  · exact hr' ‹¬ c›

end Spends

end Rules
