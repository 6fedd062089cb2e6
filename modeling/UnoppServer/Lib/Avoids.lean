import Mathlib.Tactic.Common

/-!
# Errors that a computation cannot fail with

`Avoids r E` says that `r` does not fail with an error of the kind `E`. It may fail
with another one. There is one rule for each way a computation is built: `Avoids.ok`,
`Avoids.error`, `Avoids.bind`, `Avoids.ite`.

`FailsIff r E e P` says that of the errors of the kind `E` only `e` is possible, and that
`r` fails with it iff `P` holds.
-/

universe u v

section

variable {ε : Type u} {α : Type v}

/-- `r` does not fail with an error of the kind `E`. -/
def Avoids (r : Except ε α) (E : ε → Prop) : Prop := ∀ e, r = .error e → ¬ E e

/-- Of the errors of the kind `E`, `r` fails at most with `e`, and does so iff `P`. -/
def FailsIff (r : Except ε α) (E : ε → Prop) (e : ε) (P : Prop) : Prop :=
  ∀ e', E e' → (r = .error e' ↔ e' = e ∧ P)

end

namespace Avoids

variable {ε : Type u} {α β : Type v} {E : ε → Prop}

theorem ok {a : α} : Avoids (.ok a : Except ε α) E := fun _ h => nomatch h

theorem error {e : ε} (h : ¬ E e) : Avoids (.error e : Except ε α) E := by
  rintro e' he
  cases he
  exact h

theorem bind {x : Except ε α} {f : α → Except ε β} (hx : Avoids x E)
    (hf : ∀ a, x = .ok a → Avoids (f a) E) : Avoids (x >>= f) E := by
  cases x with
  | error e => exact fun e' he => hx e' (congrArg Except.error (Except.error.inj he))
  | ok a => exact hf a rfl

theorem ite {c : Prop} [Decidable c] {x y : Except ε α} (hx : c → Avoids x E)
    (hy : ¬ c → Avoids y E) : Avoids (if c then x else y) E := by
  split
  · exact hx ‹c›
  · exact hy ‹¬ c›

/-- What avoids the errors of the kind fails with none of them. -/
theorem ne_error {r : Except ε α} {e : ε} (h : Avoids r E) (he : E e) : r ≠ .error e :=
  fun hr => h e hr he

/-- An error that the second part avoids comes from the first one. -/
theorem bind_eq_error_iff {x : Except ε α} {f : α → Except ε β} {e : ε} (he : E e)
    (hf : ∀ a, x = .ok a → Avoids (f a) E) : x >>= f = .error e ↔ x = .error e := by
  cases x with
  | error e₀ =>
    exact ⟨fun h => congrArg Except.error (Except.error.inj h),
      fun h => congrArg Except.error (Except.error.inj h)⟩
  | ok a => exact iff_of_false ((hf a rfl).ne_error he) fun h => nomatch h

end Avoids

namespace FailsIff

variable {ε : Type u} {α β : Type v} {E : ε → Prop} {e : ε} {P Q : Prop}

theorem of_avoids {r : Except ε α} (h : Avoids r E) (hp : ¬ P) : FailsIff r E e P :=
  fun _ he => iff_of_false (h.ne_error he) fun h => hp h.2

/-- `r` fails with no other error. -/
theorem of_only {r : Except ε α} (h : ∀ e', r = .error e' → e' = e) :
    FailsIff r E e (¬ ∃ a, r = .ok a) := by
  intro e' _
  cases r with
  | error e₀ =>
    obtain rfl := h e₀ rfl
    refine ⟨fun h => ⟨(Except.error.inj h).symm, fun ⟨_, h⟩ => nomatch h⟩, ?_⟩
    rintro ⟨rfl, -⟩
    rfl
  | ok a => exact iff_of_false (fun h => nomatch h) fun h => h.2 ⟨a, rfl⟩

theorem congr {r : Except ε α} (h : FailsIff r E e P) (hpq : P ↔ Q) : FailsIff r E e Q :=
  fun e' he => (h e' he).trans (and_congr_right fun _ => hpq)

/-- Only the first part can fail. -/
theorem bind {x : Except ε α} {f : α → Except ε β} (hx : FailsIff x E e P)
    (hf : ∀ a, x = .ok a → Avoids (f a) E) : FailsIff (x >>= f) E e P :=
  fun e' he => (Avoids.bind_eq_error_iff he hf).trans (hx e' he)

/-- Only the second part can fail, under a condition that does not depend on the value
of the first one. -/
theorem after {x : Except ε α} {f : α → Except ε β} (hx : Avoids x E)
    (hf : ∀ a, x = .ok a → FailsIff (f a) E e P) :
    FailsIff (x >>= f) E e ((∃ a, x = .ok a) ∧ P) := by
  intro e' he
  cases x with
  | error e₀ =>
    refine iff_of_false (fun h => hx e₀ rfl ?_) fun ⟨_, ⟨_, h⟩, _⟩ => nomatch h
    obtain rfl := Except.error.inj h
    exact he
  | ok a => exact (hf a rfl e' he).trans (and_congr_right fun _ => (and_iff_right ⟨a, rfl⟩).symm)

end FailsIff
