import Mathlib.Tactic.Common

/-!
# Postconditions of a fallible computation

`Ensures r Q` says that if `r` yields a value, the value satisfies `Q`. Nothing
is said when `r` fails. There is one rule for each way a computation is built:
`Ensures.ok`, `Ensures.error`, `Ensures.bind`, `Ensures.ite`;
`Ensures.mono` weakens the postcondition and `Ensures.and` joins two.
-/

universe u v w

variable {ε : Type u} {α : Type v} {β : Type w}

/-- Whatever `r` yields satisfies `Q`. -/
def Ensures (r : Except ε α) (Q : α → Prop) : Prop := ∀ a, r = .ok a → Q a

namespace Ensures

theorem ok {a : α} {Q : α → Prop} (h : Q a) : Ensures (.ok a : Except ε α) Q := by
  rintro b hb
  cases hb
  exact h

theorem error {e : ε} {Q : α → Prop} : Ensures (.error e : Except ε α) Q :=
  fun _ h => nomatch h

/-- The second part may assume what the first one ensures. -/
theorem bind {β : Type v} {x : Except ε α} {f : α → Except ε β} {P : α → Prop} {Q : β → Prop}
    (hx : Ensures x P) (hf : ∀ a, P a → Ensures (f a) Q) : Ensures (x >>= f) Q := by
  cases x with
  | error e => exact error
  | ok a => exact hf a (hx a rfl)

/-- The first part with nothing known of its value. -/
theorem bind' {β : Type v} {x : Except ε α} {f : α → Except ε β} {Q : β → Prop}
    (hf : ∀ a, x = .ok a → Ensures (f a) Q) : Ensures (x >>= f) Q :=
  bind (P := fun a => x = .ok a) (fun _ h => h) hf

theorem ite {c : Prop} [Decidable c] {x y : Except ε α} {Q : α → Prop}
    (hx : c → Ensures x Q) (hy : ¬ c → Ensures y Q) : Ensures (if c then x else y) Q := by
  split
  · exact hx ‹c›
  · exact hy ‹¬ c›

theorem mono {r : Except ε α} {P Q : α → Prop} (h : Ensures r P) (hpq : ∀ a, P a → Q a) :
    Ensures r Q := fun a ha => hpq a (h a ha)

theorem and {r : Except ε α} {P Q : α → Prop} (hp : Ensures r P) (hq : Ensures r Q) :
    Ensures r fun a => P a ∧ Q a := fun a ha => ⟨hp a ha, hq a ha⟩

end Ensures
