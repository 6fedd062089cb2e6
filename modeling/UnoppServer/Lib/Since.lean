import UnoppServer.Lib.Runs

/-!
# What has happened since

`Since P Q h` says of a recorded history that some step satisfied `P` and that all
steps after it satisfy `Q`. A state predicate that is set by the `P` steps, cleared
by the steps that are not `Q`, and left alone by the others, is a `Since` of the
history (`Run.held_iff_since`).

`Run.forall_between_iff` turns a statement about two steps of a run, the second one
after a `P` step with only `Q` steps in between, into one about the state before the
second step.
-/

namespace Runs

universe u v w x

variable {σ : Type u} {α : Type v} {β : Type w} {ε : Type x}

/-- There is a step with `P`, and all later steps satisfy `Q`. -/
def Since (P Q : Entry σ α β → Prop) (h : List (Entry σ α β)) : Prop :=
  ∃ h₁ x h₂, h = h₁ ++ x :: h₂ ∧ P x ∧ ∀ z ∈ h₂, Q z

section Since

variable {P Q : Entry σ α β → Prop}

theorem not_since_nil : ¬ Since P Q [] := by
  rintro ⟨h₁, x, h₂, he, -⟩
  exact List.append_ne_nil_of_right_ne_nil h₁ (List.cons_ne_nil x h₂) he.symm

/-- The last step satisfies `P`, or it satisfies `Q` and the rest was so before. -/
theorem since_concat_iff {h : List (Entry σ α β)} {e : Entry σ α β} :
    Since P Q (h ++ [e]) ↔ P e ∨ (Q e ∧ Since P Q h) := by
  constructor
  · rintro ⟨h₁, x, h₂, he, hp, hq⟩
    rcases List.eq_nil_or_concat h₂ with rfl | ⟨h₂, z, rfl⟩
    · obtain ⟨-, hlast⟩ := List.append_inj' he rfl
      obtain rfl := (List.cons.inj hlast).1
      exact .inl hp
    · rw [List.concat_eq_append] at he hq
      rw [← List.cons_append, ← List.append_assoc] at he
      obtain ⟨rfl, hlast⟩ := List.append_inj' he rfl
      obtain rfl := (List.cons.inj hlast).1
      refine .inr ⟨hq e (List.mem_append_right _ List.mem_cons_self), h₁, x, h₂, rfl, hp, ?_⟩
      exact fun z hz => hq z (List.mem_append_left _ hz)
  · rintro (hp | ⟨hq, h₁, x, h₂, rfl, hp, hall⟩)
    · exact ⟨h, e, [], rfl, hp, fun z hz => absurd hz List.not_mem_nil⟩
    · refine ⟨h₁, x, h₂ ++ [e], by rw [List.append_assoc, List.cons_append], hp, ?_⟩
      rw [List.forall_mem_append, List.forall_mem_singleton]
      exact ⟨hall, hq⟩

theorem since_true_iff {h : List (Entry σ α β)} : Since P (fun _ => True) h ↔ ∃ x ∈ h, P x := by
  constructor
  · rintro ⟨h₁, x, h₂, rfl, hp, -⟩
    exact ⟨x, List.mem_append_right _ List.mem_cons_self, hp⟩
  · rintro ⟨x, hx, hp⟩
    obtain ⟨h₁, h₂, rfl⟩ := List.append_of_mem hx
    exact ⟨h₁, x, h₂, rfl, hp, fun _ _ => trivial⟩

end Since

variable {step : σ → α → Except ε (β × σ)} {ok : σ → α → Prop} {s₀ : σ}

/-- A run up to one of its steps. -/
theorem Run.take {h₁ h₂ : List (Entry σ α β)} {e : Entry σ α β} {s : σ}
    (hr : Run step ok s₀ (h₁ ++ e :: h₂) s) : Run step ok s₀ h₁ e.pre := by
  generalize hh : h₁ ++ e :: h₂ = h at hr
  induction hr generalizing h₂ with
  | nil => exact absurd hh (List.append_ne_nil_of_right_ne_nil h₁ (List.cons_ne_nil e h₂))
  | @snoc l s s' a b hl _ _ ih =>
    rcases List.eq_nil_or_concat h₂ with rfl | ⟨h₂, z, rfl⟩
    · obtain ⟨rfl, hlast⟩ := List.append_inj' hh rfl
      obtain rfl := (List.cons.inj hlast).1
      exact hl
    · rw [List.concat_eq_append, ← List.cons_append, ← List.append_assoc] at hh
      obtain ⟨rfl, -⟩ := List.append_inj' hh rfl
      exact ih rfl

/-- A run up to and with one of its steps. -/
theorem Run.upto {h₁ h₂ : List (Entry σ α β)} {e : Entry σ α β} {s : σ}
    (hr : Run step ok s₀ (h₁ ++ e :: h₂) s) : Run step ok s₀ (h₁ ++ [e]) e.post := by
  obtain ⟨-, hok, hstep⟩ := hr.mem_entry e (List.mem_append_right _ List.mem_cons_self)
  exact hr.take.snoc hok hstep

theorem mem_of_mem_upto {α : Type u} {h₁ h₂ : List α} {x e : α} (he : e ∈ h₁ ++ [x]) :
    e ∈ h₁ ++ x :: h₂ := by
  rw [List.append_cons]
  exact List.mem_append_left _ he

section Held

variable {Held : σ → Prop} {P Q : Entry σ α β → Prop}

/-- A predicate that is set by `P` steps, cleared by steps that are not `Q`, and kept by
the others. -/
theorem Run.held_iff_since (h₀ : ¬ Held s₀) {h : List (Entry σ α β)} {s : σ}
    (hr : Run step ok s₀ h s)
    (hstep : ∀ e ∈ h, (Held e.post ↔ P e ∨ (Q e ∧ Held e.pre))) : Held s ↔ Since P Q h := by
  induction hr with
  | nil => exact iff_of_false h₀ not_since_nil
  | @snoc l s s' a b _ _ _ ih =>
    rw [since_concat_iff, ← ih fun e he => hstep e (List.mem_append_left _ he)]
    exact hstep ⟨s, a, b, s'⟩ (List.mem_append_right _ List.mem_cons_self)

/-- A predicate that is set by `P` steps and kept by `Q` steps. -/
theorem Run.held_of_since {h : List (Entry σ α β)} {s : σ} (hr : Run step ok s₀ h s)
    (hstep : ∀ e ∈ h, (P e → Held e.post) ∧ (Q e → Held e.pre → Held e.post))
    (hsince : Since P Q h) : Held s := by
  induction hr with
  | nil => exact absurd hsince not_since_nil
  | @snoc l s s' a b _ _ _ ih =>
    obtain ⟨hset, hkept⟩ := hstep ⟨s, a, b, s'⟩ (List.mem_append_right _ List.mem_cons_self)
    rcases since_concat_iff.mp hsince with hp | ⟨hq, hl⟩
    · exact hset hp
    · exact hkept hq (ih (fun e he => hstep e (List.mem_append_left _ he)) hl)

/-- What every step preserves holds from then on. -/
theorem Run.kept (Held : σ → Prop) {h : List (Entry σ α β)} {s : σ} (hr : Run step ok s₀ h s)
    (hstep : ∀ e ∈ h, Held e.pre → Held e.post) {e : Entry σ α β} (he : e ∈ h)
    (hheld : Held e.pre) : Held s :=
  hr.held_of_since (P := fun e => Held e.pre) (fun e he => ⟨hstep e he, fun _ => hstep e he⟩)
    (since_true_iff.mpr ⟨e, he, hheld⟩)

/-- A statement about every step that comes after a `P` step with only `Q` steps in
between is one about the steps before which the predicate holds. -/
theorem Run.forall_between_iff (h₀ : ¬ Held s₀) {h : List (Entry σ α β)} {s : σ}
    (hr : Run step ok s₀ h s)
    (hstep : ∀ e ∈ h, (Held e.post ↔ P e ∨ (Q e ∧ Held e.pre))) {R : Entry σ α β → Prop} :
    (∀ h₁ x h₂ y h₃, h = h₁ ++ x :: (h₂ ++ y :: h₃) → P x → (∀ z ∈ h₂, Q z) → R y) ↔
      ∀ y ∈ h, Held y.pre → R y := by
  have hpre {l l' : List (Entry σ α β)} {y : Entry σ α β} (he : h = l ++ y :: l') :
      Held y.pre ↔ Since P Q l := by
    subst he
    exact hr.take.held_iff_since h₀ fun e he => hstep e (List.mem_append_left _ he)
  constructor
  · intro hall y hy hheld
    obtain ⟨l, l', he⟩ := List.append_of_mem hy
    obtain ⟨h₁, x, h₂, rfl, hp, hq⟩ := (hpre he).mp hheld
    exact hall h₁ x h₂ y l' (by rw [he, List.append_assoc, List.cons_append]) hp hq
  · intro hall h₁ x h₂ y h₃ he hp hq
    have he' : h = (h₁ ++ x :: h₂) ++ y :: h₃ := by rw [he, List.append_assoc, List.cons_append]
    refine hall y (he' ▸ List.mem_append_right _ List.mem_cons_self) ((hpre he').mpr ?_)
    exact ⟨h₁, x, h₂, rfl, hp, hq⟩

end Held

end Runs
