import Mathlib.Data.List.Induction

/-!
# Runs of a partial step function

A system is a step function `step : σ → α → Except ε (β × σ)`: an action either
faults, or yields an output and the next state. A `Run` records its steps in
order; every step has to satisfy `ok`, a condition on the state before it and on
its action. `ok := fun _ _ => True` gives all runs.

- `Run.invariant`: what holds initially and is preserved by the steps that meet
  `ok` holds in every state of a run;
- `Run.since`: what holds at the end of a run goes back to the step that made it hold;
- `exec`, `run_of_exec`, `reachable_of_exec`: a run computed by evaluation;
- `execTo`, `exists_run_of_execTo`: a run to a state that passes a check;
- `exec_ne_error_iff`: an evaluation avoids an error iff every action it comes to does;
- `exec_completes_iff`: an evaluation completes iff each of its steps does;
- `execIf`, `run_of_execIf`: the same with `ok` checked on the way;
- `exec_safe_iff`, `Run.safe_iff`: when a step keeps an invariant iff it meets
  `ok`, a run keeps it iff all its steps do;
- `exec_invariant`, `exists_run`: under an invariant no admitted action faults.
-/

namespace Runs

universe u v w x

variable {σ : Type u} {α : Type v} {β : Type w} {ε : Type x}

/-- One recorded step: the state before, the action, its output, the state
after. -/
structure Entry (σ : Type u) (α : Type v) (β : Type w) where
  pre : σ
  act : α
  out : β
  post : σ

/-- `Run step ok s₀ h s`: the steps `h` lead from `s₀` to `s`, none faults, and
each meets `ok`. -/
inductive Run (step : σ → α → Except ε (β × σ)) (ok : σ → α → Prop) (s₀ : σ) :
    List (Entry σ α β) → σ → Prop where
  | nil : Run step ok s₀ [] s₀
  | snoc {h : List (Entry σ α β)} {s s' : σ} {a : α} {b : β} :
      Run step ok s₀ h s → ok s a → step s a = .ok (b, s') →
      Run step ok s₀ (h ++ [⟨s, a, b, s'⟩]) s'

/-- A state reached by some run. -/
def Reachable (step : σ → α → Except ε (β × σ)) (ok : σ → α → Prop) (s₀ s : σ) : Prop :=
  ∃ h, Run step ok s₀ h s

variable {step : σ → α → Except ε (β × σ)} {ok : σ → α → Prop} {s₀ : σ}

theorem Reachable.refl : Reachable step ok s₀ s₀ := ⟨[], .nil⟩

theorem Reachable.tail {s s' : σ} {a : α} {b : β} (h : Reachable step ok s₀ s)
    (ha : ok s a) (hs : step s a = .ok (b, s')) : Reachable step ok s₀ s' := by
  obtain ⟨l, hl⟩ := h
  exact ⟨_, hl.snoc ha hs⟩

/-- **Invariance**: what holds initially and is preserved by every admitted
step holds at the end of every run. -/
theorem Run.invariant {Inv : σ → Prop} (h₀ : Inv s₀)
    (hstep : ∀ s a b s', Inv s → ok s a → step s a = .ok (b, s') → Inv s')
    {h : List (Entry σ α β)} {s : σ} (hr : Run step ok s₀ h s) : Inv s := by
  induction hr with
  | nil => exact h₀
  | snoc _ ha hs ih => exact hstep _ _ _ _ ih ha hs

theorem Reachable.invariant {Inv : σ → Prop} (h₀ : Inv s₀)
    (hstep : ∀ s a b s', Inv s → ok s a → step s a = .ok (b, s') → Inv s')
    {s : σ} (hr : Reachable step ok s₀ s) : Inv s := by
  obtain ⟨_, hl⟩ := hr
  exact hl.invariant h₀ hstep

/-- Every recorded step of a run starts in a state reached before it, meets
`ok`, and is a step of the system. -/
theorem Run.mem_entry {h : List (Entry σ α β)} {s : σ} (hr : Run step ok s₀ h s) :
    ∀ e ∈ h, Reachable step ok s₀ e.pre ∧ ok e.pre e.act ∧
      step e.pre e.act = .ok (e.out, e.post) := by
  induction hr with
  | nil => intro e he; exact absurd he List.not_mem_nil
  | @snoc l s s' a b hl ha hs ih =>
    intro e he
    rcases List.mem_append.mp he with he | he
    · exact ih e he
    · obtain rfl := List.mem_singleton.mp he
      exact ⟨⟨l, hl⟩, ha, hs⟩

/-- A run in two parts. -/
theorem Run.split {h₁ h₂ : List (Entry σ α β)} {s : σ} (hr : Run step ok s₀ (h₁ ++ h₂) s) :
    ∃ s₁, Run step ok s₀ h₁ s₁ ∧ Run step ok s₁ h₂ s := by
  induction h₂ using List.reverseRecOn generalizing s with
  | nil => exact ⟨s, by rwa [List.append_nil] at hr, .nil⟩
  | append_singleton h₂ e ih =>
    rw [← List.append_assoc] at hr
    generalize hh : h₁ ++ h₂ ++ [e] = h at hr
    cases hr with
    | nil => exact absurd hh (List.append_ne_nil_of_right_ne_nil _ (List.cons_ne_nil e []))
    | snoc hl hok hstep =>
      obtain ⟨rfl, hlast⟩ := List.append_inj' hh rfl
      obtain rfl := (List.cons.inj hlast).1
      obtain ⟨s₁, hr₁, hr₂⟩ := ih hl
      exact ⟨s₁, hr₁, hr₂.snoc hok hstep⟩

/-- What holds initially and after every step holds at the end. -/
theorem Run.last {P : σ → Prop} (h₀ : P s₀) {h : List (Entry σ α β)} {s : σ}
    (hr : Run step ok s₀ h s) (hall : ∀ e ∈ h, P e.post) : P s := by
  cases hr with
  | nil => exact h₀
  | @snoc _ s _ a b => exact hall ⟨_, a, b, _⟩ (List.mem_append_right _ List.mem_cons_self)

/-- A run whose steps meet another condition as well. -/
theorem Run.and {ok' : σ → α → Prop} {h : List (Entry σ α β)} {s : σ} (hr : Run step ok s₀ h s)
    (hall : ∀ e ∈ h, ok' e.pre e.act) : Run step (fun s a => ok s a ∧ ok' s a) s₀ h s := by
  induction hr with
  | nil => exact .nil
  | snoc _ ha hs ih =>
    rw [List.forall_mem_append, List.forall_mem_singleton] at hall
    exact (ih hall.1).snoc ⟨ha, hall.2⟩ hs

/-- **Since**: what does not hold initially, and holds at the end of a run, goes back to
the last step that made it hold, and the steps since then are quiet. `Since e s` is what
is known of that step in the state `s`. -/
theorem Run.since {Held : σ → Prop} {Since : Entry σ α β → σ → Prop} {Quiet : Entry σ α β → Prop}
    (h₀ : ¬ Held s₀)
    (hstep : ∀ s a b s', ok s a → step s a = .ok (b, s') → Held s' →
      Since ⟨s, a, b, s'⟩ s' ∨ (Held s ∧ Quiet ⟨s, a, b, s'⟩ ∧ ∀ e, Since e s → Since e s'))
    {h : List (Entry σ α β)} {s : σ} (hr : Run step ok s₀ h s) (hs : Held s) :
    ∃ h₁ e h₂, h = h₁ ++ e :: h₂ ∧ Since e s ∧ ∀ x ∈ h₂, Quiet x := by
  induction hr with
  | nil => exact absurd hs h₀
  | @snoc l s s' a b hl ha hstep' ih =>
    rcases hstep s a b s' ha hstep' hs with hsince | ⟨hheld, hquiet, hkeeps⟩
    · exact ⟨l, _, [], rfl, hsince, fun x hx => absurd hx List.not_mem_nil⟩
    · obtain ⟨h₁, e, h₂, rfl, hsince, hall⟩ := ih hheld
      refine ⟨h₁, e, h₂ ++ [⟨s, a, b, s'⟩], ?_, hkeeps e hsince, ?_⟩
      · rw [List.append_assoc]
        rfl
      · rw [List.forall_mem_append, List.forall_mem_singleton]
        exact ⟨hall, hquiet⟩

/-! ## Evaluation -/

/-- Perform the actions one after the other, dropping their outputs. -/
def exec (step : σ → α → Except ε (β × σ)) : σ → List α → Except ε σ
  | s, [] => .ok s
  | s, a :: as =>
    match step s a with
    | .error e => .error e
    | .ok (_, s') => exec step s' as

/-- An evaluation of admissible actions goes on with a run. -/
theorem run_of_exec {as : List α} {h : List (Entry σ α β)} {s s' : σ}
    (hok : ∀ s, ∀ a ∈ as, ok s a) (hr : Run step ok s₀ h s) (he : exec step s as = .ok s') :
    ∃ h', Run step ok s₀ (h ++ h') s' ∧ h'.map Entry.act = as := by
  induction as generalizing h s with
  | nil =>
    obtain rfl : s = s' := Except.ok.inj he
    exact ⟨[], by rwa [List.append_nil], rfl⟩
  | cons a as ih =>
    cases hstep : step s a with
    | error e => simp [exec, hstep] at he
    | ok r =>
      obtain ⟨b, s₁⟩ := r
      simp only [exec, hstep] at he
      obtain ⟨h', hr', hacts⟩ := ih (fun s a ha => hok s a (List.mem_cons_of_mem _ ha))
        (hr.snoc (hok s a List.mem_cons_self) hstep) he
      refine ⟨⟨s, a, b, s₁⟩ :: h', ?_, by rw [List.map_cons, hacts]⟩
      rwa [List.append_assoc] at hr'

/-- The same from the start. -/
theorem exists_run_of_exec {as : List α} {s : σ} (hok : ∀ s, ∀ a ∈ as, ok s a)
    (he : exec step s₀ as = .ok s) : ∃ h, Run step ok s₀ h s ∧ h.map Entry.act = as := by
  obtain ⟨h, hr, hacts⟩ := run_of_exec hok .nil he
  exact ⟨h, hr, hacts⟩

/-- The actions complete, in a state that passes the check. -/
def execTo (step : σ → α → Except ε (β × σ)) (s : σ) (as : List α) (p : σ → Bool) : Bool :=
  match exec step s as with
  | .error _ => false
  | .ok s' => p s'

/-- The action completes, with an output and a state that pass the check. -/
def stepTo (step : σ → α → Except ε (β × σ)) (s : σ) (a : α) (p : β → σ → Bool) : Bool :=
  match step s a with
  | .error _ => false
  | .ok (b, s') => p b s'

theorem exists_of_execTo {s : σ} {as : List α} {p : σ → Bool} (h : execTo step s as p = true) :
    ∃ s', exec step s as = .ok s' ∧ p s' = true := by
  unfold execTo at h
  split at h
  · cases h
  · exact ⟨_, ‹_›, h⟩

theorem exists_of_stepTo {s : σ} {a : α} {p : β → σ → Bool} (h : stepTo step s a p = true) :
    ∃ b s', step s a = .ok (b, s') ∧ p b s' = true := by
  unfold stepTo at h
  split at h
  · cases h
  · exact ⟨_, _, ‹_›, h⟩

/-- A run to a state that passes the check. -/
theorem exists_run_of_execTo {as : List α} {p : σ → Bool} (he : execTo step s₀ as p = true) :
    ∃ h s, Run step (fun _ _ => True) s₀ h s ∧ h.map Entry.act = as ∧ p s = true := by
  obtain ⟨s, hs, hp⟩ := exists_of_execTo he
  obtain ⟨h, hr, hacts⟩ := exists_run_of_exec (fun _ _ _ => trivial) hs
  exact ⟨h, s, hr, hacts, hp⟩

theorem reachable_of_exec {as : List α} {s s' : σ} (hok : ∀ s, ∀ a ∈ as, ok s a)
    (hs : Reachable step ok s₀ s) (he : exec step s as = .ok s') : Reachable step ok s₀ s' := by
  obtain ⟨h, hr⟩ := hs
  obtain ⟨h', hr', -⟩ := run_of_exec hok hr he
  exact ⟨h ++ h', hr'⟩

/-- Perform the actions one after the other as long as each meets `ok`. -/
def execIf (step : σ → α → Except ε (β × σ)) (ok : σ → α → Prop) [∀ s a, Decidable (ok s a)] :
    σ → List α → Option σ
  | s, [] => some s
  | s, a :: as =>
    if ok s a then
      match step s a with
      | .error _ => none
      | .ok (_, s') => execIf step ok s' as
    else none

/-- A checked evaluation goes on with a run. -/
theorem run_of_execIf [∀ s a, Decidable (ok s a)] {as : List α} {h : List (Entry σ α β)} {s s' : σ}
    (hr : Run step ok s₀ h s) (he : execIf step ok s as = some s') :
    ∃ h', Run step ok s₀ (h ++ h') s' ∧ h'.map Entry.act = as := by
  induction as generalizing h s with
  | nil =>
    obtain rfl : s = s' := Option.some.inj he
    exact ⟨[], by rwa [List.append_nil], rfl⟩
  | cons a as ih =>
    rw [execIf] at he
    by_cases hok : ok s a
    · rw [if_pos hok] at he
      cases hstep : step s a with
      | error e =>
        rw [hstep] at he
        cases he
      | ok r =>
        obtain ⟨b, s₁⟩ := r
        rw [hstep] at he
        obtain ⟨h', hr', hacts⟩ := ih (hr.snoc hok hstep) he
        refine ⟨⟨s, a, b, s₁⟩ :: h', ?_, by rw [List.map_cons, hacts]⟩
        rwa [List.append_assoc] at hr'
    · rw [if_neg hok] at he
      cases he

/-- Perform the actions one after the other as long as the steps pass a check. -/
def execAll (step : σ → α → Except ε (β × σ)) (p : Entry σ α β → Bool) : σ → List α → Option σ
  | s, [] => some s
  | s, a :: as =>
    match step s a with
    | .error _ => none
    | .ok (b, s') => if p ⟨s, a, b, s'⟩ then execAll step p s' as else none

/-- The run of such an evaluation. -/
theorem run_of_execAll {p : Entry σ α β → Bool} {as : List α} {h : List (Entry σ α β)} {s s' : σ}
    (hok : ∀ s, ∀ a ∈ as, ok s a) (hr : Run step ok s₀ h s) (hall : ∀ e ∈ h, p e = true)
    (he : execAll step p s as = some s') :
    ∃ h', Run step ok s₀ (h ++ h') s' ∧ h'.map Entry.act = as ∧ ∀ e ∈ h ++ h', p e = true := by
  induction as generalizing h s with
  | nil =>
    obtain rfl : s = s' := Option.some.inj he
    exact ⟨[], by rwa [List.append_nil], rfl, by rwa [List.append_nil]⟩
  | cons a as ih =>
    rw [execAll] at he
    cases hstep : step s a with
    | error e =>
      rw [hstep] at he
      cases he
    | ok r =>
      obtain ⟨b, s₁⟩ := r
      simp only [hstep] at he
      by_cases hp : p ⟨s, a, b, s₁⟩ = true
      · rw [if_pos hp] at he
        have hall' : ∀ e ∈ h ++ [⟨s, a, b, s₁⟩], p e = true := by
          rw [List.forall_mem_append, List.forall_mem_singleton]
          exact ⟨hall, hp⟩
        obtain ⟨h', hr', hacts, hchecked⟩ := ih (fun s a ha => hok s a (List.mem_cons_of_mem _ ha))
          (hr.snoc (hok s a List.mem_cons_self) hstep) hall' he
        refine ⟨⟨s, a, b, s₁⟩ :: h', ?_, by rw [List.map_cons, hacts], ?_⟩
        · rwa [List.append_assoc] at hr'
        · rwa [List.append_assoc] at hchecked
      · rw [if_neg hp] at he
        cases he

/-- A run whose steps pass the check, to a state that passes another one. -/
theorem exists_run_of_execAll {p : Entry σ α β → Bool} {q : σ → Bool} {as : List α}
    (hok : ∀ s, ∀ a ∈ as, ok s a) (he : (execAll step p s₀ as).any q = true) :
    ∃ h s, Run step ok s₀ h s ∧ h.map Entry.act = as ∧ (∀ e ∈ h, p e = true) ∧ q s = true := by
  obtain ⟨s, hs, hq⟩ := (Option.any_eq_true _ _).mp he
  obtain ⟨h, hr, hacts, hall⟩ :=
    run_of_execAll hok .nil (fun e he => absurd he List.not_mem_nil) hs
  exact ⟨h, s, hr, hacts, hall, hq⟩

/-- **An evaluation completes iff each of its steps does**, in the state that the
actions before it lead to. -/
theorem exec_completes_iff {as : List α} {s : σ} : (∃ s', exec step s as = .ok s') ↔
    ∀ pre a post s', as = pre ++ a :: post → exec step s pre = .ok s' →
      ∃ r, step s' a = .ok r := by
  induction as generalizing s with
  | nil =>
    refine iff_of_true ⟨s, rfl⟩ fun pre a post _ h => ?_
    simp at h
  | cons a as ih =>
    cases hstep : step s a with
    | error e =>
      refine iff_of_false (fun ⟨s', h⟩ => by simp [exec, hstep] at h) fun h => ?_
      obtain ⟨r, hr⟩ := h [] a as s rfl rfl
      exact nomatch hstep.symm.trans hr
    | ok r =>
      obtain ⟨b, s₁⟩ := r
      have hexec (l : List α) : exec step s (a :: l) = exec step s₁ l := by simp only [exec, hstep]
      rw [hexec, ih]
      -- the first action is the one in question, or it leads to the state of the rest
      constructor
      · intro h pre a' post s' heq hpre
        cases pre with
        | nil =>
          obtain ⟨rfl, rfl⟩ := List.cons.inj heq
          obtain rfl := Except.ok.inj hpre
          exact ⟨(b, s₁), hstep⟩
        | cons x pre =>
          obtain ⟨rfl, rfl⟩ := List.cons.inj heq
          exact h pre a' post s' rfl ((hexec pre).symm.trans hpre)
      · intro h pre a' post s' heq hpre
        exact h (a :: pre) a' post s' (by rw [heq, List.cons_append]) ((hexec pre).trans hpre)

/-- Two lists of actions, one after the other. -/
theorem exec_append (s : σ) (as as' : List α) :
    exec step s (as ++ as') = exec step s as >>= fun s' => exec step s' as' := by
  induction as generalizing s with
  | nil => rfl
  | cons a as ih =>
    rw [List.cons_append, exec, exec]
    cases step s a with
    | error e => rfl
    | ok r => exact ih r.2

/-- A run of one action is a step. -/
theorem exec_singleton {s s' : σ} {a : α} :
    exec step s [a] = .ok s' ↔ ∃ b, step s a = .ok (b, s') := by
  rw [exec]
  cases step s a with
  | error e => exact ⟨fun h => (nomatch h), fun ⟨_, h⟩ => (nomatch h)⟩
  | ok r =>
    constructor
    · intro h
      obtain rfl : r.2 = s' := Except.ok.inj h
      exact ⟨r.1, rfl⟩
    · rintro ⟨b, h⟩
      cases h
      rfl

/-- A run is an evaluation of its actions. -/
theorem Run.exec_eq {h : List (Entry σ α β)} {s : σ} (hr : Run step ok s₀ h s) :
    exec step s₀ (h.map Entry.act) = .ok s := by
  induction hr with
  | nil => rfl
  | @snoc l s s' a b _ _ hs ih =>
    rw [List.map_append, exec_append, ih]
    exact exec_singleton.mpr ⟨b, hs⟩

/-- The steps determine the state. -/
theorem Run.unique {h : List (Entry σ α β)} {s s' : σ} (hr : Run step ok s₀ h s)
    (hr' : Run step ok s₀ h s') : s = s' :=
  Except.ok.inj (hr.exec_eq.symm.trans hr'.exec_eq)

/-- So do the actions alone, and the steps with it. -/
theorem Run.history_unique {ok' : σ → α → Prop} {h h' : List (Entry σ α β)} {s s' : σ}
    (hr : Run step ok s₀ h s) (hr' : Run step ok' s₀ h' s')
    (hacts : h.map Entry.act = h'.map Entry.act) : h = h' := by
  induction hr generalizing h' s' with
  | nil =>
    exact (List.map_eq_nil_iff.mp hacts.symm).symm
  | @snoc l s s₁ a b hl _ hs ih =>
    cases hr' with
    | nil => exact absurd hacts (by simp)
    | @snoc l' t t₁ a' b' hl' _ ht =>
      rw [List.map_append, List.map_append] at hacts
      obtain ⟨hl₁, hlast⟩ := List.append_inj' hacts rfl
      obtain rfl : a = a' := (List.cons.inj hlast).1
      obtain rfl := ih hl' hl₁
      obtain rfl : s = t := Except.ok.inj (hl.exec_eq.symm.trans hl'.exec_eq)
      obtain ⟨rfl, rfl⟩ := Prod.mk.inj (Except.ok.inj (hs.symm.trans ht))
      rfl

/-- An evaluation fails with an error iff a run leads to an action that does. -/
theorem exec_error_iff_run {as : List α} {e : ε} : exec step s₀ as = .error e ↔
    ∃ h s a post, Run step (fun _ _ => True) s₀ h s ∧ as = h.map Entry.act ++ a :: post ∧
      step s a = .error e := by
  constructor
  · have hgen {h : List (Entry σ α β)} {s : σ} (hr : Run step (fun _ _ => True) s₀ h s) :
        exec step s as = .error e → ∃ h' s' a post, Run step (fun _ _ => True) s₀ (h ++ h') s' ∧
          as = h'.map Entry.act ++ a :: post ∧ step s' a = .error e := by
      induction as generalizing h s with
      | nil => exact fun he => nomatch he
      | cons a as ih =>
        intro he
        cases hstep : step s a with
        | error e' =>
          rw [exec, hstep] at he
          refine ⟨[], s, a, as, by rwa [List.append_nil], rfl, ?_⟩
          rw [hstep, Except.error.inj he]
        | ok r =>
          rw [exec, hstep] at he
          obtain ⟨h', s', a', post, hr', rfl, hfail⟩ := ih (hr.snoc trivial hstep) he
          refine ⟨⟨s, a, r.1, r.2⟩ :: h', s', a', post, ?_, rfl, hfail⟩
          rwa [List.append_assoc] at hr'
    exact hgen .nil
  · rintro ⟨h, s, a, post, hr, rfl, hfail⟩
    rw [exec_append, hr.exec_eq]
    show exec step s (a :: post) = .error e
    rw [exec, hfail]

/-- An evaluation avoids an error iff every action that a run leads to does. -/
theorem exec_ne_error_iff {as : List α} {e : ε} {P : List (Entry σ α β) → σ → α → Prop}
    (hstep : ∀ h s a post, Run step (fun _ _ => True) s₀ h s → as = h.map Entry.act ++ a :: post →
      (step s a = .error e ↔ ¬ P h s a)) :
    exec step s₀ as ≠ .error e ↔ ∀ h s a post, Run step (fun _ _ => True) s₀ h s →
      as = h.map Entry.act ++ a :: post → P h s a := by
  rw [Ne, exec_error_iff_run]
  constructor
  · intro hno h s a post hr he
    by_contra hbad
    exact hno ⟨h, s, a, post, hr, he, (hstep h s a post hr he).mpr hbad⟩
  · rintro hall ⟨h, s, a, post, hr, he, hfail⟩
    exact (hstep h s a post hr he).mp hfail (hall h s a post hr he)

/-- **A safe evaluation**: when a step completes and keeps the invariant iff it
meets `ok`, all of an evaluation completes and keeps the invariant iff each of its
steps meets `ok`. -/
theorem exec_safe_iff {Inv : σ → Prop} {as : List α}
    (hstep : ∀ s a, Inv s → ((∃ r, step s a = .ok r ∧ Inv r.2) ↔ ok s a)) (h₀ : Inv s₀) :
    (∀ pre, pre <+: as → ∃ s, exec step s₀ pre = .ok s ∧ Inv s) ↔
      ∀ pre a post s, as = pre ++ a :: post → exec step s₀ pre = .ok s → ok s a := by
  constructor
  · intro h pre a post s heq hs
    obtain ⟨s₁, hs₁, hinv⟩ := h pre ⟨a :: post, heq.symm⟩
    obtain rfl : s = s₁ := Except.ok.inj (hs.symm.trans hs₁)
    obtain ⟨s', hs', hinv'⟩ := h (pre ++ [a]) ⟨post, by rw [heq, List.append_assoc]; rfl⟩
    rw [exec_append, hs] at hs'
    obtain ⟨b, hr⟩ := exec_singleton.mp hs'
    exact (hstep s a hinv).mp ⟨_, hr, hinv'⟩
  · intro h pre
    induction pre using List.reverseRecOn with
    | nil => exact fun _ => ⟨s₀, rfl, h₀⟩
    | append_singleton pre a ih =>
      rintro ⟨post, heq⟩
      rw [List.append_assoc] at heq
      obtain ⟨s, hs, hinv⟩ := ih ⟨[a] ++ post, heq⟩
      obtain ⟨r, hr, hinv'⟩ := (hstep s a hinv).mpr (h pre a post s heq.symm hs)
      refine ⟨r.2, ?_, hinv'⟩
      rw [exec_append, hs]
      exact exec_singleton.mpr ⟨r.1, hr⟩

/-- The same for a run, whose steps have completed. -/
theorem Run.safe_iff {Inv : σ → Prop} {ok' : σ → α → Prop}
    (hstep : ∀ s a b s', Inv s → step s a = .ok (b, s') → (Inv s' ↔ ok' s a)) (h₀ : Inv s₀)
    {h : List (Entry σ α β)} {s : σ} (hr : Run step ok s₀ h s) :
    (∀ e ∈ h, Inv e.post) ↔ ∀ e ∈ h, ok' e.pre e.act := by
  induction hr with
  | nil =>
    refine iff_of_true ?_ ?_
    · exact fun e he => absurd he List.not_mem_nil
    · exact fun e he => absurd he List.not_mem_nil
  | @snoc l s s' a b hl _ hs ih =>
    -- the state before the step is the first one or the one after the step before
    have hprev : (∀ e ∈ l, Inv e.post) → Inv s := by
      intro hall
      cases hl with
      | nil => exact h₀
      | snoc => exact hall _ (List.mem_append_right _ List.mem_cons_self)
    rw [List.forall_mem_append, List.forall_mem_append, List.forall_mem_singleton,
      List.forall_mem_singleton, ← ih]
    exact and_congr_right fun hall => hstep s a b s' (hprev hall) hs

/-- **Invariance of evaluation**: when every admitted action completes and keeps
the invariant, every list of admitted actions does. -/
theorem exec_invariant {Inv : σ → Prop} {A : α → Prop}
    (hstep : ∀ s a, Inv s → A a → ∃ b s', step s a = .ok (b, s') ∧ Inv s') {as : List α} {s : σ}
    (hs : Inv s) (has : ∀ a ∈ as, A a) : ∃ s', exec step s as = .ok s' ∧ Inv s' := by
  induction as generalizing s with
  | nil => exact ⟨s, rfl, hs⟩
  | cons a as ih =>
    obtain ⟨b, s₁, hb, hs₁⟩ := hstep s a hs (has a List.mem_cons_self)
    obtain ⟨s', he, hs'⟩ := ih hs₁ fun x hx => has x (List.mem_cons_of_mem _ hx)
    exact ⟨s', by simp only [exec, hb, he], hs'⟩

/-- The run of a list of admitted actions. -/
theorem exists_run {Inv : σ → Prop} {A : α → Prop}
    (hstep : ∀ s a, Inv s → A a → ∃ b s', step s a = .ok (b, s') ∧ Inv s') (h₀ : Inv s₀)
    {as : List α} (has : ∀ a ∈ as, A a) :
    ∃ h s, Run step (fun _ a => A a) s₀ h s ∧ h.map Entry.act = as ∧ Inv s := by
  induction as using List.reverseRecOn with
  | nil => exact ⟨[], s₀, .nil, rfl, h₀⟩
  | append_singleton as a ih =>
    obtain ⟨h, s, hr, hacts, hs⟩ := ih fun x hx => has x (List.mem_append_left _ hx)
    obtain ⟨b, s', hb, hs'⟩ := hstep s a hs (has a (by simp))
    refine ⟨_, s', hr.snoc (has a (by simp)) hb, ?_, hs'⟩
    rw [List.map_append, hacts]
    rfl

/-! ## Silent steps -/

/-- What is seen of a step. -/
def Entry.seen (e : Entry σ α β) : α × β := (e.act, e.out)

/-- The steps that are not silent. -/
def loud (silent : α → Bool) (h : List (Entry σ α β)) : List (Entry σ α β) :=
  h.filter fun e => !silent e.act

theorem loud_concat (silent : α → Bool) (h : List (Entry σ α β)) (e : Entry σ α β) :
    loud silent (h ++ [e]) = if silent e.act then loud silent h else loud silent h ++ [e] := by
  rw [loud, List.filter_append]
  cases hs : silent e.act with
  | true => simp [loud, hs]
  | false => simp [loud, hs]

/-- **Erasure.** When silent steps do not leave a relation between states, and the others
have the same outputs in related states, a run without its silent steps looks the same. -/
theorem Run.erase {R : σ → σ → Prop} {silent : α → Bool} {ok' : σ → α → Prop}
    {h : List (Entry σ α β)} {s : σ} (hr : Run step ok s₀ h s) (h₀ : R s₀ s₀)
    (hsilent : ∀ s a b s' t, R s t → ok s a → silent a = true → step s a = .ok (b, s') → R s' t)
    (hloud : ∀ s a b s' t, R s t → ok s a → silent a = false → step s a = .ok (b, s') →
      ok' t a ∧ ∃ t', step t a = .ok (b, t') ∧ R s' t') :
    ∃ h' t, Run step ok' s₀ h' t ∧ R s t ∧
      h'.map Entry.seen = (loud silent h).map Entry.seen := by
  induction hr with
  | nil => exact ⟨[], s₀, .nil, h₀, rfl⟩
  | @snoc l s s' a b _ hok hs ih =>
    obtain ⟨h', t, hr', hR, hseen⟩ := ih
    rw [loud_concat]
    cases hsil : silent a with
    | true => exact ⟨h', t, hr', hsilent s a b s' t hR hok hsil hs, hseen⟩
    | false =>
      obtain ⟨hok', t', ht, hR'⟩ := hloud s a b s' t hR hok hsil hs
      refine ⟨_, t', hr'.snoc hok' ht, hR', ?_⟩
      rw [if_neg Bool.false_ne_true, List.map_append, List.map_append, hseen]
      rfl

end Runs
