import Mathlib.Logic.Function.Basic
import UnoppServer.Lib.Runs

/-!
# Threads that share a connection

Every thread runs a `Prog`: it locks and unlocks mutexes, and works on one connection, on
which one transaction may be open. The threads take their steps in any order. What a
statement answers, or whether it throws, is chosen by the environment. Programs are written
as `Code`, with the scopes of locks and transactions.

- `Alone s a`: the step does not come upon the transaction of another thread;
- `Prog.Orderly m₀ guarded`: the thread unlocks what it locks, ends the transactions that it
  begins, and has the mutex `m₀` whenever it uses the connection (if it is `guarded`);
- `alone_of_run`: steps are alone when all threads but one are guarded, and that one keeps
  off the connection while `m₀` is locked.
-/

namespace Locks

open Runs

variable {M α β : Type}

/-- What the connection answers to a statement. -/
inductive Answer where
  | throws
  | done
  | row (columns : List String)
  deriving DecidableEq, Repr

/-- What a thread does, and how it goes on. -/
inductive Prog (M : Type) where
  | done
  | lock (m : M) (next : Prog M)
  | unlock (m : M) (next : Prog M)
  | prepare (next failed : Prog M)
  | start (next failed : Prog M)
  | execute (next : Answer → Prog M)
  | commit (next failed : Prog M)
  | rollback (next : Prog M)

namespace Prog

/-- The thread is about to begin a transaction. -/
def starts : Prog M → Bool
  | .start _ _ => true
  | _ => false

/-- The thread is about to begin or to end a transaction, or to execute a statement. -/
def uses : Prog M → Bool
  | .start _ _ | .execute _ | .commit _ _ | .rollback _ => true
  | _ => false

/-- The thread is about to lock the mutex. -/
def locks [DecidableEq M] (m₀ : M) : Prog M → Bool
  | .lock m _ => m = m₀
  | _ => false

end Prog

/-! ## Code -/

/-- Code that returns a value or throws, given what comes after either. -/
def Code (M α : Type) : Type := (α → Prog M) → Prog M → Prog M

namespace Code

instance : Monad (Code M) where
  pure a := fun next _ => next a
  bind c f := fun next failed => c (fun a => f a next failed) failed

/-- A thread that runs the code. -/
def run (c : Code M α) : Prog M := c (fun _ => .done) .done

/-- Code that throws. -/
def throws : Code M α := fun _ failed => failed

/-- `try` and `catch`. -/
def catching (c handler : Code M α) : Code M α := fun next failed => c next (handler next failed)

/-- A `lock_guard` and its scope. -/
def locked (m : M) (c : Code M α) : Code M α :=
  fun next failed => .lock m (c (fun a => .unlock m (next a)) (.unlock m failed))

/-- A `Statement` with its parameters, or a `reset` of it. -/
def prepare : Code M Unit := fun next failed => .prepare (next ()) failed

/-- `executeStep`, with the columns of a row. -/
def executeStep : Code M (Option (List String)) :=
  fun next failed => .execute fun
    | .throws => failed
    | .done => next none
    | .row columns => next (some columns)

/-- `exec`. -/
def exec : Code M Unit := do
  let _ ← executeStep

/-- A `Transaction` and its scope, which ends with `commit` or with what it returns alone.
Without a `commit` that goes through, there is a rollback. -/
def transaction (c : Code M (Bool × α)) : Code M α :=
  fun next failed =>
    .start (c (fun r =>
      if r.1 then .commit (next r.2) (.rollback failed) else .rollback (next r.2))
      (.rollback failed)) failed

/-- `while (executeStep())`, with at most `n` rows. -/
def rows (body : List String → Code M Unit) : Nat → Code M Unit
  | 0 => pure ()
  | n + 1 => do
    match ← executeStep with
    | none => return ()
    | some columns =>
      body columns
      rows body n

/-- A loop of `n` rounds. -/
def times (body : Code M Unit) : Nat → Code M Unit
  | 0 => pure ()
  | n + 1 => do
    body
    times body n

end Code

/-! ## Steps -/

/-- Who has locked each mutex, whose transaction is open, and what the threads do. -/
structure System (M : Type) where
  owner : M → Option Nat
  opened : Option Nat
  threads : Nat → Prog M

/-- A thread begins a call, or goes on with the answer that it gets. -/
inductive Act (M : Type) where
  | call (thread : Nat) (p : Prog M)
  | go (thread : Nat) (answer : Answer)

/-- No thread is in a call. -/
def System.idle : System M := ⟨fun _ => none, none, fun _ => .done⟩

/-- What the thread does from now on. -/
def System.next (s : System M) (thread : Nat) (p : Prog M) : System M :=
  { s with threads := Function.update s.threads thread p }

/-- One step. There is no step of a thread that waits for a mutex. A second `BEGIN` throws,
and so does a `COMMIT` without a transaction. -/
def step [DecidableEq M] (s : System M) : Act M → Except Unit (Unit × System M)
  | .call i p =>
    match s.threads i with
    | .done => .ok ((), s.next i p)
    | _ => .error ()
  | .go i answer =>
    match s.threads i with
    | .done => .error ()
    | .lock m next =>
      match s.owner m with
      | some _ => .error ()
      | none => .ok ((), { s with owner := Function.update s.owner m (some i) }.next i next)
    | .unlock m next => .ok ((), { s with owner := Function.update s.owner m none }.next i next)
    | .prepare next failed => .ok ((), s.next i (if answer = .throws then failed else next))
    | .start next failed =>
      if s.opened ≠ none ∨ answer = .throws then .ok ((), s.next i failed)
      else .ok ((), { s with opened := some i }.next i next)
    | .execute next => .ok ((), s.next i (next answer))
    | .commit next failed =>
      if s.opened = none ∨ answer = .throws then .ok ((), s.next i failed)
      else .ok ((), { s with opened := none }.next i next)
    | .rollback next => .ok ((), { s with opened := none }.next i next)

/-- A `BEGIN` is a step, also when it throws. -/
theorem exists_step_of_starts [DecidableEq M] {s : System M} {i : Nat} (answer : Answer)
    (h : (s.threads i).starts = true) : ∃ s', step s (.go i answer) = .ok ((), s') := by
  unfold step
  cases hp : s.threads i with
  | start next failed =>
    simp only [hp]
    split
    · exact ⟨_, rfl⟩
    · exact ⟨_, rfl⟩
  | _ =>
    rw [hp] at h
    cases h

/-- **Alone.** A transaction begins when none is open, and nothing is executed in the
transaction of another thread. -/
def Alone (s : System M) : Act M → Prop
  | .call _ _ => True
  | .go i _ => ((s.threads i).starts = true → s.opened = none) ∧
    ((s.threads i).uses = true → s.opened = none ∨ s.opened = some i)

/-! ## Order -/

section Order

variable [DecidableEq M]

/-- What is left of a thread that has locked `m₀` or not, and has an open transaction or
not. -/
def Prog.Orderly (m₀ : M) (guarded : Bool) : Bool → Bool → Prog M → Prop
  | held, opened, .done => held = false ∧ opened = false
  | held, opened, .lock m next =>
    if m = m₀ then held = false ∧ opened = false ∧ next.Orderly m₀ guarded true false
    else next.Orderly m₀ guarded held opened
  | held, opened, .unlock m next =>
    if m = m₀ then held = true ∧ opened = false ∧ next.Orderly m₀ guarded false false
    else next.Orderly m₀ guarded held opened
  | held, opened, .prepare next failed =>
    next.Orderly m₀ guarded held opened ∧ failed.Orderly m₀ guarded held opened
  | held, opened, .start next failed =>
    (guarded = true → held = true) ∧ opened = false ∧ next.Orderly m₀ guarded held true ∧
      failed.Orderly m₀ guarded held false
  | held, opened, .execute next =>
    (guarded = true → held = true) ∧ ∀ answer, (next answer).Orderly m₀ guarded held opened
  | held, opened, .commit next failed =>
    (guarded = true → held = true) ∧ opened = true ∧ next.Orderly m₀ guarded held false ∧
      failed.Orderly m₀ guarded held true
  | held, opened, .rollback next =>
    (guarded = true → held = true) ∧ opened = true ∧ next.Orderly m₀ guarded held false

variable {m₀ : M} {guarded held opened : Bool} {p : Prog M}

/-- A guarded thread uses the connection with the mutex. -/
theorem Prog.Orderly.held_of_uses (h : p.Orderly m₀ true held opened) (huses : p.uses = true) :
    held = true := by
  cases p with
  | start | execute | commit | rollback => exact h.1 rfl
  | done | lock | unlock | prepare => cases huses

/-- A guarded thread has the mutex as long as its transaction is open. -/
theorem Prog.Orderly.held_of_opened (h : p.Orderly m₀ true held true) : held = true := by
  induction p with
  | done => cases h.2
  | lock m next ih =>
    unfold Orderly at h
    split at h
    · cases h.2.1
    · exact ih h
  | unlock m next ih =>
    unfold Orderly at h
    split at h
    · cases h.2.1
    · exact ih h
  | prepare next failed ih => exact ih h.1
  | start | execute | commit | rollback => exact h.1 rfl

/-- The threads are orderly, all but `w` are guarded, and `m₀` is free as long as the
transaction of `w` is open. -/
structure Ordered (m₀ : M) (w : Nat) (s : System M) : Prop where
  orderly : ∀ i, (s.threads i).Orderly m₀ (decide (i ≠ w)) (decide (s.owner m₀ = some i))
    (decide (s.opened = some i))
  apart : s.opened = some w → s.owner m₀ = none

/-- The thread `w` uses the connection when `m₀` is free, and nobody locks `m₀` as long as
its transaction is open. -/
def KeepsOff (m₀ : M) (w : Nat) (s : System M) : Act M → Prop
  | .call _ _ => True
  | .go i _ => (i = w → (s.threads i).uses = true → s.owner m₀ = none) ∧
    ((s.threads i).locks m₀ = true → s.opened ≠ some w)

instance (m₀ : M) (w : Nat) (s : System M) (a : Act M) : Decidable (KeepsOff m₀ w s a) :=
  match a with
  | .call _ _ => .isTrue trivial
  | .go _ _ => inferInstanceAs (Decidable (_ ∧ _))

/-- A thread begins with orderly code. -/
def Begins (m₀ : M) (w : Nat) : Act M → Prop
  | .call i p => p.Orderly m₀ (decide (i ≠ w)) false false
  | .go _ _ => True

section Step

variable {w i : Nat} {s s' : System M} {a : Act M} {answer : Answer}

theorem Ordered.owner_of_uses (hs : Ordered m₀ w s) (hi : i ≠ w)
    (huses : (s.threads i).uses = true) : s.owner m₀ = some i := by
  have horderly := hs.orderly i
  rw [decide_eq_true hi] at horderly
  exact of_decide_eq_true (horderly.held_of_uses huses)

theorem Ordered.owner_of_opened (hs : Ordered m₀ w s) (hi : i ≠ w) (hopened : s.opened = some i) :
    s.owner m₀ = some i := by
  have horderly := hs.orderly i
  rw [decide_eq_true hi, decide_eq_true hopened] at horderly
  exact of_decide_eq_true horderly.held_of_opened

/-- **Steps are alone** in order. -/
theorem Ordered.alone (hs : Ordered m₀ w s) (hoff : KeepsOff m₀ w s a) : Alone s a := by
  cases a with
  | call => trivial
  | go i answer =>
    have huses : (s.threads i).uses = true → s.opened = none ∨ s.opened = some i := by
      intro huses
      cases hopened : s.opened with
      | none => exact .inl rfl
      | some j =>
        refine .inr (congrArg some ?_)
        by_contra hji
        -- one of the two has `m₀`, and the other one as well, or else it is free
        by_cases hi : i = w
        · have hj : j ≠ w := fun hj => hji (hj.trans hi.symm)
          cases (hoff.1 hi huses).symm.trans (hs.owner_of_opened hj hopened)
        · have howner := hs.owner_of_uses hi huses
          by_cases hj : j = w
          · cases (hs.apart (hj ▸ hopened)).symm.trans howner
          · exact hji (Option.some.inj ((hs.owner_of_opened hj hopened).symm.trans howner))
    refine ⟨fun hstarts => ?_, huses⟩
    have horderly := hs.orderly i
    cases hp : s.threads i with
    | start next failed =>
      rw [hp] at horderly huses
      rcases huses rfl with hnone | hsome
      · exact hnone
      · exact absurd hsome (of_decide_eq_false horderly.2.1)
    | _ =>
      rw [hp] at hstarts
      cases hstarts

/-- The threads stay orderly when one of them goes on, and the others keep what they have. -/
theorem Ordered.next {owner : M → Option Nat} {opened : Option Nat} {p : Prog M}
    (hs : Ordered m₀ w s) (hp : p.Orderly m₀ (decide (i ≠ w)) (decide (owner m₀ = some i))
      (decide (opened = some i)))
    (howner : ∀ j, j ≠ i → (owner m₀ = some j ↔ s.owner m₀ = some j))
    (hopened : ∀ j, j ≠ i → (opened = some j ↔ s.opened = some j))
    (hapart : opened = some w → owner m₀ = none) :
    Ordered m₀ w (System.next ⟨owner, opened, s.threads⟩ i p) := by
  refine ⟨fun j => ?_, hapart⟩
  show (Function.update s.threads i p j).Orderly m₀ _ (decide (owner m₀ = some j))
    (decide (opened = some j))
  by_cases hj : j = i
  · rw [hj, Function.update_self]
    exact hp
  · rw [Function.update_of_ne hj, decide_eq_decide.mpr (howner j hj),
      decide_eq_decide.mpr (hopened j hj)]
    exact hs.orderly j

/-- A thread that holds `m₀` or has the transaction is the only one. -/
theorem eq_some_iff_of_ne {o o' : Option Nat} (ho : o = none ∨ o = some i)
    (ho' : o' = none ∨ o' = some i) {j : Nat} (hj : j ≠ i) : o' = some j ↔ o = some j := by
  have hne {o : Option Nat} (ho : o = none ∨ o = some i) : o ≠ some j := by
    rintro rfl
    rcases ho with ho | ho
    · cases ho
    · exact hj (Option.some.inj ho)
  exact iff_of_false (hne ho') (hne ho)

/-- Locking a free mutex keeps the order, when a transaction is not open under it. -/
theorem Ordered.lock {m : M} {next : Prog M} (hs : Ordered m₀ w s)
    (hp : s.threads i = .lock m next) (hfree : s.owner m = none)
    (hoff : (s.threads i).locks m₀ = true → s.opened ≠ some w) :
    Ordered m₀ w ({ s with owner := Function.update s.owner m (some i) }.next i next) := by
  have horderly := hs.orderly i
  rw [hp] at horderly hoff
  unfold Prog.Orderly at horderly
  split at horderly
  · rename_i hm
    subst hm
    obtain ⟨-, hclosed, horderly⟩ := horderly
    have howner : Function.update s.owner m (some i) m = some i := Function.update_self ..
    refine hs.next ?_ (fun j hj => eq_some_iff_of_ne (.inl hfree) (.inr howner) hj)
      (fun _ _ => .rfl) fun hw => absurd hw (hoff (decide_eq_true rfl))
    rw [decide_eq_true howner, hclosed]
    exact horderly
  · rename_i hm
    have howner : Function.update s.owner m (some i) m₀ = s.owner m₀ :=
      Function.update_of_ne (Ne.symm hm) ..
    refine hs.next ?_ (fun j _ => by rw [howner]) (fun _ _ => .rfl) (howner.symm ▸ hs.apart)
    rw [howner]
    exact horderly

/-- Unlocking keeps the order, as no transaction of the owner is open any more. -/
theorem Ordered.unlock {m : M} {next : Prog M} (hs : Ordered m₀ w s)
    (hp : s.threads i = .unlock m next) :
    Ordered m₀ w ({ s with owner := Function.update s.owner m none }.next i next) := by
  have horderly := hs.orderly i
  rw [hp] at horderly
  unfold Prog.Orderly at horderly
  split at horderly
  · rename_i hm
    subst hm
    obtain ⟨hheld, hclosed, horderly⟩ := horderly
    have howner : Function.update s.owner m none m = none := Function.update_self ..
    refine hs.next ?_ (fun j hj => eq_some_iff_of_ne (.inr (of_decide_eq_true hheld))
      (.inl howner) hj) (fun _ _ => .rfl) fun _ => howner
    rw [howner, hclosed]
    exact horderly
  · rename_i hm
    have howner : Function.update s.owner m none m₀ = s.owner m₀ :=
      Function.update_of_ne (Ne.symm hm) ..
    refine hs.next ?_ (fun j _ => by rw [howner]) (fun _ _ => .rfl) (howner.symm ▸ hs.apart)
    rw [howner]
    exact horderly

/-- A transaction begins. -/
theorem Ordered.opens {p : Prog M} (hs : Ordered m₀ w s)
    (hp : p.Orderly m₀ (decide (i ≠ w)) (decide (s.owner m₀ = some i)) true)
    (hnone : s.opened = none) (hfree : i = w → s.owner m₀ = none) :
    Ordered m₀ w ({ s with opened := some i }.next i p) := by
  refine hs.next ?_ (fun _ _ => .rfl) (fun j hj => eq_some_iff_of_ne (.inl hnone) (.inr rfl) hj)
    fun hw => hfree (Option.some.inj hw)
  rwa [decide_eq_true rfl]

/-- The transaction of the thread ends. -/
theorem Ordered.closes {p : Prog M} (hs : Ordered m₀ w s)
    (hp : p.Orderly m₀ (decide (i ≠ w)) (decide (s.owner m₀ = some i)) false)
    (hopen : s.opened = some i) : Ordered m₀ w ({ s with opened := none }.next i p) :=
  hs.next hp (fun _ _ => .rfl) (fun _ hj => eq_some_iff_of_ne (.inr hopen) (.inl rfl) hj)
    fun hw => nomatch hw

/-- The thread keeps what it has. -/
theorem Ordered.keeps {p : Prog M} (hs : Ordered m₀ w s)
    (hp : p.Orderly m₀ (decide (i ≠ w)) (decide (s.owner m₀ = some i))
      (decide (s.opened = some i))) : Ordered m₀ w (s.next i p) :=
  hs.next hp (fun _ _ => .rfl) (fun _ _ => .rfl) hs.apart

/-- **Step lemma.** Threads stay orderly. -/
theorem Ordered.step (hs : Ordered m₀ w s) (hbegins : Begins m₀ w a) (hoff : KeepsOff m₀ w s a)
    {out : Unit} (h : step s a = .ok (out, s')) : Ordered m₀ w s' := by
  have halone := hs.alone hoff
  cases a with
  | call i p =>
    have horderly := hs.orderly i
    unfold Locks.step at h
    cases hp : s.threads i with
    | done =>
      simp only [hp] at h horderly
      obtain rfl := (Prod.mk.inj (Except.ok.inj h)).2
      obtain ⟨hheld, hclosed⟩ := horderly
      refine hs.keeps ?_
      rw [hheld, hclosed]
      exact hbegins
    | _ =>
      simp only [hp] at h
      cases h
  | go i answer =>
    have horderly := hs.orderly i
    unfold Locks.step at h
    cases hp : s.threads i with
    | done =>
      simp only [hp] at h
      cases h
    | lock m next =>
      simp only [hp] at h
      split at h
      · cases h
      · obtain rfl := (Prod.mk.inj (Except.ok.inj h)).2
        exact hs.lock hp ‹_› hoff.2
    | unlock m next =>
      simp only [hp] at h
      obtain rfl := (Prod.mk.inj (Except.ok.inj h)).2
      exact hs.unlock hp
    | prepare next failed =>
      simp only [hp] at h horderly
      obtain rfl := (Prod.mk.inj (Except.ok.inj h)).2
      refine hs.keeps ?_
      split
      · exact horderly.2
      · exact horderly.1
    | start next failed =>
      simp only [hp] at h horderly
      obtain ⟨-, hclosed, hnext, hfailed⟩ := horderly
      split at h
      · obtain rfl := (Prod.mk.inj (Except.ok.inj h)).2
        exact hs.keeps (hclosed ▸ hfailed)
      · obtain rfl := (Prod.mk.inj (Except.ok.inj h)).2
        exact hs.opens hnext (halone.1 (by rw [hp]; rfl)) fun hi => hoff.1 hi (by rw [hp]; rfl)
    | execute next =>
      simp only [hp] at h horderly
      obtain rfl := (Prod.mk.inj (Except.ok.inj h)).2
      exact hs.keeps (horderly.2 answer)
    | commit next failed =>
      simp only [hp] at h horderly
      obtain ⟨-, hopen, hnext, hfailed⟩ := horderly
      split at h
      · obtain rfl := (Prod.mk.inj (Except.ok.inj h)).2
        exact hs.keeps (hopen ▸ hfailed)
      · obtain rfl := (Prod.mk.inj (Except.ok.inj h)).2
        exact hs.closes hnext (of_decide_eq_true hopen)
    | rollback next =>
      simp only [hp] at h horderly
      obtain rfl := (Prod.mk.inj (Except.ok.inj h)).2
      exact hs.closes horderly.2.2 (of_decide_eq_true horderly.2.1)

end Step

theorem ordered_idle {w : Nat} : Ordered m₀ w (System.idle : System M) :=
  ⟨fun _ => ⟨decide_eq_false (fun h => nomatch h), decide_eq_false (fun h => nomatch h)⟩,
    fun h => nomatch h⟩

/-- **Run lemma.** Every step of a run is alone when the threads begin with orderly code,
and `w` keeps off the connection. -/
theorem alone_of_run {w : Nat} {calls : Act M → Prop} (hcalls : ∀ a, calls a → Begins m₀ w a)
    {h : List (Entry (System M) (Act M) Unit)} {s : System M}
    (hr : Run step (fun _ a => calls a) System.idle h s)
    (hoff : ∀ e ∈ h, KeepsOff m₀ w e.pre e.act) : ∀ e ∈ h, Alone e.pre e.act := by
  intro e he
  obtain ⟨hreach, -, -⟩ := (hr.and hoff).mem_entry e he
  have hordered : Ordered m₀ w e.pre := hreach.invariant ordered_idle
    fun s a out s' hs hok hstep => hs.step (hcalls a hok.1) hok.2 hstep
  exact hordered.alone (hoff e he)

/-! ## Orderly code -/

/-- Code that leaves the mutex `m₀` and the transaction as they are. -/
def Code.Keeps (m₀ : M) (guarded held opened : Bool) (c : Code M α) : Prop :=
  ∀ next failed, (∀ a, (next a).Orderly m₀ guarded held opened) →
    failed.Orderly m₀ guarded held opened → (c next failed).Orderly m₀ guarded held opened

namespace Code.Keeps

variable {c handler : Code M α} {f : α → Code M β}

theorem pure {a : α} : Keeps m₀ guarded held opened (pure a : Code M α) :=
  fun _ _ hnext _ => hnext a

theorem bind (hc : c.Keeps m₀ guarded held opened)
    (hf : ∀ a, (f a).Keeps m₀ guarded held opened) : (c >>= f).Keeps m₀ guarded held opened :=
  fun next failed hnext hfailed =>
    hc (fun a => f a next failed) failed (fun a => hf a next failed hnext hfailed) hfailed

theorem catching (hc : c.Keeps m₀ guarded held opened)
    (hhandler : handler.Keeps m₀ guarded held opened) :
    (c.catching handler).Keeps m₀ guarded held opened :=
  fun next failed hnext hfailed =>
    hc next (handler next failed) hnext (hhandler next failed hnext hfailed)

theorem throws : Keeps m₀ guarded held opened (Code.throws : Code M α) :=
  fun _ _ _ hfailed => hfailed

theorem prepare : Keeps m₀ guarded held opened (Code.prepare : Code M Unit) :=
  fun _ _ hnext hfailed => ⟨hnext (), hfailed⟩

/-- A thread that is guarded executes a statement under the mutex. -/
theorem executeStep (hheld : guarded = true → held = true) :
    Keeps m₀ guarded held opened (Code.executeStep : Code M _) := by
  intro next failed hnext hfailed
  refine ⟨hheld, fun answer => ?_⟩
  cases answer with
  | throws => exact hfailed
  | done => exact hnext none
  | row columns => exact hnext (some columns)

theorem exec (hheld : guarded = true → held = true) :
    Keeps m₀ guarded held opened (Code.exec : Code M Unit) :=
  (executeStep hheld).bind fun _ => .pure

/-- The scope of `m₀`. -/
theorem locked (hc : c.Keeps m₀ guarded true false) :
    (c.locked m₀).Keeps m₀ guarded false false := by
  intro next failed hnext hfailed
  have hunlock {p : Prog M} (hp : p.Orderly m₀ guarded false false) :
      (Prog.unlock m₀ p).Orderly m₀ guarded true false := by
    unfold Prog.Orderly
    rw [if_pos rfl]
    exact ⟨rfl, rfl, hp⟩
  show (Prog.lock m₀ _).Orderly m₀ guarded false false
  unfold Prog.Orderly
  rw [if_pos rfl]
  exact ⟨rfl, rfl, hc _ _ (fun a => hunlock (hnext a)) (hunlock hfailed)⟩

/-- The scope of another mutex. -/
theorem locked_of_ne {m : M} (hm : m ≠ m₀) (hc : c.Keeps m₀ guarded held opened) :
    (c.locked m).Keeps m₀ guarded held opened := by
  intro next failed hnext hfailed
  have hunlock {p : Prog M} (hp : p.Orderly m₀ guarded held opened) :
      (Prog.unlock m p).Orderly m₀ guarded held opened := by
    unfold Prog.Orderly
    rwa [if_neg hm]
  show (Prog.lock m _).Orderly m₀ guarded held opened
  unfold Prog.Orderly
  rw [if_neg hm]
  exact hc _ _ (fun a => hunlock (hnext a)) (hunlock hfailed)

/-- The scope of a transaction. -/
theorem transaction {c : Code M (Bool × α)} (hheld : guarded = true → held = true)
    (hc : c.Keeps m₀ guarded held true) : c.transaction.Keeps m₀ guarded held false := by
  intro next failed hnext hfailed
  have hrollback {p : Prog M} (hp : p.Orderly m₀ guarded held false) :
      (Prog.rollback p).Orderly m₀ guarded held true := ⟨hheld, rfl, hp⟩
  refine ⟨hheld, rfl, hc _ _ (fun r => ?_) (hrollback hfailed), hfailed⟩
  split
  · exact ⟨hheld, rfl, hnext r.2, hrollback hfailed⟩
  · exact hrollback (hnext r.2)

/-- The rows of a statement are read under the mutex. -/
theorem rows (hheld : guarded = true → held = true) {body : List String → Code M Unit}
    (hbody : ∀ columns, (body columns).Keeps m₀ guarded held opened) (n : Nat) :
    (Code.rows body n).Keeps m₀ guarded held opened := by
  induction n with
  | zero => exact .pure
  | succ n ih =>
    refine (executeStep hheld).bind fun row => ?_
    cases row with
    | none => exact .pure
    | some columns => exact (hbody columns).bind fun _ => ih

theorem times {body : Code M Unit} (hbody : body.Keeps m₀ guarded held opened) (n : Nat) :
    (Code.times body n).Keeps m₀ guarded held opened := by
  induction n with
  | zero => exact .pure
  | succ n ih => exact hbody.bind fun _ => ih

/-- A thread may begin with such code. -/
theorem orderly (hc : c.Keeps m₀ guarded false false) : c.run.Orderly m₀ guarded false false :=
  hc _ _ (fun _ => ⟨rfl, rfl⟩) ⟨rfl, rfl⟩

end Code.Keeps

end Order

end Locks
