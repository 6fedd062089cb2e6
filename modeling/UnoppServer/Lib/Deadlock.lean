import Mathlib.Data.Set.Insert
import Mathlib.Logic.Hydra
import UnoppServer.Lib.Locks

/-!
# Threads that do not block each other

The threads of `Lib.Locks`, with any number of connections: here it is the environment alone
that says whether a statement throws. A mutex has a rank.

- `Prog.Ascends rank held`: the thread, which has locked `held`, locks a mutex only if its rank
  is above the ranks of those that it has, and unlocks all of them;
- `Ascending.exists_canGo`: of such threads one can go on, as long as one is in a call;
- `returns_of_run`: however the threads take turns, there comes an end to it, and it only ends
  when every call has returned.
-/

namespace Locks

open Relation Runs

variable {M N α β : Type}

/-- What a thread does after a step, in which it may get an answer. -/
def Prog.after (answer : Answer) : Prog M → Prog M
  | .done => .done
  | .lock _ next | .unlock _ next | .rollback next => next
  | .prepare next failed | .start next failed | .commit next failed =>
    if answer = .throws then failed else next
  | .execute next => next answer

/-- What is left of a thread after a step. -/
def Prog.Follows (q p : Prog M) : Prop := p ≠ .done ∧ ∃ answer, q = p.after answer

/-- A program cannot go on forever. -/
theorem Prog.wellFounded_follows : WellFounded (Prog.Follows (M := M)) := by
  refine ⟨fun p => ?_⟩
  induction p with
  | done => exact ⟨_, fun q h => absurd rfl h.1⟩
  | lock m next ih | unlock m next ih | rollback next ih =>
    refine ⟨_, ?_⟩
    rintro _ ⟨-, answer, rfl⟩
    exact ih
  | prepare next failed ih ih' | start next failed ih ih' | commit next failed ih ih' =>
    refine ⟨_, ?_⟩
    rintro _ ⟨-, answer, rfl⟩
    show Acc Follows (if answer = .throws then failed else next)
    split
    · exact ih'
    · exact ih
  | execute next ih =>
    refine ⟨_, ?_⟩
    rintro _ ⟨-, answer, rfl⟩
    exact ih answer

/-- The same with other mutexes. -/
def Prog.map (f : M → N) : Prog M → Prog N
  | .done => .done
  | .lock m next => .lock (f m) (next.map f)
  | .unlock m next => .unlock (f m) (next.map f)
  | .prepare next failed => .prepare (next.map f) (failed.map f)
  | .start next failed => .start (next.map f) (failed.map f)
  | .execute next => .execute fun answer => (next answer).map f
  | .commit next failed => .commit (next.map f) (failed.map f)
  | .rollback next => .rollback (next.map f)

/-! ## Steps -/

/-- Who has locked each mutex, and what the threads do. -/
structure Crew (M : Type) where
  owner : M → Option Nat
  threads : Nat → Prog M

namespace Crew

/-- No thread is in a call. -/
def idle : Crew M := ⟨fun _ => none, fun _ => .done⟩

/-- What the thread does from now on. -/
def next (s : Crew M) (thread : Nat) (p : Prog M) : Crew M :=
  { s with threads := Function.update s.threads thread p }

/-- One step. There is no step of a thread that waits for a mutex. -/
def step [DecidableEq M] (s : Crew M) : Act M → Except Unit (Unit × Crew M)
  | .call i p =>
    match s.threads i with
    | .done => .ok ((), s.next i p)
    | _ => .error ()
  | .go i answer =>
    match s.threads i with
    | .done => .error ()
    | .lock m next =>
      match s.owner m with
      | some _ => .error ()
      | none => .ok ((), { s with owner := Function.update s.owner m (some i) }.next i next)
    | .unlock m next => .ok ((), { s with owner := Function.update s.owner m none }.next i next)
    | p => .ok ((), s.next i (p.after answer))

variable [DecidableEq M]

/-- A thread that is in a call goes on. -/
def Goes (s s' : Crew M) : Prop := ∃ i answer, s.step (.go i answer) = .ok ((), s')

/-- A step of the thread is possible, whatever it is answered. -/
def CanGo (s : Crew M) (i : Nat) : Prop := ∀ answer, ∃ s', s.step (.go i answer) = .ok ((), s')

/-- The thread goes on, and the others stay where they are. -/
theorem threads_of_go {s s' : Crew M} {i : Nat} {answer : Answer} {out : Unit}
    (h : s.step (.go i answer) = .ok (out, s')) : s.threads i ≠ .done ∧
      s'.threads = Function.update s.threads i ((s.threads i).after answer) := by
  unfold step at h
  cases hp : s.threads i with
  | done =>
    simp only [hp] at h
    cases h
  | lock m next =>
    simp only [hp] at h
    split at h
    · cases h
    · obtain rfl := (Prod.mk.inj (Except.ok.inj h)).2
      exact ⟨fun h => (nomatch h), rfl⟩
  | _ =>
    simp only [hp] at h
    obtain rfl := (Prod.mk.inj (Except.ok.inj h)).2
    exact ⟨fun h => (nomatch h), rfl⟩

/-! ## Termination -/

/-- What is left of the threads in `l`. -/
def left (l : Multiset Nat) (s : Crew M) : Multiset (Prog M) := l.map s.threads

/-- The threads outside `l` are in no call. -/
def Within (l : Multiset Nat) (s : Crew M) : Prop := ∀ i ∉ l, s.threads i = .done

section Within

variable {l : Multiset Nat} {s s' : Crew M} {i : Nat} {p : Prog M}

omit [DecidableEq M] in
theorem Within.next (h : s.Within l) (hi : i ∈ l) : (s.next i p).Within l := by
  intro j hj
  show Function.update s.threads i p j = .done
  have hji : j ≠ i := fun hji => hj (hji.symm ▸ hi)
  rw [Function.update_of_ne hji]
  exact h j hj

/-- A step of one of the threads makes what is left of them smaller. -/
theorem Within.goes (hl : l.Nodup) (h : s.Within l) (hgoes : s.Goes s') :
    s'.Within l ∧ CutExpand Prog.Follows (s'.left l) (s.left l) := by
  obtain ⟨i, answer, hstep⟩ := hgoes
  obtain ⟨hcall, hthreads⟩ := threads_of_go hstep
  have hi : i ∈ l := by
    by_contra hi
    exact hcall (h i hi)
  refine ⟨fun j hj => ?_, {(s.threads i).after answer}, s.threads i, ?_, ?_⟩
  · have hji : j ≠ i := fun hji => hj (hji.symm ▸ hi)
    rw [hthreads, Function.update_of_ne hji]
    exact h j hj
  · intro p hp
    rw [Multiset.mem_singleton.mp hp]
    exact ⟨hcall, answer, rfl⟩
  · obtain ⟨l, rfl⟩ := Multiset.exists_cons_of_mem hi
    have hrest : l.map s'.threads = l.map s.threads := by
      refine Multiset.map_congr rfl fun j hj => ?_
      have hji : j ≠ i := fun hji => (Multiset.nodup_cons.mp hl).1 (hji ▸ hj)
      rw [hthreads, Function.update_of_ne hji]
    rw [left, left, Multiset.map_cons, Multiset.map_cons, hrest, hthreads, Function.update_self,
      ← Multiset.singleton_add, ← Multiset.singleton_add]
    rw [add_right_comm, add_comm {Prog.after answer _}, add_right_comm]

/-- **Every schedule ends**: threads of which finitely many are in a call take finitely many
steps. -/
theorem Within.acc (hl : l.Nodup) (h : s.Within l) : Acc (fun s' s : Crew M => s.Goes s') s := by
  generalize hw : s.left l = w
  induction Prog.wellFounded_follows.cutExpand.apply w generalizing s with
  | intro w _ ih =>
    refine ⟨_, fun s' hgoes => ?_⟩
    obtain ⟨hwithin, hexpand⟩ := h.goes hl hgoes
    exact ih _ (hw ▸ hexpand) hwithin rfl

end Within

end Crew

/-! ## Order -/

/-- What is left of a thread that has locked the mutexes `held`: a mutex that it locks is of a
higher rank than those. -/
def Prog.Ascends (rank : M → Nat) : Set M → Prog M → Prop
  | held, .done => held = ∅
  | held, .lock m next => (∀ m' ∈ held, rank m' < rank m) ∧ next.Ascends rank (insert m held)
  | held, .unlock m next => m ∈ held ∧ next.Ascends rank (held \ {m})
  | held, .prepare next failed | held, .start next failed | held, .commit next failed =>
    next.Ascends rank held ∧ failed.Ascends rank held
  | held, .execute next => ∀ answer, (next answer).Ascends rank held
  | held, .rollback next => next.Ascends rank held

namespace Crew

/-- The mutexes that the thread has locked. -/
def held (s : Crew M) (i : Nat) : Set M := {m | s.owner m = some i}

/-- The threads lock in the order of the ranks. -/
def Ascending (rank : M → Nat) (s : Crew M) : Prop :=
  ∀ i, (s.threads i).Ascends rank (s.held i)

section Ascending

variable {rank : M → Nat} {s s' : Crew M} {i j : Nat} {m : M} {p : Prog M}

/-- A thread that goes on with an ascending program keeps the crew ascending. -/
theorem Ascending.next (h : s.Ascending rank) (hp : p.Ascends rank (s.held i)) :
    (s.next i p).Ascending rank := by
  intro j
  show (Function.update s.threads i p j).Ascends rank (s.held j)
  by_cases hj : j = i
  · rw [hj, Function.update_self]
    exact hp
  · rw [Function.update_of_ne hj]
    exact h j

variable [DecidableEq M]

/-- The mutexes of the other threads stay where they are. -/
theorem held_update_of_ne {o : Option Nat} (hj : j ≠ i) (ho : o = none ∨ o = some i)
    (hm : s.owner m = none ∨ s.owner m = some i) :
    ({ s with owner := Function.update s.owner m o } : Crew M).held j = s.held j := by
  refine Set.ext fun m' => ?_
  show Function.update s.owner m o m' = some j ↔ s.owner m' = some j
  by_cases hm' : m' = m
  · rw [hm', Function.update_self]
    exact eq_some_iff_of_ne hm ho hj
  · rw [Function.update_of_ne hm']

/-- A thread that locks a mutex holds it besides the others. -/
theorem held_lock : ({ s with owner := Function.update s.owner m (some i) } : Crew M).held i =
    insert m (s.held i) := by
  refine Set.ext fun m' => ?_
  show Function.update s.owner m (some i) m' = some i ↔ m' = m ∨ s.owner m' = some i
  by_cases hm' : m' = m
  · rw [hm', Function.update_self]
    exact iff_of_true rfl (.inl rfl)
  · rw [Function.update_of_ne hm', or_iff_right hm']

/-- A thread that unlocks a mutex holds the others. -/
theorem held_unlock : ({ s with owner := Function.update s.owner m none } : Crew M).held i =
    s.held i \ {m} := by
  refine Set.ext fun m' => ?_
  show Function.update s.owner m none m' = some i ↔ s.owner m' = some i ∧ ¬ m' = m
  by_cases hm' : m' = m
  · rw [hm', Function.update_self]
    exact iff_of_false (fun h => nomatch h) fun h => h.2 rfl
  · rw [Function.update_of_ne hm', and_iff_left hm']

/-- A change of one owner, to or from the thread, concerns no other thread. -/
theorem Ascending.update {o : Option Nat} (h : s.Ascending rank) (ho : o = none ∨ o = some i)
    (hm : s.owner m = none ∨ s.owner m = some i)
    (hp : p.Ascends rank (held { s with owner := Function.update s.owner m o } i)) :
    ({ s with owner := Function.update s.owner m o }.next i p : Crew M).Ascending rank := by
  intro j
  show (Function.update s.threads i p j).Ascends rank
    (({ s with owner := Function.update s.owner m o } : Crew M).held j)
  by_cases hj : j = i
  · rw [hj, Function.update_self]
    exact hp
  · rw [Function.update_of_ne hj, held_update_of_ne hj ho hm]
    exact h j

/-- A thread begins with code that ascends. -/
def Enters (rank : M → Nat) : Act M → Prop
  | .call _ p => p.Ascends rank ∅
  | .go _ _ => True

/-- **Step lemma.** Threads go on in the order of the ranks. -/
theorem Ascending.step {a : Act M} {out : Unit} (h : s.Ascending rank) (ha : Enters rank a)
    (hstep : s.step a = .ok (out, s')) : s'.Ascending rank := by
  cases a with
  | call i p =>
    have hi := h i
    unfold Crew.step at hstep
    cases hp : s.threads i with
    | done =>
      simp only [hp] at hstep hi
      obtain rfl := (Prod.mk.inj (Except.ok.inj hstep)).2
      have hheld : s.held i = ∅ := hi
      exact h.next (hheld ▸ ha)
    | _ =>
      simp only [hp] at hstep
      cases hstep
  | go i answer =>
    have hi := h i
    unfold Crew.step at hstep
    cases hp : s.threads i with
    | done =>
      simp only [hp] at hstep
      cases hstep
    | lock m next =>
      simp only [hp] at hstep hi
      split at hstep
      · cases hstep
      · obtain rfl := (Prod.mk.inj (Except.ok.inj hstep)).2
        refine h.update (.inr rfl) (.inl ‹_›) ?_
        rw [held_lock]
        exact hi.2
    | unlock m next =>
      simp only [hp] at hstep hi
      obtain rfl := (Prod.mk.inj (Except.ok.inj hstep)).2
      refine h.update (.inl rfl) (.inr hi.1) ?_
      rw [held_unlock]
      exact hi.2
    | prepare next failed | start next failed | commit next failed =>
      simp only [hp] at hstep hi
      obtain rfl := (Prod.mk.inj (Except.ok.inj hstep)).2
      refine h.next ?_
      show Prog.Ascends rank _ (if answer = .throws then failed else next)
      split
      · exact hi.2
      · exact hi.1
    | execute next =>
      simp only [hp] at hstep hi
      obtain rfl := (Prod.mk.inj (Except.ok.inj hstep)).2
      exact h.next (hi answer)
    | rollback next =>
      simp only [hp] at hstep hi
      obtain rfl := (Prod.mk.inj (Except.ok.inj hstep)).2
      exact h.next hi

/-! ## Progress -/

/-- The thread waits for the mutex. -/
def Awaits (s : Crew M) (i : Nat) (m : M) : Prop := ∃ next, s.threads i = .lock m next

/-- A thread can go on, unless it is in no call or waits for a mutex. -/
theorem canGo_of_not_awaits (hcall : s.threads i ≠ .done) (h : ∀ m, ¬ s.Awaits i m) :
    s.CanGo i := by
  intro answer
  unfold Crew.step
  cases hp : s.threads i with
  | done => exact absurd hp hcall
  | lock m next => exact absurd ⟨next, hp⟩ (h m)
  | _ =>
    simp only [hp]
    exact ⟨_, rfl⟩

theorem canGo_of_free (h : s.Awaits i m) (hfree : s.owner m = none) : s.CanGo i := by
  intro answer
  obtain ⟨next, hp⟩ := h
  unfold Crew.step
  simp only [hp, hfree]
  exact ⟨_, rfl⟩

/-- The thread for which another one waits can go on, or waits for a mutex of a higher
rank. -/
theorem Ascending.exists_canGo_of_awaits (h : s.Ascending rank) {n : Nat}
    (hrank : ∀ m, rank m < n) (hawaits : s.Awaits i m) : ∃ j, s.CanGo j := by
  induction hk : n - rank m using Nat.strong_induction_on generalizing i m with
  | _ k ih =>
    cases howner : s.owner m with
    | none => exact ⟨i, canGo_of_free hawaits howner⟩
    | some j =>
      have hj := h j
      by_cases hwaits : ∃ m', s.Awaits j m'
      · obtain ⟨m', next, hp⟩ := hwaits
        rw [hp] at hj
        have hlt : rank m < rank m' := hj.1 m howner
        have hbound := hrank m'
        exact ih (n - rank m') (by omega) ⟨next, hp⟩ rfl
      · refine ⟨j, canGo_of_not_awaits (fun hdone => ?_) (not_exists.mp hwaits)⟩
        rw [hdone] at hj
        exact (Set.eq_empty_iff_forall_notMem.mp hj) m howner

/-- **No deadlock.** As long as a thread is in a call, one of them can go on. -/
theorem Ascending.exists_canGo (h : s.Ascending rank) {n : Nat} (hrank : ∀ m, rank m < n)
    (hcall : s.threads i ≠ .done) : ∃ j, s.CanGo j := by
  by_cases hwaits : ∃ m, s.Awaits i m
  · obtain ⟨m, hawaits⟩ := hwaits
    exact h.exists_canGo_of_awaits hrank hawaits
  · exact ⟨i, canGo_of_not_awaits hcall (not_exists.mp hwaits)⟩

omit [DecidableEq M] in
theorem ascending_idle : (idle : Crew M).Ascending rank :=
  fun _ => Set.eq_empty_iff_forall_notMem.mpr fun _ h => nomatch h

/-- A crew that cannot go on has come to its end. -/
theorem Ascending.eq_idle (h : s.Ascending rank) {n : Nat} (hrank : ∀ m, rank m < n)
    (hstuck : ∀ s', ¬ s.Goes s') : s = idle := by
  have hdone : ∀ i, s.threads i = .done := by
    intro i
    by_contra hcall
    obtain ⟨j, hgo⟩ := h.exists_canGo hrank hcall
    obtain ⟨s', hstep⟩ := hgo .done
    exact hstuck s' ⟨j, .done, hstep⟩
  have hfree : ∀ m, s.owner m = none := by
    intro m
    cases howner : s.owner m with
    | none => rfl
    | some i =>
      have hi := h i
      rw [hdone i] at hi
      exact absurd howner ((Set.eq_empty_iff_forall_notMem.mp hi) m)
  cases s
  exact congr (congrArg Crew.mk (funext hfree)) (funext hdone)

/-- Finitely many threads of which each ascends. -/
structure Ready (rank : M → Nat) (s : Crew M) : Prop where
  ascending : s.Ascending rank
  within : ∃ l : Multiset Nat, l.Nodup ∧ s.Within l

/-- Each step keeps the crew ready. -/
theorem Ready.step {a : Act M} {out : Unit} (h : s.Ready rank) (ha : Enters rank a)
    (hstep : s.step a = .ok (out, s')) : s'.Ready rank := by
  refine ⟨h.ascending.step ha hstep, ?_⟩
  obtain ⟨l, hl, hwithin⟩ := h.within
  cases a with
  | call i p =>
    have hmore : s.Within (Multiset.ndinsert i l) :=
      fun j hj => hwithin j fun hjl => hj (Multiset.mem_ndinsert_of_mem hjl)
    refine ⟨Multiset.ndinsert i l, hl.ndinsert i, ?_⟩
    unfold Crew.step at hstep
    dsimp only at hstep
    split at hstep
    · obtain rfl := (Prod.mk.inj (Except.ok.inj hstep)).2
      exact hmore.next (Multiset.mem_ndinsert_self i l)
    · cases hstep
  | go i answer => exact ⟨l, hl, (hwithin.goes hl ⟨i, answer, hstep⟩).1⟩

/-- **Run lemma.** Whatever turns the threads take after a run without further calls, it
comes to an end, and to none but that every call has returned. -/
theorem returns_of_run {calls : Act M → Prop} (hcalls : ∀ a, calls a → Enters rank a) {n : Nat}
    (hrank : ∀ m, rank m < n) {h : List (Entry (Crew M) (Act M) Unit)}
    (hr : Run Crew.step (fun _ a => calls a) idle h s) :
    Acc (fun s' s : Crew M => s.Goes s') s ∧
      ∀ s', ReflTransGen Goes s s' → (∀ s'', ¬ s'.Goes s'') → s' = idle := by
  have hready : s.Ready rank := hr.invariant ⟨ascending_idle, 0, Multiset.nodup_zero, fun _ _ => rfl⟩
    fun s a out s' hs ha hstep => hs.step (hcalls a ha) hstep
  refine ⟨?_, fun s' hgoes hstuck => ?_⟩
  · obtain ⟨l, hl, hwithin⟩ := hready.within
    exact hwithin.acc hl
  · have hready' : s'.Ready rank := by
      clear hstuck
      induction hgoes with
      | refl => exact hready
      | tail _ hgo ih =>
        obtain ⟨i, answer, hstep⟩ := hgo
        have hgo : Enters rank (Act.go i answer) := trivial
        exact ih.step hgo hstep
    exact hready'.ascending.eq_idle hrank hstuck

end Ascending

end Crew

/-! ## Code -/

/-- Code that may be run with the mutexes `held`. -/
def Code.Climbs (rank : M → Nat) (held : Set M) (c : Code M α) : Prop :=
  ∀ next failed, (∀ a, (next a).Ascends rank held) → failed.Ascends rank held →
    (c next failed).Ascends rank held

namespace Code.Climbs

variable {rank : M → Nat} {held : Set M} {c handler : Code M α} {f : α → Code M β} {m : M}

theorem pure {a : α} : Climbs rank held (pure a : Code M α) := fun _ _ hnext _ => hnext a

theorem bind (hc : c.Climbs rank held) (hf : ∀ a, (f a).Climbs rank held) :
    (c >>= f).Climbs rank held :=
  fun next failed hnext hfailed =>
    hc (fun a => f a next failed) failed (fun a => hf a next failed hnext hfailed) hfailed

theorem catching (hc : c.Climbs rank held) (hhandler : handler.Climbs rank held) :
    (c.catching handler).Climbs rank held :=
  fun next failed hnext hfailed =>
    hc next (handler next failed) hnext (hhandler next failed hnext hfailed)

theorem throws : Climbs rank held (Code.throws : Code M α) := fun _ _ _ hfailed => hfailed

theorem prepare : Climbs rank held (Code.prepare : Code M Unit) :=
  fun _ _ hnext hfailed => ⟨hnext (), hfailed⟩

theorem executeStep : Climbs rank held (Code.executeStep : Code M _) := by
  intro next failed hnext hfailed answer
  cases answer with
  | throws => exact hfailed
  | done => exact hnext none
  | row columns => exact hnext (some columns)

theorem exec : Climbs rank held (Code.exec : Code M Unit) := executeStep.bind fun _ => .pure

/-- The scope of a mutex of a higher rank. -/
theorem locked (hm : ∀ m' ∈ held, rank m' < rank m) (hc : c.Climbs rank (insert m held)) :
    (c.locked m).Climbs rank held := by
  have hnot : m ∉ held := fun hmem => Nat.lt_irrefl _ (hm m hmem)
  have hunlock {p : Prog M} (hp : p.Ascends rank held) :
      (Prog.unlock m p).Ascends rank (insert m held) :=
    ⟨Set.mem_insert m held, (Set.insert_sdiff_self_of_notMem hnot).symm ▸ hp⟩
  exact fun next failed hnext hfailed =>
    ⟨hm, hc _ _ (fun a => hunlock (hnext a)) (hunlock hfailed)⟩

/-- The scope of a transaction. -/
theorem transaction {c : Code M (Bool × α)} (hc : c.Climbs rank held) :
    c.transaction.Climbs rank held := by
  intro next failed hnext hfailed
  refine ⟨hc _ _ (fun r => ?_) hfailed, hfailed⟩
  split
  · exact ⟨hnext r.2, hfailed⟩
  · exact hnext r.2

/-- The rows of a statement, one after the other. -/
theorem rows {body : List String → Code M Unit} (hbody : ∀ columns, (body columns).Climbs rank held)
    (n : Nat) : (Code.rows body n).Climbs rank held := by
  induction n with
  | zero => exact .pure
  | succ n ih =>
    refine executeStep.bind fun row => ?_
    cases row with
    | none => exact .pure
    | some columns => exact (hbody columns).bind fun _ => ih

theorem times {body : Code M Unit} (hbody : body.Climbs rank held) (n : Nat) :
    (Code.times body n).Climbs rank held := by
  induction n with
  | zero => exact .pure
  | succ n ih => exact hbody.bind fun _ => ih

/-- A thread may begin with such code. -/
theorem ascends (hc : c.Climbs rank ∅) : c.run.Ascends rank ∅ := hc _ _ (fun _ => rfl) rfl

end Code.Climbs

/-- Other mutexes of the same ranks. -/
theorem Prog.Ascends.map {rank : N → Nat} {f : M → N} (hf : Function.Injective f) {held : Set M}
    {p : Prog M} (h : p.Ascends (rank ∘ f) held) : (p.map f).Ascends rank (f '' held) := by
  induction p generalizing held with
  | done =>
    have hheld : held = ∅ := h
    show f '' held = ∅
    rw [hheld, Set.image_empty]
  | lock m next ih =>
    refine ⟨Set.forall_mem_image.mpr h.1, ?_⟩
    rw [← Set.image_insert_eq]
    exact ih h.2
  | unlock m next ih =>
    refine ⟨Set.mem_image_of_mem f h.1, ?_⟩
    rw [← Set.image_singleton, ← Set.image_sdiff hf]
    exact ih h.2
  | prepare next failed ih ih' | start next failed ih ih' | commit next failed ih ih' =>
    exact ⟨ih h.1, ih' h.2⟩
  | execute next ih => exact fun answer => ih answer (h answer)
  | rollback next ih => exact ih h

end Locks
