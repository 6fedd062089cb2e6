import Mathlib.Tactic.Common

/-!
# Faults

Every handler of the server takes a `Json::Value` apart with accessors that
throw, and indexes arrays, queues and pointers without a check. Both kinds of
failure end a step of the model the same way, with a `Fault`:

- `Fault.exception what`: an exception of the C++ program (a `Json::LogicError`
  or `Json::RuntimeError` of `jsoncpp.cpp`, or one that a called component
  throws) with its text;
- the other constructors: undefined behaviour or a failed `assert`, after which
  the program has no further meaning.

`readAt` and `addAt` are `std::array::operator[]` on an `int` array, indexed by
whatever integer the program computed.
-/

namespace UnoppServer

/-- How a step of the program can fail to complete. -/
inductive Fault where
  /-- an exception leaves the function -/
  | exception (what : String)
  /-- `std::array` or `std::vector` indexed outside its bounds -/
  | outOfBounds
  /-- `front`, `back` or `pop` on an empty `std::queue` -/
  | emptyQueue
  /-- a null `std::unique_ptr` is dereferenced -/
  | nullPointer
  /-- an `end()` iterator, or one to what has been erased, is dereferenced -/
  | endIterator
  /-- an `assert` fails -/
  | assertion
  /-- a loop does not end -/
  | endlessLoop
  deriving DecidableEq, Repr

/-- `a[i]` for an array of `n` integers. -/
def readAt {n : Nat} (a : Vector Int n) (i : Int) : Except Fault Int :=
  if h : 0 ≤ i ∧ i.toNat < n then .ok (a.get ⟨i.toNat, h.2⟩) else .error .outOfBounds

/-- `a` with `x` at position `k`. -/
def setAt {n : Nat} (a : Vector Int n) (k : Fin n) (x : Int) : Vector Int n := a.set k x

/-- `a` with `d` added at position `k`. -/
def bump {n : Nat} (a : Vector Int n) (k : Fin n) (d : Int) : Vector Int n :=
  setAt a k (a.get k + d)

/-- `a[i] += d` for an array of `n` integers. -/
def addAt {n : Nat} (a : Vector Int n) (i d : Int) : Except Fault (Vector Int n) :=
  if h : 0 ≤ i ∧ i.toNat < n then .ok (bump a ⟨i.toNat, h.2⟩ d) else .error .outOfBounds

theorem get_setAt {n : Nat} (a : Vector Int n) (k i : Fin n) (x : Int) :
    (setAt a k x).get i = if i = k then x else a.get i := by
  show (a.set k x)[(i : Nat)] = if i = k then x else a[(i : Nat)]
  rw [Vector.getElem_set]
  exact if_congr ⟨fun h => Fin.ext h.symm, fun h => (congrArg Fin.val h).symm⟩ rfl rfl

theorem get_bump {n : Nat} (a : Vector Int n) (k i : Fin n) (d : Int) :
    (bump a k d).get i = a.get i + if i = k then d else 0 := by
  rw [bump, get_setAt]
  by_cases h : i = k
  · subst h
    simp
  · simp [h]

@[simp] theorem readAt_fin {n : Nat} (a : Vector Int n) (k : Fin n) :
    readAt a (k : Nat) = .ok (a.get k) := by
  simp [readAt, k.isLt]

@[simp] theorem addAt_fin {n : Nat} (a : Vector Int n) (k : Fin n) (d : Int) :
    addAt a (k : Nat) d = .ok (bump a k d) := by
  simp [addAt, k.isLt]

/-- A read that succeeds is in bounds. -/
theorem readAt_eq_ok {n : Nat} {a : Vector Int n} {i x : Int} (h : readAt a i = .ok x) :
    ∃ k : Fin n, i = (k : Nat) ∧ x = a.get k := by
  by_cases hi : 0 ≤ i ∧ i.toNat < n
  · rw [readAt, dif_pos hi] at h
    exact ⟨⟨i.toNat, hi.2⟩, (Int.toNat_of_nonneg hi.1).symm, (Except.ok.inj h).symm⟩
  · rw [readAt, dif_neg hi] at h
    cases h

/-- An update that succeeds is in bounds. -/
theorem addAt_eq_ok {n : Nat} {a b : Vector Int n} {i d : Int} (h : addAt a i d = .ok b) :
    ∃ k : Fin n, i = (k : Nat) ∧ b = bump a k d := by
  by_cases hi : 0 ≤ i ∧ i.toNat < n
  · rw [addAt, dif_pos hi] at h
    exact ⟨⟨i.toNat, hi.2⟩, (Int.toNat_of_nonneg hi.1).symm, (Except.ok.inj h).symm⟩
  · rw [addAt, dif_neg hi] at h
    cases h

/-- A value after a function is that of one before it. -/
theorem map_eq_ok_iff {α β : Type} {f : α → β} {x : Except Fault α} {b : β} :
    x.map f = .ok b ↔ ∃ a, x = .ok a ∧ f a = b := by
  cases x with
  | error e => simp [Except.map]
  | ok a => simp [Except.map]

/-! ## Completion -/

/-- A computation completes: it does not fault. -/
def Completes {α : Type} (r : Except Fault α) : Prop := ∃ a, r = .ok a

section Completes

variable {α β : Type}

theorem completes_ok (a : α) : Completes (.ok a) := ⟨a, rfl⟩

theorem not_completes_error (e : Fault) : ¬ Completes (.error e : Except Fault α) :=
  fun ⟨_, h⟩ => nomatch h

theorem completes_bind_iff {x : Except Fault α} {f : α → Except Fault β} :
    Completes (x >>= f) ↔ ∃ a, x = .ok a ∧ Completes (f a) := by
  cases x with
  | error e => exact ⟨fun h => absurd h (not_completes_error e), fun ⟨_, h, _⟩ => nomatch h⟩
  | ok a => exact ⟨fun h => ⟨a, rfl, h⟩, fun ⟨_, h, hf⟩ => Except.ok.inj h ▸ hf⟩

/-- Both parts complete, whatever value the first one yields. -/
theorem completes_bind_forall {x : Except Fault α} {f : α → Except Fault β} :
    Completes (x >>= f) ↔ Completes x ∧ ∀ a, x = .ok a → Completes (f a) := by
  cases x with
  | error e =>
    exact ⟨fun h => absurd h (not_completes_error e), fun h => absurd h.1 (not_completes_error e)⟩
  | ok a =>
    constructor
    · intro h
      refine ⟨completes_ok a, fun b hb => ?_⟩
      obtain rfl := Except.ok.inj hb
      exact h
    · intro h
      exact h.2 a rfl

/-- The condition of the second part is known beforehand. -/
theorem completes_bind_and {x : Except Fault α} {f : α → Except Fault β} {P Q : Prop}
    (hx : Completes x ↔ P) (hf : ∀ a, x = .ok a → (Completes (f a) ↔ Q)) :
    Completes (x >>= f) ↔ P ∧ Q := by
  rw [completes_bind_forall, ← hx]
  constructor
  · rintro ⟨⟨a, ha⟩, h⟩
    exact ⟨⟨a, ha⟩, (hf a ha).mp (h a ha)⟩
  · rintro ⟨h, hq⟩
    exact ⟨h, fun a ha => (hf a ha).mpr hq⟩

/-- The second part always completes. -/
theorem completes_bind_of {x : Except Fault α} {f : α → Except Fault β}
    (hf : ∀ a, x = .ok a → Completes (f a)) : Completes (x >>= f) ↔ Completes x := by
  rw [completes_bind_forall]
  exact and_iff_left hf

theorem completes_ite_iff {c : Prop} [Decidable c] {x y : Except Fault α} :
    Completes (if c then x else y) ↔ (c → Completes x) ∧ (¬ c → Completes y) := by
  by_cases hc : c
  · simp [hc]
  · simp [hc]

/-- Either branch completes under its own condition. -/
theorem completes_ite_congr {c : Prop} [Decidable c] {x y : Except Fault α} {P Q : Prop}
    (hx : Completes x ↔ P) (hy : Completes y ↔ Q) :
    Completes (if c then x else y) ↔ if c then P else Q := by
  by_cases hc : c
  · rwa [if_pos hc, if_pos hc]
  · rwa [if_neg hc, if_neg hc]

/-- A check that ends the computation when it holds. -/
theorem completes_check_iff {c : Prop} [Decidable c] {a : α} {r : Except Fault α} :
    Completes (if c then .ok a else r) ↔ (¬ c → Completes r) := by
  by_cases hc : c
  · simp [hc, completes_ok]
  · simp [hc]

/-- A check that refuses, before something that refuses as well. -/
theorem check_eq_ok {c : Prop} [Decidable c] {a : α} {r : Except Fault α} (h : ¬ c → r = .ok a) :
    (if c then .ok a else r) = .ok a := by
  by_cases hc : c
  · exact if_pos hc
  · rw [if_neg hc]
    exact h hc

theorem mapM_eq_ok {f : α → Except Fault β} {g : α → β} {l : List α}
    (h : ∀ x ∈ l, f x = .ok (g x)) : l.mapM f = .ok (l.map g) := by
  induction l with
  | nil => rfl
  | cons x l ih =>
    rw [List.mapM_cons, h x List.mem_cons_self, ih fun y hy => h y (List.mem_cons_of_mem _ hy)]
    rfl

/-- A loop completes when it does for every item. -/
theorem completes_mapM_iff {f : α → Except Fault β} {l : List α} :
    Completes (l.mapM f) ↔ ∀ x ∈ l, Completes (f x) := by
  induction l with
  | nil => exact iff_of_true (completes_ok []) fun x hx => absurd hx List.not_mem_nil
  | cons x l ih =>
    rw [List.mapM_cons, List.forall_mem_cons, ← ih]
    exact completes_bind_and Iff.rfl fun _ _ => completes_bind_of fun _ _ => completes_ok _

/-- A read is in bounds, and what follows completes on the entry. -/
theorem completes_readAt_iff {n : Nat} {a : Vector Int n} {i : Int} {f : Int → Except Fault β} :
    Completes (readAt a i >>= f) ↔ ∃ k : Fin n, i = (k : Nat) ∧ Completes (f (a.get k)) := by
  rw [completes_bind_iff]
  constructor
  · rintro ⟨x, hx, hf⟩
    obtain ⟨k, hk, rfl⟩ := readAt_eq_ok hx
    exact ⟨k, hk, hf⟩
  · rintro ⟨k, rfl, hf⟩
    exact ⟨_, readAt_fin a k, hf⟩

/-- An addition is in bounds, and what follows completes on the changed array. -/
theorem completes_addAt_iff {n : Nat} {a : Vector Int n} {i d : Int}
    {f : Vector Int n → Except Fault β} :
    Completes (addAt a i d >>= f) ↔ ∃ k : Fin n, i = (k : Nat) ∧ Completes (f (bump a k d)) := by
  rw [completes_bind_iff]
  constructor
  · rintro ⟨x, hx, hf⟩
    obtain ⟨k, hk, rfl⟩ := addAt_eq_ok hx
    exact ⟨k, hk, hf⟩
  · rintro ⟨k, rfl, hf⟩
    exact ⟨_, addAt_fin a k d, hf⟩

end Completes

end UnoppServer
