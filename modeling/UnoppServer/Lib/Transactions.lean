import Mathlib.Control.Monad.Basic
import Mathlib.Data.List.Basic

/-!
# Transactions on a connection whose statements may throw

A `Db` is a connection: the tables on disk, those of the open transaction if there is one,
and the choices of which of its next calls throw. A `Sql` is a program over it. What a
program has done before it throws stays done, and a transaction that is not committed at
the end of its scope is rolled back.

- `Spec P p Q E`: from `P`, the program ends in `Q`, or throws in `E`;
- `Spec.transaction`: the rule for the scope of a transaction;
- `Keeps I p`: no choice of throws leads from tables with `I` to others, or leaves a
  transaction open;
- `Commits n f p a`, `Atomic n f p a`: a transaction of `n` calls that changes the tables by
  `f`, or not at all when one of them throws.
-/

namespace Transactions

variable {τ α β : Type}

/-- A connection. -/
structure Db (τ : Type) where
  stored : τ
  opened : Option τ
  throws : List Bool

/-- The tables that a statement sees. -/
def Db.tables (db : Db τ) : τ := db.opened.getD db.stored

/-- The tables that a statement leaves; without a transaction they are stored at once. -/
def Db.write (db : Db τ) (t : τ) : Db τ :=
  match db.opened with
  | none => { db with stored := t }
  | some _ => { db with opened := some t }

/-- A program that returns a value or throws. -/
abbrev Sql (τ α : Type) := OptionT (StateM (Db τ)) α

namespace Sql

/-- Whatever may throw: it does when the next choice is that it does. -/
def attempt : Sql τ Unit := fun db =>
  match db.throws with
  | [] => (some (), db)
  | throws :: rest => (if throws then none else some (), { db with throws := rest })

/-- Prepare a statement, or reset it, with its parameters. -/
def prepare : Sql τ Unit := attempt

/-- The rows that the statement yields, seen through `f`. -/
def query (f : τ → α) : Sql τ α := do
  attempt
  fun db => (some (f db.tables), db)

/-- A statement that changes the tables, or throws where it would break a constraint. -/
def execute (f : τ → Option τ) : Sql τ Unit := do
  attempt
  fun db =>
    match f db.tables with
    | none => (none, db)
    | some t => (some (), db.write t)

/-- `BEGIN`, which throws inside a transaction. -/
def start : Sql τ Unit := do
  attempt
  fun db =>
    match db.opened with
    | none => (some (), { db with opened := some db.stored })
    | some _ => (none, db)

/-- `COMMIT`, which throws outside of a transaction. -/
def commit : Sql τ Unit := do
  attempt
  fun db =>
    match db.opened with
    | none => (none, db)
    | some t => (some (), { db with stored := t, opened := none })

/-- A transaction and its scope, at whose end it is rolled back unless it is committed. -/
def transaction (body : Sql τ α) : Sql τ α := do
  start
  fun db =>
    let (r, db) := body db
    (r, { db with opened := none })

/-- What others do to the tables on disk. -/
def meanwhile (f : τ → τ) : Sql τ Unit := fun db => (some (), { db with stored := f db.stored })

end Sql

/-! ## Evaluation -/

section Evaluation

variable {p p' : Sql τ α} {f : α → Sql τ β} {db : Db τ} {t t' : τ}

@[simp] theorem pure_apply {a : α} : (pure a : Sql τ α) db = (some a, db) := rfl

/-- A program goes on when its first part has not thrown. -/
@[simp] theorem bind_apply :
    (p >>= f) db = (p db).1.elim (none, (p db).2) fun a => f a (p db).2 := by
  show OptionT.bind p f db = _
  simp only [OptionT.bind, OptionT.mk, StateT.bind, Bind.bind]
  obtain ⟨_ | a, db₁⟩ := p db <;> rfl

/-- A handler goes on when the program has thrown. -/
@[simp] theorem orElse_apply :
    (p <|> p') db = (p db).1.elim (p' (p db).2) fun a => (some a, (p db).2) := by
  show OptionT.orElse p (fun _ => p') db = _
  simp only [OptionT.orElse, OptionT.mk, StateT.bind, Bind.bind]
  obtain ⟨_ | a, db₁⟩ := p db <;> rfl

/-! When nothing is chosen to throw: -/

@[simp] theorem prepare_apply {o : Option τ} :
    (Sql.prepare : Sql τ Unit) ⟨t, o, []⟩ = (some (), ⟨t, o, []⟩) := rfl

@[simp] theorem execute_apply {g : τ → Option τ} : Sql.execute g ⟨t, some t', []⟩ =
    (g t').elim (none, ⟨t, some t', []⟩) fun t'' => (some (), ⟨t, some t'', []⟩) := by
  rw [Sql.execute, bind_apply]
  show (match g t' with | none => _ | some t'' => _) = _
  cases g t' <;> rfl

@[simp] theorem transaction_apply : Sql.transaction p ⟨t, none, []⟩ =
    ((p ⟨t, some t, []⟩).1, { (p ⟨t, some t, []⟩).2 with opened := none }) := rfl

end Evaluation

/-! ## Rules -/

/-- From a state with `P`, the program ends in one with `Q`, or throws in one with `E`. -/
def Spec (P : Db τ → Prop) (p : Sql τ α) (Q : α → Db τ → Prop) (E : Db τ → Prop) : Prop :=
  ∀ db, P db → ∀ r db', p db = (r, db') → r.elim (E db') fun a => Q a db'

/-- No transaction is open, and the tables have `I`. -/
def Closed (I : τ → Prop) (db : Db τ) : Prop := db.opened = none ∧ I db.stored

/-- A transaction is open, whose tables have `J`; those on disk have `I`. -/
def Inside (I J : τ → Prop) (db : Db τ) : Prop := ∃ t, db.opened = some t ∧ J t ∧ I db.stored

/-- The tables on disk have `I`. -/
def Stores (I : τ → Prop) (db : Db τ) : Prop := I db.stored

/-- From tables with `I`, the program leads to others, whatever throws, and leaves no
transaction open. -/
def Keeps (I : τ → Prop) (p : Sql τ α) : Prop :=
  Spec (Closed I) p (fun _ => Closed I) (Closed I)

section Rules

variable {P E : Db τ → Prop} {p p' : Sql τ α} {f : α → Sql τ β} {Q : α → Db τ → Prop}
  {Q' : β → Db τ → Prop} {I J J' : τ → Prop}

theorem Spec.pure {a : α} (h : ∀ db, P db → Q a db) : Spec P (pure a : Sql τ α) Q E := by
  intro db hP r db' hrun
  obtain ⟨rfl, rfl⟩ := Prod.mk.inj hrun
  exact h _ hP

/-- The rule of sequential composition. -/
theorem Spec.bind (hp : Spec P p Q E) (hf : ∀ a, Spec (Q a) (f a) Q' E) :
    Spec P (p >>= f) Q' E := by
  intro db hP r db' h
  cases hrun : p db with
  | mk a db₁ =>
    have hspec := hp db hP a db₁ hrun
    rw [bind_apply, hrun] at h
    cases a with
    | none =>
      obtain ⟨rfl, rfl⟩ := Prod.mk.inj h
      exact hspec
    | some a => exact hf a db₁ hspec r db' h

/-- `try` and `catch`: the handler starts where the program has thrown. -/
theorem Spec.orElse {R : Db τ → Prop} (hp : Spec P p Q R) (hp' : Spec R p' Q E) :
    Spec P (p <|> p') Q E := by
  intro db hP r db' h
  cases hrun : p db with
  | mk a db₁ =>
    have hspec := hp db hP a db₁ hrun
    rw [orElse_apply, hrun] at h
    cases a with
    | none => exact hp' db₁ hspec r db' h
    | some a =>
      obtain ⟨rfl, rfl⟩ := Prod.mk.inj h
      exact hspec

/-- Whatever may throw changes nothing but the choices. -/
theorem Spec.attempt (hP : ∀ db l, P db → P { db with throws := l }) (hE : ∀ db, P db → E db) :
    Spec P Sql.attempt (fun _ => P) E := by
  intro db hdb r db' h
  unfold Sql.attempt at h
  split at h
  · obtain ⟨rfl, rfl⟩ := Prod.mk.inj h
    exact hdb
  · obtain ⟨rfl, rfl⟩ := Prod.mk.inj h
    split
    · exact hE _ (hP _ _ hdb)
    · exact hP _ _ hdb

theorem Spec.query {g : τ → α} (hP : ∀ db l, P db → P { db with throws := l })
    (hE : ∀ db, P db → E db) : Spec P (Sql.query g) (fun _ => P) E := by
  refine Spec.bind (Spec.attempt hP hE) fun _ db hdb r db' h => ?_
  obtain ⟨rfl, rfl⟩ := Prod.mk.inj h
  exact hdb

theorem Closed.throws (db : Db τ) (l : List Bool) (h : Closed I db) :
    Closed I { db with throws := l } := h

theorem Inside.throws (db : Db τ) (l : List Bool) (h : Inside I J db) :
    Inside I J { db with throws := l } := h

theorem Inside.stores (db : Db τ) (h : Inside I J db) : Stores I db := by
  obtain ⟨t, -, -, hI⟩ := h
  exact hI

/-- A statement in a transaction reaches its tables alone, and none when it throws. -/
theorem Spec.execute {g : τ → Option τ} (hg : ∀ t t', J t → g t = some t' → J' t') :
    Spec (Inside I J) (Sql.execute g) (fun _ => Inside I J') (Stores I) := by
  refine Spec.bind (Spec.attempt Inside.throws Inside.stores) fun _ db hdb r db' h => ?_
  obtain ⟨t, hopened, hJ, hI⟩ := hdb
  have htables : db.tables = t := by rw [Db.tables, hopened]; rfl
  rw [htables] at h
  cases hwrite : g t with
  | none =>
    simp only [hwrite] at h
    obtain ⟨rfl, rfl⟩ := Prod.mk.inj h
    exact hI
  | some t' =>
    simp only [hwrite, Db.write, hopened] at h
    obtain ⟨rfl, rfl⟩ := Prod.mk.inj h
    exact ⟨t', rfl, hg t t' hJ hwrite, hI⟩

theorem Spec.commit : Spec (Inside I I) Sql.commit (fun _ => Stores I) (Stores I) := by
  refine Spec.bind (Spec.attempt Inside.throws Inside.stores) fun _ db hdb r db' h => ?_
  obtain ⟨t, hopened, ht, -⟩ := hdb
  simp only [hopened] at h
  obtain ⟨rfl, rfl⟩ := Prod.mk.inj h
  exact ht

/-- **Transactions.** What holds of the tables on disk at the end of the scope holds
afterwards. -/
theorem Spec.transaction (hbody : Spec (Inside I I) p (fun _ => Stores I) (Stores I)) :
    Keeps I (Sql.transaction p) := by
  have hstart : Spec (Closed I) (Sql.start : Sql τ Unit) (fun _ => Inside I I) (Closed I) := by
    refine Spec.bind (Spec.attempt Closed.throws fun _ h => h) fun _ db hdb r db' h => ?_
    simp only [hdb.1] at h
    obtain ⟨rfl, rfl⟩ := Prod.mk.inj h
    exact ⟨db.stored, rfl, hdb.2, hdb.2⟩
  refine Spec.bind hstart fun _ db hdb r db' h => ?_
  cases hrun : p db with
  | mk a db₁ =>
    have hspec := hbody db hdb a db₁ hrun
    rw [hrun] at h
    obtain ⟨rfl, rfl⟩ := Prod.mk.inj h
    cases a with
    | none => exact ⟨rfl, hspec⟩
    | some a => exact ⟨rfl, hspec⟩

theorem Keeps.pure {a : α} : Keeps I (pure a : Sql τ α) := Spec.pure fun _ h => h

theorem Keeps.bind (hp : Keeps I p) (hf : ∀ a, Keeps I (f a)) : Keeps I (p >>= f) :=
  Spec.bind hp hf

theorem Keeps.orElse (hp : Keeps I p) (hp' : Keeps I p') : Keeps I (p <|> p') :=
  Spec.orElse hp hp'

theorem Keeps.attempt : Keeps I Sql.attempt := Spec.attempt Closed.throws fun _ h => h

theorem Keeps.query {g : τ → α} : Keeps I (Sql.query g) := Spec.query Closed.throws fun _ h => h

end Rules

/-! ## Calls -/

/-- In a transaction, the program makes `n` calls, the last of which commits it with the tables
changed by `f`. It stores nothing when one of them throws. -/
structure Commits (n : Nat) (f : τ → Option τ) (p : Sql τ α) (a : α) : Prop where
  succeeds : ∀ {s t t' : τ} {l : List Bool}, f t = some t' → true ∉ l.take n →
    p ⟨s, some t, l⟩ = (some a, ⟨t', none, l.drop n⟩)
  fails : ∀ {s t : τ} {l : List Bool}, f t = none ∨ true ∈ l.take n →
    ∃ o l', p ⟨s, some t, l⟩ = (none, ⟨s, o, l'⟩)

/-- The program makes `n` calls, which change the tables by `f`, or not at all when one of them
throws. -/
structure Atomic (n : Nat) (f : τ → Option τ) (p : Sql τ α) (a : α) : Prop where
  succeeds : ∀ {s s' : τ} {l : List Bool}, f s = some s' → true ∉ l.take n →
    p ⟨s, none, l⟩ = (some a, ⟨s', none, l.drop n⟩)
  fails : ∀ {s : τ} {l : List Bool}, f s = none ∨ true ∈ l.take n →
    ∃ l', p ⟨s, none, l⟩ = (none, ⟨s, none, l'⟩)

section Calls

variable {f g : τ → Option τ} {p : Sql τ α} {a : α} {n : Nat} {s t : τ} {o : Option τ}
  {l : List Bool}

/-- A call takes the next choice. -/
theorem attempt_bind : (Sql.attempt >>= fun _ => p) ⟨s, o, l⟩ =
    if true ∈ l.take 1 then (none, ⟨s, o, l.drop 1⟩) else p ⟨s, o, l.drop 1⟩ := by
  rw [bind_apply]
  cases l with
  | nil => rfl
  | cons throws l =>
    cases throws with
    | true => rfl
    | false => rfl

theorem prepare_bind : (Sql.prepare >>= fun _ => p) ⟨s, o, l⟩ =
    if true ∈ l.take 1 then (none, ⟨s, o, l.drop 1⟩) else p ⟨s, o, l.drop 1⟩ := attempt_bind

/-- A statement throws, fails, or changes the tables and goes on. -/
theorem execute_bind : (Sql.execute g >>= fun _ => p) ⟨s, some t, l⟩ =
    if true ∈ l.take 1 then (none, ⟨s, some t, l.drop 1⟩)
    else (g t).elim (none, ⟨s, some t, l.drop 1⟩) fun t' => p ⟨s, some t', l.drop 1⟩ := by
  rw [bind_apply, Sql.execute, attempt_bind]
  split
  · rfl
  · simp only [Db.tables, Option.getD_some, Db.write]
    cases g t with
    | none => rfl
    | some t' => rfl

theorem meanwhile_bind {f : τ → τ} :
    (Sql.meanwhile f >>= fun _ => p) ⟨s, o, l⟩ = p ⟨f s, o, l⟩ := by
  rw [bind_apply]
  rfl

theorem mem_take_succ : true ∈ l.take (n + 1) ↔ true ∈ l.take 1 ∨ true ∈ (l.drop 1).take n := by
  rw [Nat.add_comm, List.take_add, List.mem_append]

/-- A commit as the last statement. -/
theorem Commits.commit : Commits 1 some (Sql.commit >>= fun _ => pure a : Sql τ α) a where
  succeeds := by
    rintro s t t' l ht hl
    obtain rfl := Option.some.inj ht
    rw [bind_apply, Sql.commit, attempt_bind, if_neg hl]
    rfl
  fails := by
    rintro s t l (hnone | hl)
    · cases hnone
    · rw [bind_apply, Sql.commit, attempt_bind, if_pos hl]
      exact ⟨_, _, rfl⟩

/-- One more call that changes nothing. -/
theorem Commits.prepare (h : Commits n f p a) :
    Commits (n + 1) f (Sql.prepare >>= fun _ => p) a where
  succeeds := by
    rintro s t t' l ht hl
    rw [mem_take_succ, not_or] at hl
    rw [prepare_bind, if_neg hl.1, h.succeeds ht hl.2, List.drop_drop, Nat.add_comm]
  fails := by
    rintro s t l hl
    rw [mem_take_succ] at hl
    rw [prepare_bind]
    split
    · exact ⟨_, _, rfl⟩
    · rename_i hfirst
      exact h.fails (hl.imp_right fun h => h.resolve_left hfirst)

/-- One more statement. -/
theorem Commits.execute (h : Commits n f p a) :
    Commits (n + 1) (fun t => (g t).bind f) (Sql.execute g >>= fun _ => p) a where
  succeeds := by
    rintro s t t' l ht hl
    rw [mem_take_succ, not_or] at hl
    obtain ⟨t₁, hg, hf⟩ := Option.bind_eq_some_iff.mp ht
    rw [execute_bind, if_neg hl.1, hg, Option.elim_some, h.succeeds hf hl.2, List.drop_drop,
      Nat.add_comm]
  fails := by
    rintro s t l hl
    rw [mem_take_succ] at hl
    rw [execute_bind]
    split
    · exact ⟨_, _, rfl⟩
    · rename_i hfirst
      cases hg : g t with
      | none => exact ⟨_, _, rfl⟩
      | some t₁ =>
        refine h.fails (hl.imp (fun hnone => ?_) fun h => h.resolve_left hfirst)
        rwa [hg] at hnone

/-- `BEGIN` is one more call. -/
theorem Commits.transaction (h : Commits n f p a) : Atomic (n + 1) f (Sql.transaction p) a where
  succeeds := by
    rintro s s' l hs hl
    rw [mem_take_succ, not_or] at hl
    rw [Sql.transaction, Sql.start, bind_apply, attempt_bind, if_neg hl.1]
    simp only [Option.elim_some, h.succeeds hs hl.2, List.drop_drop, Nat.add_comm]
  fails := by
    rintro s l hl
    rw [mem_take_succ] at hl
    rw [Sql.transaction, Sql.start, bind_apply, attempt_bind]
    split
    · exact ⟨_, rfl⟩
    · rename_i hfirst
      obtain ⟨o, l', hrun⟩ := h.fails (s := s) (hl.imp_right fun h => h.resolve_left hfirst)
      simp only [Option.elim_some, hrun]
      exact ⟨_, rfl⟩

end Calls

end Transactions
