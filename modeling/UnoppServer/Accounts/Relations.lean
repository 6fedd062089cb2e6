import UnoppServer.Accounts.Effect
import UnoppServer.Lib.Runs
import UnoppServer.Lib.Transactions

/-!
# Accounts: the table of relations under failures

The functions on friends once more, as the locked sections that they consist of and with
the statements that may throw in them. `accept_friend_request` has two sections, with any
number of others between them. The rows of `relation` are unique, and so a second `INSERT`
of the same row throws.

- `Locked.raiseFriendRequest`, `Locked.removeFriendRequest`, `Locked.insertRelations`: the
  sections, which do what `Authorizer` says they do when nothing throws;
- `integrity_of_run`: relations stay symmetric, irreflexive and unique, whatever throws and
  in whichever order the sections come.
-/

namespace UnoppServer

open Runs Transactions

namespace Authorizer

/-! ## Statements -/

/-- Rows are equal when their two ids are. -/
local instance lawfulRows : LawfulBEq (Int × Int) := inferInstance

/-- `INSERT INTO friend_request`. -/
def insertRequest (requesterId requesteeId : Int) (a : Authorizer) : Option Authorizer :=
  if (requesterId, requesteeId) ∈ a.friendRequests then none
  else some { a with friendRequests := a.friendRequests ++ [(requesterId, requesteeId)] }

/-- `DELETE FROM friend_request`. -/
def deleteRequest (requesterId requesteeId : Int) (a : Authorizer) : Authorizer :=
  { a with friendRequests := a.friendRequests.filter fun r => r ≠ (requesterId, requesteeId) }

/-- `INSERT INTO relation`. -/
def insertRelation (userId friendId : Int) (a : Authorizer) : Option Authorizer :=
  if (userId, friendId) ∈ a.relations then none
  else some { a with relations := a.relations ++ [(userId, friendId)] }

namespace Locked

open Sql

/-- A `SELECT` that asks whether there is a row. -/
def selects (f : Authorizer → Bool) : Sql Authorizer Bool := do
  prepare
  query f

/-- `raise_friend_request`, in the lock. -/
def raiseFriendRequest (requesterId requesteeId : Int) : Sql Authorizer Result := do
  let requesterExists ← selects fun a => a.hasUser requesterId
  if ¬ requesterExists then return .userDonotExist
  let requesteeExists ← selects fun a => a.hasUser requesteeId
  if ¬ requesteeExists then return .userDonotExist
  let related ← selects fun a => decide ((requesterId, requesteeId) ∈ a.relations)
  if related then return .alreadyFriend
  transaction do
    prepare
    let inserted : Bool ← (do execute (insertRequest requesterId requesteeId); pure true) <|>
      pure false
    -- whatever has been thrown
    if ¬ inserted then return .alreadyRequested
    commit
    return .success

/-- `remove_friend_request`, in the lock. -/
def removeFriendRequest (id requesterId : Int) : Sql Authorizer Result := do
  prepare
  (transaction do
    execute fun a => some (a.deleteRequest requesterId id)
    prepare
    execute fun a => some (a.deleteRequest id requesterId)
    commit
    return .success) <|> pure .failed

/-- The second lock of `accept_friend_request`. -/
def insertRelations (id requesterId : Int) : Sql Authorizer Result :=
  (transaction do
    prepare
    execute (insertRelation id requesterId)
    prepare
    execute (insertRelation requesterId id)
    commit
    return .success) <|> pure .failed

end Locked

/-! ## Threads -/

/-- The database, and the threads that are between the two locks of
`accept_friend_request`, with its parameters. -/
structure Friends where
  db : Db Authorizer
  accepting : List (Int × Int)

/-- What a thread does next: a call as far as its first lock goes, or the second lock of an
`accept_friend_request`. -/
inductive Section where
  | raiseFriendRequest (requesterId requesteeId : Int)
  | removeFriendRequest (id requesterId : Int)
  | acceptFriendRequest (id requesterId : Int)
  | insertRelations (thread : Nat)
  deriving DecidableEq, Repr

/-- How the thread goes on. -/
inductive Outcome where
  | returns (result : Result)
  | throws
  | accepts
  deriving DecidableEq, Repr

namespace Friends

/-- No thread is in a call. -/
def start (a : Authorizer) : Friends := ⟨⟨a, none, []⟩, []⟩

/-- Perform a section with the given choices of what throws. -/
def perform (s : Friends) (p : Sql Authorizer Result) (throws : List Bool) : Outcome × Friends :=
  let (r, db) := p { s.db with throws }
  (r.elim .throws .returns, { s with db })

/-- Perform what the thread does next. There is no step of a thread that does not exist. -/
def step (s : Friends) (e : Section × List Bool) : Except Unit (Outcome × Friends) :=
  match e.1 with
  | .raiseFriendRequest requesterId requesteeId =>
    if requesterId = requesteeId then .ok (.returns .cannotRequestSelf, s)
    else .ok (s.perform (Locked.raiseFriendRequest requesterId requesteeId) e.2)
  | .removeFriendRequest id requesterId =>
    .ok (s.perform (Locked.removeFriendRequest id requesterId) e.2)
  | .acceptFriendRequest id requesterId =>
    match s.perform (Locked.removeFriendRequest id requesterId) e.2 with
    | (.throws, s) => .ok (.throws, s)
    | (.returns .failed, s) => .ok (.returns .failed, s)
    | (_, s) => .ok (.accepts, { s with accepting := s.accepting ++ [(id, requesterId)] })
  | .insertRelations thread =>
    match s.accepting[thread]? with
    | none => .error ()
    | some (id, requesterId) =>
      let s := { s with accepting := s.accepting.eraseIdx thread }
      .ok (s.perform (Locked.insertRelations id requesterId) e.2)

end Friends

/-- **Integrity** of the table `relation`. -/
structure Integrity (a : Authorizer) : Prop where
  symm : ∀ u v, (u, v) ∈ a.relations → (v, u) ∈ a.relations
  irrefl : ∀ u, (u, u) ∉ a.relations
  nodup : a.relations.Nodup

section Integrity

variable {a a' : Authorizer} {id requesterId : Int}

/-- Relations are all that counts. -/
theorem Integrity.congr (h : a.Integrity) (hrel : a'.relations = a.relations) : a'.Integrity :=
  ⟨hrel ▸ h.symm, hrel ▸ h.irrefl, hrel ▸ h.nodup⟩

/-- One of the two rows is inserted: the others are sound, and it is not among them. -/
def HalfRelated (id requesterId : Int) (a : Authorizer) : Prop :=
  ∃ rows, a.relations = rows ++ [(id, requesterId)] ∧ (id, requesterId) ∉ rows ∧
    Integrity { a with relations := rows }

theorem Integrity.halfRelated (h : a.Integrity) (hins : a.insertRelation id requesterId = some a') :
    HalfRelated id requesterId a' := by
  unfold insertRelation at hins
  split at hins
  · cases hins
  · obtain rfl := Option.some.inj hins
    exact ⟨a.relations, rfl, ‹_›, h⟩

/-- The second row makes the relation whole. There is none when somebody accepts a request
of their own. -/
theorem HalfRelated.integrity (h : HalfRelated id requesterId a)
    (hins : a.insertRelation requesterId id = some a') : a'.Integrity := by
  obtain ⟨rows, hrows, hnew, hsymm, hirrefl, hnodup⟩ := h
  unfold insertRelation at hins
  split at hins
  · cases hins
  · rename_i hfree
    obtain rfl := Option.some.inj hins
    rw [hrows, List.mem_append, List.mem_singleton, not_or] at hfree
    obtain ⟨hnew', hne⟩ := hfree
    have hall : a.relations ++ [(requesterId, id)] =
        rows ++ [(id, requesterId), (requesterId, id)] := by rw [hrows, List.append_assoc]; rfl
    refine ⟨fun u v => ?_, fun u => ?_, ?_⟩
    · show (u, v) ∈ a.relations ++ _ → (v, u) ∈ a.relations ++ _
      rw [hall]
      have := hsymm u v
      grind
    · show (u, u) ∉ a.relations ++ _
      rw [hall]
      have := hirrefl u
      grind
    · show (a.relations ++ _).Nodup
      rw [hall]
      have : rows.Nodup := hnodup
      grind

end Integrity

namespace Locked

theorem keeps_selects {I : Authorizer → Prop} {f : Authorizer → Bool} : Keeps I (selects f) :=
  Keeps.attempt.bind fun _ => .query

/-- The section of `raise_friend_request` keeps the tables in order, whatever throws. -/
theorem raiseFriendRequest_keeps (requesterId requesteeId : Int) :
    Keeps Integrity (raiseFriendRequest requesterId requesteeId) := by
  unfold raiseFriendRequest
  refine keeps_selects.bind fun requesterExists => ?_
  split
  · exact .pure
  refine keeps_selects.bind fun requesteeExists => ?_
  split
  · exact .pure
  refine keeps_selects.bind fun related => ?_
  split
  · exact .pure
  refine .transaction ?_
  refine .bind (Spec.attempt Inside.throws Inside.stores) fun _ => ?_
  -- the transaction goes on when nothing is thrown
  have hinsert : Spec (Inside Integrity Integrity)
      (do Sql.execute (insertRequest requesterId requesteeId); pure true)
      (fun inserted => if inserted then Inside Integrity Integrity else Stores Integrity)
      (Stores Integrity) := by
    refine .bind (.execute fun a a' ha hins => ?_) fun _ => .pure fun _ h => h
    unfold insertRequest at hins
    split at hins
    · cases hins
    · exact ha.congr (Option.some.inj hins ▸ rfl)
  refine .bind (.orElse hinsert (.pure fun _ h => h)) fun inserted => ?_
  cases inserted with
  | false => exact .pure fun _ h => h
  | true => exact .bind .commit fun _ => .pure fun _ h => h

theorem deleteRequest_spec (requesterId requesteeId : Int) :
    Spec (Inside Integrity Integrity)
      (Sql.execute fun a => some (a.deleteRequest requesterId requesteeId))
      (fun _ => Inside Integrity Integrity) (Stores Integrity) :=
  .execute fun _ _ ha hdel => ha.congr (Option.some.inj hdel ▸ rfl)

theorem removeFriendRequest_keeps (id requesterId : Int) :
    Keeps Integrity (removeFriendRequest id requesterId) := by
  refine Keeps.attempt.bind fun _ => .orElse (.transaction ?_) .pure
  refine .bind (deleteRequest_spec requesterId id) fun _ => ?_
  refine .bind (Spec.attempt Inside.throws Inside.stores) fun _ => ?_
  refine .bind (deleteRequest_spec id requesterId) fun _ => ?_
  exact .bind .commit fun _ => .pure fun _ h => h

/-- The section that inserts the two relations keeps the tables in order, whatever throws. -/
theorem insertRelations_keeps (id requesterId : Int) :
    Keeps Integrity (insertRelations id requesterId) := by
  refine .orElse (.transaction ?_) .pure
  refine .bind (Spec.attempt Inside.throws Inside.stores) fun _ => ?_
  refine .bind (.execute fun _ _ => Integrity.halfRelated) fun _ => ?_
  refine .bind (Spec.attempt Inside.throws Inside.stores) fun _ => ?_
  refine .bind (.execute fun _ _ => HalfRelated.integrity) fun _ => ?_
  exact .bind .commit fun _ => .pure fun _ h => h

/-! ### When nothing throws -/

section Quiet

variable {a : Authorizer} {id requesterId requesteeId : Int}

theorem selects_quiet {f : Authorizer → Bool} :
    selects f ⟨a, none, []⟩ = (some (f a), ⟨a, none, []⟩) := rfl

/-- Where nothing throws, the section is the call. -/
theorem raiseFriendRequest_quiet (hne : requesterId ≠ requesteeId) :
    raiseFriendRequest requesterId requesteeId ⟨a, none, []⟩ =
      let (ans, a') := a.answer (a.raiseFriendRequest requesterId requesteeId)
      (some ans.result, ⟨a', none, []⟩) := by
  unfold Authorizer.raiseFriendRequest raiseFriendRequest
  rw [if_neg hne, bind_apply, selects_quiet]
  simp only [Option.elim_some]
  split
  · rfl
  rw [bind_apply, selects_quiet]
  simp only [Option.elim_some]
  split
  · rfl
  rw [bind_apply, selects_quiet]
  simp only [Option.elim_some]
  by_cases hrelated : (requesterId, requesteeId) ∈ a.relations
  · rw [if_pos hrelated, if_pos (decide_eq_true hrelated)]
    rfl
  rw [if_neg hrelated, if_neg fun h => hrelated (of_decide_eq_true h)]
  simp only [transaction_apply, bind_apply, orElse_apply, prepare_apply, execute_apply,
    pure_apply, Option.elim_some, insertRequest]
  by_cases hrequested : (requesterId, requesteeId) ∈ a.friendRequests
  · simp only [if_pos hrequested, Option.elim_none]
    rfl
  · simp only [if_neg hrequested, Option.elim_some]
    rfl

theorem removeFriendRequest_quiet : removeFriendRequest id requesterId ⟨a, none, []⟩ =
    (some .success, ⟨a.removeFriendRequest id requesterId, none, []⟩) := rfl

/-- The two `INSERT`s, of which the second sees the first. -/
theorem insertRelations_eq_bind : a.insertRelations id requesterId =
    (a.insertRelation id requesterId).bind (insertRelation requesterId id) := by
  unfold Authorizer.insertRelations insertRelation
  split <;> rfl

/-- Where nothing throws, both relations are inserted or none is. -/
theorem insertRelations_quiet : insertRelations id requesterId ⟨a, none, []⟩ =
    (a.insertRelations id requesterId).elim (some .failed, ⟨a, none, []⟩)
      fun a' => (some .success, ⟨a', none, []⟩) := by
  rw [insertRelations_eq_bind]
  simp only [insertRelations, orElse_apply, transaction_apply, bind_apply, prepare_apply,
    execute_apply, pure_apply, Option.elim_some]
  cases a.insertRelation id requesterId with
  | none => rfl
  | some a' =>
    simp only [Option.elim_some, Option.bind_some, prepare_apply, execute_apply]
    cases a'.insertRelation requesterId id with
    | none => rfl
    | some a'' => rfl

end Quiet

end Locked

/-! ## Runs -/

/-- The sections of a call that finds no other between them, when nothing throws. -/
def sections : Op → Option (List (Section × List Bool))
  | .raiseFriendRequest requesterId requesteeId =>
    some [(.raiseFriendRequest requesterId requesteeId, [])]
  | .removeFriendRequest id requesterId => some [(.removeFriendRequest id requesterId, [])]
  | .acceptFriendRequest id requesterId =>
    some [(.acceptFriendRequest id requesterId, []), (.insertRelations 0, [])]
  | _ => none

namespace Friends

/-- **Refinement.** Such a call is a step of the accounts. -/
theorem exec_sections {d : Draw} {op : Op} {l : List (Section × List Bool)} {a a' : Authorizer}
    {ans : Answer} (hop : sections op = some l) (h : a.step (d, op) = .ok (ans, a')) :
    exec step (start a) l = .ok (start a') := by
  cases op with
  | raiseFriendRequest requesterId requesteeId =>
    obtain rfl := Option.some.inj hop
    have hr : a.answer (a.raiseFriendRequest requesterId requesteeId) = (ans, a') :=
      Except.ok.inj h
    by_cases hself : requesterId = requesteeId
    · rw [Authorizer.raiseFriendRequest, if_pos hself] at hr
      obtain rfl := (Prod.mk.inj hr).2
      simp only [exec, step, if_pos hself]
    · simp only [exec, step, if_neg hself, perform, start, Locked.raiseFriendRequest_quiet hself,
        hr]
  | removeFriendRequest id requesterId =>
    obtain rfl := Option.some.inj hop
    obtain rfl := (Prod.mk.inj (Except.ok.inj h)).2
    rfl
  | acceptFriendRequest id requesterId =>
    obtain rfl := Option.some.inj hop
    have hr : a.acceptFriendRequest id requesterId = (ans.result, a') := by
      obtain ⟨rfl, rfl⟩ := Prod.mk.inj (Except.ok.inj h)
      rfl
    unfold Authorizer.acceptFriendRequest at hr
    simp only [exec, step, perform, start, Locked.removeFriendRequest_quiet, Option.elim_some,
      List.nil_append, List.getElem?_cons_zero, Locked.insertRelations_quiet]
    cases hins : (a.removeFriendRequest id requesterId).insertRelations id requesterId with
    | none =>
      simp only [hins] at hr
      obtain rfl := (Prod.mk.inj hr).2
      rfl
    | some b =>
      simp only [hins] at hr
      obtain rfl := (Prod.mk.inj hr).2
      rfl
  | _ => cases hop

section Step

variable {s s' : Friends} {e : Section × List Bool} {out : Outcome}

/-- A section that keeps the tables in order leaves no transaction open, whatever throws. -/
theorem perform_closed {p : Sql Authorizer Result} (hp : Keeps Integrity p)
    (hs : Closed Integrity s.db) (throws : List Bool) :
    Closed Integrity (s.perform p throws).2.db := by
  have hspec := hp { s.db with throws } hs _ _ rfl
  show Closed Integrity (p { s.db with throws }).2
  cases hr : (p { s.db with throws }).1 with
  | none => rwa [hr] at hspec
  | some r => rwa [hr] at hspec

/-- **Step lemma.** No section breaks the integrity, or leaves its transaction open. -/
theorem step_closed (hs : Closed Integrity s.db) (h : s.step e = .ok (out, s')) :
    Closed Integrity s'.db := by
  obtain ⟨act, throws⟩ := e
  cases act with
  | raiseFriendRequest requesterId requesteeId =>
    simp only [step] at h
    split at h
    · obtain rfl := (Prod.mk.inj (Except.ok.inj h)).2
      exact hs
    · have hkeeps :=
        perform_closed (Locked.raiseFriendRequest_keeps requesterId requesteeId) hs throws
      rwa [Except.ok.inj h] at hkeeps
  | removeFriendRequest id requesterId =>
    have hkeeps := perform_closed (Locked.removeFriendRequest_keeps id requesterId) hs throws
    rwa [Except.ok.inj h] at hkeeps
  | acceptFriendRequest id requesterId =>
    have hkeeps := perform_closed (Locked.removeFriendRequest_keeps id requesterId) hs throws
    simp only [step] at h
    split at h
    all_goals
      rename_i hperform
      rw [hperform] at hkeeps
      obtain rfl := (Prod.mk.inj (Except.ok.inj h)).2
      exact hkeeps
  | insertRelations thread =>
    simp only [step] at h
    split at h
    · cases h
    · rename_i id requesterId _
      have hbefore : Closed Integrity { s with accepting := s.accepting.eraseIdx thread }.db := hs
      have hkeeps := perform_closed (Locked.insertRelations_keeps id requesterId) hbefore throws
      rwa [Except.ok.inj h] at hkeeps

end Step

end Friends

/-- The recorded sections. -/
abbrev SectionHistory := List (Entry Friends (Section × List Bool) Outcome)

/-- The sections `h` have led from the tables `a₀` to `s`. -/
abbrev SectionRun (a₀ : Authorizer) (h : SectionHistory) (s : Friends) : Prop :=
  Run Friends.step (fun _ _ => True) (Friends.start a₀) h s

/-- **Integrity under failures.** Relations stay symmetric, irreflexive and unique, in
whichever order the sections come and whatever throws in them. -/
theorem integrity_of_run {a₀ : Authorizer} {h : SectionHistory} {s : Friends} (h₀ : a₀.Integrity)
    (hr : SectionRun a₀ h s) : s.db.opened = none ∧ s.db.stored.Integrity := by
  have hclosed : Closed Integrity s.db :=
    hr.invariant ⟨rfl, h₀⟩ fun _ _ _ _ hs _ hstep => Friends.step_closed hs hstep
  exact hclosed

theorem integrity_new : new.Integrity :=
  ⟨fun _ _ h => absurd h List.not_mem_nil, fun _ => List.not_mem_nil, List.nodup_nil⟩

/-- Two users accept each other, and the one's second `INSERT` throws; the other accepts
themselves as well. -/
def crossing : List (Section × List Bool) :=
  [(.acceptFriendRequest 1 2, []), (.acceptFriendRequest 2 1, []), (.acceptFriendRequest 2 2, []),
    (.insertRelations 0, [false, false, false, false, true]), (.insertRelations 1, []),
    (.insertRelations 0, [])]

theorem integrity_of_run_crossing : ∃ h s, SectionRun new h s ∧ h.map Entry.act = crossing ∧
    s.db.stored.relations = [(2, 1), (1, 2)] ∧ s.db.opened = none ∧ s.db.stored.Integrity := by
  have he : execTo Friends.step (Friends.start new) crossing
      (fun s => decide (s.db.stored.relations = [(2, 1), (1, 2)])) = true := by decide
  obtain ⟨h, s, hr, hacts, hrel⟩ := exists_run_of_execTo he
  exact ⟨h, s, hr, hacts, of_decide_eq_true hrel, integrity_of_run integrity_new hr⟩

end Authorizer

end UnoppServer
