import UnoppServer.Accounts.Relations

/-!
# Accounts: accepting a request under failures

`accept_friend_request` stores its changes in two transactions: one deletes the requests
between the two users, the other one inserts the rows of `relation`. It fails without undoing
the first when the second fails, and what others have stored in between stays.

- `Locked.acceptFriendRequest`: the call, with what others do between its two locks;
- `accept_allOrNothing_iff`: exactly when it does everything or nothing;
- `accept_alone_iff`: the same when nobody comes in between;
- `step_acceptFriendRequest`, `step_insertRelations`: the two locks of a thread make the call.
-/

namespace UnoppServer

open Transactions

namespace Authorizer

/-- Rows are equal when their two ids are. -/
local instance lawfulAccepted : LawfulBEq (Int × Int) := inferInstance

namespace Locked

/-- `accept_friend_request`, with what `others` do between its two locks. -/
def acceptFriendRequest (others : Authorizer → Authorizer) (id requesterId : Int) :
    Sql Authorizer Result := do
  let result ← removeFriendRequest id requesterId
  if result = .failed then return .failed
  Sql.meanwhile others
  insertRelations id requesterId

end Locked

/-! ## What the call should do -/

/-- There is no request between the two users. -/
def Unrequested (id requesterId : Int) (a : Authorizer) : Prop :=
  (id, requesterId) ∉ a.friendRequests ∧ (requesterId, id) ∉ a.friendRequests

/-- The users are related, with no request between them. -/
structure Accepted (id requesterId : Int) (a : Authorizer) : Prop where
  related : (id, requesterId) ∈ a.relations
  relatedBack : (requesterId, id) ∈ a.relations
  unrequested : a.Unrequested id requesterId

/-- The tables of requests and relations are the same. -/
def Untouched (a a' : Authorizer) : Prop :=
  a'.friendRequests = a.friendRequests ∧ a'.relations = a.relations

/-- The call has succeeded, with the users related and no request between them, or it has failed
and changed nothing. -/
def AllOrNothing (a : Authorizer) (id requesterId : Int) (r : Option Result) (a' : Authorizer) :
    Prop :=
  r = some .success ∧ a'.Accepted id requesterId ∨ r = some .failed ∧ a.Untouched a'

section Accept

variable {a b : Authorizer} {id requesterId : Int} {l : List Bool}

/-! ## The two transactions -/

/-- Nothing is inserted when one of the two rows is already there. -/
theorem insertRelations_eq_none_iff :
    a.insertRelations id requesterId = none ↔ ¬ a.Unrelated id requesterId := by
  constructor
  · intro hnone hun
    exact nomatch hnone.symm.trans (insertRelations_eq_some.mpr ⟨hun, rfl⟩)
  · intro hrel
    cases hins : a.insertRelations id requesterId with
    | none => rfl
    | some a' => exact absurd (insertRelations_eq_some.mp hins).1 hrel

namespace Locked

/-- The transaction of `remove_friend_request`. -/
theorem removal_atomic :
    Atomic 5 (fun a : Authorizer => some (a.removeFriendRequest id requesterId))
    (Sql.transaction do
      Sql.execute fun a : Authorizer => some (a.deleteRequest requesterId id)
      Sql.prepare
      Sql.execute fun a : Authorizer => some (a.deleteRequest id requesterId)
      Sql.commit
      return Result.success) .success := by
  have hdelete : Commits 4
      (fun a : Authorizer => (some (a.deleteRequest requesterId id)).bind fun a =>
        (some (a.deleteRequest id requesterId)).bind some) _ Result.success :=
    .execute (.prepare (.execute .commit))
  exact hdelete.transaction

/-- The transaction of `accept_friend_request`. -/
theorem insertion_atomic : Atomic 6 (fun a : Authorizer => a.insertRelations id requesterId)
    (Sql.transaction do
      Sql.prepare
      Sql.execute (insertRelation id requesterId)
      Sql.prepare
      Sql.execute (insertRelation requesterId id)
      Sql.commit
      return Result.success) .success := by
  have hrows : (fun a : Authorizer => a.insertRelations id requesterId) = fun a =>
      (a.insertRelation id requesterId).bind fun a =>
        (a.insertRelation requesterId id).bind some := by
    funext a
    simp only [insertRelations_eq_bind, Option.bind_fun_some]
  rw [hrows]
  exact (Commits.prepare (.execute (.prepare (.execute .commit)))).transaction

/-! ## The call -/

theorem removeFriendRequest_success (h : true ∉ l.take 1) (h' : true ∉ (l.drop 1).take 5) :
    removeFriendRequest id requesterId ⟨a, none, l⟩ =
      (some .success, ⟨a.removeFriendRequest id requesterId, none, l.drop 6⟩) := by
  unfold removeFriendRequest
  rw [prepare_bind, if_neg h, orElse_apply, removal_atomic.succeeds rfl h', List.drop_drop]
  rfl

theorem removeFriendRequest_failed (h : true ∉ l.take 1) (h' : true ∈ (l.drop 1).take 5) :
    ∃ l', removeFriendRequest id requesterId ⟨a, none, l⟩ = (some .failed, ⟨a, none, l'⟩) := by
  obtain ⟨l', hrun⟩ := removal_atomic.fails (s := a) (.inr h')
  unfold removeFriendRequest
  rw [prepare_bind, if_neg h, orElse_apply, hrun]
  exact ⟨l', rfl⟩

/-- The first statement is prepared before anything is caught. -/
theorem removeFriendRequest_throws (h : true ∈ l.take 1) :
    removeFriendRequest id requesterId ⟨a, none, l⟩ = (none, ⟨a, none, l.drop 1⟩) := by
  unfold removeFriendRequest
  rw [prepare_bind, if_pos h]

theorem insertRelations_success (hun : a.Unrelated id requesterId) (h : true ∉ l.take 6) :
    insertRelations id requesterId ⟨a, none, l⟩ = (some .success,
      ⟨{ a with relations := a.relations ++ [(id, requesterId), (requesterId, id)] }, none,
        l.drop 6⟩) := by
  unfold insertRelations
  rw [orElse_apply, insertion_atomic.succeeds (insertRelations_eq_some.mpr ⟨hun, rfl⟩) h]
  rfl

theorem insertRelations_failed (h : ¬ (a.Unrelated id requesterId ∧ true ∉ l.take 6)) :
    ∃ l', insertRelations id requesterId ⟨a, none, l⟩ = (some .failed, ⟨a, none, l'⟩) := by
  rw [not_and_or, not_not, ← insertRelations_eq_none_iff] at h
  obtain ⟨l', hrun⟩ := insertion_atomic.fails h
  unfold insertRelations
  rw [orElse_apply, hrun]
  exact ⟨l', rfl⟩

end Locked

/-- What `accept_friend_request` returns, and the tables that it leaves. -/
inductive Accepting (a : Authorizer) (others : Authorizer → Authorizer) (id requesterId : Int)
    (throws : List Bool) : Option Result → Authorizer → Prop where
  | throws (hfirst : true ∈ throws.take 1) : Accepting a others id requesterId throws none a
  | removalFails (hfirst : true ∉ throws.take 1) (hremoval : true ∈ (throws.drop 1).take 5) :
      Accepting a others id requesterId throws (some .failed) a
  | insertionFails {b : Authorizer} (hfirst : true ∉ throws.take 1)
      (hremoval : true ∉ (throws.drop 1).take 5)
      (hb : b = others (a.removeFriendRequest id requesterId))
      (hinsertion : ¬ (b.Unrelated id requesterId ∧ true ∉ (throws.drop 6).take 6)) :
      Accepting a others id requesterId throws (some .failed) b
  | accepts {b : Authorizer} (hfirst : true ∉ throws.take 1)
      (hremoval : true ∉ (throws.drop 1).take 5)
      (hb : b = others (a.removeFriendRequest id requesterId))
      (hun : b.Unrelated id requesterId) (hinsertion : true ∉ (throws.drop 6).take 6) :
      Accepting a others id requesterId throws (some .success)
        { b with relations := b.relations ++ [(id, requesterId), (requesterId, id)] }

/-- What the two sections of `accept_friend_request` leave, wherever their statements throw. -/
theorem acceptFriendRequest_spec (a : Authorizer) (others : Authorizer → Authorizer)
    (id requesterId : Int) (throws : List Bool) :
    let (r, db) := Locked.acceptFriendRequest others id requesterId ⟨a, none, throws⟩
    Accepting a others id requesterId throws r db.stored := by
  unfold Locked.acceptFriendRequest
  rw [bind_apply]
  by_cases hfirst : true ∈ throws.take 1
  · rw [Locked.removeFriendRequest_throws hfirst]
    exact .throws hfirst
  by_cases hremoval : true ∈ (throws.drop 1).take 5
  · obtain ⟨l', hrun⟩ : ∃ l', Locked.removeFriendRequest id requesterId ⟨a, none, throws⟩ = _ :=
      Locked.removeFriendRequest_failed hfirst hremoval
    rw [hrun]
    exact .removalFails hfirst hremoval
  rw [Locked.removeFriendRequest_success hfirst hremoval]
  simp only [Option.elim_some, reduceCtorEq, if_false, meanwhile_bind]
  generalize hb : others (a.removeFriendRequest id requesterId) = b
  by_cases hinsertion : b.Unrelated id requesterId ∧ true ∉ (throws.drop 6).take 6
  · rw [Locked.insertRelations_success hinsertion.1 hinsertion.2]
    exact .accepts hfirst hremoval hb.symm hinsertion.1 hinsertion.2
  · obtain ⟨l', hrun⟩ := Locked.insertRelations_failed hinsertion
    rw [hrun]
    exact .insertionFails hfirst hremoval hb.symm hinsertion

/-! ## All or nothing -/

section AllOrNothing

variable {a a' : Authorizer} {others : Authorizer → Authorizer} {throws : List Bool}
  {r : Option Result}

/-- The four ends of the call. -/
theorem Accepting.allOrNothing_iff (h : Accepting a others id requesterId throws r a') :
    let b := others (a.removeFriendRequest id requesterId)
    a.AllOrNothing id requesterId r a' ↔
      true ∉ throws.take 1 ∧ (true ∈ (throws.drop 1).take 5 ∨
        (b.Unrelated id requesterId ∧ true ∉ (throws.drop 6).take 6) ∧
          b.Unrequested id requesterId ∨
        ¬ (b.Unrelated id requesterId ∧ true ∉ (throws.drop 6).take 6) ∧ a.Untouched b) := by
  cases h with
  | throws hfirst =>
    refine ⟨?_, fun h => absurd hfirst h.1⟩
    rintro (⟨hr, -⟩ | ⟨hr, -⟩)
    · cases hr
    · cases hr
  | removalFails hfirst hremoval =>
    exact ⟨fun _ => ⟨hfirst, .inl hremoval⟩, fun _ => .inr ⟨rfl, rfl, rfl⟩⟩
  | insertionFails hfirst hremoval hb hinsertion =>
    subst hb
    constructor
    · rintro (⟨hr, -⟩ | ⟨-, hsame⟩)
      · cases hr
      · exact ⟨hfirst, .inr (.inr ⟨hinsertion, hsame⟩)⟩
    · rintro ⟨-, hthrow | ⟨hins, -⟩ | ⟨-, hsame⟩⟩
      · exact absurd hthrow hremoval
      · exact absurd hins hinsertion
      · exact .inr ⟨rfl, hsame⟩
  | accepts hfirst hremoval hb hun hinsertion =>
    subst hb
    constructor
    · rintro (⟨-, haccepted⟩ | ⟨hr, -⟩)
      · exact ⟨hfirst, .inr (.inl ⟨⟨hun, hinsertion⟩, haccepted.unrequested⟩)⟩
      · cases hr
    · rintro ⟨-, hthrow | ⟨-, hunrequested⟩ | ⟨hins, -⟩⟩
      · exact absurd hthrow hremoval
      · exact .inl ⟨rfl, ⟨List.mem_append_right _ List.mem_cons_self,
          List.mem_append_right _ (List.mem_cons_of_mem _ List.mem_cons_self), hunrequested⟩⟩
      · exact absurd ⟨hun, hinsertion⟩ hins

/-- **Accepting** does everything or nothing exactly when its first statement is prepared and
then either the requests stay; or the rows are inserted, and nobody has made a request in between;
or they are not, and there was nothing to delete, or others have made up for it. -/
theorem accept_allOrNothing_iff (a : Authorizer) (others : Authorizer → Authorizer)
    (id requesterId : Int) (throws : List Bool) :
    let (r, db) := Locked.acceptFriendRequest others id requesterId ⟨a, none, throws⟩
    let b := others (a.removeFriendRequest id requesterId)
    a.AllOrNothing id requesterId r db.stored ↔
      true ∉ throws.take 1 ∧ (true ∈ (throws.drop 1).take 5 ∨
        (b.Unrelated id requesterId ∧ true ∉ (throws.drop 6).take 6) ∧
          b.Unrequested id requesterId ∨
        ¬ (b.Unrelated id requesterId ∧ true ∉ (throws.drop 6).take 6) ∧ a.Untouched b) :=
  (acceptFriendRequest_spec a others id requesterId throws).allOrNothing_iff

/-- User 2 has requested user 1. The first `INSERT` throws, and the request is gone. -/
theorem request_lost :
    let a : Authorizer := ⟨[⟨1, "ann", "a", none⟩, ⟨2, "bob", "b", none⟩], [(2, 1)], []⟩
    let (r, db) := Locked.acceptFriendRequest (fun a => a) 1 2
      ⟨a, none, List.replicate 8 false ++ [true]⟩
    ¬ a.AllOrNothing 1 2 r db.stored := by
  rintro a (⟨hr, -⟩ | ⟨-, hsame⟩)
  · exact absurd hr (by decide)
  · exact absurd hsame.1 (by decide)

/-- The call deletes what is between the two users. -/
theorem unrequested_removeFriendRequest :
    (a.removeFriendRequest id requesterId).Unrequested id requesterId := by
  constructor
  · exact fun h => absurd (List.mem_filter.mp h).2 (by simp)
  · exact fun h => absurd (List.mem_filter.mp (List.mem_filter.mp h).1).2 (by simp)

/-- There is something to delete unless there is no request. -/
theorem untouched_removeFriendRequest_iff :
    a.Untouched (a.removeFriendRequest id requesterId) ↔ a.Unrequested id requesterId := by
  constructor
  · rintro ⟨hrequests, -⟩
    have hun : (a.removeFriendRequest id requesterId).Unrequested id requesterId :=
      unrequested_removeFriendRequest
    unfold Unrequested at hun ⊢
    rwa [hrequests] at hun
  · rintro ⟨hno, hno'⟩
    have hfirst : (a.friendRequests.filter fun r => r ≠ (requesterId, id)) = a.friendRequests :=
      List.filter_eq_self.mpr fun r hr => decide_eq_true fun he => hno' (he ▸ hr)
    have hsecond : (a.friendRequests.filter fun r => r ≠ (id, requesterId)) = a.friendRequests :=
      List.filter_eq_self.mpr fun r hr => decide_eq_true fun he => hno (he ▸ hr)
    refine ⟨?_, rfl⟩
    unfold removeFriendRequest
    rw [hfirst, hsecond]

/-- **Alone.** When nobody comes in between, what goes wrong is that the rows are not inserted
after a request has been deleted. -/
theorem accept_alone_iff (a : Authorizer) (id requesterId : Int) (throws : List Bool) :
    let (r, db) := Locked.acceptFriendRequest (fun a => a) id requesterId ⟨a, none, throws⟩
    a.AllOrNothing id requesterId r db.stored ↔
      true ∉ throws.take 1 ∧ (true ∈ (throws.drop 1).take 5 ∨
        a.Unrelated id requesterId ∧ true ∉ (throws.drop 6).take 6 ∨
        a.Unrequested id requesterId) := by
  refine (acceptFriendRequest_spec a _ id requesterId throws).allOrNothing_iff.trans ?_
  have hun : (a.removeFriendRequest id requesterId).Unrelated id requesterId ↔
      a.Unrelated id requesterId := Iff.rfl
  simp only [untouched_removeFriendRequest_iff, unrequested_removeFriendRequest, hun, and_true]
  tauto

/-- When nothing throws and nobody comes in between, the call is that of the accounts. -/
theorem acceptFriendRequest_quiet (a : Authorizer) (id requesterId : Int) :
    Locked.acceptFriendRequest (fun a => a) id requesterId ⟨a, none, []⟩ =
      let (result, a') := a.acceptFriendRequest id requesterId
      (some result, ⟨a', none, []⟩) := by
  unfold Locked.acceptFriendRequest Authorizer.acceptFriendRequest
  rw [bind_apply, Locked.removeFriendRequest_quiet]
  simp only [Option.elim_some, reduceCtorEq, if_false, meanwhile_bind,
    Locked.insertRelations_quiet]
  cases (a.removeFriendRequest id requesterId).insertRelations id requesterId <;> rfl

end AllOrNothing

/-! ## Threads -/

section Threads

variable {s s' : Friends} {thread : Nat} {out : Outcome}

theorem perform_eq (hclosed : s.db.opened = none) (p : Sql Authorizer Result) :
    s.perform p l = ((p ⟨s.db.stored, none, l⟩).1.elim .throws .returns,
      { s with db := (p ⟨s.db.stored, none, l⟩).2 }) := by
  rw [← hclosed]
  rfl

/-- The first lock: the call has ended, or the requests are deleted. -/
theorem step_acceptFriendRequest (others : Authorizer → Authorizer) (hclosed : s.db.opened = none)
    (h : s.step (.acceptFriendRequest id requesterId, l) = .ok (out, s')) :
    (out = .accepts ∧ s'.db.stored = s.db.stored.removeFriendRequest id requesterId) ∨
      let (r, db) := Locked.acceptFriendRequest others id requesterId ⟨s.db.stored, none, l⟩
      out = r.elim .throws .returns ∧ s'.db.stored = db.stored := by
  unfold Locked.acceptFriendRequest
  rw [bind_apply]
  simp only [Friends.step, perform_eq hclosed] at h
  by_cases hfirst : true ∈ l.take 1
  · rw [Locked.removeFriendRequest_throws hfirst] at h ⊢
    obtain ⟨rfl, rfl⟩ := Prod.mk.inj (Except.ok.inj h)
    exact .inr ⟨rfl, rfl⟩
  by_cases hremoval : true ∈ (l.drop 1).take 5
  · obtain ⟨l', hrun⟩ : ∃ l', Locked.removeFriendRequest id requesterId
        ⟨s.db.stored, none, l⟩ = _ := Locked.removeFriendRequest_failed hfirst hremoval
    rw [hrun] at h ⊢
    obtain ⟨rfl, rfl⟩ := Prod.mk.inj (Except.ok.inj h)
    exact .inr ⟨rfl, rfl⟩
  · rw [Locked.removeFriendRequest_success hfirst hremoval] at h
    obtain ⟨rfl, rfl⟩ := Prod.mk.inj (Except.ok.inj h)
    exact .inl ⟨rfl, rfl⟩

/-- The second lock: a thread that has begun with the tables `a` has made the call. -/
theorem step_insertRelations (a : Authorizer) (hclosed : s.db.opened = none)
    (hthread : s.accepting[thread]? = some (id, requesterId))
    (h : s.step (.insertRelations thread, l) = .ok (out, s')) :
    let (r, db) := Locked.acceptFriendRequest (fun _ => s.db.stored) id requesterId
      ⟨a, none, List.replicate 6 false ++ l⟩
    out = r.elim .throws .returns ∧ s'.db.stored = db.stored := by
  have hremoved : Locked.removeFriendRequest id requesterId ⟨a, none, List.replicate 6 false ++ l⟩ =
      (some .success, ⟨a.removeFriendRequest id requesterId, none, l⟩) :=
    Locked.removeFriendRequest_success (by simp) (by simp)
  unfold Locked.acceptFriendRequest
  rw [bind_apply, hremoved]
  simp only [Option.elim_some, reduceCtorEq, if_false, meanwhile_bind]
  simp only [Friends.step, hthread] at h
  have hclosed' : { s with accepting := s.accepting.eraseIdx thread }.db.opened = none := hclosed
  rw [perform_eq hclosed'] at h
  obtain ⟨rfl, rfl⟩ := Prod.mk.inj (Except.ok.inj h)
  exact ⟨rfl, rfl⟩

end Threads

end Accept

end Authorizer

end UnoppServer
