import UnoppServer.Http.Api

/-!
# The requests: failures

- `clean_handle`: a handler throws only before it has changed something.
-/

namespace UnoppServer

open Authorizer Sections

namespace HttpServer

section Clean

variable {α : Type} {parse : String → Except Fault Json} {read : String → Json} {r : Request}

theorem clean_query (f : Chance → Site → Except Fault (α × Site)) : Clean (query f) := clean_call _

/-- A section that only looks something up. -/
theorem quiet_query {f : Chance → Site → Except Fault (α × Site)}
    (h : ∀ w s a s', f w s = .ok (a, s') → s' = s) : Quiet (query f) := by
  refine quiet_call fun w s a s' hf => ?_
  split at hf
  · cases hf
  · exact h w s a s' hf

theorem quiet_selectUser (p : User → Bool) : Quiet (selectUser p) :=
  quiet_query fun _ _ _ _ hf => (Prod.mk.inj (Except.ok.inj hf)).2.symm

theorem clean_startSession (id : Int) (userName : String) : Clean (startSession id userName) :=
  clean_query _

/-- Before the session of a login nothing is changed. -/
theorem clean_checkPassword {p : User → Bool} {password : String} {a b : α} {f : User → Api α}
    (hf : ∀ u, Clean (f u)) : Clean (do
      match ← selectUser p with
      | none => return a
      | some u => if u.password ≠ password then return b else f u) := by
  refine (quiet_selectUser p).bind_clean fun u => ?_
  cases u with
  | none => trivial
  | some u =>
    show Clean (if u.password ≠ password then pure b else f u)
    split
    · trivial
    · exact hf u

theorem clean_logIn (userName password : String) : Clean (logIn userName password) :=
  clean_checkPassword fun _ => (clean_startSession _ _).bind_returns fun _ => returns_pure

theorem clean_logInById (id : Int) (password : String) : Clean (logInById id password) :=
  clean_checkPassword fun _ => (clean_startSession _ _).bind_returns fun _ => returns_pure

theorem clean_newUser (userName password : String) : Clean (newUser userName password) := by
  unfold newUser
  split
  · trivial
  · split
    · trivial
    · exact clean_query _

theorem clean_raiseFriendRequest (requesterId requesteeId : Int) :
    Clean (raiseFriendRequest requesterId requesteeId) := by
  unfold raiseFriendRequest
  split
  · trivial
  · exact clean_query _

/-- In its second section nothing throws. -/
theorem clean_acceptFriendRequest (id requesterId : Int) :
    Clean (acceptFriendRequest id requesterId) := by
  refine Clean.bind_returns (clean_query _) fun result => ?_
  split
  · exact returns_pure
  · refine returns_call fun w s => ?_
    split
    · exact ⟨_, rfl⟩
    · split
      · exact ⟨_, rfl⟩
      · exact ⟨_, rfl⟩

theorem clean_settleFriendRequest (accept : Bool) (id requesterId : Int) :
    Clean (settleFriendRequest accept id requesterId) := by
  unfold settleFriendRequest
  split
  · exact clean_acceptFriendRequest id requesterId
  · exact clean_query _

theorem quiet_getChatMessage (userId latest : Int) : Quiet (getChatMessage read userId latest) := by
  refine Quiet.bind (quiet_call fun w s a s' hf => ?_) fun res =>
    quiet_query fun w s a s' hf => ?_
  · obtain ⟨v, -, he⟩ := map_eq_ok_iff.mp hf
    exact (Prod.mk.inj he).2.symm
  · obtain ⟨v, -, he⟩ := map_eq_ok_iff.mp hf
    exact (Prod.mk.inj he).2.symm

/-- The handlers for users who have logged in look the session up first. -/
theorem clean_signedIn {f : Int → String → Api Response}
    (hf : ∀ id userName, Clean (f id userName)) : Clean (signedIn r f) := by
  unfold signedIn
  split
  · trivial
  · refine Quiet.bind_clean (quiet_query fun _ _ _ _ hf => ?_) fun a => ?_
    · exact (Prod.mk.inj (Except.ok.inj hf)).2.symm
    · split
      · trivial
      · exact hf _ _

/-- What is answered in the end. -/
theorem returns_ite {c : Prop} [Decidable c] {a b : Response} :
    Returns (if c then pure a else pure b : Api Response) := by
  split
  · exact returns_pure
  · exact returns_pure

theorem clean_login : Clean (login parse r) := by
  refine Clean.lift_bind fun payload => Clean.lift_bind fun _ => Clean.lift_bind fun _ => ?_
  refine (clean_logIn _ _).bind_returns fun a => ?_
  split
  · exact returns_pure
  · exact returns_pure

theorem clean_loginById : Clean (loginById parse r) := by
  refine Clean.lift_bind fun payload => Clean.lift_bind fun _ => Clean.lift_bind fun _ => ?_
  refine (clean_logInById _ _).bind_returns fun a => ?_
  split
  · exact returns_pure
  · exact returns_pure

theorem clean_logout : Clean (logout r) := by
  unfold logout
  split
  · trivial
  · exact (clean_query _).bind_returns fun _ => returns_ite

theorem clean_register : Clean (register parse r) := by
  refine Clean.lift_bind fun payload => Clean.lift_bind fun _ => Clean.lift_bind fun _ => ?_
  refine (clean_newUser _ _).bind_returns fun a => ?_
  split <;> exact returns_pure

theorem clean_icon : Clean (icon r) := by
  unfold icon
  split
  · exact (clean_query _).bind_returns fun _ => returns_pure
  · trivial

theorem clean_setName : Clean (setName parse r) := by
  refine clean_signedIn fun id _ => Clean.lift_bind fun _ => Clean.lift_bind fun _ => ?_
  refine Clean.bind_returns (clean_query _) fun a => ?_
  split <;> exact returns_pure

theorem clean_friendRequest : Clean (friendRequest parse r) := by
  refine clean_signedIn fun id _ => Clean.lift_bind fun _ => Clean.lift_bind fun _ => ?_
  refine (clean_raiseFriendRequest _ _).bind_returns fun a => ?_
  split <;> exact returns_pure

theorem clean_friendRequests : Clean (friendRequests r) := by
  refine clean_signedIn fun id _ => Clean.bind_returns (clean_query _) fun a => ?_
  split <;> exact returns_pure

theorem clean_chatHistory : Clean (chatHistory read r) := by
  refine clean_signedIn fun id _ => Quiet.bind_clean ?_ fun latest => ?_
  · unfold latestTimestamp
    split
    · trivial
    · exact quiet_call fun _ _ _ _ hf => (Prod.mk.inj (Except.ok.inj hf)).2.symm
  · exact (quiet_getChatMessage id latest).bind_clean fun _ => clean_pure

theorem clean_chatHistory20 : Clean (chatHistory20 read r) := by
  refine clean_signedIn fun id _ => ?_
  split
  · exact Clean.bind_returns (clean_query _) fun _ => returns_pure
  · trivial

theorem clean_userInfo : Clean (userInfo r) := by
  unfold userInfo
  split
  · exact Clean.bind_returns (clean_query _) fun _ => returns_pure
  · trivial

/-- **A handler throws** only before it has changed something. -/
theorem clean_handle (r : Request) : Clean (handle parse read r) := by
  unfold handle
  split
  · exact clean_signedIn fun _ _ => clean_pure
  · exact clean_login
  · exact clean_loginById
  · exact clean_logout
  · exact clean_register
  · exact clean_signedIn fun _ _ => Clean.lift_bind fun _ =>
      (clean_call _).bind_returns fun _ => returns_ite
  · exact clean_icon
  · exact clean_setName
  · exact clean_friendRequest
  · exact clean_friendRequests
  · exact clean_signedIn fun _ _ => Clean.lift_bind fun _ => Clean.lift_bind fun _ =>
      Clean.lift_bind fun _ => (clean_settleFriendRequest _ _ _).bind_returns fun _ => returns_ite
  · exact clean_signedIn fun _ _ => Clean.bind_returns (clean_query _) fun _ => returns_pure
  · exact clean_chatHistory
  · exact clean_chatHistory20
  · exact clean_userInfo
  · exact clean_signedIn fun _ _ => Clean.lift_bind fun _ => Clean.lift_bind fun _ =>
      Clean.bind_returns (clean_query _) fun _ => returns_ite

end Clean

end HttpServer

end UnoppServer
