import UnoppServer.Room.Hands

/-!
# Rooms: coming back to a running game

A seat carries the name and the id of the connection that has taken it. While a game is on,
`JOIN_ROOM` looks for the seat with the caller's name, and never compares the ids.

- `Room.users_joinRoom_iff`: the users in the room stay the same exactly when whoever is let
  in takes the seat of the own user.
-/

namespace UnoppServer

open Assoc FindIf Runs

/-! ## Taking a seat -/

namespace Room

/-- The users in the room. -/
def users (r : Room) : Multiset Int := (values r.connections).map UserInfo.userId

/-- The caller passes the checks of the password. -/
def Passes (r : Room) (c : Caller) (payload : Json) : Prop :=
  ∃ noPassword, payload.Reads "no_password" Json.asBool noPassword ∧
    r.passwordIncorrect noPassword payload = .ok false ∧
    (noPassword = true → c.userId ∈ r.authorizedUserId)

/-- The seat with the caller's name is that of the caller's user, and the connection has no
other one. -/
def OwnSeat (env : Env) (r : Room) (c : Caller) : Prop :=
  ∀ k info, r.oldConnId env c.userName = some k → r.connections.lookup k = some info →
    info.userId = c.userId ∧ (c.connId = k ∨ r.connections.lookup c.connId = none)

/-- While a game is on, the caller is refused, or takes the seat that is found. -/
def Reseated (env : Env) (r : Room) (c : Caller) (payload : Json) (r' : Room) : Prop :=
  (r' = r ∧ ¬ (r.Passes c payload ∧ r.oldConnId env c.userName ≠ none)) ∨
  (r.Passes c payload ∧ ∃ k, r.oldConnId env c.userName = some k ∧ r' = r.enter c (some k))

section Seats

variable {env : Env} {userRooms userRooms' : UserRooms} {r r' : Room} {c : Caller}
  {payload : Json} {out : Outbox}

/-- A seat is exchanged for one with the same user, or the users differ afterwards. -/
theorem users_enter_iff {k : Nat} {info : UserInfo} (hk : r.connections.lookup k = some info) :
    (r.enter c (some k)).users = r.users ↔
      info.userId = c.userId ∧ (c.connId = k ∨ r.connections.lookup c.connId = none) := by
  have hafter : (r.enter c (some k)).users =
      c.userId ::ₘ (values ((r.connections.erase k).erase c.connId)).map UserInfo.userId := by
    show (values ((r.connections.erase k).insert c.connId _)).map UserInfo.userId = _
    rw [values_insert, Multiset.map_cons]
  have hbefore : r.users =
      info.userId ::ₘ (values (r.connections.erase k)).map UserInfo.userId := by
    rw [users, values_of_lookup hk, Multiset.map_cons]
  have hlook : (r.connections.erase k).lookup c.connId = none ↔
      c.connId = k ∨ r.connections.lookup c.connId = none := by
    rw [lookup_erase_eq]
    by_cases h : c.connId = k <;> simp [h]
  rw [hafter, hbefore, ← hlook]
  cases hown : (r.connections.erase k).lookup c.connId with
  | none =>
    rw [erase_of_lookup hown, Multiset.cons_inj_left, eq_comm]
    exact (and_iff_left rfl).symm
  | some info' =>
    -- two seats are left, and one is taken
    rw [values_of_lookup hown, Multiset.map_cons]
    refine iff_of_false (fun he => ?_) fun h => nomatch h.2
    have hcard := congrArg Multiset.card he
    rw [Multiset.card_cons, Multiset.card_cons, Multiset.card_cons] at hcard
    omega

/-- While a game is on, a `JOIN_ROOM` takes the seat with the own name, or is refused. -/
theorem ensures_joinRoom_playing (hon : r.isGameOn = true) :
    Ensures (r.joinRoom env userRooms c payload) fun s => r.Reseated env c payload s.2.2 := by
  unfold joinRoom
  refine .ite (fun h => .ok (.inl ⟨rfl, fun hp => hp.2 h.2⟩)) fun hgame => ?_
  obtain ⟨k, hk⟩ : ∃ k, r.oldConnId env c.userName = some k :=
    Option.ne_none_iff_exists'.mp fun h => hgame ⟨hon, h⟩
  refine .ite (fun h => nomatch hk.symm.trans h.2) fun _ => ?_
  refine .bind' fun v hv => .bind' fun noPassword hread => .bind' fun incorrect hincorrect => ?_
  have hreads : payload.Reads "no_password" Json.asBool noPassword := ⟨v, hv, hread⟩
  have hpasses : r.Passes c payload → r.passwordIncorrect noPassword payload = .ok false ∧
      (noPassword = true → c.userId ∈ r.authorizedUserId) := by
    rintro ⟨noPassword', hreads', h⟩
    obtain rfl := hreads.unique hreads'
    exact h
  refine .ite (fun h => ?_) fun hcorrect => .ite (fun h => ?_) fun hauthorized => ?_
  · subst h
    refine .ok (.inl ⟨rfl, fun hp => ?_⟩)
    exact nomatch hincorrect.symm.trans (hpasses hp.1).1
  · exact .ok (.inl ⟨rfl, fun hp => h.2 ((hpasses hp.1).2 h.1)⟩)
  · refine .ok (.inr ⟨⟨noPassword, hreads, ?_, ?_⟩, k, hk, by rw [hk]⟩)
    · rw [hincorrect, Bool.eq_false_of_not_eq_true hcorrect]
    · exact fun h => by_contra fun hout => hauthorized ⟨h, hout⟩

/-- What `JOIN_ROOM` does to the room is done by the base class. -/
theorem ensures_receive_joinRoom {Q : Room → Prop}
    (h : Ensures (r.joinRoom env userRooms c payload) fun s => Q s.2.2) :
    Ensures (r.receive env userRooms c "JOIN_ROOM" payload) fun s => Q s.2.2 := by
  unfold receive processMessage
  rw [r.isGameMessage_eq_false (by decide), if_neg Bool.false_ne_true, if_pos rfl]
  exact h.bind fun s hs => .ite (fun _ => .bind' fun _ _ => .ok hs) fun _ => .ok hs

/-- **Coming back** keeps the users exactly when whoever is let in takes the own seat. -/
theorem users_joinRoom_iff (hon : r.isGameOn = true) {s s' : RoomState} (hs : s.room = r)
    (hstep : s.step (env, .message c "JOIN_ROOM" payload) = .ok (out, s')) :
    s'.room.users = r.users ↔ (r.Passes c payload → r.OwnSeat env c) := by
  have hensures : Ensures (s.step (env, .message c "JOIN_ROOM" payload))
      fun x => r.Reseated env c payload x.2.room := by
    subst hs
    exact (ensures_receive_joinRoom (ensures_joinRoom_playing hon)).bind fun _ h => .ok h
  rcases hensures _ hstep with ⟨hr, hno⟩ | ⟨hpasses, k, hk, hr⟩
  · rw [hr]
    refine iff_of_true rfl fun hp k info hk => ?_
    exact absurd ⟨hp, fun he => nomatch hk.symm.trans he⟩ hno
  · obtain ⟨info, hinfo, -⟩ := lookup_oldConnId hk
    rw [hr, users_enter_iff hinfo, imp_iff_right hpasses]
    constructor
    · intro h k' info' hk' hinfo'
      obtain rfl := Option.some.inj (hk.symm.trans hk')
      obtain rfl := Option.some.inj (hinfo.symm.trans hinfo')
      exact h
    · exact fun h => h k info hk hinfo

end Seats

end Room

end UnoppServer
