import UnoppServer.Accounts.Sessions
import UnoppServer.Room.Rejoin

/-!
# Accounts, connections and a room

A `Lobby` is the database of the accounts, the connections that are authorized, and one
room. `AUTHORIZE` reads the name of a user once, and the connection carries it from then on
(`WsServer`), while `set_user_name` comes over HTTP at any time.

- `usersKept_iff`: the users of a running game stay the same exactly in the runs in which
  everybody who is let in takes the seat of their own user;
- `ownSeat_of_run`: nobody takes the seat of somebody else when no name is taken that a
  connection or a seat of somebody else still carries.
-/

namespace UnoppServer

open Assoc FindIf Runs Room

/-- The database, the counter `conn_id`, the authorized connections by id, and a room. -/
structure Lobby where
  auth : Authorizer
  connId : Nat
  callers : Map Nat Caller
  state : RoomState

/-- What can happen: a call over HTTP, an `AUTHORIZE` on a new connection, or something that
concerns the room. -/
inductive LobbyEvent where
  | call (op : Authorizer.Op)
  | authorize (sessdata : Nat)
  | message (connId : Nat) (messageType : String) (payload : Json)
  | close (connId : Nat)
  | update
  | elsewhere (userRooms : UserRooms)

namespace Lobby

/-- `++conn_id` wraps around. -/
def nextConnId (s : Lobby) : Nat := (s.connId + 1) % 2 ^ 32

/-- The room handles an event. -/
def roomStep (s : Lobby) (env : Env) (e : RoomEvent) : Except Fault (Outbox × Lobby) := do
  let (out, state) ← s.state.step (env, e)
  return (out, { s with state := state })

/-- Handle an event. -/
def step (s : Lobby) (e : (Draw × Env) × LobbyEvent) : Except Fault (Outbox × Lobby) :=
  match e.2 with
  | .call op => do
    let (_, auth) ← s.auth.step (e.1.1, op)
    return ([], { s with auth := auth })
  | .authorize sessdata =>
    match s.auth.authorize e.1.1.order sessdata with
    | .error _ => .ok ([], s)
    | .ok (userId, userName) => .ok ([],
        { s with
          connId := s.nextConnId
          callers := s.callers.insert s.nextConnId ⟨s.nextConnId, userName, userId⟩ })
  | .message connId messageType payload =>
    match s.callers.lookup connId with
    -- who is not authorized is asked to log in
    | none => .ok ([], s)
    | some c => s.roomStep e.1.2 (.message c messageType payload)
  | .close connId =>
    ({ s with callers := s.callers.erase connId } : Lobby).roomStep e.1.2 (.close connId)
  | .update => s.roomStep e.1.2 .update
  | .elsewhere userRooms => s.roomStep e.1.2 (.elsewhere userRooms)

end Lobby

/-- The recorded events. -/
abbrev LobbyHistory := List (Entry Lobby ((Draw × Env) × LobbyEvent) Outbox)

/-- The events `h` have led from `s₀` to `s`. -/
abbrev LobbyRun (s₀ : Lobby) (h : LobbyHistory) (s : Lobby) : Prop :=
  Run Lobby.step (fun _ _ => True) s₀ h s

namespace Lobby

/-- An authorized connection asks to join while a game is on. -/
def Rejoins (s : Lobby) (e : LobbyEvent) (c : Caller) (payload : Json) : Prop :=
  ∃ connId, e = .message connId "JOIN_ROOM" payload ∧ s.callers.lookup connId = some c ∧
    s.state.room.isGameOn = true

/-- **The users stay the same** when somebody comes back to a running game. Who is refused
changes nothing. -/
def UsersKept (h : LobbyHistory) : Prop :=
  ∀ e ∈ h, ∀ c payload, e.pre.Rejoins e.act.2 c payload →
    e.post.state.room.users = e.pre.state.room.users

/-- Who is let in takes the seat of the own user. -/
def TakesOwnSeat (s : Lobby) (e : (Draw × Env) × LobbyEvent) : Prop :=
  ∀ c payload, s.Rejoins e.2 c payload → s.state.room.Passes c payload →
    s.state.room.OwnSeat e.1.2 c

/-- What an event can do to the lobby. -/
inductive Change (d : Draw) (env : Env) (s : Lobby) : LobbyEvent → Lobby → Prop where
  /-- A session or a connection that is not known. -/
  | stays {e : LobbyEvent} : Change d env s e s
  | calls {op : Authorizer.Op} {auth : Authorizer} (hauth : Authorizer.Change d s.auth op auth) :
      Change d env s (.call op) { s with auth := auth }
  /-- A new connection carries the name of its user. -/
  | authorizes {sessdata : Nat} {x : User} (hx : x ∈ s.auth.users) :
      Change d env s (.authorize sessdata)
        { s with
          connId := s.nextConnId
          callers := s.callers.insert s.nextConnId
            ⟨s.nextConnId, x.userName, Authorizer.toInt x.id⟩ }
  /-- The room handles an event, a message being one of an authorized connection. -/
  | inRoom {e : LobbyEvent} {re : RoomEvent} {callers : Map Nat Caller} {state : RoomState}
      {out : Outbox} (hcallers : ∀ k c, callers.lookup k = some c → s.callers.lookup k = some c)
      (hcaller : ∀ c messageType payload, re = .message c messageType payload →
        ∃ k, s.callers.lookup k = some c)
      (hstep : s.state.step (env, re) = .ok (out, state)) :
      Change d env s e { s with callers := callers, state := state }

section Run

variable {s₀ s s' : Lobby} {h : LobbyHistory}

theorem roomStep_eq_ok {env : Env} {e : RoomEvent} {out : Outbox}
    (h : s.roomStep env e = .ok (out, s')) :
    ∃ state, s.state.step (env, e) = .ok (out, state) ∧ s' = { s with state := state } := by
  have hensures : Ensures (s.roomStep env e) fun r =>
      ∃ state, s.state.step (env, e) = .ok (r.1, state) ∧ r.2 = { s with state := state } :=
    .bind' fun r hr => .ok ⟨r.2, hr, rfl⟩
  exact hensures _ h

/-- **Inversion** of a step. -/
theorem step_cases {d : Draw} {env : Env} {e : LobbyEvent} {out : Outbox}
    (h : s.step ((d, env), e) = .ok (out, s')) : Change d env s e s' := by
  cases e with
  | call op =>
    have hensures : Ensures (s.step ((d, env), .call op)) fun r => Change d env s (.call op) r.2 :=
      .bind' fun _ hauth => .ok (.calls (Authorizer.step_cases hauth).change)
    exact hensures _ h
  | authorize sessdata =>
    unfold step Authorizer.authorize at h
    cases hsel : s.auth.selectUser d.order fun u => u.sessdata == some sessdata with
    | none =>
      simp only [hsel] at h
      obtain ⟨-, rfl⟩ := Prod.mk.inj (Except.ok.inj h)
      exact .stays
    | some x =>
      simp only [hsel] at h
      obtain ⟨-, rfl⟩ := Prod.mk.inj (Except.ok.inj h)
      exact .authorizes (Authorizer.selectUser_mem hsel).1
  | message connId messageType payload =>
    unfold step at h
    cases hcaller : s.callers.lookup connId with
    | none =>
      simp only [hcaller] at h
      obtain ⟨-, rfl⟩ := Prod.mk.inj (Except.ok.inj h)
      exact .stays
    | some c =>
      simp only [hcaller] at h
      obtain ⟨state, hstep, rfl⟩ := roomStep_eq_ok h
      refine .inRoom (fun _ _ hlook => hlook) (fun c' _ _ he => ?_) hstep
      cases he
      exact ⟨connId, hcaller⟩
  | close connId =>
    obtain ⟨state, hstep, rfl⟩ := roomStep_eq_ok h
    refine .inRoom (fun k c hlook => ?_) ?_ hstep
    · change (s.callers.erase connId).lookup k = some c at hlook
      rw [lookup_erase_eq] at hlook
      split at hlook
      · cases hlook
      · exact hlook
    · exact fun _ _ _ he => nomatch he
  | update | elsewhere userRooms =>
    obtain ⟨state, hstep, rfl⟩ := roomStep_eq_ok h
    refine .inRoom (fun _ _ hlook => hlook) ?_ hstep
    exact fun _ _ _ he => nomatch he

/-- **Coming back** to a running game keeps its users exactly when everybody who is let in
takes the seat of the own user. -/
theorem usersKept_iff (hr : LobbyRun s₀ h s) :
    UsersKept h ↔ ∀ e ∈ h, e.pre.TakesOwnSeat e.act := by
  refine forall₂_congr fun e he => forall₂_congr fun c payload => ?_
  refine forall_congr' fun ⟨connId, hevent, hcaller, hon⟩ => ?_
  have hstep := (hr.mem_entry e he).2.2
  obtain ⟨pre, ⟨⟨d, env⟩, event⟩, out, post⟩ := e
  obtain rfl : event = .message connId "JOIN_ROOM" payload := hevent
  unfold step at hstep
  simp only [hcaller] at hstep
  obtain ⟨state, hstate, rfl⟩ := roomStep_eq_ok hstep
  exact users_joinRoom_iff hon rfl hstate

end Run

/-- What is decided outside while the lobby handles an event. -/
def plain : Draw × Env := (Authorizer.drawn 0, plainEnv)

/-- No users, no connections, and a room for Gomoku. -/
def gomokuLobby : Lobby :=
  ⟨.new, 0, ∅, RoomState.roomOf (.gomoku Gomoku.new ((0, false), (0, false)) 0)⟩

/-- The session of a name of five letters. -/
def session : Nat := 5 * 2 ^ 16 + 1700000000

/-- Alice starts a game. Then she is called \"alice2\" and Carol \"alice\", and Carol
connects. -/
def nameMoves : List LobbyEvent :=
  [.call (.newUser "alice" "pw"), .call (.newUser "carol" "pw"), .call (.logIn "alice" "pw"),
    .authorize session, .message 1 "JOIN_ROOM" (.obj []),
    .message 1 "GAME_PREPARE" (.obj [("prepare", .bool true)]),
    .call (.setUserName 1 "alice2"), .call (.logOut session), .call (.setUserName 2 "alice"),
    .call (.logIn "alice" "pw"), .authorize session]

/-- Carol asks to join. -/
def carolJoins : (Draw × Env) × LobbyEvent := (plain, .message 2 "JOIN_ROOM" (.obj []))

theorem exec_nameMoves : execTo step gomokuLobby (nameMoves.map (plain, ·)) (fun s =>
    stepTo step s carolJoins fun _ s' => s.state.room.isGameOn && ((s.callers.lookup 2).isSome &&
      decide (s.state.room.users = {1} ∧ s'.state.room.users = {2}))) = true := by
  decide +kernel

/-- Carol has taken the seat of Alice. -/
theorem exists_nameMoves : ∃ h s out s', LobbyRun gomokuLobby h s ∧
    h.map Entry.act = nameMoves.map (plain, ·) ∧ s.step carolJoins = .ok (out, s') ∧
    (∃ c, s.Rejoins carolJoins.2 c (.obj [])) ∧ s.state.room.users = {1} ∧
    s'.state.room.users = {2} := by
  obtain ⟨h, s, hr, hacts, hcheck⟩ := exists_run_of_execTo exec_nameMoves
  obtain ⟨out, s', hstep, hjoined⟩ := exists_of_stepTo hcheck
  obtain ⟨hon, hrest⟩ := Bool.and_eq_true_iff.mp hjoined
  obtain ⟨hsome, husers⟩ := Bool.and_eq_true_iff.mp hrest
  obtain ⟨hbefore, hafter⟩ := of_decide_eq_true husers
  obtain ⟨c, hc⟩ := Option.isSome_iff_exists.mp hsome
  exact ⟨h, s, out, s', hr, hacts, hstep, ⟨c, 2, rfl, hc, hon⟩, hbefore, hafter⟩

theorem usersKept_iff_nameMoves : ∃ h s, LobbyRun gomokuLobby h s ∧
    h.map Entry.act = nameMoves.map (plain, ·) ∧
    (UsersKept h ↔ ∀ e ∈ h, e.pre.TakesOwnSeat e.act) := by
  obtain ⟨h, s, -, -, hr, hacts, -⟩ := exists_nameMoves
  exact ⟨h, s, hr, hacts, usersKept_iff hr⟩

/-- A seat that passes to another user. -/
theorem seat_taken_over : ∃ h s, LobbyRun gomokuLobby h s ∧
    h.map Entry.act = nameMoves.map (plain, ·) ++ [carolJoins] ∧ ¬ UsersKept h := by
  obtain ⟨h, s, out, s', hr, hacts, hstep, ⟨c, hrejoins⟩, hbefore, hafter⟩ := exists_nameMoves
  refine ⟨_, s', hr.snoc trivial hstep, by rw [List.map_append, hacts]; rfl, fun hkept => ?_⟩
  have hsame : s'.state.room.users = s.state.room.users :=
    hkept _ (List.mem_append_right _ List.mem_cons_self) c (.obj []) hrejoins
  rw [hbefore, hafter, Multiset.singleton_inj] at hsame
  exact nomatch hsame

/-! ## Names that are still carried -/

/-- A connection or a seat of the user carries the name. -/
def Carries (s : Lobby) (userId : Int) (userName : String) : Prop :=
  (∃ k c, s.callers.lookup k = some c ∧ c.userId = userId ∧ c.userName = userName) ∨
  (∃ k info, s.state.room.connections.lookup k = some info ∧ info.userId = userId ∧
    info.userName = userName)

/-- The call takes no name that somebody else still carries. -/
def TakesFreeName (s : Lobby) : LobbyEvent → Prop
  | .call (.newUser userName _) => ∀ userId, ¬ s.Carries userId userName
  | .call (.setUserName userId userName) => ∀ u, s.Carries u userName → u = Authorizer.toInt userId
  | _ => True

/-- A name that is carried belongs to one user. -/
structure NamesOwned (s : Lobby) : Prop where
  numbered : s.auth.Numbered
  distinct : s.auth.NamesDistinct
  carried : ∀ u v userName, s.Carries u userName → s.Carries v userName → u = v
  rows : ∀ u userName, s.Carries u userName → ∀ x ∈ s.auth.users, x.userName = userName →
    Authorizer.toInt x.id = u

/-- Empty tables, no connection, and a room that has just been created. -/
structure Fresh (s : Lobby) : Prop where
  auth : s.auth = .new
  callers : s.callers = ∅
  state : s.state.Fresh

section Names

variable {s₀ s s' : Lobby} {h : LobbyHistory} {u : Int} {userName : String}

theorem Fresh.not_carries (h : s.Fresh) : ¬ s.Carries u userName := by
  rintro (⟨k, c, hlook, -⟩ | ⟨k, info, hlook, -⟩)
  · rw [h.callers] at hlook
    cases hlook
  · obtain ⟨_, _, _, _, _, _, _, -, hroom⟩ := h.state
    rw [hroom] at hlook
    cases hlook

theorem Fresh.namesOwned (h : s.Fresh) : NamesOwned s := by
  refine ⟨?_, ?_, fun _ _ _ hc => absurd hc h.not_carries, fun _ _ hc => absurd hc h.not_carries⟩
  · rw [h.auth]
    exact fun _ _ hx => nomatch hx
  · rw [h.auth]
    exact fun _ hx => nomatch hx

/-- The room hands out no names of its own. -/
theorem carries_of_inRoom {env : Env} {re : RoomEvent} {callers : Map Nat Caller}
    {state : RoomState} {out : Outbox}
    (hcallers : ∀ k c, callers.lookup k = some c → s.callers.lookup k = some c)
    (hcaller : ∀ c messageType payload, re = .message c messageType payload →
      ∃ k, s.callers.lookup k = some c)
    (hstep : s.state.step (env, re) = .ok (out, state))
    (hc : ({ s with callers := callers, state := state } : Lobby).Carries u userName) :
    s.Carries u userName := by
  rcases hc with ⟨k, c, hlook, hid⟩ | ⟨k, info, hlook, rfl, rfl⟩
  · exact .inl ⟨k, c, hcallers k c hlook, hid⟩
  rcases (RoomState.step_cases hstep).change.seats_cases with hseats | ⟨c, payload, rfl, hadmits⟩ |
    ⟨-, -, k', herase⟩
  · obtain ⟨info₀, hlook₀, hseat⟩ := hseats.seat_mem hlook
    obtain ⟨hname, hid⟩ := Prod.mk.inj hseat
    exact .inr ⟨k, info₀, hlook₀, hid.symm, hname.symm⟩
  · rcases hadmits.cases hlook with rfl | hlook
    · obtain ⟨k', hk'⟩ := hcaller c _ payload rfl
      exact .inl ⟨k', c, hk', rfl, rfl⟩
    · exact .inr ⟨k, info, hlook, rfl, rfl⟩
  · rw [herase, lookup_erase_eq] at hlook
    split at hlook
    · cases hlook
    · exact .inr ⟨k, info, hlook, rfl, rfl⟩

/-- A call that takes a free name keeps the names owned. -/
theorem NamesOwned.call {d : Draw} {op : Authorizer.Op} {auth : Authorizer} (h : NamesOwned s)
    (hfree : s.TakesFreeName (.call op)) (hchange : Authorizer.Change d s.auth op auth) :
    NamesOwned { s with auth := auth } := by
  refine ⟨hchange.numbered h.numbered, hchange.namesDistinct h.numbered h.distinct,
    h.carried, ?_⟩
  intro u userName hc
  change s.Carries u userName at hc
  have hold := h.rows u userName hc
  cases hchange with
  | keeps _ hfriends =>
    dsimp only
    rwa [hfriends.users]
  | adds =>
    rintro x hx rfl
    rcases List.mem_append.mp hx with hx | hx
    · exact hold x hx rfl
    · obtain rfl := List.mem_singleton.mp hx
      exact absurd hc (hfree u)
  | logsIn | logsOut =>
    intro y hy hname
    obtain ⟨x, hx, rfl⟩ := Authorizer.mem_updateUser hy
    split at hname
    · rename_i hid
      rw [if_pos hid]
      exact hold x hx hname
    · rename_i hid
      rw [if_neg hid]
      exact hold x hx hname
  | renames =>
    intro y hy hname
    obtain ⟨x, hx, rfl⟩ := Authorizer.mem_updateUser hy
    split at hname
    · rename_i hid
      obtain rfl := hname
      rw [if_pos hid, hfree u hc]
      exact congrArg Authorizer.toInt hid
    · rename_i hid
      rw [if_neg hid]
      exact hold x hx hname

/-- A new connection carries the name of its user. -/
theorem NamesOwned.authorize {x : User} {k connId : Nat} (h : NamesOwned s)
    (hx : x ∈ s.auth.users) :
    NamesOwned { s with
      connId := connId
      callers := s.callers.insert k ⟨k, x.userName, Authorizer.toInt x.id⟩ } := by
  have hcases {u : Int} {userName : String}
      (hc : ({ s with
        connId := connId
        callers := s.callers.insert k ⟨k, x.userName, Authorizer.toInt x.id⟩ } : Lobby).Carries
          u userName) :
      s.Carries u userName ∨ (u = Authorizer.toInt x.id ∧ userName = x.userName) := by
    rcases hc with ⟨k', c, hlook, hid, hname⟩ | hseat
    · dsimp only at hlook
      rw [lookup_insert_eq] at hlook
      split at hlook
      · obtain rfl := Option.some.inj hlook
        exact .inr ⟨hid.symm, hname.symm⟩
      · exact .inl (.inl ⟨k', c, hlook, hid, hname⟩)
    · exact .inl (.inr hseat)
  refine ⟨h.numbered, h.distinct, fun u v userName hu hv => ?_, fun u userName hu y hy hname => ?_⟩
  · rcases hcases hu with hu | ⟨rfl, rfl⟩
    · rcases hcases hv with hv | ⟨rfl, rfl⟩
      · exact h.carried u v userName hu hv
      · exact (h.rows u x.userName hu x hx rfl).symm
    · rcases hcases hv with hv | ⟨rfl, -⟩
      · exact h.rows v x.userName hv x hx rfl
      · rfl
  · rcases hcases hu with hu | ⟨rfl, rfl⟩
    · exact h.rows u userName hu y hy hname
    · rw [h.distinct y hy x hx hname]

/-- **Step lemma.** -/
theorem NamesOwned.step {e : (Draw × Env) × LobbyEvent} {out : Outbox} (h : NamesOwned s)
    (hfree : s.TakesFreeName e.2) (hstep : s.step e = .ok (out, s')) : NamesOwned s' := by
  obtain ⟨⟨d, env⟩, event⟩ := e
  cases step_cases hstep with
  | stays => exact h
  | calls hauth => exact h.call hfree hauth
  | authorizes hx => exact h.authorize hx
  | inRoom hcallers hcaller hroom =>
    refine ⟨h.numbered, h.distinct, fun u v n hu hv => ?_, fun u n hu => ?_⟩
    · exact h.carried u v n (carries_of_inRoom hcallers hcaller hroom hu)
        (carries_of_inRoom hcallers hcaller hroom hv)
    · exact h.rows u n (carries_of_inRoom hcallers hcaller hroom hu)

/-- **Run lemma.** Names are owned as long as only free ones are taken. -/
theorem namesOwned_of_run (h₀ : s₀.Fresh) (hr : LobbyRun s₀ h s)
    (hfree : ∀ e ∈ h, e.pre.TakesFreeName e.act.2) : NamesOwned s := by
  induction hr with
  | nil => exact h₀.namesOwned
  | @snoc l s s' e out _ _ hstep ih =>
    refine (ih fun e he => hfree e (List.mem_append_left _ he)).step ?_ hstep
    exact hfree ⟨s, e, out, s'⟩ (List.mem_append_right _ List.mem_cons_self)

/-- **Nobody takes the seat of somebody else** in a run in which nobody takes a name that a
connection or a seat of somebody else still carries. -/
theorem ownSeat_of_run (h₀ : s₀.Fresh) (hr : LobbyRun s₀ h s)
    (hfree : ∀ e ∈ h, e.pre.TakesFreeName e.act.2) {k old : Nat} {c : Caller} {env : Env}
    {info : UserInfo} (hcaller : s.callers.lookup k = some c)
    (hold : s.state.room.oldConnId env c.userName = some old)
    (hinfo : s.state.room.connections.lookup old = some info) : info.userId = c.userId := by
  obtain ⟨info', hinfo', hname⟩ := lookup_oldConnId hold
  obtain rfl := Option.some.inj (hinfo.symm.trans hinfo')
  exact (namesOwned_of_run h₀ hr hfree).carried _ _ c.userName
    (.inr ⟨old, info, hinfo, rfl, hname⟩) (.inl ⟨k, c, hcaller, rfl, rfl⟩)

end Names

end Lobby

end UnoppServer
