import UnoppServer.Room.Hands
import UnoppServer.Server.Provenance

/-!
# The program: who sits in the rooms

- `seated_of_run`: in every run, whoever has a seat in a room has asked for it by a `JOIN_ROOM` for
  this room, over a connection that had been authorized as this user.
-/

namespace UnoppServer

open Assoc FindIf HttpServer Runs Sections

/-! ## Rooms -/

/-- Whoever has a seat in the room came as such a caller. -/
def Room.SeatsAre (P : Caller → Prop) (r : Room) : Prop :=
  ∀ k info, r.connections.lookup k = some info → P ⟨k, info.userName, info.userId⟩

/-- **Step lemma** of a room: only a `JOIN_ROOM` gives a seat. -/
theorem RoomState.seatsAre_step {env : Env} {e : RoomEvent} {out : Outbox} {s s' : RoomState}
    {P : Caller → Prop} (hstep : s.step (env, e) = .ok (out, s')) (h : s.room.SeatsAre P)
    (hcaller : ∀ c payload, e = .message c "JOIN_ROOM" payload → P c) : s'.room.SeatsAre P := by
  intro k info hlook
  rcases (RoomState.step_cases hstep).change.seats_cases with hseats | ⟨c, payload, rfl, hadmits⟩ |
    ⟨-, -, k', herase⟩
  · obtain ⟨info₀, hlook₀, hseat⟩ := hseats.seat_mem hlook
    obtain ⟨hname, hid⟩ := Prod.mk.inj hseat
    rw [hname, hid]
    exact h k info₀ hlook₀
  · rw [hadmits.room, Room.lookup_enter] at hlook
    split at hlook
    · rename_i hk
      obtain rfl := Option.some.inj hlook
      exact hk ▸ hcaller c payload rfl
    · split at hlook
      · cases hlook
      · exact h k info hlook
  · rw [herase, lookup_erase_eq] at hlook
    split at hlook
    · cases hlook
    · exact h k info hlook

/-- The same of every room, by its id. -/
def Manager.SeatsAre (P : Nat → Caller → Prop) (m : Manager) : Prop :=
  ∀ id r, m.rooms.lookup id = some r → r.SeatsAre (P id)

namespace Manager

variable {P P' : Nat → Caller → Prop} {m m' : Manager} {id : Nat} {r : Room} {index : UserRooms}
  {env : Env} {c : Caller} {messageType : String} {payload : Json} {out : Outbox}

theorem SeatsAre.mono (h : m.SeatsAre P) (hP : ∀ id c, P id c → P' id c) : m.SeatsAre P' :=
  fun id r hlook k info hinfo => hP id _ (h id r hlook k info hinfo)

/-- A room whose seats have the property may change. -/
theorem SeatsAre.insert (h : m.SeatsAre P) (hr : r.SeatsAre (P id)) :
    Manager.SeatsAre P ⟨m.rooms.insert id r, index⟩ := by
  intro id' r' hlook
  change (m.rooms.insert id r).lookup id' = some r' at hlook
  rw [lookup_insert_eq] at hlook
  split at hlook
  · rename_i he
    obtain rfl := Option.some.inj hlook
    exact he ▸ hr
  · exact h id' r' hlook

theorem SeatsAre.eraseRoom (h : m.SeatsAre P) : (m.eraseRoom id r).SeatsAre P := by
  intro id' r' hlook
  change (m.rooms.erase id).lookup id' = some r' at hlook
  rw [lookup_erase_eq] at hlook
  split at hlook
  · cases hlook
  · exact h id' r' hlook

/-- A new room has no seats but that of its creator, who joins it later. -/
theorem SeatsAre.ensures_createRoom (h : m.SeatsAre P) :
    Ensures (m.createRoom c payload) fun s => s.2.SeatsAre P := by
  unfold createRoom
  refine .bind' fun _ _ => .bind' fun roomId _ => .bind' fun _ _ => .bind' fun roomType _ => ?_
  refine .ite (fun _ => .ok h) fun _ => ?_
  cases newSlot roomType with
  | none => exact .ok h
  | some slot =>
    refine .bind' fun _ _ => .bind' fun name _ => .bind' fun _ _ => .bind' fun password _ => .ok ?_
    exact h.insert fun _ _ hlook => nomatch hlook

/-- A message to a room seats nobody but the caller of a `JOIN_ROOM`. -/
theorem SeatsAre.ensures_deliver (h : m.SeatsAre P)
    (hcaller : messageType = "JOIN_ROOM" → P id c) :
    Ensures (m.deliver env id c messageType payload) fun s => s.2.SeatsAre P := by
  unfold deliver
  split
  · rename_i r hr
    refine .bind' fun s hs => .ok (h.insert ?_)
    have hstep : RoomState.step ⟨m.userRooms, r⟩ (env, .message c messageType payload) =
        .ok (s.1, ⟨s.2.1, s.2.2⟩) := by
      show (r.receive env m.userRooms c messageType payload >>= _) = _
      rw [hs]
      rfl
    refine RoomState.seatsAre_step hstep (h id r hr) fun c' payload' he => ?_
    obtain ⟨rfl, hjoin, -⟩ := RoomEvent.message.inj he
    exact hcaller hjoin
  · exact .ok h

/-- **Step lemma** of the manager. -/
theorem SeatsAre.step {e : Event} (h : m.SeatsAre P) (hstep : m.step (env, e) = .ok (out, m'))
    (hcaller : ∀ c payload id, e = .message c "JOIN_ROOM" payload →
      payload.Reads "room_id" Json.asUInt id → P id c) : m'.SeatsAre P := by
  cases e with
  | message c messageType payload =>
    have hensures : Ensures (m.processMessage env c messageType payload)
        fun s => s.2.SeatsAre P := by
      unfold processMessage
      refine .ite (fun _ => h.ensures_createRoom) fun _ => .ite (fun _ => .ok h) fun _ => ?_
      refine .bind' fun roomId htarget => h.ensures_deliver fun hjoin => ?_
      unfold target at htarget
      rw [if_pos hjoin] at htarget
      cases hget : payload.get "room_id" with
      | error e =>
        rw [hget] at htarget
        cases htarget
      | ok v =>
        rw [hget] at htarget
        exact hcaller c payload roomId (hjoin ▸ rfl) ⟨v, hget, htarget⟩
    exact hensures _ hstep
  | close connId userId =>
    obtain rfl : (m.processClose env connId userId).2 = m' :=
      congrArg Prod.snd (Except.ok.inj hstep)
    unfold processClose
    dsimp only
    split
    · exact h
    · rename_i r hr
      have hclose : RoomState.step ⟨m.userRooms, r⟩ (env, .close connId) =
        .ok ((r.processClose env m.userRooms connId).1,
          ⟨(r.processClose env m.userRooms connId).2.1,
            (r.processClose env m.userRooms connId).2.2⟩) := rfl
      have hroom := RoomState.seatsAre_step hclose (h _ r hr) fun _ _ he => nomatch he
      split
      · exact (h.insert hroom).eraseRoom
      · exact h.insert hroom
  | visit roomId =>
    obtain rfl : m.visit roomId = m' := congrArg Prod.snd (Except.ok.inj hstep)
    unfold visit
    split
    · split
      · exact h.eraseRoom
      · exact h
    · exact h
  | update roomId =>
    obtain rfl : (m.runUpdate env roomId).2 = m' := congrArg Prod.snd (Except.ok.inj hstep)
    unfold runUpdate
    split
    · exact h
    · rename_i r hr
      split
      · rename_i g colors updates hgame
        have hupdate : RoomState.step ⟨m.userRooms, r⟩ (env, .update) =
            .ok ((r.gomokuUpdate env g colors updates).1,
              ⟨m.userRooms, (r.gomokuUpdate env g colors updates).2⟩) := by
          unfold RoomState.step
          dsimp only
          rw [hgame]
        exact h.insert (RoomState.seatsAre_step hupdate (h _ r hr) fun _ _ he => nomatch he)
      · exact h

end Manager

/-! ## The server -/

namespace WsServer

variable {parse : String → Except Fault (Option Json)} {w : World} {s s' : WsServer} {a : Action}
  {out : List Effect} {P : Nat → Caller → Prop}

/-- **Step lemma** of the server: a connection joins as its user. -/
theorem seatsAre_step (h : s.roomManager.SeatsAre P)
    (hcaller : ∀ hdl text conn msg id, a = .message hdl text →
      s.connections.lookup hdl = some conn → parse text = .ok (some msg) →
      msg.Reads "message_type" Json.asString "JOIN_ROOM" → msg.Reads "room_id" Json.asUInt id →
      P id ⟨conn.connId, conn.userName, conn.userId⟩)
    (hstep : s.step parse (w, a) = .ok (out, s')) : s'.roomManager.SeatsAre P := by
  cases a with
  | subscribe hdl =>
    obtain ⟨-, rfl⟩ := Prod.mk.inj (Except.ok.inj hstep)
    exact h
  | visit roomId =>
    obtain ⟨-, rfl⟩ := Prod.mk.inj (Except.ok.inj hstep)
    have hvisit : s.roomManager.step (w.env, .visit roomId) = .ok ([], _) := rfl
    exact h.step hvisit fun _ _ _ he => nomatch he
  | update roomId =>
    obtain ⟨-, rfl⟩ := Prod.mk.inj (Except.ok.inj hstep)
    have hupdate : s.roomManager.step (w.env, .update roomId) = .ok (_, _) := rfl
    exact h.step hupdate fun _ _ _ he => nomatch he
  | unsubscribe hdl =>
    obtain rfl : (s.unsubscribe w hdl).2 = s' := congrArg Prod.snd (Except.ok.inj hstep)
    unfold unsubscribe
    split
    · exact h
    · rename_i conn _
      have hclose : s.roomManager.step (w.env, .close conn.connId conn.userId) = .ok (_, _) := rfl
      exact h.step hclose fun _ _ _ he => nomatch he
  | message hdl text =>
    have hensures : Ensures (s.message parse w hdl text) fun r => r.2.roomManager.SeatsAre P := by
      unfold message
      refine .bind' fun parsed hparse => ?_
      cases parsed with
      | none => exact .ok h
      | some msg =>
        unfold parsedMessage
        refine .bind' fun _ _ => .ite (fun _ => ?_) fun _ => .ok h
        unfold typedMessage
        refine .bind' fun t ht => .bind' fun messageType htype => ?_
        cases hconn : s.connections.lookup hdl with
        | some conn =>
          show Ensures (s.authorizedMessage w hdl conn messageType msg) _
          unfold authorizedMessage
          refine .ite (fun _ => .bind' fun _ _ => .ok h) fun _ => .ite (fun _ => ?_) fun _ => ?_
          · exact .bind' fun _ _ => .bind' fun _ _ => .bind' fun _ _ => .ok h
          · refine .bind' fun r hr => .ok ?_
            have hmessage : s.roomManager.step (w.env, .message
              ⟨conn.connId, conn.userName, conn.userId⟩ messageType msg) = .ok (r.1, r.2) := hr
            refine h.step hmessage fun c payload id he hid => ?_
            obtain ⟨rfl, rfl, rfl⟩ := Event.message.inj he
            exact hcaller hdl text conn msg id rfl hconn hparse ⟨t, ht, htype⟩ hid
        | none =>
          show Ensures (s.unauthorizedMessage w hdl messageType msg) _
          unfold unauthorizedMessage
          refine .ite (fun _ => .ok h) fun _ => ?_
          refine .bind' fun _ _ => .bind' fun _ _ => .bind' fun user _ => ?_
          cases user with
          | none => exact .ok h
          | some user => exact .ok h
    exact hensures _ hstep

end WsServer

/-! ## Every run -/

namespace Site

section Runs

variable (reader : String → Except Fault (Bool × Json)) {write : Json → String}
  {h : List SiteStep} {e : SiteStep} {S : Requests}

/-- The caller has asked to join the room, over a connection that was authorized as its user. -/
def Joined (h : List SiteStep) (id : Nat) (c : Caller) : Prop :=
  ∃ h₁ e h₂ w env hdl text conn msg, h = h₁ ++ e :: h₂ ∧
    e.act = .other (.act w env (.message hdl text)) ∧
    e.pre.state.ws.connections.lookup hdl = some conn ∧ Connected reader h₁ hdl conn ∧
    c = ⟨conn.connId, conn.userName, conn.userId⟩ ∧ valueOf reader text = .ok (some msg) ∧
    msg.Reads "message_type" Json.asString "JOIN_ROOM" ∧ msg.Reads "room_id" Json.asUInt id

variable {reader}

theorem Joined.append {id : Nat} {c : Caller} (hj : Joined reader h id c) :
    Joined reader (h ++ [e]) id c := by
  obtain ⟨h₁, e', h₂, w, env, hdl, text, conn, msg, rfl, hrest⟩ := hj
  exact ⟨h₁, e', h₂ ++ [e], w, env, hdl, text, conn, msg, by rw [List.append_assoc]; rfl, hrest⟩

end Runs

end Site

end UnoppServer
