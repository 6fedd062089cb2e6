import UnoppServer.Json.Fields
import UnoppServer.Room.Membership
import UnoppServer.Room.MineRequests

/-!
# Rooms: creation

`CREATE_ROOM` makes a room of one of three types, and answers with a success for any type. The
constructor puts the creator on `authorized_user_id`, so that a `JOIN_ROOM` without a password
gets them in.

- `enters_of_new`: the creator of a room gets in;
- `createRoom_faithful_iff`: the answer says what has happened exactly when the room exists
  already or its type is known.
-/

namespace UnoppServer

open Assoc Room

/-- The caller is told whether the request has succeeded. -/
def Answered (c : Caller) (messageType : String) (success : Bool) (out : Outbox) : Prop :=
  ∃ res, (c.connId, res) ∈ out ∧ res.get "message_type" = .ok (.str messageType) ∧
    res.get "success" = .ok (.bool success)

namespace Room

section Joining

variable {env : Env} {userRooms : UserRooms} {r : Room} {c : Caller} {payload : Json}

/-- A user on the list who is in no room gets in, unless a game is on. -/
theorem joinRoom_noPassword (hoff : r.isGameOn = false) (hfree : userRooms c.userId = none)
    (hlisted : c.userId ∈ r.authorizedUserId)
    (hread : payload.Reads "no_password" Json.asBool true) :
    r.joinRoom env userRooms c payload = .ok (joinSucceeded env r (r.enter c none) c none,
      Function.update userRooms c.userId (some r.id), r.enter c none) := by
  obtain ⟨v, hget, hv⟩ := hread
  have hold : r.oldConnId env c.userName = none := by
    unfold oldConnId
    rw [hoff]
    rfl
  unfold joinRoom passwordIncorrect
  dsimp only
  rw [hold, if_neg (by rw [hoff]; simp), if_neg (by rw [hfree]; simp)]
  simp only [hget, hv, bind, Except.bind, if_true, Bool.false_eq_true, if_false, true_and,
    not_true_eq_false, hlisted]
  rfl

theorem answered_joinSucceeded {r' : Room} {old : Option Nat} :
    Answered c "JOIN_ROOM_RES" true (joinSucceeded env r r' c old) :=
  ⟨_, List.mem_append_left _ (List.mem_append_right _ List.mem_cons_self), rfl, rfl⟩

/-- The creator joins the new room without a password. -/
theorem receive_joinRoom (hoff : r.isGameOn = false) (hfree : userRooms c.userId = none)
    (hlisted : c.userId ∈ r.authorizedUserId)
    (hread : payload.Reads "no_password" Json.asBool true) :
    r.receive env userRooms c "JOIN_ROOM" payload =
      .ok (joinSucceeded env r (r.enter c none) c none,
        Function.update userRooms c.userId (some r.id), r.enter c none) := by
  have hquiet : (r.enter c none).sendsState c "JOIN_ROOM" = false := by
    unfold sendsState
    rw [show (r.enter c none).isGameOn = false from hoff, Bool.and_false, Bool.false_and]
  unfold receive processMessage
  rw [r.isGameMessage_eq_false (by decide), if_neg Bool.false_ne_true, if_pos rfl,
    joinRoom_noPassword hoff hfree hlisted hread]
  simp only [bind, Except.bind, hquiet, Bool.false_eq_true, if_false]
  rfl

end Joining

end Room

namespace Manager

/-- There is one room more, with the given id. -/
structure Gained (m m' : Manager) (roomId : Nat) : Prop where
  fresh : m.rooms.lookup roomId = none
  gained : ∃ room : Room, room.id = roomId ∧ m'.rooms = m.rooms.insert roomId room

/-- A user who is in no room gets in with a `JOIN_ROOM` without a password. -/
def Enters (m : Manager) (roomId : Nat) (userId : Int) : Prop :=
  ∀ (env : Env) (c : Caller) (payload : Json), c.userId = userId → m.userRooms userId = none →
    payload.Reads "room_id" Json.asUInt roomId → payload.Reads "no_password" Json.asBool true →
    ∃ out m', m.processMessage env c "JOIN_ROOM" payload = .ok (out, m') ∧
      Answered c "JOIN_ROOM_RES" true out ∧ m'.Seated roomId c.connId userId

/-- The answer to a `CREATE_ROOM` says what has happened. -/
structure Faithful (m : Manager) (c : Caller) (payload : Json) (out : Outbox) (m' : Manager) :
    Prop where
  created : Answered c "CREATE_ROOM_RES" true out → ∀ roomId,
    payload.Reads "room_id" Json.asUInt roomId → Gained m m' roomId ∧ m'.Enters roomId c.userId
  refused : Answered c "CREATE_ROOM_RES" false out → m'.rooms = m.rooms

/-- **The creator** of a room gets in. -/
theorem enters_of_new {m : Manager} {id roomId : Nat} {creator name password : String}
    {creatorId : Int} {slot : GameSlot}
    (hroom : m.rooms.lookup roomId = some (Room.new id creator creatorId name password slot)) :
    m.Enters roomId creatorId := by
  rintro env c payload rfl hfree hid hread
  have htarget : m.target c "JOIN_ROOM" payload = .ok roomId := by
    obtain ⟨v, hget, hv⟩ := hid
    unfold target
    rw [if_pos rfl, hget]
    exact hv
  have hreceive : (Room.new id creator c.userId name password slot).receive env m.userRooms c
      "JOIN_ROOM" payload = _ := receive_joinRoom rfl hfree List.mem_cons_self hread
  unfold processMessage
  rw [if_neg (by decide), if_neg (by decide), htarget]
  simp only [bind, Except.bind, deliver, hroom, hreceive]
  refine ⟨_, _, rfl, answered_joinSucceeded, ?_⟩
  refine seated_insert.mpr ?_
  rw [if_pos rfl]
  exact ⟨_, AList.lookup_insert _, rfl⟩

/-- `Creates m c roomId roomType s`: what a `CREATE_ROOM` for a room and a type does. -/
inductive Creates (m : Manager) (c : Caller) (roomId : Nat) (roomType : String) :
    Outbox × Manager → Prop where
  | taken (h : m.rooms.lookup roomId ≠ none) {rest : List (String × Json)} :
      Creates m c roomId roomType (createRoomRes c (("success", .bool false) :: rest), m)
  | unknown (h : m.rooms.lookup roomId = none) (hslot : newSlot roomType = none) :
      Creates m c roomId roomType (createRoomRes c [("success", .bool true)], m)
  | creates (h : m.rooms.lookup roomId = none) {slot : GameSlot}
      (hslot : newSlot roomType = some slot) {name password : String} :
      Creates m c roomId roomType (createRoomRes c [("success", .bool true)],
        { m with
          rooms := m.rooms.insert roomId (Room.new roomId c.userName c.userId name password slot) })

section Creation

variable {env : Env} {m m' : Manager} {c : Caller} {payload : Json} {out : Outbox} {roomId : Nat}
  {roomType : String}

/-- A `CREATE_ROOM` that is handled creates the room that its payload asks for. -/
theorem ensures_createRoom_creates : Ensures (m.createRoom c payload) fun s =>
    ∃ roomId roomType, payload.Reads "room_id" Json.asUInt roomId ∧
      payload.Reads "room_type" Json.asString roomType ∧ Creates m c roomId roomType s := by
  unfold createRoom
  refine .bind' fun v hv => .bind' fun roomId hid => .bind' fun t ht => .bind' fun roomType htype =>
    ?_
  have hreads : ∀ s, Creates m c roomId roomType s → ∃ roomId roomType,
      payload.Reads "room_id" Json.asUInt roomId ∧
        payload.Reads "room_type" Json.asString roomType ∧ Creates m c roomId roomType s :=
    fun s h => ⟨roomId, roomType, ⟨v, hv, hid⟩, ⟨t, ht, htype⟩, h⟩
  refine Ensures.mono (.ite (fun h => .ok (.taken (Option.isSome_iff_ne_none.mp h))) fun h => ?_)
    hreads
  have hfree : m.rooms.lookup roomId = none := Option.not_isSome_iff_eq_none.mp h
  split
  · exact .ok (.unknown hfree ‹_›)
  · exact .bind' fun _ _ => .bind' fun name _ => .bind' fun _ _ => .bind' fun password _ =>
      .ok (.creates hfree ‹_›)

/-- The answer has the `success` it is built with. -/
theorem answered_createRoomRes {success success' : Bool} {rest : List (String × Json)} :
    Answered c "CREATE_ROOM_RES" success' (createRoomRes c (("success", .bool success) :: rest)) ↔
      success' = success := by
  constructor
  · rintro ⟨res, hmem, -, hres⟩
    obtain rfl := (Prod.mk.inj (List.mem_singleton.mp hmem)).2
    exact (Json.bool.inj (Except.ok.inj hres)).symm
  · rintro rfl
    exact ⟨_, List.mem_cons_self, rfl, rfl⟩

/-- There are rooms for three games. -/
theorem newSlot_ne_none_iff : newSlot roomType ≠ none ↔
    roomType = "UNO" ∨ roomType = "SPLENDOR" ∨ roomType = "GOMOKU" := by
  unfold newSlot
  split_ifs with huno hsplendor hgomoku
  · exact iff_of_true (Option.some_ne_none _) (.inl huno)
  · exact iff_of_true (Option.some_ne_none _) (.inr (.inl hsplendor))
  · exact iff_of_true (Option.some_ne_none _) (.inr (.inr hgomoku))
  · refine iff_of_false (fun h => h rfl) ?_
    rintro (h | h | h)
    · exact huno h
    · exact hsplendor h
    · exact hgomoku h

/-- The answer is right unless a free id comes with an unknown type. -/
theorem Creates.faithful_answer_iff {s : Outbox × Manager} (h : Creates m c roomId roomType s)
    (hid : payload.Reads "room_id" Json.asUInt roomId) :
    Faithful m c payload s.1 s.2 ↔ m.rooms.lookup roomId ≠ none ∨ newSlot roomType ≠ none := by
  cases h with
  | taken h =>
    refine iff_of_true ⟨fun hyes => ?_, fun _ => rfl⟩ (.inl h)
    cases answered_createRoomRes.mp hyes
  | unknown h hslot =>
    refine iff_of_false (fun hfaithful => ?_) fun hor => hor.elim (fun hne => hne h) (· hslot)
    obtain ⟨_, room, -, hrooms⟩ :=
      (hfaithful.created (answered_createRoomRes.mpr rfl) roomId hid).1
    have hlook : m.rooms.lookup roomId = some room := by
      rw [show m.rooms = m.rooms.insert roomId room from hrooms]
      exact AList.lookup_insert _
    exact nomatch h.symm.trans hlook
  | creates h hslot =>
    refine iff_of_true ⟨fun _ id hid' => ?_, fun hno => ?_⟩ (.inr (by rw [hslot]; simp))
    · obtain rfl := hid.unique hid'
      exact ⟨⟨h, _, rfl, rfl⟩, enters_of_new (AList.lookup_insert _)⟩
    · cases answered_createRoomRes.mp hno

/-- **The answer to a `CREATE_ROOM`** is right, and the creator can enter the room, if and only if
the room exists already or its type is known. -/
theorem createRoom_faithful_iff
    (h : m.processMessage env c "CREATE_ROOM" payload = .ok (out, m')) :
    Faithful m c payload out m' ↔ ∀ roomId roomType,
      payload.Reads "room_id" Json.asUInt roomId →
      payload.Reads "room_type" Json.asString roomType →
        m.rooms.lookup roomId ≠ none ∨
          roomType = "UNO" ∨ roomType = "SPLENDOR" ∨ roomType = "GOMOKU" := by
  unfold processMessage at h
  rw [if_pos rfl] at h
  obtain ⟨roomId, roomType, hid, htype, hcreates⟩ := ensures_createRoom_creates _ h
  rw [hcreates.faithful_answer_iff hid, newSlot_ne_none_iff]
  constructor
  · intro hor roomId' roomType' hid' htype'
    obtain rfl := hid.unique hid'
    obtain rfl := htype.unique htype'
    exact hor
  · intro hall
    exact hall roomId roomType hid htype

end Creation

/-- A request for room 7. -/
def roomRequest (roomType : String) : Json :=
  .obj [("room_id", .int 7), ("room_type", .str roomType)]

/-- User 1. -/
def creator : Caller := ⟨1, "alice", 1⟩

/-- A room for Uno is created as it was asked for. -/
theorem createRoom_faithful_iff_uno : ∃ out m',
    new.processMessage plainEnv creator "CREATE_ROOM" (roomRequest "UNO") = .ok (out, m') ∧
      Faithful new creator (roomRequest "UNO") out m' := by
  obtain ⟨out, m', h⟩ : ∃ out m',
      new.processMessage plainEnv creator "CREATE_ROOM" (roomRequest "UNO") = .ok (out, m') :=
    ⟨_, _, rfl⟩
  refine ⟨out, m', h, (createRoom_faithful_iff h).mpr fun roomId roomType _ htype => ?_⟩
  obtain rfl := htype.unique ⟨_, rfl, rfl⟩
  exact .inr (.inl rfl)

/-- A success is reported for a room of no type, and there is none. -/
theorem chess_created : ∃ out m',
    new.processMessage plainEnv creator "CREATE_ROOM" (roomRequest "CHESS") = .ok (out, m') ∧
      ¬ Faithful new creator (roomRequest "CHESS") out m' := by
  refine ⟨_, _, rfl, fun hfaithful => ?_⟩
  obtain ⟨_, room, -, hrooms⟩ :=
    (hfaithful.created (answered_createRoomRes.mpr rfl) 7 ⟨_, rfl, rfl⟩).1
  have hlook : new.rooms.lookup 7 = some room := by
    rw [show new.rooms = new.rooms.insert 7 room from hrooms]
    exact AList.lookup_insert _
  cases hlook

end Manager

end UnoppServer
