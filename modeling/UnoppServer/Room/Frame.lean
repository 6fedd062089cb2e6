import UnoppServer.Room.Requests

/-!
# Rooms: what the handlers leave alone

The messages of a game change the game and `is_game_on` and nothing else
(`GameOnly`); the start of a game and the messages of the base class other than
`JOIN_ROOM` also change the flags of the connections, but not who is connected
(`SameSeats`). A `JOIN_ROOM` is refused or admits its caller
(`ensures_joinRoom`).
-/

namespace UnoppServer

open Assoc FindIf

/-- Who a connection is. -/
def UserInfo.seat (u : UserInfo) : String × Int := (u.userName, u.userId)

namespace Room

/-- Only the game and `is_game_on` differ. -/
def GameOnly (r r' : Room) : Prop :=
  ∃ game isGameOn, r' = { r with game := game, isGameOn := isGameOn }

theorem GameOnly.refl (r : Room) : GameOnly r r := ⟨r.game, r.isGameOn, rfl⟩

/-- A message of Uno changes nothing but the game. -/
theorem UnoAnswer.gameOnly {r r' : Room} {unoGame : Option Uno} {o : Option Uno.Op}
    (h : UnoAnswer r unoGame r' o) : GameOnly r r' := by
  cases o with
  | none =>
    obtain rfl : r' = r := h
    exact .refl r'
  | some op =>
    obtain ⟨u, -, b, u', isGameOn, -, rfl⟩ := h
    exact ⟨_, isGameOn, rfl⟩

/-- A message of Splendor changes nothing but the game. -/
theorem SplendorAnswer.gameOnly {r r' : Room} {game : Option Splendor.Game}
    {o : Option Splendor.Op} (h : SplendorAnswer r game r' o) : GameOnly r r' := by
  cases o with
  | none =>
    obtain rfl : r' = r := h
    exact .refl r'
  | some op =>
    obtain ⟨g, -, b, g', isGameOn, -, rfl⟩ := h
    exact ⟨_, isGameOn, rfl⟩

section Games

variable {env : Env} {r : Room} {c : Caller}

/-- `update` changes nothing but the game. -/
theorem gameOnly_gomokuUpdate (g : Gomoku) (colors : Colors) (updates : Nat) :
    GameOnly r (r.gomokuUpdate env g colors updates).2 := by
  unfold gomokuUpdate
  generalize (if r.connections.entries.length = 1 then _ else g) = g₁
  dsimp only
  split
  · exact ⟨_, false, rfl⟩
  · exact ⟨_, r.isGameOn, rfl⟩

/-- A message of the game changes the game and `is_game_on` at most. -/
theorem ensures_gameMessage (messageType : String) (payload : Json) :
    Ensures (r.gameMessage env c messageType payload) fun s => GameOnly r s.2 := by
  unfold gameMessage
  split
  · exact (ensures_unoMessage _ messageType payload).mono fun s ⟨_, _, h⟩ => h.gameOnly
  · exact (ensures_splendorMessage _ messageType payload).mono fun s ⟨_, _, h⟩ => h.gameOnly
  · refine (ensures_gomokuDrop _ _ _ payload).mono fun s ⟨y, x, _, h⟩ => ?_
    rw [h]
    split
    · exact ⟨_, r.isGameOn, rfl⟩
    · exact .refl r

end Games

/-- What is not a message of a game. -/
theorem isGameMessage_eq_false (r : Room) {messageType : String}
    (h : messageType ∈ ["CREATE_ROOM", "GET_ROOM_LIST", "JOIN_ROOM", "CHAT_MESSAGE",
      "GAME_PREPARE"]) : r.isGameMessage messageType = false := by
  have hall : ∀ messageType ∈ ["CREATE_ROOM", "GET_ROOM_LIST", "JOIN_ROOM", "CHAT_MESSAGE",
      "GAME_PREPARE"], beginsWith "UNO" messageType = false ∧
        beginsWith "SPLENDOR" messageType = false ∧ (messageType == "GOMOKU_DROP") = false := by
    decide
  obtain ⟨huno, hsplendor, hgomoku⟩ := hall messageType h
  unfold isGameMessage
  split
  · exact huno
  · exact hsplendor
  · exact hgomoku

/-! ## The start of a game -/

/-- The same connections belong to the same users. -/
structure SameSeats (r r' : Room) : Prop where
  id : r'.id = r.id
  seat : ∀ k, (r'.connections.lookup k).map UserInfo.seat =
    (r.connections.lookup k).map UserInfo.seat

theorem SameSeats.refl (r : Room) : SameSeats r r := ⟨rfl, fun _ => rfl⟩

theorem SameSeats.trans {r r' r'' : Room} (h : SameSeats r r') (h' : SameSeats r' r'') :
    SameSeats r r'' :=
  ⟨h'.id.trans h.id, fun k => (h'.seat k).trans (h.seat k)⟩

theorem GameOnly.sameSeats {r r' : Room} (h : GameOnly r r') : SameSeats r r' := by
  obtain ⟨_, _, rfl⟩ := h
  exact ⟨rfl, fun _ => rfl⟩

theorem sameSeats_clearPrepared (r : Room) : SameSeats r r.clearPrepared := by
  refine ⟨rfl, fun k => ?_⟩
  unfold clearPrepared
  rw [lookup_mapValues, Option.map_map]
  rfl

/-- An entry that keeps its seat keeps the seats. -/
theorem sameSeats_insert {r : Room} {k : Nat} {info info' : UserInfo}
    (h : r.connections.lookup k = some info) (hseat : info'.seat = info.seat) :
    SameSeats r { r with connections := r.connections.insert k info' } := by
  refine ⟨rfl, fun k' => ?_⟩
  rw [lookup_insert_eq]
  by_cases hk : k' = k
  · rw [if_pos hk, hk, h, Option.map_some, Option.map_some, hseat]
  · rw [if_neg hk]

theorem sameSeats_setPrepared {r : Room} {k : Nat} {info : UserInfo}
    (h : r.connections.lookup k = some info) (prepared : Bool) :
    SameSeats r (r.setPrepared k info prepared) := sameSeats_insert h rfl

section Base

variable {env : Env} {r : Room} {c : Caller}

/-- A start of Uno keeps the seats. -/
theorem ensures_startUno : Ensures (r.startUno env) fun s => SameSeats r s.2 := by
  unfold startUno
  refine .ite (fun _ => .ok (.refl r)) fun _ => .ite (fun _ => .ok (.refl r)) fun _ => ?_
  dsimp only
  split
  · exact .error
  · refine .bind' fun u _ => .bind' fun out _ => .ok ?_
    have hgame : GameOnly r ({ r with isGameOn := true }.withUno u) := ⟨_, true, rfl⟩
    exact hgame.sameSeats.trans (sameSeats_clearPrepared _)

/-- A start of Splendor keeps the seats. -/
theorem sameSeats_startSplendor : SameSeats r (r.startSplendor env).2 := by
  unfold startSplendor
  dsimp only
  split
  · exact .refl r
  · split
    · exact .refl r
    · have hgame (g : Splendor.Game) : GameOnly r ({ r with isGameOn := true }.withSplendor g) :=
        ⟨_, true, rfl⟩
      exact (hgame _).sameSeats.trans (sameSeats_clearPrepared _)

/-- A start of Gomoku keeps the seats. -/
theorem sameSeats_startGomoku (g : Gomoku) (colors : Colors) (updates : Nat) :
    SameSeats r (r.startGomoku env g colors updates).2 := by
  unfold startGomoku
  dsimp only
  split
  · exact .refl r
  · have hgame (slot : GameSlot) : GameOnly r { r with isGameOn := true, game := slot } :=
      ⟨slot, true, rfl⟩
    split <;> exact (hgame _).sameSeats.trans (sameSeats_clearPrepared _)

theorem ensures_onEveryonePrepared :
    Ensures (r.onEveryonePrepared env) fun s => SameSeats r s.2 := by
  unfold onEveryonePrepared
  split
  · exact ensures_startUno
  · exact .ok sameSeats_startSplendor
  · exact .ok (sameSeats_startGomoku _ _ _)

/-- A `GAME_PREPARE` keeps the seats, also where it starts the game. -/
theorem ensures_gamePrepare {info : UserInfo} (hinfo : r.connections.lookup c.connId = some info)
    (payload : Json) :
    Ensures (r.gamePrepare env (onEveryonePrepared env) c.connId info payload)
      fun s => SameSeats r s.2 := by
  unfold gamePrepare
  refine .bind' fun _ _ => .bind' fun prepared _ => ?_
  have hset := sameSeats_setPrepared hinfo prepared
  refine .ite (fun _ => ?_) fun _ => .ok hset
  exact ensures_onEveryonePrepared.bind fun s hs => .ok (hset.trans hs)

/-! ## The messages of the base class -/

/-- A `JOIN_ROOM` that succeeds: a user in no room enters a room without a game,
or a member comes back to a running game. -/
structure Admits (env : Env) (userRooms : UserRooms) (r : Room) (c : Caller)
    (userRooms' : UserRooms) (r' : Room) : Prop where
  game : r.isGameOn = true → r.oldConnId env c.userName ≠ none
  free : r.oldConnId env c.userName = none → userRooms c.userId = none
  index : userRooms' = Function.update userRooms c.userId (some r.id)
  room : r' = r.enter c (r.oldConnId env c.userName)

/-- The table of connections after an admission. -/
theorem lookup_enter (old : Option Nat) (k : Nat) :
    (r.enter c old).connections.lookup k =
      if k = c.connId then some ⟨c.userName, c.userId, false, false⟩
      else if old = some k then none else r.connections.lookup k := by
  unfold enter
  dsimp only
  rw [lookup_insert_eq]
  congr 1
  cases old with
  | none => rfl
  | some k₀ =>
    rw [lookup_erase_eq]
    simp only [Option.some.injEq, eq_comm]

/-- After an admission a member is the caller or was one before. -/
theorem Admits.cases {userRooms userRooms' : UserRooms} {k : Nat} {info : UserInfo}
    (h : r.Admits env userRooms c userRooms' r') (hlook : r'.connections.lookup k = some info) :
    info = ⟨c.userName, c.userId, false, false⟩ ∨ r.connections.lookup k = some info := by
  rw [h.room, lookup_enter] at hlook
  split at hlook
  · exact .inl (Option.some.inj hlook).symm
  · split at hlook
    · cases hlook
    · exact .inr hlook

/-- The connection that is found is that of a member with the caller's name. -/
theorem lookup_oldConnId {k : Nat} (h : r.oldConnId env c.userName = some k) :
    ∃ info, r.connections.lookup k = some info ∧ info.userName = c.userName := by
  unfold oldConnId at h
  split at h
  · obtain ⟨⟨i, k', info⟩, hfind, rfl⟩ := Option.map_eq_some_iff.mp h
    exact ⟨info, mem_ranked.mp (findIf_mem hfind), eq_of_beq (findIf_eq_some hfind).2⟩
  · cases h

/-- A `JOIN_ROOM` is refused or admits the caller. -/
theorem ensures_joinRoom (userRooms : UserRooms) (payload : Json) :
    Ensures (r.joinRoom env userRooms c payload) fun s =>
      s.2 = (userRooms, r) ∨ Admits env userRooms r c s.2.1 s.2.2 := by
  unfold joinRoom
  refine .ite (fun _ => .ok (.inl rfl)) fun hgame => .ite (fun _ => .ok (.inl rfl)) fun hfree => ?_
  refine .bind' fun _ _ => .bind' fun noPassword _ => .bind' fun incorrect _ => ?_
  refine .ite (fun _ => .ok (.inl rfl)) fun _ => ?_
  -- the password is of no account for the index
  refine .ite (fun _ => .ok (.inl rfl)) fun _ => .ok (.inr ?_)
  refine ⟨fun hon hold => hgame ⟨hon, hold⟩, fun hold => ?_, rfl, rfl⟩
  exact Option.not_isSome_iff_eq_none.mp fun hsome => hfree ⟨hsome, hold⟩

/-- What a message does to its room and to `user_2_room_id`. -/
theorem ensures_receive (userRooms : UserRooms) (messageType : String) (payload : Json) :
    Ensures (r.receive env userRooms c messageType payload) fun s =>
      (s.2.1 = userRooms ∧ SameSeats r s.2.2) ∨ Admits env userRooms r c s.2.1 s.2.2 := by
  have hbase : Ensures (r.processMessage env (onEveryonePrepared env) userRooms c messageType
      payload) fun s =>
      (s.2.1 = userRooms ∧ SameSeats r s.2.2) ∨ Admits env userRooms r c s.2.1 s.2.2 := by
    unfold processMessage
    refine .ite (fun _ => ?_) fun _ => ?_
    · refine (ensures_joinRoom userRooms payload).mono fun s hs => hs.imp_left fun h => ?_
      rw [h]
      exact ⟨rfl, .refl r⟩
    · cases hinfo : r.connections.lookup c.connId with
      | none => exact .ok (.inl ⟨rfl, .refl r⟩)
      | some info =>
        refine .ite (fun _ => .bind' fun _ _ => .ok (.inl ⟨rfl, .refl r⟩)) fun _ => ?_
        refine .ite (fun _ => ?_) fun _ => .ok (.inl ⟨rfl, .refl r⟩)
        exact (ensures_gamePrepare hinfo payload).bind fun s hs => .ok (.inl ⟨rfl, hs⟩)
  unfold receive
  refine .ite (fun _ => ?_) fun _ => ?_
  · exact (ensures_gameMessage messageType payload).bind fun s hs => .ok (.inl ⟨rfl, hs.sameSeats⟩)
  · refine hbase.bind fun s hs => .ite (fun _ => .bind' fun _ _ => .ok hs) fun _ => .ok hs

end Base

end Room

end UnoppServer
