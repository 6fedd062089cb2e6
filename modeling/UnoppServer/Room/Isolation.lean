import UnoppServer.Room.Lifetime
import UnoppServer.Room.Membership
import UnoppServer.Splendor.Idle
import UnoppServer.Uno.Idle

/-!
# Rooms: strangers

`get_users_room_id` answers 0 for a user who is in no room, and 0 is also a room
id that a `CREATE_ROOM` can give. The base class turns away a connection that is
not in its table, but the messages of a game are handled before that, and the
games look the user up on their own: some operations accept anybody.

- `Room.Obeys`: the messages that change the game of a room, whoever sends them;
- `Room.Prepares`: a `GAME_PREPARE` over a connection of the room that changes it.
  The user of the connection need not be mapped to the room: names change, and a
  seat is found by its name;
- `isolated_iff`: a message from a user who is not in a room, other than a
  `JOIN_ROOM` to it, leaves the room alone unless the room is room 0, the user is
  in no room, and the game obeys or the message prepares.
-/

namespace UnoppServer

open Assoc FindIf Runs

namespace Room

/-- The message asks for an operation that changes the game. -/
def Obeys (r : Room) (userId : Int) (messageType : String) (payload : Json) : Prop :=
  r.isGameMessage messageType = true ∧
  match r.game with
  | .uno unoGame => ∃ u op, unoGame = some u ∧
    unoRequest userId messageType payload = .ok (some op) ∧ ¬ op.Idle u
  | .splendor game => ∃ g op, game = some g ∧
    splendorRequest userId messageType payload = .ok (some op) ∧ op.Passes g
  | .gomoku g colors _ => ∃ y x, dropRequest payload = .ok (y, x) ∧
    g.canDrop y x (isBlack colors userId) = true

section Stranger

variable {env : Env} {r : Room} {c : Caller}

/-- A message of Uno changes the game iff its operation is not idle. -/
theorem ensures_unoMessage_game {unoGame : Option Uno} (hr : r.game = .uno unoGame)
    (messageType : String) (payload : Json) :
    Ensures (r.unoMessage env unoGame c messageType payload) fun s =>
      s.2.game = .uno unoGame ↔ ¬ ∃ u op, unoGame = some u ∧
        unoRequest c.userId messageType payload = .ok (some op) ∧ ¬ op.Idle u := by
  refine (ensures_unoMessage unoGame messageType payload).mono fun s ⟨o, ho, h⟩ => ?_
  rw [ho]
  cases o with
  | none =>
    obtain rfl : s.2 = r := h
    refine iff_of_true hr ?_
    rintro ⟨_, _, _, hop, _⟩
    cases hop
  | some op =>
    obtain ⟨u, rfl, b, u', isGameOn, hstep, hs⟩ := h
    have heq : s.2.game = .uno (some u) ↔ u' = u := by
      rw [hs]
      exact ⟨fun h => by cases h; rfl, fun h => by rw [h]⟩
    rw [heq, Uno.step_eq_iff hstep]
    constructor
    · rintro hidle ⟨_, _, hu, hop, hnot⟩
      cases hu
      cases hop
      exact hnot hidle
    · intro hno
      by_contra hnot
      exact hno ⟨u, op, rfl, rfl, hnot⟩

/-- A message of Splendor changes the game iff its operation passes the checks. -/
theorem ensures_splendorMessage_game {game : Option Splendor.Game} (hr : r.game = .splendor game)
    (messageType : String) (payload : Json) :
    Ensures (r.splendorMessage env game c messageType payload) fun s =>
      s.2.game = .splendor game ↔ ¬ ∃ g op, game = some g ∧
        splendorRequest c.userId messageType payload = .ok (some op) ∧ op.Passes g := by
  refine (ensures_splendorMessage game messageType payload).mono fun s ⟨o, ho, h⟩ => ?_
  rw [ho]
  cases o with
  | none =>
    obtain rfl : s.2 = r := h
    refine iff_of_true hr ?_
    rintro ⟨_, _, _, hop, _⟩
    cases hop
  | some op =>
    obtain ⟨g, rfl, b, g', isGameOn, hstep, hs⟩ := h
    have heq : s.2.game = .splendor (some g) ↔ g' = g := by
      rw [hs]
      exact ⟨fun h => by cases h; rfl, fun h => by rw [h]⟩
    rw [heq, Splendor.Game.step_eq_iff hstep]
    refine not_congr ⟨fun hp => ⟨g, op, rfl, rfl, hp⟩, ?_⟩
    rintro ⟨_, _, hg, hop, hp⟩
    cases hg
    cases hop
    exact hp

/-- A `GOMOKU_DROP` changes the game iff the piece can be dropped. -/
theorem ensures_gomokuDrop_game {g : Gomoku} {colors : Colors} {updates : Nat}
    (hr : r.game = .gomoku g colors updates) (payload : Json) :
    Ensures (r.gomokuDrop env g colors updates c payload) fun s =>
      s.2.game = .gomoku g colors updates ↔ ¬ ∃ y x, dropRequest payload = .ok (y, x) ∧
        g.canDrop y x (isBlack colors c.userId) = true := by
  refine (ensures_gomokuDrop g colors updates payload).mono fun s ⟨y, x, hyx, h⟩ => ?_
  rw [Gomoku.drop_fst] at h
  by_cases hcan : g.canDrop y x (isBlack colors c.userId) = true
  · -- the board may be left as it was, but a thread is started
    rw [if_pos hcan] at h
    refine iff_of_false (fun he => ?_) (not_not.mpr ⟨y, x, hyx, hcan⟩)
    rw [h] at he
    have hupdates : updates + 1 = updates := by
      injection he
    omega
  · rw [if_neg hcan] at h
    rw [h]
    refine iff_of_true hr ?_
    rintro ⟨y', x', hyx', hcan'⟩
    rw [hyx] at hyx'
    cases hyx'
    exact hcan hcan'

/-- A message of the game changes the game iff the game obeys. -/
theorem ensures_gameMessage_iff {messageType : String} (hgame : r.isGameMessage messageType = true)
    (payload : Json) :
    Ensures (r.gameMessage env c messageType payload) fun s =>
      s.2.game = r.game ↔ ¬ r.Obeys c.userId messageType payload := by
  unfold gameMessage Obeys
  simp only [and_iff_right hgame]
  cases hr : r.game with
  | uno unoGame => exact ensures_unoMessage_game hr messageType payload
  | splendor game => exact ensures_splendorMessage_game hr messageType payload
  | gomoku g colors updates => exact ensures_gomokuDrop_game hr payload

/-! ## `GAME_PREPARE` -/

/-- The tables of the connections and the games of two rooms are the same. -/
def Alike (r' r : Room) : Prop :=
  (∀ k, r'.connections.lookup k = r.connections.lookup k) ∧ r'.game = r.game

/-- The game is as `on_everyone_prepared` leaves it when the user is the only member. -/
def AloneAtStart (r : Room) (userId : Int) : Prop :=
  ∃ g colors updates, r.game = .gomoku g colors updates ∧ g.clear.enableAi true = g ∧
    colors.1 = (userId, true) ∧ colors.2.1 = 0

/-- The message is a `GAME_PREPARE` over a connection of the room, whoever sends it: it changes
the flag of the connection, or it starts a game. -/
def Prepares (r : Room) (c : Caller) (messageType : String) (payload : Json) : Prop :=
  messageType = "GAME_PREPARE" ∧ ∃ info prepared,
    r.connections.lookup c.connId = some info ∧ payload.Reads "prepare" Json.asBool prepared ∧
    ((¬ r.Starts (.message c messageType payload) ∧ prepared ≠ info.prepared) ∨
      (r.Starts (.message c messageType payload) ∧
        ¬ (r.connections.entries.length = 1 ∧ info.prepared = false ∧
          r.AloneAtStart info.userId)))

theorem Alike.refl (r : Room) : r.Alike r := ⟨fun _ => rfl, rfl⟩

/-- Setting the flag of an entry matters when the flag is another one. -/
theorem alike_setPrepared {k : Nat} {info : UserInfo} {prepared : Bool}
    (hinfo : r.connections.lookup k = some info) :
    (r.setPrepared k info prepared).Alike r ↔ prepared = info.prepared := by
  constructor
  · intro h
    have hk := h.1 k
    rw [hinfo, setPrepared, lookup_insert_eq, if_pos rfl] at hk
    exact congrArg UserInfo.prepared (Option.some.inj hk)
  · rintro rfl
    refine ⟨fun k' => ?_, rfl⟩
    rw [setPrepared, lookup_insert_eq]
    split
    · rename_i he
      rw [he, hinfo]
    · rfl

/-- The flags of everybody else were set before. -/
theorem prepared_of_everyonePrepared {k k' : Nat} {info info' : UserInfo} {prepared : Bool}
    (h : (r.setPrepared k info prepared).everyonePrepared = true)
    (hk' : (r.setPrepared k info prepared).connections.lookup k' = some info') :
    info'.prepared = true :=
  List.all_eq_true.mp h ⟨k', info'⟩ (AList.mem_lookup_iff.mp hk')

/-- What the only member starts. -/
theorem ensures_onEveryonePrepared_alone {g : Gomoku} {colors : Colors} {updates k : Nat}
    {info : UserInfo} (hgame : r.game = .gomoku g colors updates)
    (hk : r.connections.lookup k = some info) (hone : r.connections.entries.length = 1) :
    Ensures (r.onEveryonePrepared env) fun s =>
      s.2.game =
        .gomoku (g.clear.enableAi true) ((info.userId, true), (0, colors.2.2)) updates := by
  have hmembers : r.members env = [(k, info)] := by
    have hlength : (r.members env).length = 1 := (length_ranked ..).trans hone
    obtain ⟨p, hp⟩ := List.length_eq_one_iff.mp hlength
    have hmem : (k, info) ∈ r.members env := mem_ranked.mpr hk
    rw [hp, List.mem_singleton] at hmem
    rw [hp, hmem]
  unfold onEveryonePrepared
  rw [hgame]
  refine .ok ?_
  unfold startGomoku
  rw [hmembers]
  rfl

/-- A game is started: the flags of all connections are cleared. -/
theorem alike_started {k : Nat} {info : UserInfo} {prepared isGameOn : Bool} {game : GameSlot}
    (hinfo : r.connections.lookup k = some info)
    (hall : (r.setPrepared k info prepared).everyonePrepared = true) :
    (({ r.setPrepared k info prepared with isGameOn, game } : Room).clearPrepared).Alike r ↔
      (r.connections.entries.length = 1 ∧ info.prepared = false) ∧ game = r.game := by
  have hlook (k' : Nat) : (({ r.setPrepared k info prepared with
      isGameOn, game } : Room).clearPrepared).connections.lookup k' =
      ((r.setPrepared k info prepared).connections.lookup k').map
        fun u => { u with prepared := false } := lookup_mapValues ..
  refine and_congr_left fun _ => ?_
  rw [length_eq_one_iff hinfo]
  constructor
  · intro h
    have hfalse : ∀ k' info', r.connections.lookup k' = some info' → info'.prepared = false := by
      intro k' info' hk'
      have hk := h k'
      rw [hlook, hk'] at hk
      obtain ⟨info₀, -, rfl⟩ := Option.map_eq_some_iff.mp hk
      rfl
    refine ⟨fun k' info' hk' => ?_, hfalse k info hinfo⟩
    by_contra hne
    have hset : (r.setPrepared k info prepared).connections.lookup k' = some info' := by
      rw [setPrepared, lookup_insert_eq, if_neg hne]
      exact hk'
    have htrue := prepared_of_everyonePrepared hall hset
    rw [hfalse k' info' hk'] at htrue
    cases htrue
  · rintro ⟨hone, hfalse⟩ k'
    rw [hlook, setPrepared, lookup_insert_eq]
    split
    · rename_i he
      rw [he, hinfo, ← hfalse]
      rfl
    · rename_i hne
      cases hk' : r.connections.lookup k' with
      | none => rfl
      | some info' => exact absurd (hone k' info' hk') hne

/-- The only member starts the game that there is iff it has just been started. -/
theorem eq_game_iff {k : Nat} {info : UserInfo} {prepared : Bool} {game : GameSlot}
    {s : Outbox × Room} (hinfo : r.connections.lookup k = some info)
    (hone : r.connections.entries.length = 1)
    (hadmits : (r.setPrepared k info prepared).AdmitsNumber)
    (hs : (r.setPrepared k info prepared).onEveryonePrepared env = .ok s)
    (hgame : s.2.game = game) : game = r.game ↔ r.AloneAtStart info.userId := by
  have hlength : (r.setPrepared k info prepared).connections.entries.length = 1 :=
    (length_insert_of_lookup hinfo _).trans hone
  unfold AdmitsNumber at hadmits
  cases hslot : r.game with
  | uno | splendor =>
    -- these games need more players
    rw [show (r.setPrepared k info prepared).game = _ from hslot, hlength] at hadmits
    exact absurd hadmits.1 (by decide)
  | gomoku g colors updates =>
    have hk : (r.setPrepared k info prepared).connections.lookup k =
        some { info with prepared } := AList.lookup_insert _
    have hnew := ensures_onEveryonePrepared_alone (r := r.setPrepared k info prepared) hslot hk
      hlength s hs
    rw [← hgame, hnew]
    constructor
    · intro h
      obtain ⟨hg, hcolors, -⟩ := GameSlot.gomoku.inj h
      exact ⟨g, colors, updates, hslot, hg, by rw [← hcolors], by rw [← hcolors]⟩
    · rintro ⟨g', ⟨first, second⟩, updates', hslot', hg, hfirst, hsecond⟩
      obtain ⟨rfl, rfl, rfl⟩ := GameSlot.gomoku.inj (hslot.symm.trans hslot')
      obtain ⟨id, black⟩ := second
      obtain rfl : id = 0 := hsecond
      obtain rfl : first = (info.userId, true) := hfirst
      rw [hg]

/-- A `GAME_PREPARE` changes the room iff it prepares. -/
theorem ensures_gamePrepare_alike {info : UserInfo}
    (hinfo : r.connections.lookup c.connId = some info) (payload : Json) :
    Ensures (r.gamePrepare env (onEveryonePrepared env) c.connId info payload) fun s =>
      s.2.Alike r ↔ ¬ r.Prepares c "GAME_PREPARE" payload := by
  unfold gamePrepare
  refine .bind' fun v hv => .bind' fun prepared hprepared => ?_
  have hread : payload.Reads "prepare" Json.asBool prepared := ⟨v, hv, hprepared⟩
  have hprepares : r.Prepares c "GAME_PREPARE" payload ↔
      (¬ r.Starts (.message c "GAME_PREPARE" payload) ∧ prepared ≠ info.prepared) ∨
        (r.Starts (.message c "GAME_PREPARE" payload) ∧
          ¬ (r.connections.entries.length = 1 ∧ info.prepared = false ∧
            r.AloneAtStart info.userId)) := by
    constructor
    · rintro ⟨-, info', prepared', hinfo', hread', h⟩
      obtain rfl := Option.some.inj (hinfo.symm.trans hinfo')
      obtain rfl := hread.unique hread'
      exact h
    · exact fun h => ⟨rfl, info, prepared, hinfo, hread, h⟩
  have hstarts : r.Starts (.message c "GAME_PREPARE" payload) ↔
      (r.setPrepared c.connId info prepared).everyonePrepared = true ∧
        (r.setPrepared c.connId info prepared).AdmitsNumber := by
    constructor
    · rintro ⟨-, info', prepared', hinfo', hread', h⟩
      obtain rfl := Option.some.inj (hinfo.symm.trans hinfo')
      obtain rfl := hread.unique hread'
      exact h
    · exact fun h => ⟨rfl, info, prepared, hinfo, hread, h⟩
  -- nothing is started
  have hquiet (hno : ¬ r.Starts (.message c "GAME_PREPARE" payload)) :
      (r.setPrepared c.connId info prepared).Alike r ↔ ¬ r.Prepares c "GAME_PREPARE" payload := by
    rw [alike_setPrepared hinfo, hprepares, and_iff_right hno, or_iff_left fun h => hno h.1,
      not_not]
  dsimp only
  refine .ite (fun hall => .bind' fun s hs => .ok ?_) fun hall =>
    .ok (hquiet fun h => hall (hstarts.mp h).1)
  have houtcome := ensures_onEveryonePrepared_outcome s hs
  by_cases hadmits : (r.setPrepared c.connId info prepared).AdmitsNumber
  · obtain ⟨-, game, -, hroom⟩ := houtcome.starts hadmits
    have hstart := hstarts.mpr ⟨hall, hadmits⟩
    show s.2.Alike r ↔ _
    rw [hprepares, or_iff_right fun h => h.1 hstart, and_iff_right hstart, not_not, hroom,
      alike_started hinfo hall, and_assoc]
    refine and_congr_right fun hone => and_congr_right fun _ => ?_
    exact eq_game_iff hinfo hone hadmits hs (hroom ▸ rfl)
  · rw [(houtcome.stays hadmits).2]
    exact hquiet fun h => hadmits (hstarts.mp h).2


/-- A message other than a `JOIN_ROOM` changes the room iff its game obeys it or it is a
`GAME_PREPARE` that prepares, whether the caller is a member or not. -/
theorem ensures_receive_alike (userRooms : UserRooms) {messageType : String}
    (hjoin : messageType ≠ "JOIN_ROOM") (payload : Json) :
    Ensures (r.receive env userRooms c messageType payload) fun s =>
      s.2.2.Alike r ↔
        ¬ (r.Obeys c.userId messageType payload ∨ r.Prepares c messageType payload) := by
  unfold receive
  refine .ite (fun hgame => ?_) fun hgame => ?_
  · have hno : ¬ r.Prepares c messageType payload := by
      rintro ⟨rfl, -⟩
      rw [r.isGameMessage_eq_false (by decide)] at hgame
      cases hgame
    refine ((ensures_gameMessage messageType payload).and
      (ensures_gameMessage_iff hgame payload)).bind fun s hs => .ok ?_
    obtain ⟨⟨_, _, he⟩, hiff⟩ := hs
    rw [or_iff_left hno, ← hiff]
    show s.2.Alike r ↔ _
    refine and_iff_right fun k => ?_
    rw [he]
  · have hobeys : ¬ r.Obeys c.userId messageType payload := fun h => hgame h.1
    rw [or_iff_right hobeys]
    have hkeep (hno : ¬ r.Prepares c messageType payload) :
        r.Alike r ↔ ¬ r.Prepares c messageType payload := iff_of_true (.refl r) hno
    suffices hens : Ensures
        (r.processMessage env (onEveryonePrepared env) userRooms c messageType payload)
        fun s => s.2.2.Alike r ↔ ¬ r.Prepares c messageType payload from
      hens.bind fun s hs => .ite (fun _ => .bind' fun _ _ => .ok hs) fun _ => .ok hs
    unfold processMessage
    rw [if_neg hjoin]
    cases hinfo : r.connections.lookup c.connId with
    | none =>
      refine .ok (hkeep ?_)
      rintro ⟨-, _, _, hinfo', -⟩
      rw [hinfo] at hinfo'
      cases hinfo'
    | some info =>
      refine .ite (fun htype => .bind' fun _ _ => .ok (hkeep ?_)) fun _ =>
        .ite (fun htype => ?_) fun htype => .ok (hkeep fun h => htype h.1)
      · rintro ⟨hprepare, -⟩
        exact absurd (htype.symm.trans hprepare) (by decide)
      · subst htype
        exact (ensures_gamePrepare_alike hinfo payload).bind fun s hs => .ok hs

end Stranger

end Room

/-! ## The result -/

/-- The connections and the game of a room are as they were. -/
def Manager.Untouched (m' : Manager) (id : Nat) (r : Room) : Prop :=
  ∃ r', m'.rooms.lookup id = some r' ∧ r'.Alike r

theorem Manager.untouched_of_lookup {m' : Manager} {id : Nat} {r : Room}
    (h : m'.rooms.lookup id = some r) : m'.Untouched id r := ⟨r, h, .refl r⟩

/-- A `CREATE_ROOM` leaves the other rooms alone. -/
theorem Manager.ensures_createRoom_lookup {m : Manager} {id : Nat} {r : Room}
    (hr : m.rooms.lookup id = some r) (c : Caller) (payload : Json) :
    Ensures (m.createRoom c payload) fun s => s.2.rooms.lookup id = some r := by
  unfold Manager.createRoom
  refine .bind' fun _ _ => .bind' fun roomId _ => .bind' fun _ _ => .bind' fun roomType _ => ?_
  refine .ite (fun _ => .ok hr) fun hnone => ?_
  cases Manager.newSlot roomType with
  | none => exact .ok hr
  | some slot =>
    refine .bind' fun _ _ => .bind' fun name _ => .bind' fun _ _ => .bind' fun password _ => .ok ?_
    dsimp only
    rw [lookup_insert_eq, if_neg, hr]
    rintro rfl
    exact hnone (Option.isSome_of_eq_some hr)

/-- A message that is delivered elsewhere leaves the room as it is. -/
theorem Manager.ensures_deliver_ne {env : Env} {m : Manager} {id id' : Nat} {r : Room} {c : Caller}
    (hr : m.rooms.lookup id = some r) (hne : id ≠ id') (messageType : String) (payload : Json) :
    Ensures (m.deliver env id' c messageType payload) fun s => s.2.rooms.lookup id = some r := by
  unfold Manager.deliver
  split
  · refine .bind' fun s _ => .ok ?_
    dsimp only
    rw [lookup_insert_eq, if_neg hne, hr]
  · exact .ok hr

/-- A message that is delivered to the room. -/
theorem Manager.ensures_deliver_untouched {env : Env} {m : Manager} {id : Nat} {r : Room}
    {c : Caller} {messageType : String} (hr : m.rooms.lookup id = some r)
    (hjoin : messageType ≠ "JOIN_ROOM") (payload : Json) :
    Ensures (m.deliver env id c messageType payload) fun s =>
      s.2.Untouched id r ↔
        ¬ (r.Obeys c.userId messageType payload ∨ r.Prepares c messageType payload) := by
  unfold Manager.deliver
  rw [hr]
  refine (Room.ensures_receive_alike m.userRooms hjoin payload).bind fun s hs => .ok ?_
  rw [← hs]
  unfold Manager.Untouched
  dsimp only
  rw [lookup_insert_eq, if_pos rfl]
  exact ⟨fun ⟨r', hr', h⟩ => Option.some.inj hr' ▸ h, fun h => ⟨_, rfl, h⟩⟩

/-- The messages of a user who is not mapped to a room reach it only as room 0. -/
theorem Room.eq_zero_of_getUsersRoomId {userRooms : UserRooms} {userId : Int}
    (hout : userRooms userId ≠ some (getUsersRoomId userRooms userId)) :
    getUsersRoomId userRooms userId = 0 ∧ userRooms userId = none := by
  unfold getUsersRoomId at hout ⊢
  cases hu : userRooms userId with
  | none => exact ⟨rfl, rfl⟩
  | some id =>
    rw [hu] at hout
    exact absurd rfl hout

/-- **Strangers**: a message from a user who is not mapped to a room, other than a
`JOIN_ROOM` to the room, leaves its connections and its game alone, unless the
room is room 0, the user is in no room, and the game obeys the message or it is a
`GAME_PREPARE` over a connection that the room still has. -/
theorem isolated_iff {m : Manager} {id : Nat} {r : Room} (hr : m.rooms.lookup id = some r)
    {env : Env} {c : Caller} {messageType : String} {payload : Json}
    (hout : m.userRooms c.userId ≠ some id)
    (hjoin : messageType = "JOIN_ROOM" → m.target c messageType payload ≠ .ok id)
    {out : Outbox} {m' : Manager}
    (hs : m.step (env, .message c messageType payload) = .ok (out, m')) :
    m'.Untouched id r ↔ ¬ (id = 0 ∧ m.userRooms c.userId = none ∧
      (r.Obeys c.userId messageType payload ∨ r.Prepares c messageType payload)) := by
  -- the messages that the manager handles, and a `JOIN_ROOM`
  have hnot {messageType : String} (hmem : messageType ∈ ["CREATE_ROOM", "GET_ROOM_LIST",
      "JOIN_ROOM"]) : ¬ (id = 0 ∧ m.userRooms c.userId = none ∧
        (r.Obeys c.userId messageType payload ∨ r.Prepares c messageType payload)) := by
    rintro ⟨-, -, hobeys | ⟨rfl, -⟩⟩
    · have hgame : r.isGameMessage messageType = false :=
        r.isGameMessage_eq_false (List.mem_append_left ["CHAT_MESSAGE", "GAME_PREPARE"] hmem)
      rw [Room.Obeys, hgame] at hobeys
      exact nomatch hobeys.1
    · exact absurd hmem (by decide)
  suffices hens : Ensures (m.processMessage env c messageType payload) fun s =>
      s.2.Untouched id r ↔ ¬ (id = 0 ∧ m.userRooms c.userId = none ∧
        (r.Obeys c.userId messageType payload ∨ r.Prepares c messageType payload)) from
    hens _ hs
  unfold Manager.processMessage
  refine .ite (fun htype => ?_) fun hcreate => .ite (fun htype => ?_) fun hlist => ?_
  · subst htype
    exact (Manager.ensures_createRoom_lookup hr c payload).mono fun s hs =>
      iff_of_true (Manager.untouched_of_lookup hs) (hnot (by decide))
  · subst htype
    exact .ok (iff_of_true (Manager.untouched_of_lookup hr) (hnot (by decide)))
  refine .bind' fun id' hid' => ?_
  by_cases hne : id = id'
  · -- the message reaches the room, so the room is room 0
    subst hne
    have hother : messageType ≠ "JOIN_ROOM" := fun hj => hjoin hj hid'
    unfold Manager.target at hid'
    rw [if_neg hother] at hid'
    obtain rfl := Except.ok.inj hid'
    have hroute := Room.eq_zero_of_getUsersRoomId hout
    rw [and_iff_right hroute.1, and_iff_right hroute.2]
    exact Manager.ensures_deliver_untouched hr hother payload
  · -- it is routed elsewhere, and only a message to room 0 could change something
    refine (Manager.ensures_deliver_ne hr hne messageType payload).mono fun s hs =>
      iff_of_true (Manager.untouched_of_lookup hs) ?_
    rintro ⟨rfl, hu, hchanges⟩
    by_cases hj : messageType = "JOIN_ROOM"
    · exact hnot (by decide) ⟨rfl, hu, hj ▸ hchanges⟩
    · unfold Manager.target at hid'
      rw [if_neg hj, Room.getUsersRoomId, hu] at hid'
      exact hne (Except.ok.inj hid')

/-- Users 1 and 2 start a game in room 0. User 2 is renamed, and user 1 takes the name and with it
the seat, over another connection. -/
def takesSeat : List Event :=
  [.message ⟨1, "a", 1⟩ "CREATE_ROOM" (.obj [("room_id", .int 0), ("room_type", .str "GOMOKU")]),
    .message ⟨1, "a", 1⟩ "JOIN_ROOM" (.obj [("room_id", .int 0)]),
    .message ⟨2, "b", 2⟩ "JOIN_ROOM" (.obj [("room_id", .int 0)]),
    .message ⟨1, "a", 1⟩ "GAME_PREPARE" (.obj [("prepare", .bool true)]),
    .message ⟨2, "b", 2⟩ "GAME_PREPARE" (.obj [("prepare", .bool true)]),
    .message ⟨11, "b", 1⟩ "JOIN_ROOM" (.obj [("room_id", .int 0)])]

/-- The two drop pieces in turns, and user 2 wins. -/
def fiveDrops : List Event :=
  [(2, 0, 0), (1, 1, 0), (2, 0, 1), (1, 1, 1), (2, 0, 2), (1, 1, 2), (2, 0, 3), (1, 1, 3),
    (2, 0, 4)].map fun ((user, y, x) : Nat × Int × Int) =>
      .message ⟨user, "", user⟩ "GOMOKU_DROP" (.obj [("y", .int y), ("x", .int x)])

/-- The game ends, user 1 closes the second connection, and user 3 joins. -/
def leavesSeat : List Event :=
  [.update 0, .close 11 1, .message ⟨3, "c", 3⟩ "JOIN_ROOM" (.obj [("room_id", .int 0)])]

/-- User 1 has left, but still has an entry. -/
def renamedStart : List (Env × Event) :=
  (takesSeat ++ fiveDrops ++ leavesSeat).map fun e => (Room.plainEnv, e)

/-- A message of user 1 over the first connection. -/
def renamedSays (messageType : String) : Env × Event :=
  (Room.plainEnv, .message ⟨1, "a", 1⟩ messageType (.obj [("prepare", .bool true)]))

theorem exec_renamedStart : execTo Manager.step Manager.new renamedStart (fun m =>
    decide (m.userRooms 1 = none) && ((m.rooms.lookup 0).any fun r =>
      (r.connections.lookup 1).any fun info =>
        !info.prepared && !(r.setPrepared 1 info true).everyonePrepared) &&
      (stepTo Manager.step m (renamedSays "CHAT_MESSAGE") fun _ _ => true) &&
        stepTo Manager.step m (renamedSays "GAME_PREPARE") fun _ _ => true) = true := by
  decide +kernel

/-- User 1 is in no room, but still has a connection in room 0: what is said over it changes
nothing there, and a `GAME_PREPARE` does. -/
theorem isolated_iff_renamed : ∃ m r, exec Manager.step Manager.new renamedStart = .ok m ∧
    m.rooms.lookup 0 = some r ∧ m.userRooms 1 = none ∧
    (∃ out m', m.step (renamedSays "CHAT_MESSAGE") = .ok (out, m') ∧ m'.Untouched 0 r) ∧
    ∃ out m', m.step (renamedSays "GAME_PREPARE") = .ok (out, m') ∧ ¬ m'.Untouched 0 r := by
  obtain ⟨m, hm, hcheck⟩ := exists_of_execTo exec_renamedStart
  simp only [Bool.and_eq_true, decide_eq_true_eq, Option.any_eq_true, Bool.not_eq_true'] at hcheck
  obtain ⟨⟨⟨hfree, r, hr, info, hinfo, hflag, hwaits⟩, hchat⟩, hprepare⟩ := hcheck
  have hout : m.userRooms 1 ≠ some 0 := by
    rw [hfree]
    exact nofun
  obtain ⟨out, m', hs, -⟩ := exists_of_stepTo hchat
  obtain ⟨out', m'', hs', -⟩ := exists_of_stepTo hprepare
  refine ⟨m, r, hm, hr, hfree, ⟨out, m', hs, ?_⟩, out', m'', hs', ?_⟩
  · refine (isolated_iff hr hout (fun hjoin => absurd hjoin (by decide)) hs).mpr ?_
    rintro ⟨-, -, hobeys | ⟨hmessage, -⟩⟩
    · rw [Room.Obeys, r.isGameMessage_eq_false (by decide)] at hobeys
      exact nomatch hobeys.1
    · exact absurd hmessage (by decide)
  · rw [isolated_iff hr hout (fun hjoin => absurd hjoin (by decide)) hs', not_not]
    have hread : Json.Reads (.obj [("prepare", .bool true)]) "prepare" Json.asBool true :=
      ⟨_, rfl, rfl⟩
    refine ⟨rfl, hfree, .inr ⟨rfl, info, true, hinfo, hread, .inl ⟨?_, by rw [hflag]; decide⟩⟩⟩
    -- user 3 is not prepared
    rintro ⟨-, info', prepared, hinfo', hread', hall, -⟩
    obtain rfl := Option.some.inj (hinfo.symm.trans hinfo')
    obtain rfl := hread.unique hread'
    exact absurd (hwaits.symm.trans hall) nofun

/-- Users 1, 2 and 3 start a game of Uno in room 0. -/
def unoStart : List (Env × Event) :=
  [.message ⟨1, tally 1, 1⟩ "CREATE_ROOM"
      (.obj [("room_id", .int 0), ("room_type", .str "UNO")]),
    .message ⟨1, tally 1, 1⟩ "JOIN_ROOM" (.obj [("room_id", .int 0)]),
    .message ⟨2, tally 2, 2⟩ "JOIN_ROOM" (.obj [("room_id", .int 0)]),
    .message ⟨3, tally 3, 3⟩ "JOIN_ROOM" (.obj [("room_id", .int 0)]),
    .message ⟨1, tally 1, 1⟩ "GAME_PREPARE" (.obj [("prepare", .bool true)]),
    .message ⟨2, tally 2, 2⟩ "GAME_PREPARE" (.obj [("prepare", .bool true)]),
    .message ⟨3, tally 3, 3⟩ "GAME_PREPARE" (.obj [("prepare", .bool true)])].map
  fun e => (Room.plainEnv, e)

/-- The number of cards in the deck of a room, if it has a game of Uno. -/
def Room.deckLength (r : Room) : Nat :=
  match r.game with
  | .uno (some u) => u.deck.length
  | _ => 0

/-- User 4, who is in no room, says UNO. -/
def strangerSaysUno : Env × Event :=
  (Room.plainEnv, .message ⟨4, tally 4, 4⟩ "UNO_SAY_UNO" (.obj []))

theorem exec_unoStart : execTo Manager.step Manager.new unoStart (fun m =>
    decide (m.userRooms 4 = none) && (m.rooms.lookup 0).any fun r =>
      stepTo Manager.step m strangerSaysUno fun _ m' =>
        (m'.rooms.lookup 0).any fun r' => decide (r'.deckLength ≠ r.deckLength)) = true := by
  decide +kernel

/-- User 4 says UNO to a game in room 0, and the next player draws two cards. -/
theorem stranger_draws_cards : ∃ m r out m' r', exec Manager.step Manager.new unoStart = .ok m ∧
    m.rooms.lookup 0 = some r ∧ m.userRooms 4 = none ∧
    m.step strangerSaysUno = .ok (out, m') ∧ m'.rooms.lookup 0 = some r' ∧
    r'.game ≠ r.game := by
  obtain ⟨m, hm, hcheck⟩ := exists_of_execTo exec_unoStart
  obtain ⟨hfree, hroom⟩ := Bool.and_eq_true_iff.mp hcheck
  obtain ⟨r, hr, hsay⟩ := (Option.any_eq_true _ _).mp hroom
  obtain ⟨out, m', hstep, hdeck⟩ := exists_of_stepTo hsay
  obtain ⟨r', hr', hne⟩ := (Option.any_eq_true _ _).mp hdeck
  refine ⟨m, r, out, m', r', hm, hr, of_decide_eq_true hfree, hstep, hr', fun he => ?_⟩
  have hne := of_decide_eq_true hne
  unfold Room.deckLength at hne
  rw [he] at hne
  exact hne rfl

end UnoppServer
