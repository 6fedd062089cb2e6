import UnoppServer.Json.Fields
import UnoppServer.Room.Announcements

/-!
# Rooms: the life of one room

A room takes messages, closed connections and, for Gomoku, detached threads that
run. In between, other rooms change `user_2_room_id`. `RoomState.step` handles one
such event, and `RoomState.Change` lists what it can do to the room.

- `Room.Starts`, `Room.Ends`: the events that start and end a game, in terms of the
  room before them;
- `RoomState.step_cases`: a completed step is a `Change`, announces a start iff
  the event starts a game, and an end iff it ends one and somebody is there;
- `Manager.lifetime_of_run`: every room of the manager has lived such a run.
-/

namespace UnoppServer

open Assoc FindIf Runs

/-- What can happen to a room. -/
inductive RoomEvent where
  | message (c : Caller) (messageType : String) (payload : Json)
  | close (connId : Nat)
  | update
  /-- `user_2_room_id` is changed by other rooms -/
  | elsewhere (userRooms : UserRooms)

/-- A room, with the static map of its class. -/
structure RoomState where
  userRooms : UserRooms
  room : Room

/-- Handle an event. -/
def RoomState.step (s : RoomState) (e : Env × RoomEvent) : Except Fault (Outbox × RoomState) :=
  match e.2 with
  | .message c messageType payload => do
    let (out, userRooms, r) ← s.room.receive e.1 s.userRooms c messageType payload
    return (out, ⟨userRooms, r⟩)
  | .close connId =>
    let (out, userRooms, r) := s.room.processClose e.1 s.userRooms connId
    .ok (out, ⟨userRooms, r⟩)
  | .update =>
    match s.room.game with
    | .gomoku g colors (updates + 1) =>
      let (out, r) := s.room.gomokuUpdate e.1 g colors updates
      .ok (out, { s with room := r })
    | _ => .ok ([], s)
  | .elsewhere userRooms => .ok ([], { s with userRooms := userRooms })

/-- A room that has just been created. -/
def RoomState.Fresh (s : RoomState) : Prop :=
  ∃ id creator creatorId name password roomType slot, Manager.newSlot roomType = some slot ∧
    s.room = Room.new id creator creatorId name password slot

namespace Room

/-- The event starts a game: a `GAME_PREPARE` of a member that leaves everyone
prepared, with a number of members that is admitted. -/
def Starts (r : Room) : RoomEvent → Prop
  | .message c messageType payload => messageType = "GAME_PREPARE" ∧ ∃ info prepared,
    r.connections.lookup c.connId = some info ∧ payload.Reads "prepare" Json.asBool prepared ∧
    (r.setPrepared c.connId info prepared).everyonePrepared = true ∧
    (r.setPrepared c.connId info prepared).AdmitsNumber
  | _ => False

/-- The event asks for an operation of the game of an Uno or a Splendor room. -/
def Asks (r : Room) : RoomEvent → Prop
  | .message c messageType payload =>
    match r.game with
    | .uno _ => ∃ op, unoRequest c.userId messageType payload = .ok (some op)
    | .splendor _ => ∃ op, splendorRequest c.userId messageType payload = .ok (some op)
    | .gomoku .. => False
  | _ => False

/-- The event ends the game. -/
def Ends (env : Env) (r : Room) : RoomEvent → Prop
  | .message c messageType payload =>
    match r.game with
    | .uno unoGame => ∃ u op, unoGame = some u ∧
      unoRequest c.userId messageType payload = .ok (some op) ∧ op.Ends u
    | .splendor game => ∃ g op, game = some g ∧
      splendorRequest c.userId messageType payload = .ok (some op) ∧ op.Ends g
    | .gomoku .. => False
  | .update =>
    match r.game with
    | .gomoku g _ (_ + 1) => (r.updated env g).status ≠ .notEnd
    | _ => False
  | _ => False

/-- `GameStep env r e game`: the event performs an operation of the game of the room,
which leaves it as `game`. -/
inductive GameStep (env : Env) (r : Room) : RoomEvent → GameSlot → Prop where
  | uno {c : Caller} {messageType : String} {payload : Json} {u u' : Uno} {op : Uno.Op} {b : Bool}
      (hgame : r.game = .uno (some u))
      (hop : unoRequest c.userId messageType payload = .ok (some op))
      (hstep : u.step op = .ok (b, u')) :
      GameStep env r (.message c messageType payload) (.uno (some u'))
  | splendor {c : Caller} {messageType : String} {payload : Json} {g g' : Splendor.Game}
      {op : Splendor.Op} {b : Bool} (hgame : r.game = .splendor (some g))
      (hop : splendorRequest c.userId messageType payload = .ok (some op))
      (hstep : g.step op = .ok (b, g')) :
      GameStep env r (.message c messageType payload) (.splendor (some g'))
  | drop {c : Caller} {payload : Json} {g g' : Gomoku} {colors : Colors} {updates : Nat} {y x : Int}
      (hgame : r.game = .gomoku g colors updates) (hop : dropRequest payload = .ok (y, x))
      (hstep : g.drop y x (isBlack colors c.userId) = (true, g')) :
      GameStep env r (.message c "GOMOKU_DROP" payload) (.gomoku g' colors (updates + 1))
  | update {g : Gomoku} {colors : Colors} {updates : Nat}
      (hgame : r.game = .gomoku g colors (updates + 1)) :
      GameStep env r .update (.gomoku (r.updated env g) colors updates)

end Room

open Room

/-- `Change env s e s'`: what the event `e` can do to a room. -/
inductive RoomState.Change (env : Env) (s : RoomState) : RoomEvent → RoomState → Prop where
  | stays {e : RoomEvent} (hasks : ¬ s.room.Asks e) (hstarts : ¬ s.room.Starts e)
      (hends : ¬ s.room.Ends env e) : Change env s e s
  | elsewhere {userRooms : UserRooms} :
      Change env s (.elsewhere userRooms) { s with userRooms := userRooms }
  | joins {c : Caller} {payload : Json} {s' : RoomState}
      (h : s.room.Admits env s.userRooms c s'.userRooms s'.room) :
      Change env s (.message c "JOIN_ROOM" payload) s'
  | prepares {c : Caller} {payload : Json} {info : UserInfo} {prepared : Bool}
      (hinfo : s.room.connections.lookup c.connId = some info)
      (hread : payload.Reads "prepare" Json.asBool prepared)
      (hstarts : ¬ s.room.Starts (.message c "GAME_PREPARE" payload)) :
      Change env s (.message c "GAME_PREPARE" payload)
        { s with room := s.room.setPrepared c.connId info prepared }
  | starts {c : Caller} {payload : Json} {info : UserInfo} {prepared : Bool} {game : GameSlot}
      (hinfo : s.room.connections.lookup c.connId = some info)
      (hstarts : s.room.Starts (.message c "GAME_PREPARE" payload))
      (hgame : NewGame env (s.room.setPrepared c.connId info prepared) game) :
      Change env s (.message c "GAME_PREPARE" payload)
        { s with
          room := ({ s.room.setPrepared c.connId info prepared with
            isGameOn := true, game := game } : Room).clearPrepared }
  | plays {e : RoomEvent} {game : GameSlot} (hgame : GameStep env s.room e game)
      (hends : ¬ s.room.Ends env e) : Change env s e { s with room := { s.room with game := game } }
  | finishes {e : RoomEvent} {game : GameSlot} (hgame : GameStep env s.room e game)
      (hends : s.room.Ends env e) :
      Change env s e { s with room := { s.room with game := game, isGameOn := false } }
  | offline {connId : Nat} {info : UserInfo}
      (hinfo : s.room.connections.lookup connId = some info) (hon : s.room.isGameOn = true) :
      Change env s (.close connId)
        { s with
          room := { s.room with
            connections := s.room.connections.insert connId { info with offline := true } } }
  | leaves {connId : Nat} {info : UserInfo}
      (hinfo : s.room.connections.lookup connId = some info) (hon : s.room.isGameOn = false) :
      Change env s (.close connId)
        ⟨Function.update s.userRooms info.userId none,
          { s.room with connections := s.room.connections.erase connId }⟩

namespace Room

/-! ## The specs -/

/-- The types of the calls of Uno begin with the name of the game. -/
theorem beginsWith_of_unoRequest {userId : Int} {messageType : String} {payload : Json}
    {op : Uno.Op} (h : unoRequest userId messageType payload = .ok (some op)) :
    beginsWith "UNO" messageType = true := by
  by_contra hno
  have hne (t : String) (ht : beginsWith "UNO" t = true) : messageType ≠ t :=
    fun he => hno (he ▸ ht)
  unfold unoRequest at h
  rw [if_neg (hne _ (by decide)), if_neg (hne _ (by decide)), if_neg (hne _ (by decide)),
    if_neg (hne _ (by decide)), if_neg (hne _ (by decide)), if_neg (hne _ (by decide))] at h
  cases h

/-- The types of the calls of Splendor begin with the name of the game. -/
theorem beginsWith_of_splendorRequest {userId : Int} {messageType : String} {payload : Json}
    {op : Splendor.Op} (h : splendorRequest userId messageType payload = .ok (some op)) :
    beginsWith "SPLENDOR" messageType = true := by
  by_contra hno
  have hne (t : String) (ht : beginsWith "SPLENDOR" t = true) : messageType ≠ t :=
    fun he => hno (he ▸ ht)
  unfold splendorRequest at h
  rw [if_neg (hne _ (by decide)), if_neg (hne _ (by decide)), if_neg (hne _ (by decide)),
    if_neg (hne _ (by decide)), if_neg (hne _ (by decide)), if_neg (hne _ (by decide))] at h
  cases h

section Specs

variable {env : Env} {r : Room} {c : Caller} {messageType : String} {payload : Json}

theorem asks_uno {unoGame : Option Uno} (hgame : r.game = .uno unoGame) :
    r.Asks (.message c messageType payload) ↔
      ∃ op, unoRequest c.userId messageType payload = .ok (some op) := by
  simp only [Asks, hgame]

theorem asks_splendor {game : Option Splendor.Game} (hgame : r.game = .splendor game) :
    r.Asks (.message c messageType payload) ↔
      ∃ op, splendorRequest c.userId messageType payload = .ok (some op) := by
  simp only [Asks, hgame]

theorem not_asks_gomoku {g : Gomoku} {colors : Colors} {updates : Nat}
    (hgame : r.game = .gomoku g colors updates) : ¬ r.Asks (.message c messageType payload) := by
  simp only [Asks, hgame, not_false_eq_true]

theorem ends_uno {unoGame : Option Uno} (hgame : r.game = .uno unoGame) :
    r.Ends env (.message c messageType payload) ↔ ∃ u op, unoGame = some u ∧
      unoRequest c.userId messageType payload = .ok (some op) ∧ op.Ends u := by
  simp only [Ends, hgame]

theorem ends_splendor {game : Option Splendor.Game} (hgame : r.game = .splendor game) :
    r.Ends env (.message c messageType payload) ↔ ∃ g op, game = some g ∧
      splendorRequest c.userId messageType payload = .ok (some op) ∧ op.Ends g := by
  simp only [Ends, hgame]

theorem not_ends_gomoku {g : Gomoku} {colors : Colors} {updates : Nat}
    (hgame : r.game = .gomoku g colors updates) :
    ¬ r.Ends env (.message c messageType payload) := by
  simp only [Ends, hgame, not_false_eq_true]

/-- Only messages of the game ask for its operations. -/
theorem Asks.isGameMessage (h : r.Asks (.message c messageType payload)) :
    r.isGameMessage messageType = true := by
  unfold Room.isGameMessage
  cases hgame : r.game with
  | uno unoGame =>
    obtain ⟨_, hop⟩ := (asks_uno hgame).mp h
    exact beginsWith_of_unoRequest hop
  | splendor game =>
    obtain ⟨_, hop⟩ := (asks_splendor hgame).mp h
    exact beginsWith_of_splendorRequest hop
  | gomoku => exact absurd h (not_asks_gomoku hgame)

/-- Only operations end a game. -/
theorem Ends.asks (h : r.Ends env (.message c messageType payload)) :
    r.Asks (.message c messageType payload) := by
  cases hgame : r.game with
  | uno unoGame =>
    obtain ⟨_, op, _, hop, _⟩ := (ends_uno hgame).mp h
    exact (asks_uno hgame).mpr ⟨op, hop⟩
  | splendor game =>
    obtain ⟨_, op, _, hop, _⟩ := (ends_splendor hgame).mp h
    exact (asks_splendor hgame).mpr ⟨op, hop⟩
  | gomoku => exact absurd h (not_ends_gomoku hgame)

/-- No message of a game starts one. -/
theorem not_starts_of_isGameMessage (h : r.isGameMessage messageType = true) :
    ¬ r.Starts (.message c messageType payload) := by
  rintro ⟨rfl, -⟩
  rw [r.isGameMessage_eq_false (by decide)] at h
  cases h

end Specs

end Room

namespace RoomState

/-- What is known of a step: what it does to the room, and what it announces. -/
structure Spec (env : Env) (s : RoomState) (e : RoomEvent) (r : Outbox × RoomState) : Prop where
  change : Change env s e r.2
  start : announces startTypes r.1 = true ↔ s.room.Starts e
  isOver : announces overTypes r.1 = true ↔ s.room.Ends env e ∧ s.room.isEmpty = false

section Spec

variable {env : Env} {s : RoomState} {e : RoomEvent}

/-- An event that neither starts nor ends a game. -/
theorem Spec.of_plain {out : Outbox} {s' : RoomState} (hout : Plain out)
    (hchange : Change env s e s') (hstarts : ¬ s.room.Starts e) (hends : ¬ s.room.Ends env e) :
    Spec env s e (out, s') := by
  refine ⟨hchange, iff_of_false ?_ hstarts, iff_of_false ?_ fun h => hends h.1⟩
  · rw [hout.1]
    exact Bool.false_ne_true
  · rw [hout.2]
    exact Bool.false_ne_true

/-- An operation of the game. -/
theorem Spec.of_gameStep {r' : Room} {out : Outbox} {game : GameSlot} {ends : Prop}
    (hgame : GameStep env s.room e game) (hstarts : ¬ s.room.Starts e)
    (hends : s.room.Ends env e ↔ ends) (hout : Outcome s.room ends (out, r'))
    (hr : ∃ isGameOn, r' = { s.room with game := game, isGameOn := isGameOn }) :
    Spec env s e (out, { s with room := r' }) := by
  obtain ⟨isGameOn, rfl⟩ := hr
  refine ⟨?_, iff_of_false ?_ hstarts, ?_⟩
  · by_cases he : s.room.Ends env e
    · obtain rfl : isGameOn = false := (hout.isOver (hends.mp he)).1
      exact .finishes hgame he
    · obtain rfl : isGameOn = s.room.isGameOn := (hout.goesOn fun h => he (hends.mpr h)).1
      exact .plays hgame he
  · rw [hout.start]
    exact Bool.false_ne_true
  · by_cases he : s.room.Ends env e
    · rw [(hout.isOver (hends.mp he)).2, Bool.not_eq_true', and_iff_right he]
    · rw [(hout.goesOn fun h => he (hends.mpr h)).2]
      exact iff_of_false Bool.false_ne_true fun h => he h.1

variable {c : Caller} {messageType : String} {payload : Json}

/-- A message of the game that asks for nothing. -/
theorem Spec.of_idle {out : Outbox} (hasks : ¬ s.room.Asks (.message c messageType payload))
    (hstarts : ¬ s.room.Starts (.message c messageType payload))
    (hout : Outcome s.room False (out, s.room)) :
    Spec env s (.message c messageType payload) (out, s) := by
  have hends : ¬ s.room.Ends env (.message c messageType payload) := fun he => hasks he.asks
  exact .of_plain ⟨hout.start, (hout.goesOn id).2⟩ (.stays hasks hstarts hends) hstarts hends

/-- The specification of the messages of Uno. -/
theorem ensures_unoMessage_spec {unoGame : Option Uno} (hgame : s.room.game = .uno unoGame)
    (hmsg : s.room.isGameMessage messageType = true) :
    Ensures (s.room.unoMessage env unoGame c messageType payload) fun r =>
      Spec env s (.message c messageType payload) (r.1, { s with room := r.2 }) := by
  have hstarts : ¬ s.room.Starts (.message c messageType payload) :=
    not_starts_of_isGameMessage hmsg
  refine ((ensures_unoMessage unoGame messageType payload).and
    (ensures_unoMessage_outcome unoGame messageType payload)).mono ?_
  rintro ⟨out, r'⟩ ⟨⟨o, ho, hanswer⟩, o', ho', hout⟩
  obtain rfl := Except.ok.inj (ho.symm.trans ho')
  cases o with
  | none =>
    obtain rfl : r' = s.room := hanswer
    have hasks : ¬ s.room.Asks (.message c messageType payload) := by
      rw [asks_uno hgame]
      rintro ⟨op, hop⟩
      exact nomatch ho.symm.trans hop
    exact .of_idle hasks hstarts hout
  | some op =>
    obtain ⟨u, rfl, b, u', isGameOn, hstep, hr⟩ := hanswer
    obtain ⟨u₁, hu₁, hout⟩ := hout
    obtain rfl := Option.some.inj hu₁
    refine .of_gameStep (.uno hgame ho hstep) hstarts ((ends_uno hgame).trans ⟨?_, ?_⟩) hout
      ⟨isGameOn, hr⟩
    · rintro ⟨u₂, op₂, hu₂, hop₂, h⟩
      obtain rfl := Option.some.inj hu₂
      obtain rfl := Option.some.inj (Except.ok.inj (ho.symm.trans hop₂))
      exact h
    · intro h
      exact ⟨u, op, rfl, ho, h⟩

/-- The specification of the messages of Splendor. -/
theorem ensures_splendorMessage_spec {game : Option Splendor.Game}
    (hgame : s.room.game = .splendor game) (hmsg : s.room.isGameMessage messageType = true) :
    Ensures (s.room.splendorMessage env game c messageType payload) fun r =>
      Spec env s (.message c messageType payload) (r.1, { s with room := r.2 }) := by
  have hstarts : ¬ s.room.Starts (.message c messageType payload) :=
    not_starts_of_isGameMessage hmsg
  refine ((ensures_splendorMessage game messageType payload).and
    (ensures_splendorMessage_outcome game messageType payload)).mono ?_
  rintro ⟨out, r'⟩ ⟨⟨o, ho, hanswer⟩, o', ho', hout⟩
  obtain rfl := Except.ok.inj (ho.symm.trans ho')
  cases o with
  | none =>
    obtain rfl : r' = s.room := hanswer
    have hasks : ¬ s.room.Asks (.message c messageType payload) := by
      rw [asks_splendor hgame]
      rintro ⟨op, hop⟩
      exact nomatch ho.symm.trans hop
    exact .of_idle hasks hstarts hout
  | some op =>
    obtain ⟨g, rfl, b, g', isGameOn, hstep, hr⟩ := hanswer
    obtain ⟨g₁, hg₁, hout⟩ := hout
    obtain rfl := Option.some.inj hg₁
    refine .of_gameStep (.splendor hgame ho hstep) hstarts ((ends_splendor hgame).trans ⟨?_, ?_⟩)
      hout ⟨isGameOn, hr⟩
    · rintro ⟨g₂, op₂, hg₂, hop₂, h⟩
      obtain rfl := Option.some.inj hg₂
      obtain rfl := Option.some.inj (Except.ok.inj (ho.symm.trans hop₂))
      exact h
    · intro h
      exact ⟨g, op, rfl, ho, h⟩

/-- The specification of a drop. -/
theorem ensures_gomokuDrop_spec {g : Gomoku} {colors : Colors} {updates : Nat}
    (hgame : s.room.game = .gomoku g colors updates)
    (hmsg : s.room.isGameMessage messageType = true) :
    Ensures (s.room.gomokuDrop env g colors updates c payload) fun r =>
      Spec env s (.message c messageType payload) (r.1, { s with room := r.2 }) := by
  have hstarts : ¬ s.room.Starts (.message c messageType payload) :=
    not_starts_of_isGameMessage hmsg
  have hasks : ¬ s.room.Asks (.message c messageType payload) := not_asks_gomoku hgame
  have hends : ¬ s.room.Ends env (.message c messageType payload) := not_ends_gomoku hgame
  obtain rfl : messageType = "GOMOKU_DROP" := by
    unfold isGameMessage at hmsg
    rw [hgame] at hmsg
    exact eq_of_beq hmsg
  refine ((ensures_gomokuDrop g colors updates payload).and
    (ensures_gomokuDrop_outcome g colors updates payload)).mono ?_
  rintro ⟨out, r'⟩ ⟨⟨y, x, hyx, hr⟩, hout⟩
  by_cases hdrop : (g.drop y x (isBlack colors c.userId)).1 = true
  · rw [if_pos hdrop] at hr
    have hnever : s.room.Ends env (.message c "GOMOKU_DROP" payload) ↔ False :=
      iff_false_intro hends
    refine .of_gameStep (.drop hgame hyx (Prod.ext hdrop rfl)) hstarts hnever hout
      ⟨s.room.isGameOn, hr⟩
  · rw [if_neg hdrop] at hr
    obtain rfl : r' = s.room := hr
    exact .of_idle hasks hstarts hout

/-- A message of the game. -/
theorem ensures_gameMessage_spec (hmsg : s.room.isGameMessage messageType = true) :
    Ensures (s.room.gameMessage env c messageType payload) fun r =>
      Spec env s (.message c messageType payload) (r.1, { s with room := r.2 }) := by
  unfold gameMessage
  cases hgame : s.room.game with
  | uno unoGame => exact ensures_unoMessage_spec hgame hmsg
  | splendor game => exact ensures_splendorMessage_spec hgame hmsg
  | gomoku g colors updates => exact ensures_gomokuDrop_spec hgame hmsg

/-- More messages that announce nothing. -/
theorem Spec.append {out out' : Outbox} {s' : RoomState} (h : Spec env s e (out, s'))
    (hout' : Plain out') : Spec env s e (out ++ out', s') := by
  refine ⟨h.change, ?_, ?_⟩
  · rw [announces_append, hout'.1, Bool.or_false]
    exact h.start
  · rw [announces_append, hout'.2, Bool.or_false]
    exact h.isOver

/-- A message of the base class asks for no operation. -/
theorem not_asks_of_isGameMessage (h : s.room.isGameMessage messageType = false) :
    ¬ s.room.Asks (.message c messageType payload) := by
  intro ha
  rw [ha.isGameMessage] at h
  cases h

/-- Nor does it end the game. -/
theorem not_ends_of_isGameMessage (h : s.room.isGameMessage messageType = false) :
    ¬ s.room.Ends env (.message c messageType payload) :=
  fun he => not_asks_of_isGameMessage h he.asks

/-- The specification of `JOIN_ROOM`. -/
theorem ensures_joinRoom_spec :
    Ensures (s.room.joinRoom env s.userRooms c payload) fun r =>
      Spec env s (.message c "JOIN_ROOM" payload) (r.1, ⟨r.2.1, r.2.2⟩) := by
  have hstarts : ¬ s.room.Starts (.message c "JOIN_ROOM" payload) := fun h => nomatch h.1
  have hmsg : s.room.isGameMessage "JOIN_ROOM" = false := s.room.isGameMessage_eq_false (by decide)
  have hends : ¬ s.room.Ends env (.message c "JOIN_ROOM" payload) := not_ends_of_isGameMessage hmsg
  refine ((ensures_joinRoom s.userRooms payload).and
    (ensures_joinRoom_plain s.userRooms payload)).mono ?_
  rintro ⟨out, userRooms, r'⟩ ⟨hs, hout⟩
  rcases hs with h | h
  · obtain ⟨rfl, rfl⟩ := Prod.mk.inj h
    exact .of_plain hout (.stays (not_asks_of_isGameMessage hmsg) hstarts hends) hstarts hends
  · exact .of_plain hout (.joins h) hstarts hends

/-- A `GAME_PREPARE` of a member. -/
theorem ensures_gamePrepare_spec {info : UserInfo}
    (hinfo : s.room.connections.lookup c.connId = some info) :
    Ensures (s.room.gamePrepare env (onEveryonePrepared env) c.connId info payload) fun r =>
      Spec env s (.message c "GAME_PREPARE" payload) (r.1, { s with room := r.2 }) := by
  have hends : ¬ s.room.Ends env (.message c "GAME_PREPARE" payload) :=
    not_ends_of_isGameMessage (s.room.isGameMessage_eq_false (by decide))
  unfold gamePrepare
  refine .bind' fun v hv => .bind' fun prepared hprepared => ?_
  have hread : payload.Reads "prepare" Json.asBool prepared := ⟨v, hv, hprepared⟩
  -- the flag that is read, and the member whose flag it is, are those of `Starts`
  have hstarts : s.room.Starts (.message c "GAME_PREPARE" payload) ↔
      (s.room.setPrepared c.connId info prepared).everyonePrepared = true ∧
      (s.room.setPrepared c.connId info prepared).AdmitsNumber := by
    constructor
    · rintro ⟨-, info', prepared', hinfo', hread', h⟩
      obtain rfl := Option.some.inj (hinfo.symm.trans hinfo')
      obtain rfl := hread.unique hread'
      exact h
    · intro h
      exact ⟨rfl, info, prepared, hinfo, hread, h⟩
  have hflag (hno : ¬ s.room.Starts (.message c "GAME_PREPARE" payload)) {out : Outbox}
      (hout : Plain out) : Spec env s (.message c "GAME_PREPARE" payload)
        (out, { s with room := s.room.setPrepared c.connId info prepared }) :=
    .of_plain hout (.prepares hinfo hread hno) hno hends
  refine .ite (fun heveryone => ?_) fun hno => .ok (hflag (fun h => hno (hstarts.mp h).1)
    plain_membersInfo)
  refine ensures_onEveryonePrepared_outcome.bind ?_
  rintro ⟨out, r'⟩ hout
  by_cases hadmits : (s.room.setPrepared c.connId info prepared).AdmitsNumber
  · have hyes := hstarts.mpr ⟨heveryone, hadmits⟩
    obtain ⟨hannounced, game, hgame, rfl⟩ := hout.starts hadmits
    have hmember : (s.room.setPrepared c.connId info prepared).isEmpty = false := by
      show (s.room.connections.insert c.connId { info with prepared := prepared }).entries.isEmpty =
        false
      rw [AList.entries_insert]
      rfl
    refine .ok ⟨.starts hinfo hyes hgame, iff_of_true ?_ hyes, iff_of_false ?_ fun h => hends h.1⟩
    · show announces startTypes (_ ++ out) = true
      rw [announces_append, hannounced, hmember]
      exact Bool.or_true _
    · show ¬ announces overTypes (_ ++ out) = true
      rw [announces_append, hout.isOver, plain_membersInfo.2]
      exact Bool.false_ne_true
  · obtain ⟨hquiet, rfl⟩ := hout.stays hadmits
    refine .ok (hflag (fun h => hadmits (hstarts.mp h).2) ?_)
    exact plain_membersInfo.append ⟨hquiet, hout.isOver⟩

/-- The specification of the messages that are not of the game. -/
theorem ensures_processMessage_spec (hmsg : s.room.isGameMessage messageType = false) :
    Ensures (s.room.processMessage env (onEveryonePrepared env) s.userRooms c messageType payload)
      fun r => Spec env s (.message c messageType payload) (r.1, ⟨r.2.1, r.2.2⟩) := by
  have hends : ¬ s.room.Ends env (.message c messageType payload) :=
    not_ends_of_isGameMessage hmsg
  unfold processMessage
  refine .ite (fun ht => ?_) fun _ => ?_
  · subst ht
    exact ensures_joinRoom_spec
  · have hquiet {out : Outbox} (hout : Plain out)
        (hno : ¬ s.room.Starts (.message c messageType payload)) :
        Spec env s (.message c messageType payload) (out, ⟨s.userRooms, s.room⟩) :=
      .of_plain hout (.stays (not_asks_of_isGameMessage hmsg) hno hends) hno hends
    cases hinfo : s.room.connections.lookup c.connId with
    | none =>
      refine .ok (hquiet ⟨rfl, rfl⟩ ?_)
      rintro ⟨-, info, prepared, h, -⟩
      exact nomatch hinfo.symm.trans h
    | some info =>
      refine .ite (fun ht => ?_) fun _ => .ite (fun ht => ?_) fun hprepare => ?_
      · subst ht
        exact (ensures_chatMessage_plain payload).bind fun out hout =>
          .ok (hquiet hout fun h => nomatch h.1)
      · subst ht
        exact (ensures_gamePrepare_spec hinfo).bind fun r hr => .ok hr
      · exact .ok (hquiet plain_nil fun h => hprepare h.1)

theorem ensures_sendState_plain {r : Room} : Ensures (r.sendState env) Plain := by
  unfold sendState
  split
  · exact ensures_onUno fun u _ => ensures_sendUno_plain
  · exact .ok (plain_sendSplendorInfo _)
  · exact .error
  · exact .ok (plain_sendGomokuInfo _ _)

/-- The specification of a message to the room. -/
theorem ensures_receive_spec :
    Ensures (s.room.receive env s.userRooms c messageType payload) fun r =>
      Spec env s (.message c messageType payload) (r.1, ⟨r.2.1, r.2.2⟩) := by
  unfold receive
  refine .ite (fun hmsg => ?_) fun hmsg => ?_
  · exact (ensures_gameMessage_spec hmsg).bind fun r hr => .ok hr
  · refine (ensures_processMessage_spec (Bool.eq_false_of_not_eq_true hmsg)).bind fun r hr => ?_
    refine .ite (fun _ => ?_) fun _ => .ok hr
    exact ensures_sendState_plain.bind fun state hstate => .ok (hr.append hstate)

/-- A connection closes. -/
theorem processClose_spec (connId : Nat) :
    Spec env s (.close connId) ((s.room.processClose env s.userRooms connId).1,
      ⟨(s.room.processClose env s.userRooms connId).2.1,
        (s.room.processClose env s.userRooms connId).2.2⟩) := by
  refine .of_plain (plain_processClose s.userRooms connId) ?_ id id
  unfold processClose
  cases hinfo : s.room.connections.lookup connId with
  | none => exact .stays id id id
  | some info =>
    by_cases hon : s.room.isGameOn = true
    · simp only [if_pos hon]
      exact .offline hinfo hon
    · simp only [if_neg hon]
      exact .leaves hinfo (Bool.eq_false_of_not_eq_true hon)

/-- **A step of a room** is one of the changes, and it announces a start iff the event
starts a game, and an end iff the event ends one and somebody is there. -/
theorem step_cases {out : Outbox} {s' : RoomState} (h : s.step (env, e) = .ok (out, s')) :
    Spec env s e (out, s') := by
  cases e with
  | message c messageType payload =>
    have hens : Ensures (s.step (env, .message c messageType payload))
        (Spec env s (.message c messageType payload)) := by
      unfold step
      exact ensures_receive_spec.bind fun r hr => .ok hr
    exact hens _ h
  | close connId =>
    obtain ⟨rfl, rfl⟩ := Prod.mk.inj (Except.ok.inj h)
    exact processClose_spec connId
  | elsewhere userRooms =>
    obtain ⟨rfl, rfl⟩ := Prod.mk.inj (Except.ok.inj h)
    exact .of_plain plain_nil .elsewhere id id
  | update =>
    have hno : ¬ s.room.Starts .update := id
    by_cases hgame : ∃ g colors updates, s.room.game = .gomoku g colors (updates + 1)
    · obtain ⟨g, colors, updates, hgame⟩ := hgame
      obtain ⟨hout, hnew⟩ : Outcome s.room ((s.room.updated env g).status ≠ .notEnd)
          (s.room.gomokuUpdate env g colors updates) ∧ _ := gomokuUpdate_outcome g colors updates
      have hends : s.room.Ends env .update ↔ (s.room.updated env g).status ≠ .notEnd := by
        simp only [Ends, hgame]
      obtain ⟨game, isGameOn, hr⟩ : GameOnly s.room (s.room.gomokuUpdate env g colors updates).2 :=
        gameOnly_gomokuUpdate g colors updates
      obtain rfl : game = .gomoku (s.room.updated env g) colors updates := by
        rw [← hnew, hr]
      unfold step at h
      simp only [hgame] at h
      obtain ⟨rfl, rfl⟩ := Prod.mk.inj (Except.ok.inj h)
      exact .of_gameStep (.update hgame) hno hends hout ⟨isGameOn, hr⟩
    · have hends : ¬ s.room.Ends env .update := by
        intro he
        unfold Ends at he
        dsimp only at he
        split at he
        · exact hgame ⟨_, _, _, ‹_›⟩
        · exact he
      have hstep : s.step (env, .update) = .ok ([], s) := by
        unfold step
        dsimp only
        split
        · exact absurd ⟨_, _, _, ‹_›⟩ hgame
        · rfl
      obtain ⟨rfl, rfl⟩ := Prod.mk.inj (Except.ok.inj (hstep.symm.trans h))
      exact .of_plain plain_nil (.stays id hno hends) hno hends

end Spec

end RoomState

/-! ## The rooms of the manager -/

namespace Manager

/-- What a step of the manager does to its rooms: each one stays as it is, is new, or
has taken an event. -/
def Moves (m m' : Manager) : Prop :=
  ∀ id r', m'.rooms.lookup id = some r' → m.rooms.lookup id = some r' ∨
    RoomState.Fresh ⟨m'.userRooms, r'⟩ ∨
    ∃ r e out, m.rooms.lookup id = some r ∧
      RoomState.step ⟨m.userRooms, r⟩ e = .ok (out, ⟨m'.userRooms, r'⟩)

section Moves

variable {m : Manager}

theorem Moves.refl (m : Manager) : Moves m m := fun _ _ h => .inl h

/-- One room has taken an event. -/
theorem Moves.insert {id : Nat} {r r' : Room} {userRooms : UserRooms} {e : Env × RoomEvent}
    {out : Outbox} (hr : m.rooms.lookup id = some r)
    (hs : RoomState.step ⟨m.userRooms, r⟩ e = .ok (out, ⟨userRooms, r'⟩)) :
    Moves m ⟨m.rooms.insert id r', userRooms⟩ := by
  intro id' r'' h
  change (m.rooms.insert id r').lookup id' = some r'' at h
  rw [lookup_insert_eq] at h
  by_cases he : id' = id
  · rw [if_pos he] at h
    obtain rfl := Option.some.inj h
    exact .inr (.inr ⟨r, e, out, he ▸ hr, hs⟩)
  · rw [if_neg he] at h
    exact .inl h

/-- One room is gone. -/
theorem Moves.erase {id : Nat} {rooms : Assoc.Map Nat Room} {userRooms : UserRooms}
    (h : ∀ id' r', id' ≠ id → rooms.lookup id' = some r' → m.rooms.lookup id' = some r') :
    Moves m ⟨rooms.erase id, userRooms⟩ := by
  intro id' r' h'
  change (rooms.erase id).lookup id' = some r' at h'
  rw [lookup_erase_eq] at h'
  split at h'
  · cases h'
  · exact .inl (h id' r' ‹¬ id' = id› h')

/-- A `CREATE_ROOM` makes a new room and changes no other. -/
theorem ensures_createRoom_moves (c : Caller) (payload : Json) :
    Ensures (m.createRoom c payload) fun s => Moves m s.2 := by
  unfold createRoom
  refine .bind' fun _ _ => .bind' fun roomId _ => .bind' fun _ _ => .bind' fun roomType _ => ?_
  refine .ite (fun _ => .ok (.refl m)) fun _ => ?_
  cases hslot : newSlot roomType with
  | none => exact .ok (.refl m)
  | some slot =>
    refine .bind' fun _ _ => .bind' fun name _ => .bind' fun _ _ => .bind' fun password _ => .ok ?_
    intro id r h
    change (m.rooms.insert roomId _).lookup id = some r at h
    rw [lookup_insert_eq] at h
    split at h
    · obtain rfl := Option.some.inj h
      exact .inr (.inl ⟨_, _, _, _, _, roomType, slot, hslot, rfl⟩)
    · exact .inl h

/-- A message to a room is an event of this room. -/
theorem ensures_deliver_moves (env : Env) (roomId : Nat) (c : Caller) (messageType : String)
    (payload : Json) :
    Ensures (m.deliver env roomId c messageType payload) fun s => Moves m s.2 := by
  unfold deliver
  cases hr : m.rooms.lookup roomId with
  | none => exact .ok (.refl m)
  | some r =>
    refine .bind' fun ⟨out, userRooms, r'⟩ hs => .ok ?_
    have hstep : RoomState.step ⟨m.userRooms, r⟩ (env, .message c messageType payload) =
        .ok (out, ⟨userRooms, r'⟩) := by
      unfold RoomState.step
      simp only [hs]
      rfl
    exact .insert hr hstep

/-- A closed connection is an event of the room of its user. -/
theorem moves_processClose (env : Env) (connId : Nat) (userId : Int) :
    Moves m (m.processClose env connId userId).2 := by
  unfold processClose
  dsimp only
  generalize Room.getUsersRoomId m.userRooms userId = roomId
  cases hr : m.rooms.lookup roomId with
  | none => exact .refl m
  | some r =>
    dsimp only
    split
    · refine .erase fun id' r' hne h => ?_
      rwa [lookup_insert_eq, if_neg hne] at h
    · exact .insert (e := (env, .close connId)) hr rfl

/-- A visit removes a room or does nothing. -/
theorem moves_visit (roomId : Nat) : Moves m (m.visit roomId) := by
  unfold visit
  cases m.rooms.lookup roomId with
  | none => exact .refl m
  | some r =>
    dsimp only
    split
    · exact .erase fun _ _ _ h => h
    · exact .refl m

/-- A run of a task is an event of its room. -/
theorem moves_runUpdate (env : Env) (roomId : Nat) : Moves m (m.runUpdate env roomId).2 := by
  unfold runUpdate
  cases hr : m.rooms.lookup roomId with
  | none => exact .refl m
  | some r =>
    dsimp only
    split
    · rename_i g colors updates hgame
      have hstep : RoomState.step ⟨m.userRooms, r⟩ (env, .update) =
          .ok ((r.gomokuUpdate env g colors updates).1,
            ⟨m.userRooms, (r.gomokuUpdate env g colors updates).2⟩) := by
        unfold RoomState.step
        simp only [hgame]
      exact .insert hr hstep
    · exact .refl m

/-- Each event of the manager moves the rooms by events of theirs. -/
theorem ensures_step_moves (e : Env × Event) : Ensures (m.step e) fun s => Moves m s.2 := by
  obtain ⟨env, event⟩ := e
  cases event with
  | message c messageType payload =>
    show Ensures (m.processMessage env c messageType payload) _
    unfold processMessage
    refine .ite (fun _ => ensures_createRoom_moves c payload) fun _ => ?_
    refine .ite (fun _ => .ok (.refl m)) fun _ => ?_
    exact .bind' fun id _ => ensures_deliver_moves env id c messageType payload
  | close connId userId => exact .ok (moves_processClose env connId userId)
  | visit roomId => exact .ok (moves_visit roomId)
  | update roomId => exact .ok (moves_runUpdate env roomId)

end Moves

/-- Every room has lived a run since it was created. -/
def Lived (m : Manager) : Prop :=
  ∀ id r, m.rooms.lookup id = some r →
    ∃ s₀, RoomState.Fresh s₀ ∧ Reachable RoomState.step (fun _ _ => True) s₀ ⟨m.userRooms, r⟩

/-- **The rooms of the manager**: what holds of every run of a room holds of the rooms
of the manager. -/
theorem lifetime_of_run {h : List (Entry Manager (Env × Event) Outbox)} {m : Manager}
    (hr : Run Manager.step (fun _ _ => True) Manager.new h m) : m.Lived := by
  have hnew : Manager.new.Lived := by
    intro id r h
    cases h
  refine Run.invariant hnew (fun m e out m' hm _ hs => ?_) hr
  intro id r' hr'
  rcases ensures_step_moves e _ hs id r' hr' with hsame | hfresh | ⟨r, e', out', hlook, hstep⟩
  · obtain ⟨s₀, hfresh, hreach⟩ := hm id r' hsame
    exact ⟨s₀, hfresh, hreach.tail (a := (e.1, .elsewhere m'.userRooms)) trivial rfl⟩
  · exact ⟨_, hfresh, .refl⟩
  · obtain ⟨s₀, hfresh, hreach⟩ := hm id r hlook
    exact ⟨s₀, hfresh, hreach.tail trivial hstep⟩

end Manager

end UnoppServer
