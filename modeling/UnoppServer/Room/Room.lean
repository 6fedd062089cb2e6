import Mathlib.Logic.Function.Basic
import UnoppServer.Gomoku.Game
import UnoppServer.Lib.Assoc
import UnoppServer.Splendor.Game
import UnoppServer.Uno.Game

/-!
# Rooms: the base class

`Room` is the class of `Room.hpp` together with the members of the derived
class (`GameSlot`), which decide what its virtual functions do. The base class
handles `JOIN_ROOM`, `CHAT_MESSAGE`, `GAME_PREPARE` and closed connections; it
calls `on_everyone_prepared`, which is a parameter here.

`user_2_room_id` is a static member: the handlers take it and return it. What a
handler sends is a list of pairs of a connection id and a message.
-/

namespace UnoppServer

open Assoc FindIf

/-- What is decided outside the program while a message is handled: the results of
`rand()`, the iteration orders of the unordered maps, and the random numbers of
the Gomoku evaluation. -/
structure Env where
  draw : Nat → Nat
  order : Nat → Nat
  playerOrder : Int → Nat
  noise : Nat → Nat → Nat

/-- `struct UserInfo`. -/
structure UserInfo where
  userName : String
  userId : Int
  offline : Bool
  prepared : Bool
  deriving DecidableEq, Repr

/-- `connections`, by connection id. -/
abbrev Connections := Map Nat UserInfo

/-- `user_2_room_id`. -/
abbrev UserRooms := Int → Option Nat

/-- The messages sent: connection ids and contents. -/
abbrev Outbox := List (Nat × Json)

/-- Where a message comes from. -/
structure Caller where
  connId : Nat
  userName : String
  userId : Int
  deriving DecidableEq, Repr

/-- The members that the derived classes add. A Gomoku room also has the detached
threads that `GOMOKU_DROP` has started and that have not run yet. -/
inductive GameSlot where
  | uno (unoGame : Option Uno)
  | splendor (game : Option Splendor.Game)
  | gomoku (game : Gomoku) (userIdToIsBlack : (Int × Bool) × (Int × Bool)) (updates : Nat)

/-- The class `Room`. -/
structure Room where
  id : Nat
  creator : String
  name : String
  password : String
  authorizedUserId : List Int
  connections : Connections
  isGameOn : Bool
  game : GameSlot

namespace Room

/-- The constructor of a derived class, given its own members. -/
def new (id : Nat) (creator : String) (creatorId : Int) (name password : String)
    (game : GameSlot) : Room :=
  ⟨id, creator, name, password, [creatorId], ∅, false, game⟩

/-- `get_type`. -/
def getType (r : Room) : String :=
  match r.game with
  | .uno _ => "UNO"
  | .splendor _ => "SPLENDOR"
  | .gomoku .. => "GOMOKU"

/-- `connections`, in iteration order. -/
def members (env : Env) (r : Room) : List (Nat × UserInfo) := ranked env.order r.connections

/-- `user_id_to_user_name`. -/
def userIdToUserName (env : Env) (r : Room) (id : Int) : String :=
  match findIf (fun p : Nat × UserInfo => p.2.userId == id) (r.members env) with
  | some (_, p) => p.2.userName
  | none => ""

/-- `broadcast` of a message with the given members. -/
def broadcast (env : Env) (r : Room) (payload : List (String × Json)) (messageType : String) :
    Outbox :=
  (r.members env).map fun p =>
    (p.1, .obj (Json.upsert payload "message_type" (.str messageType)))

/-- One entry of `get_room_members_info`. -/
def UserInfo.toJson (u : UserInfo) : Json :=
  .obj [("name", .str u.userName), ("id", .int u.userId), ("prepared", .bool u.prepared),
    ("offline", .bool u.offline)]

/-- `get_room_members_info`. -/
def getRoomMembersInfo (env : Env) (r : Room) : List (String × Json) :=
  [("members", .arr ((r.members env).map fun p => UserInfo.toJson p.2))]

/-- `broadcast(get_room_members_info(), "ROOM_MEMBERS_INFO")`. -/
def broadcastMembersInfo (env : Env) (r : Room) : Outbox :=
  r.broadcast env (r.getRoomMembersInfo env) "ROOM_MEMBERS_INFO"

/-- `have_no_one_online`. -/
def haveNoOneOnline (r : Room) : Bool := r.connections.entries.all fun e => e.2.offline

/-- `get_users_room_id`. -/
def getUsersRoomId (userRooms : UserRooms) (userId : Int) : Nat := (userRooms userId).getD 0

/-- `~Room`. -/
def destroy (r : Room) (userRooms : UserRooms) : UserRooms :=
  r.connections.entries.foldl (fun m e => Function.update m e.2.userId none) userRooms

/-! ## Joining -/

/-- `old_conn_id`: while a game is on, the connection of a member with the caller's
name. -/
def oldConnId (env : Env) (r : Room) (userName : String) : Option Nat :=
  if r.isGameOn then
    (findIf (fun p : Nat × UserInfo => p.2.userName == userName) (r.members env)).map fun q => q.2.1
  else none

/-- The answer to a `JOIN_ROOM` that fails. -/
def joinFailed (c : Caller) (info : String) : Outbox :=
  [(c.connId, .obj [("message_type", .str "JOIN_ROOM_RES"), ("success", .bool false),
    ("info", .str info)])]

/-- `!no_password && payload["password"].asString() != password`. -/
def passwordIncorrect (r : Room) (noPassword : Bool) (payload : Json) : Except Fault Bool :=
  if noPassword then .ok false
  else do
    let password ← (← payload.get "password").asString
    return decide (password ≠ r.password)

/-- The room after a successful `JOIN_ROOM`. -/
def enter (r : Room) (c : Caller) (old : Option Nat) : Room :=
  let connections := match old with
    | some connId => r.connections.erase connId
    | none => r.connections
  { r with
    connections := connections.insert c.connId ⟨c.userName, c.userId, false, false⟩
    authorizedUserId := r.authorizedUserId.insert c.userId }

/-- The messages of a successful `JOIN_ROOM`. -/
def joinSucceeded (env : Env) (r r' : Room) (c : Caller) (old : Option Nat) : Outbox :=
  (if old = none then r.broadcast env [("user_name", .str c.userName)] "NEW_MEMBER" else []) ++
  [(c.connId, .obj [("message_type", .str "JOIN_ROOM_RES"), ("success", .bool true),
    ("room_type", .str r.getType)])] ++
  r'.broadcastMembersInfo env

/-- `JOIN_ROOM`. -/
def joinRoom (env : Env) (userRooms : UserRooms) (r : Room) (c : Caller) (payload : Json) :
    Except Fault (Outbox × UserRooms × Room) := do
  let old := r.oldConnId env c.userName
  -- only those who were in the room when the game began can come back
  if r.isGameOn = true ∧ old = none then
    return (joinFailed c
      "There is a game on in this room, please wait until the game overs.", userRooms, r)
  if (userRooms c.userId).isSome = true ∧ old = none then
    return (joinFailed c ("You have already joined room " ++
      toString (getUsersRoomId userRooms c.userId)), userRooms, r)
  let noPassword ← (← payload.get "no_password").asBool
  let incorrect ← r.passwordIncorrect noPassword payload
  if incorrect then return (joinFailed c "Password incorrect.", userRooms, r)
  if noPassword = true ∧ c.userId ∉ r.authorizedUserId then
    return (joinFailed c "Need Password", userRooms, r)
  let r' := r.enter c old
  return (joinSucceeded env r r' c old, Function.update userRooms c.userId (some r.id), r')

/-! ## The other messages of the base class -/

/-- `CHAT_MESSAGE`. -/
def chatMessage (env : Env) (r : Room) (c : Caller) (payload : Json) : Except Fault Outbox := do
  let message ← (← payload.get "message").set "user_name" (.str c.userName)
  let message ← message.set "user_id" (.int c.userId)
  -- the client's other members are sent on as they are
  let res ← payload.set "message" message
  let res ← res.set "message_type" (.str "CHAT_MESSAGE")
  return (r.members env).map fun p => (p.1, res)

/-- Set `prepared` of one connection. -/
def setPrepared (r : Room) (connId : Nat) (info : UserInfo) (prepared : Bool) : Room :=
  { r with connections := r.connections.insert connId { info with prepared := prepared } }

/-- `everyone_prepared`. -/
def everyonePrepared (r : Room) : Bool := r.connections.entries.all fun e => e.2.prepared

/-- `GAME_PREPARE`, from a connection of the room. -/
def gamePrepare (env : Env) (onEveryonePrepared : Room → Except Fault (Outbox × Room)) (r : Room)
    (connId : Nat) (info : UserInfo) (payload : Json) : Except Fault (Outbox × Room) := do
  let prepared ← (← payload.get "prepare").asBool
  let r := r.setPrepared connId info prepared
  let out := r.broadcastMembersInfo env
  if r.everyonePrepared then
    let (out', r) ← onEveryonePrepared r
    return (out ++ out', r)
  else return (out, r)

/-- `Room::process_message`. -/
def processMessage (env : Env) (onEveryonePrepared : Room → Except Fault (Outbox × Room))
    (userRooms : UserRooms) (r : Room) (c : Caller) (messageType : String) (payload : Json) :
    Except Fault (Outbox × UserRooms × Room) :=
  if messageType = "JOIN_ROOM" then r.joinRoom env userRooms c payload
  else
    match r.connections.lookup c.connId with
    | none => .ok ([(c.connId, .obj [("success", .bool false),
        ("info", .str "Please join the room first.")])], userRooms, r)
    | some info =>
      -- a message of no known type is ignored
      if messageType = "CHAT_MESSAGE" then do
        let out ← r.chatMessage env c payload
        return (out, userRooms, r)
      else if messageType = "GAME_PREPARE" then do
        let (out, r) ← r.gamePrepare env onEveryonePrepared c.connId info payload
        return (out, userRooms, r)
      else .ok ([], userRooms, r)

/-- `process_close`. -/
def processClose (env : Env) (userRooms : UserRooms) (r : Room) (connId : Nat) :
    Outbox × UserRooms × Room :=
  match r.connections.lookup connId with
  | none => (r.broadcastMembersInfo env, userRooms, r)
  | some info =>
    -- during a game the seat is kept
    if r.isGameOn then
      let r := { r with connections := r.connections.insert connId { info with offline := true } }
      (r.broadcastMembersInfo env, userRooms, r)
    else
      let leaves := r.broadcast env
        [("user_name", .str info.userName), ("user_id", .int info.userId)] "MEMBER_LEAVES"
      let r' := { r with connections := r.connections.erase connId }
      (leaves ++ r'.broadcastMembersInfo env, Function.update userRooms info.userId none, r')

/-- `p.second.prepared = false` for all connections. -/
def clearPrepared (r : Room) : Room :=
  { r with connections := mapValues (fun u => { u with prepared := false }) r.connections }

end Room

end UnoppServer
