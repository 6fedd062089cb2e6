import UnoppServer.Lib.Runs
import UnoppServer.Room.GomokuRoom
import UnoppServer.Room.SplendorRoom
import UnoppServer.Room.UnoRoom

/-!
# Rooms: the room manager

`Room.receive` is the virtual `process_message`: each derived class handles the
messages of its game and leaves the others to the base class, and sends the
state of a running game to whoever joins. `Manager` is the class `RoomManager`
with the static map of `Room`.

The manager takes four kinds of events (`Event`): a message, a closed
connection, a visit of `check_empty_rooms` to one room, and a detached Gomoku
thread that runs. Each is handled as a whole.
-/

namespace UnoppServer

open Assoc FindIf

/-! ## Virtual functions -/

namespace Room

/-- `message_type.substr(0, n) == start`, for a start of length `n`. -/
def beginsWith (start messageType : String) : Bool :=
  messageType.toList.take start.toList.length == start.toList

/-- `on_everyone_prepared`. -/
def onEveryonePrepared (env : Env) (r : Room) : Except Fault (Outbox × Room) :=
  match r.game with
  | .uno _ => r.startUno env
  | .splendor _ => .ok (r.startSplendor env)
  | .gomoku g colors updates => .ok (r.startGomoku env g colors updates)

/-- Whether the derived class handles a message itself. -/
def isGameMessage (r : Room) (messageType : String) : Bool :=
  match r.game with
  | .uno _ => beginsWith "UNO" messageType
  | .splendor _ => beginsWith "SPLENDOR" messageType
  | .gomoku .. => messageType == "GOMOKU_DROP"

/-- The messages that the derived class handles itself. -/
def gameMessage (env : Env) (r : Room) (c : Caller) (messageType : String) (payload : Json) :
    Except Fault (Outbox × Room) :=
  match r.game with
  | .uno unoGame => r.unoMessage env unoGame c messageType payload
  | .splendor game => r.splendorMessage env game c messageType payload
  | .gomoku g colors updates => r.gomokuDrop env g colors updates c payload

/-- The state of the game, as the derived classes send it after a `JOIN_ROOM`. -/
def sendState (env : Env) (r : Room) : Except Fault Outbox :=
  match r.game with
  | .uno unoGame => onUno unoGame (r.sendUno env)
  | .splendor (some g) => .ok (r.sendSplendorInfo env g)
  | .splendor none => .error .nullPointer
  | .gomoku g colors _ => .ok (r.sendGomokuInfo env g colors)

/-- Whether the state of the game is sent after a message. -/
def sendsState (r : Room) (c : Caller) (messageType : String) : Bool :=
  messageType == "JOIN_ROOM" && r.isGameOn && (r.connections.lookup c.connId).isSome

/-- `process_message` of the derived classes. -/
def receive (env : Env) (userRooms : UserRooms) (r : Room) (c : Caller) (messageType : String)
    (payload : Json) : Except Fault (Outbox × UserRooms × Room) :=
  -- no membership check comes before the messages of a game
  if r.isGameMessage messageType then do
    let (out, r) ← r.gameMessage env c messageType payload
    return (out, userRooms, r)
  else do
    let (out, userRooms, r) ←
      r.processMessage env (onEveryonePrepared env) userRooms c messageType payload
    if r.sendsState c messageType then
      let state ← r.sendState env
      return (out ++ state, userRooms, r)
    else return (out, userRooms, r)

end Room

/-! ## The manager -/

/-- The class `RoomManager`, with `Room::user_2_room_id`. -/
structure Manager where
  rooms : Map Nat Room
  userRooms : UserRooms

namespace Manager

/-- No room, and nobody in one. -/
def new : Manager := ⟨∅, fun _ => none⟩

/-- The members of a new room of a type. -/
def newSlot (roomType : String) : Option GameSlot :=
  if roomType = "UNO" then some (.uno none)
  else if roomType = "SPLENDOR" then some (.splendor none)
  else if roomType = "GOMOKU" then some (.gomoku Gomoku.new ((0, false), (0, false)) 0)
  else none

/-- The answer to a `CREATE_ROOM`. -/
def createRoomRes (c : Caller) (rest : List (String × Json)) : Outbox :=
  [(c.connId, .obj ([("message_type", .str "CREATE_ROOM_RES")] ++ rest))]

/-- `CREATE_ROOM`. The answer is a success for any type of room. -/
def createRoom (m : Manager) (c : Caller) (payload : Json) : Except Fault (Outbox × Manager) := do
  let roomId ← (← payload.get "room_id").asUInt
  let roomType ← (← payload.get "room_type").asString
  if (m.rooms.lookup roomId).isSome then
    return (createRoomRes c [("success", .bool false),
      ("info", .str ("Room " ++ toString roomId ++ " already exists."))], m)
  match newSlot roomType with
  -- no room is made, and the client is told that one was
  | none => return (createRoomRes c [("success", .bool true)], m)
  | some slot =>
    let name ← (← payload.get "room_name").asString
    let password ← (← payload.get "password").asString
    let room := Room.new roomId c.userName c.userId name password slot
    return (createRoomRes c [("success", .bool true)],
      { m with rooms := m.rooms.insert roomId room })

/-- `GET_ROOM_LIST`. -/
def getRoomList (env : Env) (m : Manager) (c : Caller) : Outbox :=
  [(c.connId, .obj [("message_type", .str "ROOM_LIST"),
    ("room_list", .arr ((ranked env.order m.rooms).map fun e =>
      .obj [("name", .str e.2.name), ("id", .uint e.2.id), ("creator", .str e.2.creator),
        ("num_of_people", .int e.2.connections.entries.length), ("type", .str e.2.getType)]))])]

/-- The room that a message goes to. -/
def target (m : Manager) (c : Caller) (messageType : String) (payload : Json) :
    Except Fault Nat :=
  if messageType = "JOIN_ROOM" then do (← payload.get "room_id").asUInt
  -- room 0 for a user who is in none
  else .ok (Room.getUsersRoomId m.userRooms c.userId)

/-- A message handed to a room. -/
def deliver (env : Env) (m : Manager) (roomId : Nat) (c : Caller) (messageType : String)
    (payload : Json) : Except Fault (Outbox × Manager) :=
  match m.rooms.lookup roomId with
  | some r => do
    let (out, userRooms, r) ← r.receive env m.userRooms c messageType payload
    return (out, ⟨m.rooms.insert roomId r, userRooms⟩)
  | none => .ok ([(c.connId, .obj [("message_type", .str "ERROR"),
      ("info", .str "ROOM_DONOT_EXIST")])], m)

/-- `RoomManager::process_message`. -/
def processMessage (env : Env) (m : Manager) (c : Caller) (messageType : String)
    (payload : Json) : Except Fault (Outbox × Manager) :=
  if messageType = "CREATE_ROOM" then m.createRoom c payload
  else if messageType = "GET_ROOM_LIST" then .ok (m.getRoomList env c, m)
  else do
    let roomId ← m.target c messageType payload
    m.deliver env roomId c messageType payload

/-- `rooms.erase(room_id)`, with the destructor of the room. -/
def eraseRoom (m : Manager) (roomId : Nat) (r : Room) : Manager :=
  ⟨m.rooms.erase roomId, r.destroy m.userRooms⟩

/-- `RoomManager::process_close`. -/
def processClose (env : Env) (m : Manager) (connId : Nat) (userId : Int) : Outbox × Manager :=
  let roomId := Room.getUsersRoomId m.userRooms userId
  match m.rooms.lookup roomId with
  | none => ([], m)
  | some r =>
    let (out, userRooms, r) := r.processClose env m.userRooms connId
    let m : Manager := ⟨m.rooms.insert roomId r, userRooms⟩
    -- a room with a game is left to `check_empty_rooms`
    (out, if r.haveNoOneOnline ∧ r.isGameOn = false then m.eraseRoom roomId r else m)

/-- What `check_empty_rooms` does with one room. -/
def visit (m : Manager) (roomId : Nat) : Manager :=
  match m.rooms.lookup roomId with
  | some r => if r.haveNoOneOnline then m.eraseRoom roomId r else m
  | none => m

/-- A detached thread of a Gomoku room runs. -/
def runUpdate (env : Env) (m : Manager) (roomId : Nat) : Outbox × Manager :=
  match m.rooms.lookup roomId with
  | none => ([], m)
  | some r =>
    match r.game with
    | .gomoku g colors (updates + 1) =>
      let (out, r) := r.gomokuUpdate env g colors updates
      (out, { m with rooms := m.rooms.insert roomId r })
    | _ => ([], m)

end Manager

/-- What can happen to the manager. -/
inductive Event where
  | message (c : Caller) (messageType : String) (payload : Json)
  | close (connId : Nat) (userId : Int)
  | visit (roomId : Nat)
  | update (roomId : Nat)

/-- Handle an event. -/
def Manager.step (m : Manager) (e : Env × Event) : Except Fault (Outbox × Manager) :=
  match e.2 with
  | .message c messageType payload => m.processMessage e.1 c messageType payload
  | .close connId userId => .ok (m.processClose e.1 connId userId)
  | .visit roomId => .ok ([], m.visit roomId)
  | .update roomId => .ok (m.runUpdate e.1 roomId)

end UnoppServer
