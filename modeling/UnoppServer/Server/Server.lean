import UnoppServer.Room.Manager

/-!
# The server

`WsServer` is the class of `WsServer.hpp`: the connections by handle, the two
indexes over them, and the room manager. `process_message` takes one action
after the other from a queue; `WsServer.step` is one round of its loop, and also
what the other threads do to the rooms (`Action.visit`, `Action.update`).

The components that are not modelled are parameters. The parser of JSON texts is
`parse`: it may throw, fail or yield a value. A `World` says what the database
and the clock answer while an action is processed. What the server does to the
outside is recorded as a list of `Effect`s.
-/

namespace UnoppServer

open Assoc FindIf

/-- A `connection_hdl`, which is a weak pointer: that of a connection, or an empty one. -/
inductive Hdl where
  | empty
  | conn (n : Nat)
  deriving DecidableEq, Repr

instance (n : Nat) : OfNat Hdl n := ⟨.conn n⟩

/-- `struct Connection`. -/
structure Connection where
  userId : Int
  userName : String
  connId : Nat
  deriving DecidableEq, Repr

/-- What is decided outside the server while an action is processed:
`authorize` yields the id and the name of a user with the session, `clear_unread`
writes to the database, and both may throw. -/
structure World where
  env : Env
  authorize : Nat → Except Fault (Option (Int × String))
  clearUnread : Int → Int → Except Fault Unit
  timestamp : Int

/-- What an action does outside the indexes and the rooms. -/
inductive Effect where
  | send (hdl : Hdl) (payload : Json)
  | pushMessage (connId : Nat) (payload : Json)
  | newChatMessage (senderId receiverId : Int) (message : Json)
  | addOneUnread (userId friendId : Int)

/-- The elements of the queue `actions`, and the work of other threads. -/
inductive Action where
  | subscribe (hdl : Hdl)
  | unsubscribe (hdl : Hdl)
  | message (hdl : Hdl) (text : String)
  | visit (roomId : Nat)
  | update (roomId : Nat)

/-- The class `WsServer`. `connId` is the static counter of `process_message`. -/
structure WsServer where
  connections : Map Hdl Connection
  connId2Hdl : Map Nat Hdl
  userId2ConnId : List (Int × Nat)
  connId : Nat
  roomManager : Manager

namespace WsServer

/-- The server before the first action. -/
def new : WsServer := ⟨∅, ∅, [], 0, .new⟩

/-- `++conn_id` wraps around. -/
def nextConnId (s : WsServer) : Nat := (s.connId + 1) % 2 ^ 32

/-- The conversion of an `unsigned` to an `int`. -/
def toInt (n : Nat) : Int := if n < 2 ^ 31 then n else (n : Int) - 2 ^ 32

/-- `push_message` for all messages of a room. -/
def push (out : Outbox) : List Effect := out.map fun p => .pushMessage p.1 p.2

/-- The connections of a user, in the order of `equal_range`. -/
def recipients (env : Env) (s : WsServer) (userId : Int) : List Nat :=
  (hashOrder env.order Prod.snd (s.userId2ConnId.filter fun p => p.1 = userId)).map Prod.snd

/-- `WHISPER_MESSAGE`. -/
def whisper (w : World) (s : WsServer) (hdl : Hdl) (conn : Connection) (msg : Json) :
    Except Fault (List Effect) := do
  let msg ← msg.touch "receiver_id"
  -- neither these conversions nor those below are guarded
  let receiverId ← (← msg.get "receiver_id").asInt
  let message ← (← msg.get "message").set "user_name" (.str conn.userName)
  let message ← message.set "user_id" (.int conn.userId)
  let message ← message.set "timestamp" (.int w.timestamp)
  let msg ← msg.set "message" message
  return [.newChatMessage conn.userId receiverId message, .addOneUnread receiverId conn.userId,
    .send hdl msg] ++ (s.recipients w.env receiverId).map fun connId => .pushMessage connId msg

/-- A message from an authorized connection. -/
def authorizedMessage (w : World) (s : WsServer) (hdl : Hdl) (conn : Connection)
    (messageType : String) (msg : Json) : Except Fault (List Effect × WsServer) :=
  if messageType = "WHISPER_MESSAGE" then do
    let effects ← s.whisper w hdl conn msg
    return (effects, s)
  else if messageType = "READ_WHISPER_MESSAGES" then do
    let friendId ← (← msg.get "friend_id").asInt
    w.clearUnread conn.userId friendId
    return ([], s)
  else do
    let (out, roomManager) ← s.roomManager.processMessage w.env
      ⟨conn.connId, conn.userName, conn.userId⟩ messageType msg
    return (push out, { s with roomManager := roomManager })

/-- The connection of a user who has logged in. -/
def logIn (s : WsServer) (hdl : Hdl) (userId : Int) (userName : String) : WsServer :=
  { s with
    connections := s.connections.insert hdl ⟨userId, userName, s.nextConnId⟩
    connId2Hdl := s.connId2Hdl.insert s.nextConnId hdl
    userId2ConnId := s.userId2ConnId ++ [(userId, s.nextConnId)]
    connId := s.nextConnId }

/-- The answer to an `AUTHORIZE`. -/
def authorizeRes (hdl : Hdl) (rest : List (String × Json)) : List Effect :=
  [.send hdl (.obj ([("message_type", .str "AUTHORIZE_RES")] ++ rest))]

/-- A message from a connection that is not authorized. -/
def unauthorizedMessage (w : World) (s : WsServer) (hdl : Hdl) (messageType : String)
    (msg : Json) : Except Fault (List Effect × WsServer) :=
  if messageType ≠ "AUTHORIZE" then
    .ok ([.send hdl (.obj [("message_type", .str "PLEASE_LOG_IN")])], s)
  else do
    let sessdata ← (← msg.get "sessdata").asUInt
    -- a user may log in on any number of connections
    match ← w.authorize sessdata with
    | some (id, userName) =>
      return (authorizeRes hdl [("success", .bool true), ("id", .int id),
        ("user_name", .str userName)], s.logIn hdl id userName)
    | none => return (authorizeRes hdl [("success", .bool false)], s)

/-- A message with a `message_type`. -/
def typedMessage (w : World) (s : WsServer) (hdl : Hdl) (msg : Json) :
    Except Fault (List Effect × WsServer) := do
  let messageType ← (← msg.get "message_type").asString
  match s.connections.lookup hdl with
  | some conn => s.authorizedMessage w hdl conn messageType msg
  | none => s.unauthorizedMessage w hdl messageType msg

/-- A parsed text, if it could be parsed. -/
def parsedMessage (w : World) (s : WsServer) (hdl : Hdl) (parsed : Option Json) :
    Except Fault (List Effect × WsServer) :=
  match parsed with
  | none => .ok ([], s)
  | some msg => do
    -- the root of the text may be an array or a number
    if ← msg.isMember "message_type" then s.typedMessage w hdl msg else .ok ([], s)

/-- `UNSUBSCRIBE`. The entries of the multimap are erased by key, and the key given
is the connection id. -/
def unsubscribe (w : World) (s : WsServer) (hdl : Hdl) : List Effect × WsServer :=
  match s.connections.lookup hdl with
  | none => ([], s)
  | some conn =>
    let (out, roomManager) := s.roomManager.processClose w.env conn.connId conn.userId
    (push out,
      { s with
        connections := s.connections.erase hdl
        connId2Hdl := s.connId2Hdl.erase conn.connId
        -- the connection id stands where a user id belongs
        userId2ConnId := s.userId2ConnId.filter fun p => p.1 ≠ toInt conn.connId
        roomManager := roomManager })

section Step

variable (parse : String → Except Fault (Option Json))

/-- `MESSAGE`. -/
def message (w : World) (s : WsServer) (hdl : Hdl) (text : String) :
    Except Fault (List Effect × WsServer) := do
  let parsed ← parse text
  s.parsedMessage w hdl parsed

/-- Process an action. -/
def step (s : WsServer) (a : World × Action) : Except Fault (List Effect × WsServer) :=
  match a.2 with
  | .subscribe _ => .ok ([], s)
  | .unsubscribe hdl => .ok (s.unsubscribe a.1 hdl)
  | .message hdl text => s.message parse a.1 hdl text
  | .visit roomId => .ok ([], { s with roomManager := s.roomManager.visit roomId })
  | .update roomId =>
    let (out, roomManager) := s.roomManager.runUpdate a.1.env roomId
    .ok (push out, { s with roomManager := roomManager })

end Step

end WsServer

end UnoppServer
