import Mathlib.Data.Prod.Lex
import UnoppServer.Json.Value
import UnoppServer.Lib.FindIf
import UnoppServer.Lib.Paging

/-!
# Chat history

`ChatHistory` is the class of `ChatHistory.hpp` with the table of `setup_chat.sql`. New
messages go to the cache, which `write_database` moves to the table every ten minutes.

A text is parsed by `Json::Reader`, which is a parameter. `ORDER BY timestamp DESC` yields
rows with equal timestamps in an order of SQLite's choice, and an `unordered_multimap` the
entries of one key in an order of its own: both are parameters too.
-/

namespace UnoppServer

open FindIf Paging

/-- `ChatMessage`. -/
structure ChatMessage where
  senderId : Int
  receiverId : Int
  message : String
  timestamp : Int
  deriving DecidableEq, Repr

/-- A row of `chat`. -/
structure ChatRow extends ChatMessage where
  id : Nat
  deriving DecidableEq, Repr

/-- The class `ChatHistory`. An entry of `index` is a user and a position in `cache`. -/
structure ChatHistory where
  chat : List ChatRow
  cache : List ChatMessage
  index : List (Int × Nat)

namespace ChatHistory

/-- An empty table, and nothing in the cache. -/
def new : ChatHistory := ⟨[], [], []⟩

/-- `new_chat_message`, at the time `now`. -/
def newChatMessage (s : ChatHistory) (senderId receiverId : Int) (message : String) (now : Int) :
    ChatHistory :=
  { s with
    cache := s.cache ++ [⟨senderId, receiverId, message, now⟩]
    index := s.index ++ [(senderId, s.cache.length), (receiverId, s.cache.length)] }

/-- `INSERT INTO chat`. No row is ever deleted, so `AUTOINCREMENT` counts the rows. -/
def insertChat (chat : List ChatRow) (m : ChatMessage) : List ChatRow :=
  chat ++ [⟨m, chat.length + 1⟩]

/-- A round of `write_database`. The last message is inserted first; `fails` says which of
the insertions throw. -/
def writeDatabase (s : ChatHistory) (fails : Nat → Bool) : ChatHistory where
  -- an exception is caught, and the message is lost
  chat := s.cache.reverse.zipIdx.foldl
    (fun chat p => if fails p.2 then chat else insertChat chat p.1) s.chat
  cache := []
  index := []

/-- The order of the rows of a `SELECT`: descending timestamps, then `tie`. -/
def rowKey (tie : ChatRow → Nat) (r : ChatRow) : ℤ ×ₗ ℕ ×ₗ ℕ :=
  toLex (-r.timestamp, toLex (tie r, r.id))

/-- The messages between two users that are older than `latestTimestamp`. -/
def between (chat : List ChatRow) (userId friendId latestTimestamp : Int) : List ChatRow :=
  chat.filter fun r =>
    ((r.senderId = userId ∧ r.receiverId = friendId) ∨
      (r.receiverId = userId ∧ r.senderId = friendId)) ∧ r.timestamp < latestTimestamp

/-- `SELECT ... FROM chat WHERE ... AND timestamp<? ORDER BY timestamp DESC`. -/
def selectChat (tie : ChatRow → Nat) (chat : List ChatRow)
    (userId friendId latestTimestamp : Int) : List ChatRow :=
  sortBy (rowKey tie) (between chat userId friendId latestTimestamp)

/-- The item that stands for a message. -/
def messageItem (parse : String → Json) (m : ChatMessage) : Except Fault Json :=
  (parse m.message).set "timestamp" (.int m.timestamp)

/-- `res[std::to_string(friend_id)].append(item)`. -/
def appendMessage (parse : String → Json) (userId : Int) (res : Json) (m : ChatMessage) :
    Except Fault Json := do
  let item ← messageItem parse m
  let friendId := if m.senderId = userId then m.receiverId else m.senderId
  let items ← res.get (toString friendId)
  res.set (toString friendId) (← items.append item)

/-- The section of `get_chat_message` under `cache_mutex`. -/
def cacheSection (parse : String → Json) (order : Nat → Nat) (s : ChatHistory)
    (userId latestTimestamp : Int) : Except Fault Json :=
  (hashOrder order Prod.snd (s.index.filter fun e => e.1 = userId)).foldlM
    (fun res e =>
      match s.cache[e.2]? with
      | none => .error .outOfBounds
      | some m =>
        if m.timestamp < latestTimestamp then appendMessage parse userId res m else .ok res)
    (.obj [])

/-- The users with whom a user has messages in the table, a `std::set`. -/
def friendIds (chat : List ChatRow) (userId : Int) : List Int :=
  sortBy id (((chat.filter fun r => r.senderId = userId).map fun r => r.receiverId) ++
    (chat.filter fun r => r.receiverId = userId).map fun r => r.senderId).dedup

/-- The section of `get_chat_message` under `db_mutex`. -/
def databaseSection (parse : String → Json) (tie : ChatRow → Nat) (chat : List ChatRow)
    (userId latestTimestamp : Int) (res : Json) : Except Fault Json :=
  (friendIds chat userId).foldlM
    (fun res friendId =>
      ((selectChat tie chat userId friendId latestTimestamp).take 20).foldlM
        (fun res r => appendMessage parse userId res r.toChatMessage) res)
    res

/-- `get_chat_message`: the cache as it is in the first section, the table as it is in the
second one. -/
def getChatMessage (parse : String → Json) (order : Nat → Nat) (tie : ChatRow → Nat)
    (s s' : ChatHistory) (userId latestTimestamp : Int) : Except Fault Json := do
  let res ← cacheSection parse order s userId latestTimestamp
  databaseSection parse tie s'.chat userId latestTimestamp res

/-- `get_20_chat_messages`, as the items of the array. -/
def get20ChatMessages (parse : String → Json) (tie : ChatRow → Nat) (chat : List ChatRow)
    (userId friendId latestTimestamp : Int) : Except Fault (List Json) :=
  ((selectChat tie chat userId friendId latestTimestamp).take 20).mapM
    fun r => messageItem parse r.toChatMessage

/-- What changes the history: a message at some time, or a round of `write_database`. -/
inductive Op where
  | newChatMessage (senderId receiverId : Int) (message : String) (now : Int)
  | writeDatabase (fails : Nat → Bool)

/-- Perform an operation. -/
def step (s : ChatHistory) : Op → Except Fault (Unit × ChatHistory)
  | .newChatMessage senderId receiverId message now =>
    .ok ((), s.newChatMessage senderId receiverId message now)
  | .writeDatabase fails => .ok ((), s.writeDatabase fails)

end ChatHistory

end UnoppServer
