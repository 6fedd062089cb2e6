import UnoppServer.Accounts.Locks
import UnoppServer.Lib.Deadlock

/-!
# The threads of the program

The two servers, the room manager, `Authorizer` and `ChatHistory` have seven mutexes, and any
number of threads: that of `process_message`, that of `send_message`, those of websocketpp and
httplib, of the rooms for Gomoku, and three that do something every few minutes. What a call
does with the mutexes is here for all of them, with what is done under several at a time.

- `calls_return`: no schedule of the calls in progress goes on forever, and none gets stuck
  before every call has returned.
-/

namespace UnoppServer

open Locks Relation Runs

namespace Program

/-- The mutexes: `action_lock`, `responses_lock`, `rooms_mutex`, those of `Authorizer`, and
`cache_mutex` and `db_mutex` of `ChatHistory`. -/
inductive Mutex where
  | action
  | responses
  | rooms
  | users (m : Authorizer.Mutex)
  | chatCache
  | chatDb
  deriving DecidableEq, Repr

namespace Calls

open Code

/-- Work that may throw. -/
def work : Code Mutex Unit := prepare

/-! ## `ChatHistory` -/

/-- `new_chat_message`. -/
def newChatMessage : Code Mutex Unit := locked .chatCache work

/-- A round of `write_database`, with `n` messages in the cache. -/
def writeDatabase (n : Nat) : Code Mutex Unit :=
  locked .chatCache do
    prepare
    locked .chatDb <| transaction do
      times (do prepare; catching exec (return ()); prepare) n
      return (true, ())

/-- A `SELECT` of at most `n` rows. -/
def select (n : Nat) : Code Mutex Unit := do
  prepare
  rows (fun _ => work) n

/-- `get_chat_message`, with `n` messages in the cache, of at most `k` friends. -/
def getChatMessage (n k : Nat) : Code Mutex Unit := do
  locked .chatCache (times work n)
  locked .chatDb do
    select k
    select k
    times (select 21) k

/-- `get_20_chat_messages`. -/
def get20ChatMessages : Code Mutex Unit := locked .chatDb (select 21)

/-! ## `WsServer` and `RoomManager` -/

/-- `on_open`, `on_close`, `on_message`, and what `process_message` does with the queue. -/
def withActions : Code Mutex Unit := locked .action work

/-- `push_message`. -/
def pushMessage : Code Mutex Unit := locked .responses work

/-- A round of `send_message`: what `send` throws is caught. -/
def sendMessage : Code Mutex Unit := locked .responses (return ())

/-- `RoomManager::process_message`, where `n` messages are sent. -/
def roomMessage (n : Nat) : Code Mutex Unit := do
  work
  locked .rooms do
    times (do work; pushMessage) n
    work

/-- `RoomManager::process_close`. -/
def roomClose (n : Nat) : Code Mutex Unit := locked .rooms (times pushMessage n)

/-- A round of `check_empty_rooms` that erases `n` rooms. -/
def checkEmptyRooms (n : Nat) : Code Mutex Unit := times (locked .rooms work) n

/-- The detached thread of a room for Gomoku. -/
def gomokuUpdate (n : Nat) : Code Mutex Unit := times pushMessage n

end Calls

/-- A call that a thread begins without a mutex. `process_message` and the handlers of
`HttpServer` make several of them, one after the other. -/
inductive Call where
  | users (c : Authorizer.Call)
  | writeCacheToDatabase (n : Nat)
  | newChatMessage
  | writeDatabase (n : Nat)
  | getChatMessage (n k : Nat)
  | get20ChatMessages
  | withActions
  | pushMessage
  | sendMessage
  | roomMessage (n : Nat)
  | roomClose (n : Nat)
  | checkEmptyRooms (n : Nat)
  | gomokuUpdate (n : Nat)
  deriving DecidableEq, Repr

/-- What a thread does in the call. -/
def Call.prog : Call → Prog Mutex
  | .users c => c.prog.map .users
  | .writeCacheToDatabase n => (Authorizer.Calls.writeCacheToDatabase n).run.map .users
  | .newChatMessage => Calls.newChatMessage.run
  | .writeDatabase n => (Calls.writeDatabase n).run
  | .getChatMessage n k => (Calls.getChatMessage n k).run
  | .get20ChatMessages => Calls.get20ChatMessages.run
  | .withActions => Calls.withActions.run
  | .pushMessage => Calls.pushMessage.run
  | .sendMessage => Calls.sendMessage.run
  | .roomMessage n => (Calls.roomMessage n).run
  | .roomClose n => (Calls.roomClose n).run
  | .checkEmptyRooms n => (Calls.checkEmptyRooms n).run
  | .gomokuUpdate n => (Calls.gomokuUpdate n).run

/-- A thread begins one of the calls, or goes on. -/
def Admits : Act Mutex → Prop
  | .call _ p => ∃ c : Call, p = c.prog
  | .go _ _ => True

/-! ## Ranks -/

/-- Which mutexes are locked under others: `responses_lock` under `rooms_mutex`, and one
mutex of `Authorizer` and one of `ChatHistory` under the other. -/
def rank : Mutex → Nat
  | .action | .rooms | .users .db | .chatCache => 0
  | .responses | .users .cache | .chatDb => 1

/-- There are two ranks. -/
theorem rank_lt (m : Mutex) : rank m < 2 := by
  cases m with
  | users m =>
    cases m with
    | db => exact Nat.zero_lt_two
    | cache => exact Nat.one_lt_two
  | action | rooms | chatCache => exact Nat.zero_lt_two
  | responses | chatDb => exact Nat.one_lt_two

/-- Nothing is locked yet. -/
theorem rank_lt_of_empty {M : Type} {rank : M → Nat} {m : M} : ∀ m' ∈ (∅ : Set M), rank m' < rank m :=
  fun _ h => nomatch h

/-- One mutex of a lower rank is locked. -/
theorem rank_lt_of_insert {M : Type} {rank : M → Nat} {m m₀ : M} (h : rank m₀ < rank m) :
    ∀ m' ∈ insert m₀ (∅ : Set M), rank m' < rank m := by
  rintro m' (rfl | hm')
  · exact h
  · cases hm'

end Program

namespace Authorizer

namespace Calls

open Code Program

/-- The ranks of the two mutexes. -/
abbrev rank : Mutex → Nat := Program.rank ∘ .users

section Climbs

variable {held : Set Mutex} {α : Type}

theorem climbs_db {c : Code Mutex α} (hc : c.Climbs rank {.db}) : (c.locked .db).Climbs rank ∅ :=
  .locked rank_lt_of_empty <| by rwa [insert_empty_eq]

theorem climbs_cache {c : Code Mutex α} (hc : c.Climbs rank {.cache}) :
    (c.locked .cache).Climbs rank ∅ :=
  .locked rank_lt_of_empty <| by rwa [insert_empty_eq]

theorem climbs_writes : writes.Climbs rank held :=
  .transaction <| Climbs.prepare.bind fun _ => Climbs.exec.bind fun _ => .pure

/-- Registering locks upwards. -/
theorem climbs_newUser (userName password : String) :
    (newUser userName password).Climbs rank ∅ := by
  unfold newUser
  split
  · exact .pure
  split
  · exact .pure
  refine climbs_db <| Climbs.prepare.bind fun _ => Climbs.executeStep.bind fun row => ?_
  split
  · exact .pure
  · exact climbs_writes.bind fun _ => .pure

/-- Logging in locks upwards. -/
theorem climbs_logIn (password : String) : (logIn password).Climbs rank ∅ := by
  refine .bind (climbs_db <| Climbs.prepare.bind fun _ => Climbs.executeStep.bind fun row => ?_)
    fun refused => ?_
  · cases row with
    | none => exact .pure
    | some columns =>
      dsimp only
      split
      · exact .pure
      · exact .pure
  · cases refused with
    | some result => exact .pure
    | none => exact (climbs_db climbs_writes).bind fun _ => .pure

theorem climbs_logOut : logOut.Climbs rank ∅ := by
  refine climbs_db <| Climbs.prepare.bind fun _ => Climbs.executeStep.bind fun row => ?_
  split
  · exact .pure
  · exact climbs_writes.bind fun _ => .pure

theorem climbs_authorize : authorize.Climbs rank ∅ := by
  refine climbs_db <| Climbs.prepare.bind fun _ => Climbs.executeStep.bind fun row => ?_
  split
  · exact .pure
  · exact .pure

theorem climbs_getIcon : getIcon.Climbs rank ∅ := by
  refine climbs_db <| Climbs.prepare.bind fun _ => Climbs.executeStep.bind fun row => ?_
  split
  · exact Climbs.throws.bind fun _ => .pure
  · exact .pure

theorem climbs_setUserName : setUserName.Climbs rank ∅ := by
  refine climbs_db <| Climbs.prepare.bind fun _ => Climbs.executeStep.bind fun row => ?_
  split
  · exact .pure
  · exact climbs_writes.bind fun _ => .pure

/-- Raising a request locks upwards. -/
theorem climbs_raiseFriendRequest (requesterId requesteeId : Int) :
    (raiseFriendRequest requesterId requesteeId).Climbs rank ∅ := by
  unfold raiseFriendRequest
  split
  · exact .pure
  refine climbs_db <| Climbs.prepare.bind fun _ => Climbs.executeStep.bind fun row => ?_
  split
  · exact .pure
  refine Climbs.prepare.bind fun _ => Climbs.executeStep.bind fun row => ?_
  split
  · exact .pure
  refine Climbs.prepare.bind fun _ => Climbs.executeStep.bind fun row => ?_
  split
  · exact .pure
  exact .transaction <| Climbs.prepare.bind fun _ =>
    (Climbs.catching (Climbs.exec.bind fun _ => .pure) .pure).bind fun _ => .pure

theorem climbs_queryForUserInfo : queryForUserInfo.Climbs rank held :=
  Climbs.prepare.bind fun _ => .exec

theorem climbs_getFriendRequests (n : Nat) : (getFriendRequests n).Climbs rank ∅ :=
  climbs_db <| Climbs.prepare.bind fun _ =>
    .catching ((Climbs.rows (fun _ => climbs_queryForUserInfo) n).bind fun _ => .pure) .pure

theorem climbs_removeFriendRequest : removeFriendRequest.Climbs rank ∅ :=
  climbs_db <| Climbs.prepare.bind fun _ => .catching (.transaction <| Climbs.exec.bind fun _ =>
    Climbs.prepare.bind fun _ => Climbs.exec.bind fun _ => .pure) .pure

theorem climbs_acceptFriendRequest : acceptFriendRequest.Climbs rank ∅ := by
  refine climbs_removeFriendRequest.bind fun result => ?_
  split
  · exact .pure
  refine .catching (climbs_db <| .transaction ?_) .pure
  exact Climbs.prepare.bind fun _ => Climbs.exec.bind fun _ =>
    Climbs.prepare.bind fun _ => Climbs.exec.bind fun _ => .pure

/-- `cache_mutex` under `db_mutex`. -/
theorem climbs_getFriendList (n : Nat) : (getFriendList n).Climbs rank ∅ := by
  refine .locked rank_lt_of_empty <| .locked (rank_lt_of_insert Nat.zero_lt_one) ?_
  exact Climbs.prepare.bind fun _ => .rows (fun _ => climbs_queryForUserInfo) n

theorem climbs_writesPrepared : writesPrepared.Climbs rank ∅ :=
  climbs_db <| Climbs.prepare.bind fun _ =>
    (Climbs.transaction (Climbs.exec.bind fun _ => .pure)).bind fun _ => .pure

theorem climbs_writeCacheToDatabase (n : Nat) : (writeCacheToDatabase n).Climbs rank ∅ := by
  refine climbs_cache <| Climbs.prepare.bind fun _ => .transaction ?_
  refine (Climbs.times (Climbs.prepare.bind fun _ => ?_) n).bind fun _ => .pure
  exact (Climbs.catching .exec .pure).bind fun _ => .prepare

end Climbs

end Calls

/-- Each call locks upwards, from no mutex at all. -/
theorem Call.ascends (c : Call) : c.prog.Ascends Calls.rank ∅ := by
  cases c with
  | newUser userName password => exact (Calls.climbs_newUser userName password).ascends
  | logIn password => exact (Calls.climbs_logIn password).ascends
  | logOut => exact Calls.climbs_logOut.ascends
  | authorize => exact Calls.climbs_authorize.ascends
  | setIcon => exact (Calls.climbs_db (Calls.climbs_writes.bind fun _ => .pure)).ascends
  | getIcon => exact Calls.climbs_getIcon.ascends
  | setUserName => exact Calls.climbs_setUserName.ascends
  | raiseFriendRequest requesterId requesteeId =>
    exact (Calls.climbs_raiseFriendRequest requesterId requesteeId).ascends
  | getFriendRequests n => exact (Calls.climbs_getFriendRequests n).ascends
  | removeFriendRequest => exact Calls.climbs_removeFriendRequest.ascends
  | acceptFriendRequest => exact Calls.climbs_acceptFriendRequest.ascends
  | getFriendList n => exact (Calls.climbs_getFriendList n).ascends
  | getUserInfo => exact (Calls.climbs_db Calls.climbs_queryForUserInfo).ascends
  | setSlogan => exact Calls.climbs_writesPrepared.ascends
  | addOneUnread => exact (Calls.climbs_cache .pure).ascends
  | clearUnread =>
    exact ((Calls.climbs_cache .pure).bind fun _ => Calls.climbs_writesPrepared).ascends

end Authorizer

namespace Program

namespace Calls

open Code

section Climbs

variable {held : Set Mutex} {n k : Nat}

theorem climbs_work : work.Climbs rank held := .prepare

theorem climbs_select : (select n).Climbs rank held :=
  Climbs.prepare.bind fun _ => .rows (fun _ => climbs_work) n

/-- `db_mutex` under `cache_mutex`. -/
theorem climbs_writeDatabase : (writeDatabase n).Climbs rank ∅ := by
  refine .locked rank_lt_of_empty <| Climbs.prepare.bind fun _ =>
    .locked (rank_lt_of_insert Nat.zero_lt_one) <| .transaction ?_
  refine (Climbs.times (Climbs.prepare.bind fun _ => ?_) n).bind fun _ => .pure
  exact (Climbs.catching .exec .pure).bind fun _ => .prepare

theorem climbs_getChatMessage : (getChatMessage n k).Climbs rank ∅ := by
  refine (Climbs.locked rank_lt_of_empty (.times climbs_work n)).bind fun _ =>
    .locked rank_lt_of_empty ?_
  exact climbs_select.bind fun _ => climbs_select.bind fun _ => .times climbs_select k

theorem climbs_pushMessage (h : ∀ m ∈ held, rank m < rank .responses) : pushMessage.Climbs rank held :=
  .locked h climbs_work

/-- `responses_lock` under `rooms_mutex`. -/
theorem climbs_pushMessage_rooms : pushMessage.Climbs rank {.rooms} := by
  refine climbs_pushMessage fun m hm => ?_
  obtain rfl : m = .rooms := hm
  exact Nat.zero_lt_one

theorem climbs_locked_rooms {α : Type} {c : Code Mutex α} (hc : c.Climbs rank {.rooms}) :
    (c.locked .rooms).Climbs rank ∅ :=
  .locked rank_lt_of_empty <| by rwa [insert_empty_eq]

theorem climbs_roomMessage : (roomMessage n).Climbs rank ∅ := by
  refine climbs_work.bind fun _ => climbs_locked_rooms <| .bind ?_ fun _ => climbs_work
  exact .times (climbs_work.bind fun _ => climbs_pushMessage_rooms) n

theorem climbs_roomClose : (roomClose n).Climbs rank ∅ :=
  climbs_locked_rooms <| .times climbs_pushMessage_rooms n

end Climbs

end Calls

/-- **Every call climbs**: it locks a mutex under another one only if the rank is higher. -/
theorem Call.ascends (c : Call) : c.prog.Ascends rank ∅ := by
  have husers {p : Prog Authorizer.Mutex} (hp : p.Ascends (rank ∘ .users) ∅) :
      (p.map Mutex.users).Ascends rank ∅ := by
    have hmap := hp.map fun m m' h => Mutex.users.inj h
    rwa [Set.image_empty] at hmap
  cases c with
  | users c => exact husers c.ascends
  | writeCacheToDatabase n => exact husers (Authorizer.Calls.climbs_writeCacheToDatabase n).ascends
  | writeDatabase n => exact Calls.climbs_writeDatabase.ascends
  | getChatMessage n k => exact Calls.climbs_getChatMessage.ascends
  | get20ChatMessages => exact (Code.Climbs.locked rank_lt_of_empty Calls.climbs_select).ascends
  | newChatMessage | withActions | pushMessage =>
    exact (Code.Climbs.locked rank_lt_of_empty Calls.climbs_work).ascends
  | sendMessage => exact (Code.Climbs.locked rank_lt_of_empty .pure).ascends
  | roomMessage n => exact Calls.climbs_roomMessage.ascends
  | roomClose n => exact Calls.climbs_roomClose.ascends
  | checkEmptyRooms n =>
    exact (Code.Climbs.times (.locked rank_lt_of_empty Calls.climbs_work) n).ascends
  | gomokuUpdate n =>
    exact (Code.Climbs.times (Calls.climbs_pushMessage rank_lt_of_empty) n).ascends

theorem Admits.enters {a : Act Mutex} (h : Admits a) : Crew.Enters rank a := by
  cases a with
  | go => trivial
  | call i p =>
    obtain ⟨c, rfl⟩ := h
    exact c.ascends

/-! ## Runs -/

/-- The recorded steps. -/
abbrev ThreadHistory := List (Entry (Crew Mutex) (Act Mutex) Unit)

/-- The steps `h` of any threads have led from no calls to `s`. -/
abbrev ThreadRun (h : ThreadHistory) (s : Crew Mutex) : Prop :=
  Run Crew.step (fun _ a => Admits a) Crew.idle h s

/-- **The calls return** in every run: from then on the threads can only take finitely many
steps without further calls, in whatever order, and when none can take a step, no call is left
and no mutex is locked. -/
theorem calls_return {h : ThreadHistory} {s : Crew Mutex} (hr : ThreadRun h s) :
    Acc (fun s' s : Crew Mutex => s.Goes s') s ∧
      ∀ s', ReflTransGen Crew.Goes s s' → (∀ s'', ¬ s'.Goes s'') → s' = Crew.idle :=
  Crew.returns_of_run (fun _ => Admits.enters) rank_lt hr

/-- `get_friend_list` has `db_mutex` and waits for `cache_mutex`, which `clear_unread` has. -/
def meeting : List (Act Mutex) :=
  [.call 1 (Call.prog (.users (.getFriendList 1))), .call 2 (Call.prog (.users .clearUnread)),
    .go 1 .done, .go 2 .done]

/-- Two calls that wait for one mutex both return. -/
theorem calls_return_meeting : ∃ h s, ThreadRun h s ∧ h.map Entry.act = meeting ∧
    Acc (fun s' s : Crew Mutex => s.Goes s') s ∧
      ∀ s', ReflTransGen Crew.Goes s s' → (∀ s'', ¬ s'.Goes s'') → s' = Crew.idle := by
  have hok : ∀ s : Crew Mutex, ∀ a ∈ meeting, Admits a := by
    simp only [meeting, List.forall_mem_cons, Admits, true_and]
    exact fun _ => ⟨⟨_, rfl⟩, ⟨_, rfl⟩, fun _ ha => absurd ha List.not_mem_nil⟩
  have he : execTo Crew.step Crew.idle meeting (fun s => s.owner (.users .db) == some 1 &&
      s.owner (.users .cache) == some 2) = true := by decide
  obtain ⟨s, hexec, -⟩ := exists_of_execTo he
  obtain ⟨h, hr, hacts⟩ := exists_run_of_exec hok hexec
  exact ⟨h, s, hr, hacts, calls_return hr⟩

end Program

end UnoppServer
