import UnoppServer.Accounts.Authorizer
import UnoppServer.Lib.Locks

/-!
# Accounts: the mutexes

The functions of `Authorizer` once more, as what they do with the two mutexes and with the
connection to the database, which answers whatever it likes. Every request is handled by a
thread of its own. `write_cache_to_database` is the only function that begins a transaction
without `db_mutex`.

- `alone_of_keepsOff`: transactions do not meet in the runs in which
  `write_cache_to_database` and the threads that have `db_mutex` keep off each other.
-/

namespace UnoppServer

open Locks Runs

namespace Authorizer

/-- `db_mutex` and `cache_mutex`. -/
inductive Mutex where
  | db
  | cache
  deriving DecidableEq, Repr

namespace Calls

open Code

/-- One statement in a transaction. -/
def writes : Code Mutex Unit :=
  transaction do
    prepare
    exec
    return (true, ())

/-- `new_user`. -/
def newUser (userName password : String) : Code Mutex Result := do
  if userName = "" ∨ 40 < userName.utf8ByteSize then return .usernameInvalid
  if password = "" then return .passwordEmpty
  locked .db do
    prepare
    if (← executeStep).isSome then return .usernameDuplicate
    writes
    return .success

/-- `log_in`, by name or by id; the password is the second column of the row. -/
def logIn (password : String) : Code Mutex Result := do
  let refused ← locked .db do
    prepare
    match ← executeStep with
    | none => return some .userDonotExist
    | some columns =>
      if columns.getD 1 "" ≠ password then return some .passwordIncorrect
      return none
  match refused with
  | some result => return result
  | none =>
    locked .db writes
    return .success

/-- `log_out`. -/
def logOut : Code Mutex Result :=
  locked .db do
    prepare
    if (← executeStep).isNone then return .userDonotExist
    writes
    return .success

/-- `authorize`. -/
def authorize : Code Mutex Result :=
  locked .db do
    prepare
    if (← executeStep).isNone then return .sessdataInvalid
    return .success

/-- `set_icon`. -/
def setIcon : Code Mutex Result :=
  locked .db do
    writes
    return .success

/-- `get_icon`, by id or by name: there is no column to get without a row. -/
def getIcon : Code Mutex Result :=
  locked .db do
    prepare
    if (← executeStep).isNone then throws
    return .success

/-- `set_user_name`. -/
def setUserName : Code Mutex Result :=
  locked .db do
    prepare
    if (← executeStep).isSome then return .usernameDuplicate
    writes
    return .success

/-- `raise_friend_request`. -/
def raiseFriendRequest (requesterId requesteeId : Int) : Code Mutex Result := do
  if requesterId = requesteeId then return .cannotRequestSelf
  locked .db do
    prepare
    if (← executeStep).isNone then return .userDonotExist
    prepare
    if (← executeStep).isNone then return .userDonotExist
    prepare
    if (← executeStep).isSome then return .alreadyFriend
    transaction do
      prepare
      let inserted ← catching (do exec; return true) (return false)
      return (inserted, if inserted then .success else .alreadyRequested)

/-- `query_for_user_info`. -/
def queryForUserInfo : Code Mutex Unit := do
  prepare
  exec

/-- `get_friend_requests`, of at most `n` rows. -/
def getFriendRequests (n : Nat) : Code Mutex Result :=
  locked .db do
    prepare
    catching (do rows (fun _ => queryForUserInfo) n; return .success) (return .failed)

/-- `remove_friend_request`. -/
def removeFriendRequest : Code Mutex Result :=
  locked .db do
    prepare
    catching
      (transaction do
        exec
        prepare
        exec
        return (true, .success))
      (return .failed)

/-- `accept_friend_request`. -/
def acceptFriendRequest : Code Mutex Result := do
  if (← removeFriendRequest) = .failed then return .failed
  catching
    (locked .db <| transaction do
      prepare
      exec
      prepare
      exec
      return (true, .success))
    (return .failed)

/-- `get_friend_list`, of at most `n` rows. -/
def getFriendList (n : Nat) : Code Mutex Unit :=
  locked .db <| locked .cache do
    prepare
    rows (fun _ => queryForUserInfo) n

/-- `get_user_info`. -/
def getUserInfo : Code Mutex Unit := locked .db queryForUserInfo

/-- One statement, prepared before its transaction. -/
def writesPrepared : Code Mutex Result :=
  locked .db do
    prepare
    transaction do
      exec
      return (true, ())
    return .success

/-- `set_slogan`. -/
def setSlogan : Code Mutex Result := writesPrepared

/-- `add_one_unread`. -/
def addOneUnread : Code Mutex Result := locked .cache (return .success)

/-- `clear_unread`. -/
def clearUnread : Code Mutex Result := do
  locked .cache (return ())
  writesPrepared

/-- A round of `write_cache_to_database`, with `n` counts in the cache. -/
def writeCacheToDatabase (n : Nat) : Code Mutex Unit :=
  locked .cache do
    prepare
    transaction do
      times (do prepare; catching exec (return ()); prepare) n
      return (true, ())

end Calls

/-- A call of one of the functions, with the parameters and the lengths on which it depends
what it does. -/
inductive Call where
  | newUser (userName password : String)
  | logIn (password : String)
  | logOut
  | authorize
  | setIcon
  | getIcon
  | setUserName
  | raiseFriendRequest (requesterId requesteeId : Int)
  | getFriendRequests (n : Nat)
  | removeFriendRequest
  | acceptFriendRequest
  | getFriendList (n : Nat)
  | getUserInfo
  | setSlogan
  | addOneUnread
  | clearUnread
  deriving DecidableEq, Repr

/-- What the thread of a request does. -/
def Call.prog : Call → Prog Mutex
  | .newUser userName password => (Calls.newUser userName password).run
  | .logIn password => (Calls.logIn password).run
  | .logOut => Calls.logOut.run
  | .authorize => Calls.authorize.run
  | .setIcon => Calls.setIcon.run
  | .getIcon => Calls.getIcon.run
  | .setUserName => Calls.setUserName.run
  | .raiseFriendRequest requesterId requesteeId =>
    (Calls.raiseFriendRequest requesterId requesteeId).run
  | .getFriendRequests n => (Calls.getFriendRequests n).run
  | .removeFriendRequest => Calls.removeFriendRequest.run
  | .acceptFriendRequest => Calls.acceptFriendRequest.run
  | .getFriendList n => (Calls.getFriendList n).run
  | .getUserInfo => Calls.getUserInfo.run
  | .setSlogan => Calls.setSlogan.run
  | .addOneUnread => Calls.addOneUnread.run
  | .clearUnread => Calls.clearUnread.run

/-- Thread 0 is the one of `write_cache_to_database`, the others are those of requests. -/
def Admits : Act Mutex → Prop
  | .call 0 p => ∃ n, p = (Calls.writeCacheToDatabase n).run
  | .call (_ + 1) p => ∃ c : Call, p = c.prog
  | .go _ _ => True

/-! ## Order -/

namespace Calls

open Code

section Keeps

variable {guarded held : Bool}

theorem keeps_writes : writes.Keeps .db true true false :=
  .transaction id <| Keeps.prepare.bind fun _ => (Keeps.exec id).bind fun _ => .pure

/-- Registering takes `db_mutex` and gives it back. -/
theorem keeps_newUser (userName password : String) :
    (newUser userName password).Keeps .db true false false := by
  unfold newUser
  split
  · exact .pure
  split
  · exact .pure
  refine .locked <| Keeps.prepare.bind fun _ => (Keeps.executeStep id).bind fun row => ?_
  split
  · exact .pure
  · exact keeps_writes.bind fun _ => .pure

/-- Logging in takes `db_mutex` and gives it back, also where it returns early. -/
theorem keeps_logIn (password : String) : (logIn password).Keeps .db true false false := by
  refine .bind (.locked <| Keeps.prepare.bind fun _ => (Keeps.executeStep id).bind fun row => ?_)
    fun refused => ?_
  · cases row with
    | none => exact .pure
    | some columns =>
      dsimp only
      split
      · exact .pure
      · exact .pure
  · cases refused with
    | some result => exact .pure
    | none => exact (Keeps.locked keeps_writes).bind fun _ => .pure

theorem keeps_logOut : logOut.Keeps .db true false false := by
  refine .locked <| Keeps.prepare.bind fun _ => (Keeps.executeStep id).bind fun row => ?_
  split
  · exact .pure
  · exact keeps_writes.bind fun _ => .pure

theorem keeps_authorize : authorize.Keeps .db true false false := by
  refine .locked <| Keeps.prepare.bind fun _ => (Keeps.executeStep id).bind fun row => ?_
  split
  · exact .pure
  · exact .pure

theorem keeps_getIcon : getIcon.Keeps .db true false false := by
  refine .locked <| Keeps.prepare.bind fun _ => (Keeps.executeStep id).bind fun row => ?_
  split
  · exact Keeps.throws.bind fun _ => .pure
  · exact .pure

theorem keeps_setUserName : setUserName.Keeps .db true false false := by
  refine .locked <| Keeps.prepare.bind fun _ => (Keeps.executeStep id).bind fun row => ?_
  split
  · exact .pure
  · exact keeps_writes.bind fun _ => .pure

/-- Raising a request takes `db_mutex` and gives it back, on each of its paths. -/
theorem keeps_raiseFriendRequest (requesterId requesteeId : Int) :
    (raiseFriendRequest requesterId requesteeId).Keeps .db true false false := by
  unfold raiseFriendRequest
  split
  · exact .pure
  refine .locked <| Keeps.prepare.bind fun _ => (Keeps.executeStep id).bind fun row => ?_
  split
  · exact .pure
  refine Keeps.prepare.bind fun _ => (Keeps.executeStep id).bind fun row => ?_
  split
  · exact .pure
  refine Keeps.prepare.bind fun _ => (Keeps.executeStep id).bind fun row => ?_
  split
  · exact .pure
  exact .transaction id <| Keeps.prepare.bind fun _ =>
    (Keeps.catching ((Keeps.exec id).bind fun _ => .pure) .pure).bind fun _ => .pure

theorem keeps_queryForUserInfo : queryForUserInfo.Keeps .db true true false :=
  Keeps.prepare.bind fun _ => .exec id

theorem keeps_getFriendRequests (n : Nat) : (getFriendRequests n).Keeps .db true false false :=
  .locked <| Keeps.prepare.bind fun _ =>
    .catching ((Keeps.rows id (fun _ => keeps_queryForUserInfo) n).bind fun _ => .pure) .pure

/-- Two statements in a transaction. -/
theorem keeps_removeFriendRequest : removeFriendRequest.Keeps .db true false false :=
  .locked <| Keeps.prepare.bind fun _ => .catching (.transaction id <| (Keeps.exec id).bind fun _ =>
    Keeps.prepare.bind fun _ => (Keeps.exec id).bind fun _ => .pure) .pure

theorem keeps_acceptFriendRequest : acceptFriendRequest.Keeps .db true false false := by
  refine keeps_removeFriendRequest.bind fun result => ?_
  split
  · exact .pure
  refine .catching (.locked <| .transaction id ?_) .pure
  exact Keeps.prepare.bind fun _ => (Keeps.exec id).bind fun _ =>
    Keeps.prepare.bind fun _ => (Keeps.exec id).bind fun _ => .pure

theorem keeps_getFriendList (n : Nat) : (getFriendList n).Keeps .db true false false := by
  refine .locked <| .locked_of_ne (fun h => nomatch h) <| Keeps.prepare.bind fun _ => ?_
  exact .rows id (fun _ => keeps_queryForUserInfo) n

theorem keeps_writesPrepared : writesPrepared.Keeps .db true false false :=
  .locked <| Keeps.prepare.bind fun _ =>
    (Keeps.transaction id ((Keeps.exec id).bind fun _ => .pure)).bind fun _ => .pure

theorem keeps_locked_cache {α : Type} {c : Code Mutex α} (hc : c.Keeps .db guarded held false) :
    (c.locked Mutex.cache).Keeps .db guarded held false :=
  .locked_of_ne (fun h => nomatch h) hc

/-- `write_cache_to_database` does the same without `db_mutex`. -/
theorem keeps_writeCacheToDatabase (n : Nat) :
    (writeCacheToDatabase n).Keeps .db false false false := by
  have hguard : false = true → false = true := id
  refine keeps_locked_cache <| Keeps.prepare.bind fun _ => .transaction hguard ?_
  refine (Keeps.times (Keeps.prepare.bind fun _ => ?_) n).bind fun _ => .pure
  exact (Keeps.catching (.exec hguard) .pure).bind fun _ => .prepare

end Keeps

end Calls

/-- **Every call is orderly**: it uses the connection with `db_mutex`. -/
theorem Call.orderly (c : Call) : c.prog.Orderly .db true false false := by
  cases c with
  | newUser userName password => exact (Calls.keeps_newUser userName password).orderly
  | logIn password => exact (Calls.keeps_logIn password).orderly
  | logOut => exact Calls.keeps_logOut.orderly
  | authorize => exact Calls.keeps_authorize.orderly
  | setIcon => exact (Code.Keeps.locked (Calls.keeps_writes.bind fun _ => .pure)).orderly
  | getIcon => exact Calls.keeps_getIcon.orderly
  | setUserName => exact Calls.keeps_setUserName.orderly
  | raiseFriendRequest requesterId requesteeId =>
    exact (Calls.keeps_raiseFriendRequest requesterId requesteeId).orderly
  | getFriendRequests n => exact (Calls.keeps_getFriendRequests n).orderly
  | removeFriendRequest => exact Calls.keeps_removeFriendRequest.orderly
  | acceptFriendRequest => exact Calls.keeps_acceptFriendRequest.orderly
  | getFriendList n => exact (Calls.keeps_getFriendList n).orderly
  | getUserInfo => exact (Code.Keeps.locked Calls.keeps_queryForUserInfo).orderly
  | setSlogan => exact Calls.keeps_writesPrepared.orderly
  | addOneUnread => exact (Calls.keeps_locked_cache .pure).orderly
  | clearUnread =>
    exact ((Calls.keeps_locked_cache .pure).bind fun _ => Calls.keeps_writesPrepared).orderly

/-- The calls that `Admits` lets a thread make are orderly. -/
theorem Admits.begins {a : Act Mutex} (h : Admits a) : Begins .db 0 a := by
  cases a with
  | go => trivial
  | call i p =>
    cases i with
    | zero =>
      obtain ⟨n, rfl⟩ := h
      exact (Calls.keeps_writeCacheToDatabase n).orderly
    | succ i =>
      obtain ⟨c, rfl⟩ := h
      exact c.orderly

/-! ## Runs -/

/-- The recorded steps. -/
abbrev LockHistory := List (Entry (System Mutex) (Act Mutex) Unit)

/-- The steps `h` have led from no calls to `s`. -/
abbrev LockRun (h : LockHistory) (s : System Mutex) : Prop :=
  Run Locks.step (fun _ a => Admits a) System.idle h s

/-- **One transaction at a time** in every run in which `write_cache_to_database` uses the
connection when `db_mutex` is free, and nobody locks `db_mutex` as long as its transaction
is open. -/
theorem alone_of_keepsOff {h : LockHistory} {s : System Mutex} (hr : LockRun h s)
    (hoff : ∀ e ∈ h, KeepsOff .db 0 e.pre e.act) : ∀ e ∈ h, Alone e.pre e.act :=
  alone_of_run (fun _ => Admits.begins) hr hoff

/-- `write_cache_to_database` has locked `cache_mutex` when a `set_slogan` comes first. Another one
is called while its own transaction is open, in which a statement throws, and locks `db_mutex`
before `cache_mutex` is unlocked. -/
def crossingCalls : List (Act Mutex) :=
  [.call 0 (Calls.writeCacheToDatabase 1).run, .go 0 .done, .call 1 (Call.prog .setSlogan),
    .go 1 .done, .go 1 .done, .go 1 .done, .go 1 .done, .go 1 .done, .go 1 .done, .go 0 .done,
    .go 0 .done, .call 1 (Call.prog .setSlogan), .go 0 .done, .go 0 .throws, .go 0 .done,
    .go 0 .done, .go 1 .done, .go 0 .done, .go 1 .done, .go 1 .done, .go 1 .done, .go 1 .done,
    .go 1 .done]

/-- No transaction begins in another one, although the calls cross. -/
theorem alone_of_keepsOff_crossing : ∃ h s, LockRun h s ∧ h.map Entry.act = crossingCalls ∧
    ∀ e ∈ h, Alone e.pre e.act := by
  have hok : ∀ s : System Mutex, ∀ a ∈ crossingCalls, Admits a := by
    simp only [crossingCalls, List.forall_mem_cons, Admits, true_and]
    exact fun _ => ⟨⟨1, rfl⟩, ⟨.setSlogan, rfl⟩, ⟨.setSlogan, rfl⟩,
      fun _ ha => absurd ha List.not_mem_nil⟩
  have he : (execAll Locks.step (fun e => decide (KeepsOff .db 0 e.pre e.act)) System.idle
      crossingCalls).any (fun s => s.opened.isNone && (s.owner .db).isNone) = true := by decide
  obtain ⟨h, s, hr, hacts, hall, -⟩ := exists_run_of_execAll hok he
  exact ⟨h, s, hr, hacts, alone_of_keepsOff hr fun e he => of_decide_eq_true (hall e he)⟩

/-- `set_slogan` has locked `db_mutex`, and begins its transaction in that of
`write_cache_to_database`. -/
def atOnce : List (Act Mutex) :=
  [.call 0 (Calls.writeCacheToDatabase 0).run, .go 0 .done, .go 0 .done, .go 0 .done,
    .call 1 (Call.prog .setSlogan), .go 1 .done, .go 1 .done]

/-- Without the condition `set_slogan` begins its transaction in that of the flush. -/
theorem transactions_meet : ∃ h s, LockRun h s ∧ h.map Entry.act = atOnce ++ [.go 1 .done] ∧
    ¬ ∀ e ∈ h, Alone e.pre e.act := by
  have hok : ∀ s : System Mutex, ∀ a ∈ atOnce, Admits a := by
    simp only [atOnce, List.forall_mem_cons, Admits, true_and]
    exact fun _ => ⟨⟨0, rfl⟩, ⟨.setSlogan, rfl⟩, fun _ ha => absurd ha List.not_mem_nil⟩
  have he : execTo Locks.step System.idle atOnce
      (fun s => (s.threads 1).starts && s.opened == some 0) = true := by decide
  obtain ⟨s, hexec, hcheck⟩ := exists_of_execTo he
  obtain ⟨hstarts, hopened⟩ := (Bool.and_eq_true _ _).mp hcheck
  obtain ⟨h, hr, hacts⟩ := exists_run_of_exec hok hexec
  obtain ⟨s', hstep⟩ := exists_step_of_starts .done hstarts
  have hgo : Admits (.go 1 .done) := trivial
  refine ⟨_, s', hr.snoc hgo hstep, by rw [List.map_append, hacts]; rfl, fun hall => ?_⟩
  have halone := hall _ (List.mem_append_right _ List.mem_cons_self)
  exact nomatch (eq_of_beq hopened).symm.trans (halone.1 hstarts)

end Authorizer

end UnoppServer
