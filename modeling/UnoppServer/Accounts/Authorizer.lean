import UnoppServer.Fault
import UnoppServer.Lib.FindIf

/-!
# Accounts

`Authorizer` is the class of `Authorizer.hpp` with the tables of `setup_users.sql`: the
users, their sessions and names, the friend requests and the relations. The calls are
handled one after the other.

No row of `user` is ever deleted. So `AUTOINCREMENT` counts the rows, and the rows are a
list in the order of their ids. A `SELECT` without `ORDER BY` yields rows in an order of
SQLite's choice (`Draw.order`).
-/

namespace UnoppServer

open FindIf

/-- A row of `user`. -/
structure User where
  id : Int
  userName : String
  password : String
  sessdata : Option Nat
  deriving DecidableEq, Repr

/-- What is decided outside the program while a function runs: `mt_rand()`,
`std::hash<std::string>`, `time`, and the order in which a `SELECT` yields rows. -/
structure Draw where
  rand : Nat
  hash : String → Nat
  time : Int
  order : Int → Nat

/-- The class `Authorizer`. A row of `friend_request` is a pair of a requester and a
requestee, a row of `relation` one of a user and a friend. -/
structure Authorizer where
  users : List User
  friendRequests : List (Int × Int)
  relations : List (Int × Int)

namespace Authorizer

/-- `enum class Result`. -/
inductive Result where
  | success
  | failed
  | usernameDuplicate
  | usernameInvalid
  | passwordEmpty
  | userDonotExist
  | passwordIncorrect
  | sessdataInvalid
  | setIconFailed
  | alreadyRequested
  | alreadyFriend
  | cannotRequestSelf
  deriving DecidableEq, Repr

/-- Empty tables. -/
def new : Authorizer := ⟨[], [], []⟩

/-! ## Statements -/

/-- A column that is read as an `int`. -/
def toInt (i : Int) : Int := i.bmod (2 ^ 32)

/-- The first row of a `SELECT` from `user`. -/
def selectUser (order : Int → Nat) (a : Authorizer) (p : User → Bool) : Option User :=
  (hashOrder order User.id a.users).find? p

/-- `UPDATE user SET ... WHERE id=?`. -/
def updateUser (a : Authorizer) (id : Int) (f : User → User) : Authorizer :=
  { a with users := a.users.map fun u => if u.id = id then f u else u }

/-- `SELECT ... FROM user WHERE user_name=?` yields a row. -/
def hasUserName (a : Authorizer) (userName : String) : Bool :=
  a.users.any fun u => u.userName == userName

/-- `SELECT 1 FROM user WHERE id=?` yields a row. -/
def hasUser (a : Authorizer) (id : Int) : Bool := a.users.any fun u => u.id == id

/-! ## Users and sessions -/

/-- `new_user`. -/
def newUser (a : Authorizer) (userName password : String) : Except Fault (Result × Authorizer) :=
  if userName = "" ∨ 40 < userName.utf8ByteSize then .ok (.usernameInvalid, a)
  else if password = "" then .ok (.passwordEmpty, a)
  else if a.hasUserName userName then .ok (.usernameDuplicate, a)
  -- the largest id is that of the last row
  else if 2 ^ 63 ≤ a.users.length + 1 then .error (.exception "database or disk is full")
  else
    .ok (.success, { a with users := a.users ++ [⟨a.users.length + 1, userName, password, none⟩] })

/-- `generate_sessdata`: 32 bits, of which the generator and the hash reach the upper
half and the time all. -/
def generateSessdata (d : Draw) (userName : String) : Nat :=
  let mixed := (d.rand + d.hash userName) % 2 ^ 64 % 2 ^ 32
  (((mixed * 2 ^ 16 % 2 ^ 32 : Nat) + d.time) % 2 ^ 32).toNat

/-- `log_in` by name, with the id and the session. -/
def logIn (d : Draw) (a : Authorizer) (userName password : String) :
    Except Result ((Int × Nat) × Authorizer) :=
  match a.selectUser d.order fun u => u.userName == userName with
  | none => .error .userDonotExist
  | some u =>
    if u.password ≠ password then .error .passwordIncorrect
    else
      -- nothing asks whether somebody has the same session
      let id := toInt u.id
      let sessdata := generateSessdata d userName
      .ok ((id, sessdata), a.updateUser id fun u => { u with sessdata := some sessdata })

/-- `log_in` by id, with the name and the session. -/
def logInById (d : Draw) (a : Authorizer) (id : Int) (password : String) :
    Except Result ((String × Nat) × Authorizer) :=
  match a.selectUser d.order fun u => u.id == id with
  | none => .error .userDonotExist
  | some u =>
    if u.password ≠ password then .error .passwordIncorrect
    else
      let sessdata := generateSessdata d u.userName
      .ok ((u.userName, sessdata), a.updateUser id fun u => { u with sessdata := some sessdata })

/-- `log_out`. -/
def logOut (order : Int → Nat) (a : Authorizer) (sessdata : Nat) : Except Result Authorizer :=
  match a.selectUser order fun u => u.sessdata == some sessdata with
  | none => .error .userDonotExist
  | some u => .ok (a.updateUser (toInt u.id) fun u => { u with sessdata := none })

/-- `authorize`, with the id and the name. -/
def authorize (order : Int → Nat) (a : Authorizer) (sessdata : Nat) :
    Except Result (Int × String) :=
  match a.selectUser order fun u => u.sessdata == some sessdata with
  | none => .error .sessdataInvalid
  | some u => .ok (toInt u.id, u.userName)

/-- `set_user_name`: any other name will do, an empty one as well. -/
def setUserName (a : Authorizer) (id : Int) (newUserName : String) : Except Result Authorizer :=
  if a.hasUserName newUserName then .error .usernameDuplicate
  else .ok (a.updateUser id fun u => { u with userName := newUserName })

/-! ## Friends -/

/-- `raise_friend_request`. -/
def raiseFriendRequest (a : Authorizer) (requesterId requesteeId : Int) :
    Except Result Authorizer :=
  if requesterId = requesteeId then .error .cannotRequestSelf
  else if ¬ a.hasUser requesterId then .error .userDonotExist
  else if ¬ a.hasUser requesteeId then .error .userDonotExist
  else if (requesterId, requesteeId) ∈ a.relations then .error .alreadyFriend
  -- the rows of `friend_request` are unique
  else if (requesterId, requesteeId) ∈ a.friendRequests then .error .alreadyRequested
  else .ok { a with friendRequests := a.friendRequests ++ [(requesterId, requesteeId)] }

/-- `remove_friend_request`: the requests of both directions are gone, and it is a
success whether there were any or not. -/
def removeFriendRequest (a : Authorizer) (id requesterId : Int) : Authorizer :=
  { a with
    friendRequests := (a.friendRequests.filter fun r => r ≠ (requesterId, id)).filter
      fun r => r ≠ (id, requesterId) }

/-- The transaction of `accept_friend_request`, which fails when one of the two rows is
there already. -/
def insertRelations (a : Authorizer) (id requesterId : Int) : Option Authorizer :=
  if (id, requesterId) ∈ a.relations then none
  else
    let relations := a.relations ++ [(id, requesterId)]
    if (requesterId, id) ∈ relations then none
    else some { a with relations := relations ++ [(requesterId, id)] }

/-- `accept_friend_request`. -/
def acceptFriendRequest (a : Authorizer) (id requesterId : Int) : Result × Authorizer :=
  let a := a.removeFriendRequest id requesterId
  -- nothing asks whether a request was removed
  match a.insertRelations id requesterId with
  | none => (.failed, a)
  | some a => (.success, a)

/-! ## Calls -/

/-- A call of one of the functions. -/
inductive Op where
  | newUser (userName password : String)
  | logIn (userName password : String)
  | logInById (id : Int) (password : String)
  | logOut (sessdata : Nat)
  | authorize (sessdata : Nat)
  | setUserName (id : Int) (newUserName : String)
  | raiseFriendRequest (requesterId requesteeId : Int)
  | removeFriendRequest (id requesterId : Int)
  | acceptFriendRequest (id requesterId : Int)
  deriving DecidableEq, Repr

/-- What a call returns: the result and the parameters that it sets. -/
structure Answer where
  result : Result
  id : Option Int
  userName : Option String
  sessdata : Option Nat
  deriving DecidableEq, Repr

/-- A result alone. -/
def Answer.only (result : Result) : Answer := ⟨result, none, none, none⟩

/-- A function that returns nothing but a result. -/
def answer (a : Authorizer) (r : Except Result Authorizer) : Answer × Authorizer :=
  match r with
  | .error e => (.only e, a)
  | .ok a => (.only .success, a)

/-- Perform a call. -/
def step (a : Authorizer) (e : Draw × Op) : Except Fault (Answer × Authorizer) :=
  match e.2 with
  | .newUser userName password => do
    let (result, a) ← a.newUser userName password
    return (.only result, a)
  | .logIn userName password =>
    match a.logIn e.1 userName password with
    | .error result => .ok (.only result, a)
    | .ok ((id, sessdata), a) => .ok (⟨.success, some id, none, some sessdata⟩, a)
  | .logInById id password =>
    match a.logInById e.1 id password with
    | .error result => .ok (.only result, a)
    | .ok ((userName, sessdata), a) => .ok (⟨.success, none, some userName, some sessdata⟩, a)
  | .logOut sessdata => .ok (a.answer (a.logOut e.1.order sessdata))
  | .authorize sessdata =>
    match a.authorize e.1.order sessdata with
    | .error result => .ok (.only result, a)
    | .ok (id, userName) => .ok (⟨.success, some id, some userName, none⟩, a)
  | .setUserName id newUserName => .ok (a.answer (a.setUserName id newUserName))
  | .raiseFriendRequest requesterId requesteeId =>
    .ok (a.answer (a.raiseFriendRequest requesterId requesteeId))
  | .removeFriendRequest id requesterId =>
    .ok (.only .success, a.removeFriendRequest id requesterId)
  | .acceptFriendRequest id requesterId =>
    let (result, a) := a.acceptFriendRequest id requesterId
    .ok (.only result, a)

end Authorizer

end UnoppServer
