import UnoppServer.Accounts.Unread
import UnoppServer.Chat.History
import UnoppServer.Http.Cookie
import UnoppServer.Lib.Sections
import UnoppServer.Server.Server

/-!
# The requests

The handlers of `HttpServer`. Each request is handled by a thread of its own, and what a handler
does with `Authorizer` and `ChatHistory` is one section under a mutex after the other. An exception
leaves the handler, and httplib answers with the status 500.

`Json::Reader` is a parameter twice: `parse` yields what the root is after the text of a request,
whether the text could be parsed or not, unless it throws; `read` is for the texts of chat messages,
which the server has written. What `FastWriter` writes is kept as a value.
-/

namespace UnoppServer

open Authorizer FindIf Sections

/-- What the thread of `process_message` has still to do with `ChatHistory` and `Authorizer`. -/
inductive Task where
  | newChatMessage (senderId receiverId : Int) (message : Json)
  | addOneUnread (userId friendId : Int)
  | clearUnread (userId friendId : Int)

/-- What the handlers share with `WsServer`: the accounts, the chat history, and the files under
`./icons`. -/
structure Site where
  inbox : Inbox
  chat : ChatHistory
  icons : Int → Option (List UInt8)
  ws : WsServer
  tasks : List Task

/-- What is decided outside the program during a section: whether a statement throws, in a `try`
block (`fails`) or outside of one, and whether a file can be opened. -/
structure Chance where
  draw : Draw
  order : Nat → Nat
  tie : ChatRow → Nat
  throws : Option String
  fails : Bool
  opens : Bool

/-- What a handler does. -/
abbrev Api := Sections.Prog Site Chance Fault

namespace Site

/-- Rows are equal when their two ids are. -/
local instance lawfulRows : LawfulBEq (Int × Int) := inferInstance

/-- Empty tables, and no files. -/
def new : Site := ⟨⟨.new, fun _ => none, fun _ => 0, ∅⟩, .new, fun _ => none, .new, []⟩

/-- The accounts after a change. -/
def withAccounts (s : Site) (accounts : Authorizer) : Site :=
  { s with inbox := { s.inbox with accounts } }

/-- `UPDATE user SET ... WHERE id=?`. -/
def updateUser (s : Site) (id : Int) (f : User → User) : Site :=
  s.withAccounts (s.inbox.accounts.updateUser id f)

/-- `UPDATE user SET slogan=? WHERE id=?`. -/
def updateSlogan (s : Site) (id : Int) (slogan : String) : Site :=
  { s with
    inbox := { s.inbox with
      slogan := fun i =>
        if i = id ∧ s.inbox.accounts.hasUser id then some slogan else s.inbox.slogan i } }

/-- The file of an icon is written. -/
def writeIcon (s : Site) (id : Int) (icon : List UInt8) : Site :=
  { s with icons := Function.update s.icons id (some icon) }

/-- The accounts with new relations, of which no message is unread. -/
def relate (s : Site) (accounts : Authorizer) : Site :=
  { s with
    inbox := { s.inbox with
      accounts
      unread := fun p => if p ∈ s.inbox.accounts.relations then s.inbox.unread p else 0 } }

/-- `query_for_user_info`. -/
def userInfo (s : Site) (id : Int) : Json :=
  match s.inbox.queryForUserInfo id with
  | [] => .null
  | members => .obj members

/-- Those who have requested to be friends of the user, in the order of the rows. -/
def requesters (s : Site) (order : Int → Nat) (id : Int) : List Int :=
  (hashOrder order Prod.fst (s.inbox.accounts.friendRequests.filter fun r => r.2 = id)).map Prod.fst

end Site

namespace HttpServer

variable {α : Type}

/-! ## Sections -/

/-- A section in which a statement may throw. Then its transaction is rolled back. -/
def query (f : Chance → Site → Except Fault (α × Site)) : Api α :=
  Sections.Prog.call fun w s =>
    match w.throws with
    | some what => .error (.exception what)
    | none => f w s

/-- `new_user`. -/
def newUser (userName password : String) : Api Result :=
  if userName = "" ∨ 40 < userName.utf8ByteSize then pure .usernameInvalid
  else if password = "" then pure .passwordEmpty
  else query fun _ s =>
    (s.inbox.accounts.newUser userName password).map fun r => (r.1, s.withAccounts r.2)

/-- The row that a `SELECT` from `user` yields first. -/
def selectUser (p : User → Bool) : Api (Option User) :=
  query fun w s => .ok (s.inbox.accounts.selectUser w.draw.order p, s)

/-- The new session of a user. -/
def startSession (id : Int) (userName : String) : Api Nat :=
  query fun w s =>
    let sessdata := generateSessdata w.draw userName
    .ok (sessdata, s.updateUser id fun u => { u with sessdata := some sessdata })

/-- `log_in` by name. -/
def logIn (userName password : String) : Api (Except Result (Int × Nat)) := do
  match ← selectUser fun u => u.userName == userName with
  | none => return .error .userDonotExist
  | some u =>
    if u.password ≠ password then return .error .passwordIncorrect
    -- the name may be another one by now
    let sessdata ← startSession (toInt u.id) userName
    return .ok (toInt u.id, sessdata)

/-- `log_in` by id. -/
def logInById (id : Int) (password : String) : Api (Except Result (String × Nat)) := do
  match ← selectUser fun u => u.id == id with
  | none => return .error .userDonotExist
  | some u =>
    if u.password ≠ password then return .error .passwordIncorrect
    let sessdata ← startSession id u.userName
    return .ok (u.userName, sessdata)

/-- A function that changes the accounts, or does not. -/
def change (f : Chance → Authorizer → Except Result Authorizer) : Api Result :=
  query fun w s =>
    match f w s.inbox.accounts with
    | .error result => .ok (result, s)
    | .ok accounts => .ok (.success, s.withAccounts accounts)

/-- `log_out`. -/
def logOut (sessdata : Nat) : Api Result := change fun w a => a.logOut w.draw.order sessdata

/-- `authorize`. -/
def authorize (sessdata : Nat) : Api (Except Result (Int × String)) :=
  query fun w s => .ok (s.inbox.accounts.authorize w.draw.order sessdata, s)

/-- `set_user_name`. -/
def setUserName (id : Int) (newUserName : String) : Api Result :=
  change fun _ a => a.setUserName id newUserName

/-- `set_icon_new` with the bytes of a file, of which all but the last one are written. Of an empty
file nothing is written: its length less one is negative as a `std::streamsize`, and opening the
file of the icon has emptied it. -/
def setIconNew (id : Int) (content : List UInt8) : Api Result :=
  Sections.Prog.call fun w s =>
    if w.opens then .ok (.success, s.writeIcon id content.dropLast) else .ok (.setIconFailed, s)

/-- `get_icon`: the table `user` has no column `icon`. -/
def getIcon : Api String := query fun _ _ => .error (.exception "no such column: icon")

/-- `raise_friend_request`. -/
def raiseFriendRequest (requesterId requesteeId : Int) : Api Result :=
  if requesterId = requesteeId then pure .cannotRequestSelf
  else change fun w a =>
    match a.raiseFriendRequest requesterId requesteeId with
    | .error result => .error result
    -- whatever the `INSERT` throws
    | .ok a => if w.fails then .error .alreadyRequested else .ok a

/-- `get_friend_requests`. -/
def getFriendRequests (id : Int) : Api (Except Result Json) :=
  query fun w s =>
    if w.fails then .ok (.error .failed, s)
    else .ok (.ok (.arr ((s.requesters w.draw.order id).map s.userInfo)), s)

/-- `remove_friend_request`. -/
def removeFriendRequest (id requesterId : Int) : Api Result :=
  change fun w a => if w.fails then .error .failed else .ok (a.removeFriendRequest id requesterId)

/-- The second section of `accept_friend_request`, all of it in a `try` block. -/
def insertRelations (id requesterId : Int) : Api Result :=
  Sections.Prog.call fun w s =>
    if w.fails then .ok (.failed, s)
    else
      match s.inbox.accounts.insertRelations id requesterId with
      | none => .ok (.failed, s)
      | some accounts => .ok (.success, s.relate accounts)

/-- `accept_friend_request`. -/
def acceptFriendRequest (id requesterId : Int) : Api Result := do
  if (← removeFriendRequest id requesterId) = .failed then return .failed
  insertRelations id requesterId

/-- `get_friend_list`. -/
def getFriendList (id : Int) : Api Json :=
  query fun w s => .ok (s.inbox.getFriendList w.draw.order id, s)

/-- `get_user_info`. -/
def getUserInfo (id : Int) : Api Json := query fun _ s => .ok (s.userInfo id, s)

/-- `set_slogan`. -/
def setSlogan (id : Int) (slogan : String) : Api Result :=
  query fun _ s => .ok (.success, s.updateSlogan id slogan)

/-- `get_timestamp`. -/
def getTimestamp : Api Int := Sections.Prog.call fun w s => .ok (w.draw.time, s)

section Chat

variable (read : String → Json)

/-- `get_chat_message`. -/
def getChatMessage (userId latestTimestamp : Int) : Api Json := do
  let res ← Sections.Prog.call fun w s =>
    (s.chat.cacheSection read w.order userId latestTimestamp).map (·, s)
  query fun w s =>
    (ChatHistory.databaseSection read w.tie s.chat.chat userId latestTimestamp res).map (·, s)

/-- `get_20_chat_messages`. -/
def get20ChatMessages (userId friendId latestTimestamp : Int) : Api Json :=
  query fun w s =>
    (ChatHistory.get20ChatMessages read w.tie s.chat.chat userId friendId latestTimestamp).map
      fun items => (.arr items, s)

end Chat

/-! ## Requests and responses -/

/-- The handlers that do something. -/
inductive Route where
  | hello
  | login
  | loginById
  | logout
  | register
  | uploadIcon
  | icon
  | setName
  | friendRequest
  | getFriendRequests
  | handleFriendRequest
  | getFriendList
  | getChatHistory
  | getChatHistory20
  | getUserInfo
  | setSlogan
  deriving DecidableEq, Repr

/-- `httplib::Request`: the headers `Origin` and `Cookie`, the parameters, the body, and the
contents of the files in the order of their names. -/
structure Request where
  route : Route
  origin : String
  cookie : String
  params : List (String × String)
  body : String
  files : List (List UInt8)

/-- What `set_content` sets. -/
inductive Content where
  | none
  | text (s : String)
  | json (v : Json)

/-- `httplib::Response`. -/
structure Response where
  headers : List (String × String)
  content : Content

/-- `has_crlf`, up to the first zero. -/
def hasCrlf (s : String) : Bool :=
  (s.toList.takeWhile fun c => c ≠ '\x00').any fun c => c = '\r' ∨ c = '\n'

/-- `set_header`. -/
def setHeader (headers : List (String × String)) (key val : String) : List (String × String) :=
  if hasCrlf key ∨ hasCrlf val then headers else headers ++ [(key, val)]

/-- The headers of every response. -/
def cors (r : Request) : List (String × String) :=
  setHeader (setHeader [] "Access-Control-Allow-Origin" r.origin)
    "Access-Control-Allow-Credentials" "true"

/-- A header `Set-Cookie`, with `cookie_max_age`. -/
def setCookie (headers : List (String × String)) (key val : String) : List (String × String) :=
  setHeader headers "Set-Cookie" (key ++ "=" ++ val ++ "; Max-Age=" ++ toString 1296000)

/-- A response in plain text. -/
def text (r : Request) (s : String) : Response := ⟨cors r, .text s⟩

/-- A response in JSON. -/
def json (r : Request) (v : Json) : Response := ⟨cors r, .json v⟩

/-- `std::isspace`. -/
def isspace (c : Char) : Bool := c = ' ' ∨ ('\t' ≤ c ∧ c ≤ '\r')

/-- `std::atoll`: what does not fit into 64 bits is the nearest number that does. -/
def strtoll (s : String) : Int :=
  let number (s : List Char) : Nat := Nat.ofDigitChars 10 (s.takeWhile Char.isDigit) 0
  match s.toList.dropWhile isspace with
  | '-' :: s => max (-(number s : Int)) (-(2 ^ 63))
  | '+' :: s => min (number s) (2 ^ 63 - 1)
  | s => min (number s) (2 ^ 63 - 1)

/-- `std::atoi`, narrowed from 64 bits. -/
def atoi (s : String) : Int := toInt (strtoll s)

/-- `req.params.find`. -/
def Request.param (r : Request) (key : String) : Option String := r.params.lookup key

/-- `payload[key]`, and the payload, which has the member afterwards. -/
def member {β : Type} (conv : Json → Except Fault β) (payload : Json) (key : String) :
    Except Fault (β × Json) := do
  let payload ← payload.touch key
  return (← conv (← payload.get key), payload)

/-! ## Handlers -/

/-- The texts for the results of a login. -/
def loginResult (r : Request) : Result → Response
  | .passwordIncorrect => text r "PASSWORD_INCORRECT"
  | .userDonotExist => text r "USER_DONOT_EXIST"
  | _ => ⟨cors r, .none⟩

/-- The response to a login. -/
def loggedIn (r : Request) (id : Int) (userName : String) (sessdata : Nat) : Response :=
  let cookies := loginCookies sessdata userName id
  ⟨cookies.foldl (fun headers p => setCookie headers p.1 p.2) [] ++ cors r, .text "SUCCESS"⟩

/-- What begins the handlers for users who have logged in. -/
def signedIn (r : Request) (f : Int → String → Api Response) : Api Response :=
  match parseCookie r.cookie with
  | (_, true) => pure (text r "PLEASE_LOG_IN")
  | (sessdata, false) => do
    match ← authorize sessdata with
    | .error _ => return text r "PLEASE_LOG_IN"
    | .ok (id, userName) => f id userName

section Handlers

variable (parse : String → Except Fault Json) (read : String → Json)

/-- `/hello`. -/
def hello (r : Request) : Api Response :=
  signedIn r fun id userName =>
    return text r ("Hello, #" ++ toString id ++ " " ++ userName ++ "!")

/-- `/login`. -/
def login (r : Request) : Api Response := do
  let payload ← .lift (parse r.body)
  let (userName, payload) ← .lift (member Json.asString payload "user_name")
  let (password, _) ← .lift (member Json.asString payload "password")
  match ← logIn userName password with
  | .ok (id, sessdata) => return loggedIn r id userName sessdata
  | .error result => return loginResult r result

/-- `/login-byid`. -/
def loginById (r : Request) : Api Response := do
  let payload ← .lift (parse r.body)
  let (id, payload) ← .lift (member Json.asInt payload "id")
  let (password, _) ← .lift (member Json.asString payload "password")
  match ← logInById id password with
  | .ok (userName, sessdata) => return loggedIn r id userName sessdata
  | .error result => return loginResult r result

/-- `/logout`. -/
def logout (r : Request) : Api Response :=
  match parseCookie r.cookie with
  | (_, true) => pure (text r "PLEASE_LOG_IN")
  | (sessdata, false) => do
    if (← logOut sessdata) = .success then return text r "Successfully logged out."
    return text r "Failed to log out."

/-- `/register`. -/
def register (r : Request) : Api Response := do
  let payload ← .lift (parse r.body)
  let (userName, payload) ← .lift (member Json.asString payload "user_name")
  let (password, _) ← .lift (member Json.asString payload "password")
  match ← newUser userName password with
  | .success => return text r "SUCCESS"
  | .usernameDuplicate => return text r "USERNAME_DUPLICATE"
  | _ => return text r "FAILED"

/-- `req.files.begin()->second.content`, for which there need not be a file. -/
def firstFile (r : Request) : Except Fault (List UInt8) :=
  match r.files with
  | [] => .error .endIterator
  | content :: _ => .ok content

/-- `/upload-icon`. -/
def uploadIcon (r : Request) : Api Response :=
  signedIn r fun id _ => do
    let content ← .lift (firstFile r)
    if (← setIconNew id content) = .success then return text r "SUCCESS"
    return text r "FAILED"

/-- `/icon`. -/
def icon (r : Request) : Api Response := do
  if (r.param "id").isSome ∨ (r.param "user_name").isSome then
    let _ ← getIcon
  return ⟨cors r, .none⟩

/-- `/set-name`. -/
def setName (r : Request) : Api Response :=
  signedIn r fun id _ => do
    let reqbody ← .lift (parse r.body)
    let (newUserName, _) ← .lift (member Json.asString reqbody "user_name")
    match ← setUserName id newUserName with
    | .success => return ⟨setCookie (cors r) "user_name" newUserName, .text "SUCCESS"⟩
    | .usernameDuplicate => return text r "USERNAME_DUPLICATE"
    | _ => return text r "FAILED"

/-- `/friend-request`. -/
def friendRequest (r : Request) : Api Response :=
  signedIn r fun id _ => do
    let reqbody ← .lift (parse r.body)
    let (requesteeId, _) ← .lift (member Json.asInt reqbody "requestee_id")
    match ← raiseFriendRequest id requesteeId with
    | .alreadyFriend => return text r "ALREADY_FRIEND"
    | .alreadyRequested => return text r "ALREADY_REQUESTED"
    | .userDonotExist => return text r "USER_DONOT_EXIST"
    | .cannotRequestSelf => return text r "CANNOT_REQUEST_SELF"
    | _ => return text r "SUCCESS"

/-- `/get-friend-requests`. -/
def friendRequests (r : Request) : Api Response :=
  signedIn r fun id _ => do
    match ← getFriendRequests id with
    | .ok v => return json r v
    | .error _ => return text r "FAILED"

/-- A friend request is accepted or removed. -/
def settleFriendRequest (accept : Bool) (id requesterId : Int) : Api Result :=
  if accept then acceptFriendRequest id requesterId else removeFriendRequest id requesterId

/-- `/handle-friend-request`. -/
def handleFriendRequest (r : Request) : Api Response :=
  signedIn r fun id _ => do
    let reqbody ← .lift (parse r.body)
    let (accept, reqbody) ← .lift (member Json.asBool reqbody "accept")
    let (requesterId, _) ← .lift (member Json.asInt reqbody "requester_id")
    if (← settleFriendRequest accept id requesterId) = .success then return text r "SUCCESS"
    return text r "FAILED"

/-- `/get-friend-list`. -/
def friendList (r : Request) : Api Response :=
  signedIn r fun id _ => return json r (← getFriendList id)

/-- The parameter `latest_timestamp`, or the time. -/
def latestTimestamp (r : Request) : Api Int :=
  match r.param "latest_timestamp" with
  | some latest => pure (strtoll latest)
  | none => getTimestamp

/-- `/get-chat-history`. -/
def chatHistory (r : Request) : Api Response :=
  signedIn r fun id _ => do
    let timestamp ← latestTimestamp r
    return json r (← getChatMessage read id timestamp)

/-- `/get-chat-history-20`. -/
def chatHistory20 (r : Request) : Api Response :=
  signedIn r fun id _ =>
    match r.param "latest_timestamp", r.param "friend_id" with
    | some latest, some friendId => do
      return json r (← get20ChatMessages read id (atoi friendId) (strtoll latest))
    | _, _ => return text r "MISS_PARAMS"

/-- `/get-user-info`. -/
def userInfo (r : Request) : Api Response :=
  match r.param "id" with
  | some id => do return json r (← getUserInfo (atoi id))
  | none => return text r "MISS_PARAMS"

/-- `/set-slogan`. -/
def slogan (r : Request) : Api Response :=
  signedIn r fun id _ => do
    let reqbody ← .lift (parse r.body)
    let (slogan, _) ← .lift (member Json.asString reqbody "slogan")
    if (← setSlogan id slogan) = .success then return text r "SUCCESS"
    return text r "FAILED"

/-- Handle a request. -/
def handle (r : Request) : Api Response :=
  match r.route with
  | .hello => hello r
  | .login => login parse r
  | .loginById => loginById parse r
  | .logout => logout r
  | .register => register parse r
  | .uploadIcon => uploadIcon r
  | .icon => icon r
  | .setName => setName parse r
  | .friendRequest => friendRequest parse r
  | .getFriendRequests => friendRequests r
  | .handleFriendRequest => handleFriendRequest parse r
  | .getFriendList => friendList r
  | .getChatHistory => chatHistory read r
  | .getChatHistory20 => chatHistory20 read r
  | .getUserInfo => userInfo r
  | .setSlogan => slogan parse r

end Handlers

end HttpServer

end UnoppServer
