import UnoppServer.Lib.Handler
import UnoppServer.Lib.Pipeline
import UnoppServer.Server.Indexes

/-!
# The server: its queues and threads

The handlers of websocketpp push actions, the thread of `process_message` takes one after the
other, and what it sends to a connection by its id goes through a second queue to the thread of
`send_message`. Meanwhile the threads of rooms for Gomoku and that of `check_empty_rooms` are at
work.

- `UNSUBSCRIBE` is handled in two parts: the messages of `process_close` are pushed before the
  connection is erased;
- `check_empty_rooms` looks whether a room is empty before it locks `rooms_mutex`, and erases the
  room whatever has happened to it since then, with an iterator that an action may have left
  dangling;
- `send_message` leaves an empty handle under an id that has no entry.

Every call of the room manager, every update of a game and every access to `conn_id_2_hdl` is one
step.

- `handles_in_turn`: whatever turns the threads take, the server does what `Process.step` does
  with one job after the other, and nothing is lost or overtakes in the two queues;
- `gets_to_action`: the thread of `process_message` does not sleep over an action;
- `delivered_to_owner`: what is delivered for a connection id goes to the one handle that has
  been authorized under it, or to an empty one, as long as there are ids.
-/

namespace UnoppServer

open Assoc Pipeline Runs

/-- Where the iterator of `check_empty_rooms` is. -/
inductive RoomIterator where
  /-- at the end, or the thread sleeps -/
  | atEnd
  /-- at a room that is looked at next -/
  | room (roomId : Nat)
  /-- at a room that has been found empty, and is erased next -/
  | empty (roomId : Nat)
  /-- at what an action has erased -/
  | dangling

/-- The iterator after an action. The rooms that are inserted do not move it. -/
def RoomIterator.after (it : RoomIterator) (m : Manager) : RoomIterator :=
  match it with
  | .atEnd => .atEnd
  | .room roomId => if (m.rooms.lookup roomId).isSome then .room roomId else .dangling
  | .empty roomId => if (m.rooms.lookup roomId).isSome then .empty roomId else .dangling
  | .dangling => .dangling

/-- `rooms.begin()`, or what follows a room: the order of the rooms is decided outside. -/
def RoomIterator.to (next : Option Nat) (m : Manager) : RoomIterator :=
  match next with
  | none => .atEnd
  | some roomId => if (m.rooms.lookup roomId).isSome then .room roomId else .atEnd

/-- The server, and the iterator of the thread of `check_empty_rooms`. -/
structure Process where
  server : WsServer
  it : RoomIterator

/-- What a thread does at once. -/
inductive Job where
  | action (a : Action)
  | check (next : Option Nat)

namespace WsServer

/-- The last part of `UNSUBSCRIBE`. -/
def forget (s : WsServer) (hdl : Hdl) : WsServer :=
  match s.connections.lookup hdl with
  | none => s
  | some conn =>
    { s with
      connections := s.connections.erase hdl
      connId2Hdl := s.connId2Hdl.erase conn.connId
      userId2ConnId := s.userId2ConnId.filter fun p => p.1 ≠ toInt conn.connId }

/-- The first part of `UNSUBSCRIBE`. -/
def closeRoom (w : World) (s : WsServer) (hdl : Hdl) : List Effect × WsServer :=
  match s.connections.lookup hdl with
  | none => ([], s)
  | some conn =>
    let (out, roomManager) := s.roomManager.processClose w.env conn.connId conn.userId
    (push out, { s with roomManager := roomManager })

/-- What `conn_id_2_hdl[conn_id]` yields. -/
def sendsTo (s : WsServer) (connId : Nat) : Hdl := (s.connId2Hdl.lookup connId).getD .empty

/-- What `send_message` does with one response. `send` throws for an empty handle, which is caught,
and the entry stays. -/
def sendMessage (s : WsServer) : Effect → WsServer
  | .pushMessage connId _ =>
    { s with connId2Hdl := s.connId2Hdl.insert connId (s.sendsTo connId) }
  | _ => s

/-- What goes to the queue `responses`. -/
def Effect.isPush : Effect → Bool
  | .pushMessage _ _ => true
  | _ => false

end WsServer

namespace Process

/-- Before the first action. -/
def new : Process := ⟨.new, .atEnd⟩

/-- What `check_empty_rooms` does next: it begins a round, looks whether a room is empty, or erases
the one that it has found empty. -/
def check (p : Process) (next : Option Nat) : Except Fault Process :=
  match p.it with
  | .atEnd => .ok { p with it := .to next p.server.roomManager }
  | .room roomId =>
    match p.server.roomManager.rooms.lookup roomId with
    | some r =>
      -- `rooms_mutex` is not locked
      let it := if r.haveNoOneOnline then .empty roomId else .to next p.server.roomManager
      .ok { p with it }
    | none => .error .endIterator
  | .empty roomId =>
    match p.server.roomManager.rooms.lookup roomId with
    | some r =>
      -- who has joined in the meantime is not looked for
      let roomManager := p.server.roomManager.eraseRoom roomId r
      .ok ⟨{ p.server with roomManager }, .to next roomManager⟩
    | none => .error .endIterator
  -- also when the id has a new room
  | .dangling => .error .endIterator

/-- Do a job. -/
def step (parse : String → Except Fault (Option Json)) (p : Process) (j : World × Job) :
    Except Fault (List Effect × Process) :=
  match j.2 with
  | .action a => do
    let (out, server) ← p.server.step parse (j.1, a)
    return (out, ⟨server, p.it.after server.roomManager⟩)
  | .check next => do
    let p ← p.check next
    return ([], p)

/-- **A visit that is not interrupted** is one of the server. -/
theorem check_visit {p : Process} {roomId : Nat} {r : Room} (hit : p.it = .room roomId)
    (hroom : p.server.roomManager.rooms.lookup roomId = some r) (next : Option Nat) :
    (if r.haveNoOneOnline then p.check next >>= fun q => q.check next else p.check next) =
      .ok ⟨{ p.server with roomManager := p.server.roomManager.visit roomId },
        .to next (p.server.roomManager.visit roomId)⟩ := by
  unfold Manager.visit
  rw [hroom]
  dsimp only
  split
  · rename_i hempty
    have htest : p.check next = .ok { p with it := .empty roomId } := by
      simp only [check, hit, hroom, if_pos hempty]
    rw [htest]
    show check { p with it := .empty roomId } next = _
    simp only [check, hroom]
  · rename_i hempty
    simp only [check, hit, hroom, if_neg hempty]

end Process

namespace WsServer

/-! ## Entries that are empty -/

/-- The servers differ at most in entries of `conn_id_2_hdl` that hold an empty handle. -/
structure Similar (s t : WsServer) : Prop where
  connections : t.connections = s.connections
  userId2ConnId : t.userId2ConnId = s.userId2ConnId
  connId : t.connId = s.connId
  roomManager : t.roomManager = s.roomManager
  sendsTo : ∀ c, t.sendsTo c = s.sendsTo c

section Similar

variable {parse : String → Except Fault (Option Json)} {w : World} {s s' t t' : WsServer}
  {hdl : Hdl}

theorem Similar.refl (s : WsServer) : s.Similar s := ⟨rfl, rfl, rfl, rfl, fun _ => rfl⟩

theorem Similar.trans (h : s.Similar t) (h' : t.Similar t') : s.Similar t' where
  connections := h'.connections.trans h.connections
  userId2ConnId := h'.userId2ConnId.trans h.userId2ConnId
  connId := h'.connId.trans h.connId
  roomManager := h'.roomManager.trans h.roomManager
  sendsTo c := (h'.sendsTo c).trans (h.sendsTo c)

theorem Similar.eq (h : s.Similar t) : t = { s with connId2Hdl := t.connId2Hdl } := by
  obtain ⟨connections, connId2Hdl, userId2ConnId, connId, roomManager⟩ := t
  obtain ⟨rfl, rfl, rfl, rfl, -⟩ := h
  rfl

theorem sendsTo_logIn (s : WsServer) (hdl : Hdl) (userId : Int) (userName : String) (c : Nat) :
    (s.logIn hdl userId userName).sendsTo c = if c = s.nextConnId then hdl else s.sendsTo c := by
  rw [WsServer.sendsTo, logIn, lookup_insert_eq]
  split
  · rfl
  · rfl

theorem Similar.logIn (h : s.Similar t) (hdl : Hdl) (userId : Int) (userName : String) :
    (s.logIn hdl userId userName).Similar (t.logIn hdl userId userName) := by
  have hnext : t.nextConnId = s.nextConnId := congrArg (fun n => (n + 1) % 2 ^ 32) h.connId
  refine ⟨?_, ?_, hnext, h.roomManager, fun c => ?_⟩
  · simp only [WsServer.logIn, h.connections, hnext]
  · simp only [WsServer.logIn, h.userId2ConnId, hnext]
  · rw [sendsTo_logIn, sendsTo_logIn, hnext, h.sendsTo]

theorem sendsTo_forget {conn : Connection} (hconn : s.connections.lookup hdl = some conn)
    (c : Nat) : (s.forget hdl).sendsTo c = if c = conn.connId then .empty else s.sendsTo c := by
  unfold forget
  rw [hconn, WsServer.sendsTo, lookup_erase_eq]
  split
  · rfl
  · rfl

/-- Forgetting a connection keeps two servers similar. -/
theorem Similar.forget (h : s.Similar t) (hdl : Hdl) : (s.forget hdl).Similar (t.forget hdl) := by
  cases hconn : s.connections.lookup hdl with
  | none =>
    simp only [WsServer.forget, h.connections, hconn]
    exact h
  | some conn =>
    have hconn' : t.connections.lookup hdl = some conn := h.connections ▸ hconn
    refine ⟨?_, ?_, ?_, ?_, fun c => ?_⟩
    · simp only [WsServer.forget, h.connections, hconn]
    · simp only [WsServer.forget, hconn, hconn', h.userId2ConnId]
    · simp only [WsServer.forget, hconn, hconn', h.connId]
    · simp only [WsServer.forget, hconn, hconn', h.roomManager]
    · rw [sendsTo_forget hconn, sendsTo_forget hconn', h.sendsTo]

/-- A response changes no other entry, and its own only when there is none. -/
theorem similar_sendMessage (s : WsServer) (o : Effect) : (s.sendMessage o).Similar s := by
  cases o with
  | pushMessage connId payload =>
    refine ⟨rfl, rfl, rfl, rfl, fun c => ?_⟩
    rw [WsServer.sendsTo.eq_1 (s.sendMessage _), sendMessage, lookup_insert_eq]
    split
    · rename_i hc
      rw [hc]
      rfl
    · rfl
  | send | newChatMessage | addOneUnread => exact .refl s

end Similar

/-! ## The threads -/

/-- What the handlers of websocketpp push. -/
inductive Queued : Job → Prop where
  | subscribe (hdl : Hdl) : Queued (.action (.subscribe hdl))
  | unsubscribe (hdl : Hdl) : Queued (.action (.unsubscribe hdl))
  | message (hdl : Hdl) (text : String) : Queued (.action (.message hdl text))

/-- The work of other threads. -/
inductive Aside : Job → Prop where
  | update (roomId : Nat) : Aside (.action (.update roomId))
  | check (next : Option Nat) : Aside (.check next)

section Machine

variable (parse : String → Except Fault (Option Json))

/-- How a job is done. -/
def machine : Machine Process World Job Effect Fault where
  start p w j :=
    match j with
    | .action (.unsubscribe hdl) =>
      let (out, server) := p.server.closeRoom w hdl
      .ok (out, ⟨server, p.it.after server.roomManager⟩)
    | _ => p.step parse (w, j)
  finish p j :=
    match j with
    | .action (.unsubscribe hdl) => { p with server := p.server.forget hdl }
    | _ => p
  deliver p o := { p with server := p.server.sendMessage o }

/-- The threads and queues of the server. -/
abbrev Threads := System Process Job Effect

/-- A recorded step of the threads. -/
abbrev ThreadsStep := Pipeline.Step Process World Job Effect

/-- The recorded steps of the threads. -/
abbrev ThreadsHistory := List ThreadsStep

/-- The steps `h` of the threads have led from the start to `s`. -/
abbrev ThreadsRun (h : ThreadsHistory) (s : Threads) : Prop :=
  Run (Pipeline.step (machine parse) Effect.isPush) (fun _ a => Admits Queued Aside a)
    (System.init .new) h s

/-- What another thread does to the rooms and the iterator. -/
def asideOf (w : World) (j : Job) (m : Manager) (it : RoomIterator) :
    Except Fault (List Effect × Manager × RoomIterator) :=
  ((⟨{ new with roomManager := m }, it⟩ : Process).step parse (w, j)).map fun r =>
    (r.1, r.2.server.roomManager, r.2.it)

/-- Other threads change the rooms only, whatever the rest of the server is. -/
theorem start_aside (w : World) {j : Job} (hj : Aside j) (p : Process) :
    (machine parse).start p w j = (asideOf parse w j p.server.roomManager p.it).map fun r =>
      (r.1, ⟨{ p.server with roomManager := r.2.1 }, r.2.2⟩) := by
  obtain ⟨s, it⟩ := p
  cases hj with
  | update roomId => rfl
  | check next =>
    show Process.check _ _ >>= _ = Except.map _ (Except.map _ (Process.check _ _ >>= _))
    unfold Process.check
    cases it with
    | atEnd | dangling => rfl
    | room roomId | empty roomId =>
      dsimp only
      cases s.roomManager.rooms.lookup roomId with
      | none => rfl
      | some r => rfl

variable {parse} {h : ThreadsHistory} {s : Threads}

/-- **The thread gets to every action**: from every state that is reached with actions in the
queue, a few steps of the thread, and a notification that is on its way, lead to the point where
it takes the first of them. It does not sleep over an action that it has not been notified of. -/
theorem gets_to_action (hr : ThreadsRun parse h s) (hinbox : s.inbox ≠ []) :
    ∃ as, (∀ a ∈ as, a.Drives) ∧ as.length ≤ (s.pending 0).length + 1 ∧
      ∃ s', exec (Pipeline.step (machine parse) Effect.isPush) s as = .ok s' ∧
        s'.phase = .awake ∧ s'.inbox = s.inbox :=
  exists_exec_awake hr hinbox

/-- A message of a connection arrives. -/
def arrives (hdl : Hdl) (text : String) : Pipeline.Act World Job :=
  .arrive (.action (.message hdl text))

/-- The thread falls asleep, and then a message arrives. -/
def fallsAsleep : List (Pipeline.Act World Job) := [.sleep, arrives 1 authorizeText]

/-- The thread of the actions sleeps when one is pushed, and wakes up. -/
theorem gets_to_action_fallsAsleep : ∃ h s, ThreadsRun parseAuthorize h s ∧
    h.map Entry.act = fallsAsleep ∧ s.phase = .asleep ∧
    ∃ as, (∀ a ∈ as, a.Drives) ∧ as.length ≤ (s.pending 0).length + 1 ∧
      ∃ s', exec (Pipeline.step (machine parseAuthorize) Effect.isPush) s as = .ok s' ∧
        s'.phase = .awake ∧ s'.inbox = s.inbox := by
  have hok : ∀ s : Threads, ∀ a ∈ fallsAsleep, Admits Queued Aside a := by
    simp only [fallsAsleep, arrives, List.forall_mem_cons, Admits, true_and]
    exact fun _ => ⟨.message .., fun _ ha => absurd ha List.not_mem_nil⟩
  have he : exec (Pipeline.step (machine parseAuthorize) Effect.isPush) (System.init .new)
      fallsAsleep = .ok ⟨[.action (.message 1 authorizeText)], 1, .asleep, .new, fun _ => [], []⟩ :=
    rfl
  obtain ⟨h, hr, hacts⟩ := exists_run_of_exec hok he
  exact ⟨h, _, hr, hacts, rfl, gets_to_action hr (List.cons_ne_nil _ _)⟩

/-- A parser that knows some texts. -/
def parseTexts (text : String) : Except Fault (Option Json) :=
  if text = "list" then .ok (some (.obj [("message_type", .str "GET_ROOM_LIST")]))
  else if text = "create" then
    .ok (some (.obj [("message_type", .str "CREATE_ROOM"), ("room_id", .uint 7),
      ("room_type", .str "GOMOKU"), ("room_name", .str "room"), ("password", .str "")]))
  else if text = "join" then
    .ok (some (.obj [("message_type", .str "JOIN_ROOM"), ("room_id", .uint 7),
      ("password", .str "")]))
  else parseAuthorize text

/-- What decides outside. -/
def world : World := worldOf (1, "a")

end Machine

/-! ## Deliveries -/

section Deliveries

variable {parse : String → Except Fault (Option Json)}

/-- The text asks to be authorized with the session of the user. -/
def Authorizes (parse : String → Except Fault (Option Json)) (w : World) (text : String)
    (userId : Int) (userName : String) : Prop :=
  ∃ msg sessdata, parse text = .ok (some msg) ∧
    msg.Reads "message_type" Json.asString "AUTHORIZE" ∧
    msg.Reads "sessdata" Json.asUInt sessdata ∧
    w.authorize sessdata = .ok (some (userId, userName))

/-- A message changes the rooms only, or its connection is authorized. -/
inductive Outcome (parse : String → Except Fault (Option Json)) (w : World) (s : WsServer)
    (hdl : Hdl) (text : String) : WsServer → Prop where
  | rooms (roomManager : Manager) : Outcome parse w s hdl text { s with roomManager := roomManager }
  | login {userId : Int} {userName : String} (hnew : s.connections.lookup hdl = none)
      (hauth : Authorizes parse w text userId userName) :
      Outcome parse w s hdl text (s.logIn hdl userId userName)

/-- A text changes the rooms only, or logs its connection in. -/
theorem ensures_outcome {w : World} {s : WsServer} {hdl : Hdl} {text : String} :
    Ensures (s.message parse w hdl text) fun r => Outcome parse w s hdl text r.2 := by
  unfold message
  refine .bind' fun parsed hparse => ?_
  cases parsed with
  | none => exact .ok (.rooms s.roomManager)
  | some msg =>
    unfold parsedMessage
    refine .bind' fun _ _ => .ite (fun _ => ?_) fun _ => .ok (.rooms s.roomManager)
    unfold typedMessage
    refine .bind' fun t ht => .bind' fun messageType htype => ?_
    cases hconn : s.connections.lookup hdl with
    | some conn =>
      refine ensures_authorizedMessage.mono fun r hr => ?_
      obtain ⟨roomManager, hr⟩ := hr
      rw [hr]
      exact .rooms roomManager
    | none =>
      show Ensures (s.unauthorizedMessage w hdl messageType msg) _
      unfold unauthorizedMessage
      refine .ite (fun _ => .ok (.rooms s.roomManager)) fun heq => ?_
      refine .bind' fun v hv => .bind' fun sessdata hsess => .bind' fun user huser => ?_
      cases user with
      | none => exact .ok (.rooms s.roomManager)
      | some user =>
        obtain rfl := not_not.mp heq
        exact .ok (.login hconn ⟨msg, sessdata, hparse, ⟨t, ht, htype⟩, ⟨v, hv, hsess⟩, huser⟩)

/-- With the step, the handle is authorized as this connection. -/
def LogsInAs (parse : String → Except Fault (Option Json)) (e : ThreadsStep) (hdl : Hdl)
    (conn : Connection) : Prop :=
  (∃ w text, e.act = .take w ∧ taken e = some (.action (.message hdl text)) ∧
    Authorizes parse w text conn.userId conn.userName) ∧
  conn.connId = e.pre.state.server.connId + 1 ∧
  e.pre.state.server.connections.lookup hdl = none ∧
  e.post.state.server = e.pre.state.server.logIn hdl conn.userId conn.userName

/-- There are connection ids left. -/
def HasIds (s : Threads) : Prop := s.state.server.connId + 1 < 2 ^ 32

/-- What is known of the connection ids: each has been given to one connection, the entries of
`conn_id_2_hdl` are empty handles or such that have been authorized, and every connection has its
entry. -/
structure Addressed (parse : String → Except Fault (Option Json)) (h : ThreadsHistory)
    (s : WsServer) : Prop where
  bound : ∀ e ∈ h, ∀ hdl conn, LogsInAs parse e hdl conn → conn.connId ≤ s.connId
  unique : ∀ e ∈ h, ∀ e' ∈ h, ∀ hdl conn hdl' conn', LogsInAs parse e hdl conn →
    LogsInAs parse e' hdl' conn' → conn'.connId = conn.connId → hdl' = hdl ∧ conn' = conn
  known : ∀ c, s.sendsTo c ≠ .empty → ∃ e ∈ h, ∃ conn, LogsInAs parse e (s.sendsTo c) conn ∧
    conn.connId = c
  used : ∀ hdl conn, s.connections.lookup hdl = some conn → conn.connId ≤ s.connId
  live : ∀ hdl conn, s.connections.lookup hdl = some conn → s.sendsTo conn.connId = hdl

section Addressed

variable {h : ThreadsHistory} {s s' : WsServer} {e : ThreadsStep}

theorem addressed_new : Addressed parse [] new :=
  ⟨fun _ he => (nomatch he), fun _ he => (nomatch he), fun _ hc => absurd rfl hc,
    fun _ _ he => (nomatch he), fun _ _ he => (nomatch he)⟩

/-- A step with which nobody is authorized. -/
theorem Addressed.quiet (ha : Addressed parse h s) (he : ∀ hdl conn, ¬ LogsInAs parse e hdl conn)
    (hconnections : s'.connections = s.connections) (hsends : ∀ c, s'.sendsTo c = s.sendsTo c)
    (hconnId : s'.connId = s.connId) : Addressed parse (h ++ [e]) s' := by
  have hmem : ∀ {x hdl conn}, x ∈ h ++ [e] → LogsInAs parse x hdl conn → x ∈ h := by
    intro x hdl conn hx hlogs
    rcases List.mem_append.mp hx with hx | hx
    · exact hx
    · exact absurd (List.mem_singleton.mp hx ▸ hlogs) (he hdl conn)
  refine ⟨fun x hx hdl conn hlogs => ?_, fun x hx x' hx' hdl conn hdl' conn' hlogs hlogs' hc => ?_,
    fun c hc => ?_, fun hdl conn hconn => ?_, fun hdl conn hconn => ?_⟩
  · rw [hconnId]
    exact ha.bound x (hmem hx hlogs) hdl conn hlogs
  · exact ha.unique x (hmem hx hlogs) x' (hmem hx' hlogs') hdl conn hdl' conn' hlogs hlogs' hc
  · rw [hsends] at hc ⊢
    obtain ⟨x, hx, hlogs⟩ := ha.known c hc
    exact ⟨x, List.mem_append_left _ hx, hlogs⟩
  · rw [hconnId]
    exact ha.used hdl conn (hconnections ▸ hconn)
  · rw [hsends]
    exact ha.live hdl conn (hconnections ▸ hconn)

/-- A login says who has logged in. -/
theorem logIn_inj {hdl hdl' : Hdl} {userId userId' : Int} {userName userName' : String}
    (h : s.logIn hdl userId userName = s.logIn hdl' userId' userName') :
    hdl' = hdl ∧ userId' = userId ∧ userName' = userName := by
  have hhdl := congrArg (fun s => s.connId2Hdl.lookup s.connId) h
  simp only [logIn, AList.lookup_insert, Option.some.injEq] at hhdl
  subst hhdl
  have hconn := congrArg (fun s => s.connections.lookup hdl) h
  simp only [logIn, AList.lookup_insert, Option.some.injEq, Connection.mk.injEq] at hconn
  exact ⟨rfl, hconn.1.symm, hconn.2.1.symm⟩

/-- A step with which a handle is authorized. -/
theorem Addressed.login (ha : Addressed parse h e.pre.state.server) {hdl : Hdl} {conn : Connection}
    (hids : e.pre.state.server.connId + 1 < 2 ^ 32) (hlogs : LogsInAs parse e hdl conn) :
    Addressed parse (h ++ [e]) e.post.state.server := by
  obtain ⟨hauth, hid, hnew, hpost⟩ := id hlogs
  have hnext : e.pre.state.server.nextConnId = conn.connId := by
    rw [hid]
    exact Nat.mod_eq_of_lt hids
  have hconnId : e.post.state.server.connId = conn.connId := by
    rw [hpost]
    exact hnext
  have hsends (c : Nat) : e.post.state.server.sendsTo c =
      if c = conn.connId then hdl else e.pre.state.server.sendsTo c := by
    rw [hpost, ← hnext]
    exact sendsTo_logIn ..
  have hsame : ∀ hdl' conn', LogsInAs parse e hdl' conn' → hdl' = hdl ∧ conn' = conn := by
    rintro hdl' conn' ⟨-, hid', -, hpost'⟩
    obtain ⟨rfl, huser, hname⟩ := logIn_inj (hpost.symm.trans hpost')
    refine ⟨rfl, ?_⟩
    obtain ⟨userId, userName, connId⟩ := conn
    obtain ⟨userId', userName', connId'⟩ := conn'
    obtain rfl : userId' = userId := huser
    obtain rfl : userName' = userName := hname
    obtain rfl : connId' = connId := hid'.trans hid.symm
    rfl
  -- an older login has a smaller id
  have hold : ∀ x ∈ h, ∀ hdl' conn', LogsInAs parse x hdl' conn' → conn'.connId ≠ conn.connId := by
    intro x hx hdl' conn' hx'
    have := ha.bound x hx hdl' conn' hx'
    omega
  refine ⟨fun x hx hdl' conn' hx' => ?_, fun x hx x' hx' hdl₁ conn₁ hdl₂ conn₂ h₁ h₂ hc => ?_,
    fun c hc => ?_, fun hdl' conn' hconn => ?_, fun hdl' conn' hconn => ?_⟩
  · rw [hconnId]
    rcases List.mem_append.mp hx with hx | hx
    · have := ha.bound x hx hdl' conn' hx'
      omega
    · obtain rfl := List.mem_singleton.mp hx
      rw [(hsame hdl' conn' hx').2]
  · rcases List.mem_append.mp hx with hmem | hmem
    · rcases List.mem_append.mp hx' with hmem' | hmem'
      · exact ha.unique x hmem x' hmem' hdl₁ conn₁ hdl₂ conn₂ h₁ h₂ hc
      · rw [List.mem_singleton.mp hmem'] at h₂
        rw [(hsame _ _ h₂).2] at hc
        exact absurd hc.symm (hold x hmem hdl₁ conn₁ h₁)
    · rw [List.mem_singleton.mp hmem] at h₁
      obtain ⟨rfl, rfl⟩ := hsame _ _ h₁
      rcases List.mem_append.mp hx' with hmem' | hmem'
      · exact absurd hc (hold x' hmem' hdl₂ conn₂ h₂)
      · rw [List.mem_singleton.mp hmem'] at h₂
        exact hsame _ _ h₂
  · by_cases heq : c = conn.connId
    · rw [hsends, if_pos heq]
      exact ⟨e, List.mem_append_right _ List.mem_cons_self, conn, hlogs, heq.symm⟩
    · rw [hsends, if_neg heq] at hc ⊢
      obtain ⟨x, hx, hknown⟩ := ha.known c hc
      exact ⟨x, List.mem_append_left _ hx, hknown⟩
  · rw [hconnId]
    rw [hpost, logIn, lookup_insert_eq] at hconn
    split at hconn
    · obtain rfl := Option.some.inj hconn
      exact Nat.le_of_eq hnext
    · have := ha.used hdl' conn' hconn
      omega
  · rw [hpost, logIn, lookup_insert_eq] at hconn
    rw [hsends]
    split at hconn
    · rename_i heq
      obtain rfl := Option.some.inj hconn
      rw [heq]
      exact if_pos hnext
    · have hused := ha.used hdl' conn' hconn
      rw [if_neg (by omega)]
      exact ha.live hdl' conn' hconn

/-- A closed connection loses its own entry. -/
theorem Addressed.forget (ha : Addressed parse h s) (hdl : Hdl) :
    Addressed parse h (s.forget hdl) := by
  cases hconn : s.connections.lookup hdl with
  | none =>
    unfold WsServer.forget
    rw [hconn]
    exact ha
  | some conn =>
    have hsends := sendsTo_forget hconn
    have hconnId : (s.forget hdl).connId = s.connId := by
      unfold WsServer.forget
      rw [hconn]
    have hkept : ∀ hdl' conn', (s.forget hdl).connections.lookup hdl' = some conn' →
        hdl' ≠ hdl ∧ s.connections.lookup hdl' = some conn' := by
      intro hdl' conn' hconn'
      unfold WsServer.forget at hconn'
      rw [hconn] at hconn'
      change (s.connections.erase hdl).lookup hdl' = some conn' at hconn'
      rw [lookup_erase_eq] at hconn'
      split at hconn'
      · cases hconn'
      · exact ⟨‹_›, hconn'⟩
    refine ⟨fun e he hdl' conn' hlogs => ?_, ha.unique, fun c hc => ?_, fun hdl' conn' hconn' => ?_,
      fun hdl' conn' hconn' => ?_⟩
    · rw [hconnId]
      exact ha.bound e he hdl' conn' hlogs
    · rw [hsends] at hc ⊢
      by_cases heq : c = conn.connId
      · exact absurd (if_pos heq) hc
      · rw [if_neg heq] at hc ⊢
        exact ha.known c hc
    · rw [hconnId]
      exact ha.used hdl' conn' (hkept hdl' conn' hconn').2
    · obtain ⟨hne, hconn'⟩ := hkept hdl' conn' hconn'
      have hlive := ha.live hdl' conn' hconn'
      rw [hsends, if_neg]
      · exact hlive
      · intro hc
        rw [hc] at hlive
        exact hne (hlive.symm.trans (ha.live hdl conn hconn))

/-- A step that only the rooms are changed by. -/
theorem not_logsInAs (hconnId : e.post.state.server.connId = e.pre.state.server.connId)
    (hids : e.pre.state.server.connId + 1 < 2 ^ 32) (hdl : Hdl) (conn : Connection) :
    ¬ LogsInAs parse e hdl conn := by
  rintro ⟨-, -, -, hpost⟩
  rw [hpost] at hconnId
  change e.pre.state.server.nextConnId = _ at hconnId
  rw [nextConnId, Nat.mod_eq_of_lt hids] at hconnId
  omega

/-- The first part of an action changes the rooms only, or a connection is authorized. -/
theorem start_cases {w : World} {p p' : Process} {j : Job} {out : List Effect} (hj : Queued j)
    (hstart : (machine parse).start p w j = .ok (out, p')) :
    (∃ roomManager, p'.server = { p.server with roomManager := roomManager }) ∨
      ∃ hdl text userId userName, j = .action (.message hdl text) ∧
        p.server.connections.lookup hdl = none ∧ Authorizes parse w text userId userName ∧
        p'.server = p.server.logIn hdl userId userName := by
  cases hj with
  | message hdl text =>
    have hstep : Ensures ((p.server.message parse w hdl text) >>= fun r =>
        .ok (r.1, (⟨r.2, p.it.after r.2.roomManager⟩ : Process))) fun r =>
        Outcome parse w p.server hdl text r.2.server :=
      ensures_outcome.bind fun r hr => .ok hr
    have houtcome := hstep _ hstart
    dsimp only at houtcome
    generalize p'.server = s' at houtcome ⊢
    cases houtcome with
    | rooms roomManager => exact .inl ⟨roomManager, rfl⟩
    | login hnew hauth => exact .inr ⟨hdl, text, _, _, rfl, hnew, hauth, rfl⟩
  | subscribe hdl =>
    obtain ⟨-, rfl⟩ := Prod.mk.inj (Except.ok.inj hstart)
    exact .inl ⟨p.server.roomManager, rfl⟩
  | unsubscribe hdl =>
    obtain ⟨-, rfl⟩ := Prod.mk.inj (Except.ok.inj hstart)
    refine .inl ?_
    show ∃ roomManager, (p.server.closeRoom w hdl).2 = { p.server with roomManager := roomManager }
    unfold closeRoom
    cases p.server.connections.lookup hdl with
    | none => exact ⟨p.server.roomManager, rfl⟩
    | some conn => exact ⟨_, rfl⟩

/-- **Step lemma**. -/
theorem Addressed.step {t t' : Threads} {a : Pipeline.Act World Job} {seen : Seen Effect}
    (htidy : Tidy Queued t) (ha : Addressed parse h t.state.server)
    (hadmits : Admits Queued Aside a) (hids : HasIds t)
    (hstep : Pipeline.step (machine parse) Effect.isPush t a = .ok (seen, t')) :
    Addressed parse (h ++ [⟨t, a, seen, t'⟩]) t'.state.server := by
  have hnot {hdl : Hdl} {conn : Connection}
      (hconnId : t'.state.server.connId = t.state.server.connId) :
      ¬ LogsInAs parse ⟨t, a, seen, t'⟩ hdl conn :=
    not_logsInAs (e := ⟨t, a, seen, t'⟩) hconnId hids hdl conn
  have hrooms {roomManager : Manager}
      (hserver : t'.state.server = { t.state.server with roomManager := roomManager }) :
      Addressed parse (h ++ [⟨t, a, seen, t'⟩]) t'.state.server := by
    have hconnId : t'.state.server.connId = t.state.server.connId := by rw [hserver]
    refine ha.quiet (fun _ _ => hnot hconnId) ?_ (fun c => ?_) hconnId
    · rw [hserver]
    · rw [hserver]
      rfl
  cases step_cases hstep with
  | @takes w j _ _ _ _ hinbox hstart =>
    have hqueued : Queued j := htidy.inbox j (hinbox ▸ List.mem_cons_self)
    rcases start_cases hqueued hstart with ⟨roomManager, hserver⟩ |
      ⟨hdl, text, userId, userName, rfl, hnew, hauth, hserver⟩
    · exact hrooms hserver
    · refine Addressed.login (e := ⟨t, _, _, _⟩) ha hids
        (⟨⟨_, text, rfl, ?_, hauth⟩, rfl, hnew, hserver⟩ :
          LogsInAs parse _ hdl ⟨userId, userName, t.state.server.connId + 1⟩)
      simp only [taken, hinbox]
  | begins _ _ hstart =>
    rw [start_aside parse _ hadmits] at hstart
    obtain ⟨r, -, he⟩ := map_eq_ok_iff.mp hstart
    obtain ⟨-, rfl⟩ := Prod.mk.inj he
    exact hrooms rfl
  | @finishes j =>
    have hkeeps : Addressed parse h ((machine parse).finish t.state j).server := by
      cases j with
      | action a =>
        cases a with
        | unsubscribe hdl => exact ha.forget hdl
        | _ => exact ha
      | _ => exact ha
    refine hkeeps.quiet (fun hdl conn hlogs => ?_) rfl (fun _ => rfl) rfl
    obtain ⟨⟨_, _, hact, -⟩, -⟩ := hlogs
    cases hact
  | @delivers o =>
    obtain ⟨hconnections, -, hconnId, -, hsends⟩ := similar_sendMessage t.state.server o
    exact ha.quiet (fun _ _ => hnot hconnId.symm) hconnections.symm (fun c => (hsends c).symm)
      hconnId.symm
  | _ => exact ha.quiet (fun _ _ => hnot rfl) rfl (fun _ => rfl) rfl

end Addressed

/-- The runs in which there are connection ids left. -/
abbrev RunWithIds (parse : String → Except Fault (Option Json)) (h : ThreadsHistory)
    (s : Threads) : Prop :=
  Run (Pipeline.step (machine parse) Effect.isPush) (fun s a => Admits Queued Aside a ∧ HasIds s)
    (System.init .new) h s

/-- **Run lemma**, at the end and at every step of a run. -/
theorem addressed_of_run {h : ThreadsHistory} {s : Threads} (hr : RunWithIds parse h s) :
    Tidy Queued s ∧ Addressed parse h s.state.server ∧
      ∀ e ∈ h, ∃ h₁ ⊆ h, Addressed parse h₁ e.pre.state.server := by
  induction hr with
  | nil =>
    exact ⟨⟨fun _ he => (nomatch he), fun _ he => (nomatch he), fun _ => rfl⟩, addressed_new,
      fun _ he => nomatch he⟩
  | @snoc h _ _ _ _ _ hok hstep ih =>
    obtain ⟨htidy, haddressed, hall⟩ := ih
    refine ⟨htidy.step hok.1 hstep, haddressed.step htidy hok.1 hok.2 hstep, fun e he => ?_⟩
    rcases List.mem_append.mp he with he | he
    · obtain ⟨h₁, hsub, haddressed⟩ := hall e he
      exact ⟨h₁, List.subset_append_of_subset_left _ hsub, haddressed⟩
    · obtain rfl := List.mem_singleton.mp he
      exact ⟨h, List.subset_append_left _ _, haddressed⟩

/-- What `send_message` leaves under the id is what it has found there. -/
theorem entry_of_delivered {h : ThreadsHistory} {s : Threads} (hr : RunWithIds parse h s)
    {e : ThreadsStep} (he : e ∈ h) {c : Nat} {payload : Json}
    (hdelivered : delivered e = some (.pushMessage c payload)) :
    e.post.state.server.connId2Hdl.lookup c = some (e.pre.state.server.sendsTo c) := by
  obtain ⟨t, a, seen, t'⟩ := e
  obtain ⟨-, -, hstep⟩ : _ ∧ _ ∧ Pipeline.step (machine parse) Effect.isPush t a = .ok (seen, t') :=
    hr.mem_entry _ he
  cases step_cases hstep with
  | delivers =>
    obtain rfl := Option.some.inj hdelivered
    exact AList.lookup_insert _
  | _ => cases hdelivered

/-- **Responses reach their owner**, in every run in which there are connection ids left. What
is delivered for an id goes to a handle that has been authorized under it, and no handle has
been authorized under it as anything else, or to an empty handle; the id has an entry with this
handle afterwards; and while a connection is there, it gets what is delivered for its id. -/
theorem delivered_to_owner {h : ThreadsHistory} {s : Threads} (hr : RunWithIds parse h s) :
    ∀ e ∈ h, ∀ c payload, delivered e = some (.pushMessage c payload) →
      (e.pre.state.server.sendsTo c = .empty ∨
        ∃ login ∈ h, ∃ conn, LogsInAs parse login (e.pre.state.server.sendsTo c) conn ∧
          conn.connId = c ∧ ∀ e' ∈ h, ∀ hdl' conn', LogsInAs parse e' hdl' conn' →
            conn'.connId = c → hdl' = e.pre.state.server.sendsTo c ∧ conn' = conn) ∧
      e.post.state.server.connId2Hdl.lookup c = some (e.pre.state.server.sendsTo c) ∧
      ∀ hdl conn, e.pre.state.server.connections.lookup hdl = some conn → conn.connId = c →
        e.pre.state.server.sendsTo c = hdl := by
  intro e he c payload hdelivered
  obtain ⟨-, haddressed, hall⟩ := addressed_of_run hr
  obtain ⟨h₁, hsub, hpre⟩ := hall e he
  refine ⟨?_, entry_of_delivered hr he hdelivered,
    fun hdl conn hconn hc => hc ▸ hpre.live hdl conn hconn⟩
  by_cases hempty : e.pre.state.server.sendsTo c = .empty
  · exact .inl hempty
  obtain ⟨login, hlogin, conn, hlogs, hid⟩ := hpre.known c hempty
  refine .inr ⟨login, hsub hlogin, conn, hlogs, hid, fun e' he' hdl' conn' hlogs' hid' => ?_⟩
  exact haddressed.unique login (hsub hlogin) e' he' _ conn hdl' conn' hlogs hlogs'
    (hid'.trans hid.symm)

/-- User 1 logs in, asks twice for the list of rooms, and leaves before the second one is
delivered. -/
def leavesEarly : List (Pipeline.Act World Job) :=
  [arrives 1 authorizeText, arrives 1 "list", arrives 1 "list",
    .arrive (.action (.unsubscribe 1)), .take world, .emit 0, .finish, .take world, .emit 0,
    .finish, .take world, .emit 0, .finish, .deliver, .take world, .finish, .deliver]

theorem admits_leavesEarly : ∀ _ : Threads, ∀ a ∈ leavesEarly, Admits Queued Aside a := by
  simp only [leavesEarly, arrives, List.forall_mem_cons, Admits, true_and]
  exact fun _ => ⟨.message .., .message .., .message .., .unsubscribe 1,
    fun _ ha => absurd ha List.not_mem_nil⟩

theorem exec_leavesEarly : (execAll (Pipeline.step (machine parseTexts) Effect.isPush)
    (fun e => decide (e.pre.state.server.connId + 1 < 2 ^ 32)) (System.init .new)
      leavesEarly).any
      (fun s => s.state.server.connId2Hdl.lookup 1 == some .empty) = true := by
  decide +kernel

/-- A user leaves before a message of the room is delivered: it goes to an empty handle. -/
theorem delivered_to_owner_leavesEarly : ∃ h s, RunWithIds parseTexts h s ∧
    h.map Entry.act = leavesEarly ∧ s.state.server.connId2Hdl.lookup 1 = some .empty ∧
    ∀ e ∈ h, ∀ c payload, delivered e = some (.pushMessage c payload) →
      (e.pre.state.server.sendsTo c = .empty ∨
        ∃ login ∈ h, ∃ conn, LogsInAs parseTexts login (e.pre.state.server.sendsTo c) conn ∧
          conn.connId = c ∧ ∀ e' ∈ h, ∀ hdl' conn', LogsInAs parseTexts e' hdl' conn' →
            conn'.connId = c → hdl' = e.pre.state.server.sendsTo c ∧ conn' = conn) ∧
      e.post.state.server.connId2Hdl.lookup c = some (e.pre.state.server.sendsTo c) ∧
      ∀ hdl conn, e.pre.state.server.connections.lookup hdl = some conn → conn.connId = c →
        e.pre.state.server.sendsTo c = hdl := by
  obtain ⟨h, s, hr, hacts, hids, hempty⟩ :=
    exists_run_of_execAll admits_leavesEarly exec_leavesEarly
  have hids : ∀ e ∈ h, HasIds e.pre :=
    fun e he => of_decide_eq_true (p := e.pre.state.server.connId + 1 < 2 ^ 32) (hids e he)
  exact ⟨h, s, hr.and hids, hacts, eq_of_beq hempty, delivered_to_owner (hr.and hids)⟩

end Deliveries

end WsServer

end UnoppServer
