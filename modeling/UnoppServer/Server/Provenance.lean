import UnoppServer.Chat.Flush
import UnoppServer.Chat.Listing
import UnoppServer.Server.Authority

/-!
# The program: where messages come from

- `authentic_of_run`: in every run, each message in the chat history was sent over a connection of
  its sender, and names the sender; and a connection is authorized as the user whose session it has
  sent, which has been opened with the password;
- `private_of_run`: in every run, a request for the chat history is answered by such messages only,
  of which its user is the sender or the receiver.
-/

namespace UnoppServer

open Assoc Authorizer FindIf HttpServer Runs Sections

namespace Json

variable {v v' : Json} {key key' : String}

/-- The other members stay what they are. -/
theorem get_of_set_of_ne {value : Json} (h : v.set key value = .ok v') (hne : key' ≠ key) :
    v'.get key' = v.get key' := by
  cases v with
  | null =>
    obtain rfl := Except.ok.inj h
    rw [get_obj, List.lookup_cons, beq_eq_false_iff_ne.mpr hne]
    rfl
  | obj members =>
    obtain rfl := Except.ok.inj h
    rw [get_obj, lookup_upsert_of_ne _ _ hne]
    rfl
  | _ => cases h

/-- A member that is added without a value reads as before. -/
theorem get_of_touch (h : v.touch key = .ok v') (key' : String) : v'.get key' = v.get key' := by
  cases v with
  | null =>
    obtain rfl := Except.ok.inj h
    rw [get_obj, List.lookup_cons]
    split
    · rfl
    · rfl
  | obj members =>
    obtain rfl := Except.ok.inj h
    split
    · rfl
    rename_i hnone
    rw [get_obj, get_obj, List.lookup_append]
    cases hlook : members.lookup key' with
    | some x => rfl
    | none =>
      rw [Option.none_or, List.lookup_cons]
      split
      · rfl
      · rfl
  | _ => cases h

end Json

namespace WsServer

/-! ## One action -/

section Step

variable {parse : String → Except Fault (Option Json)} {w : World} {s s' : WsServer} {hdl : Hdl}
  {conn : Connection} {a : Action} {out : List Effect} {senderId receiverId : Int} {message : Json}

/-- What is passed on is the message of the text, to the receiver of the text, and it names the
connection's user and the time. -/
structure Signed (conn : Connection) (timestamp : Int) (msg : Json) (senderId receiverId : Int)
    (message : Json) : Prop where
  sender : conn.userId = senderId
  receiver : msg.Reads "receiver_id" Json.asInt receiverId
  userId : message.get "user_id" = .ok (.int conn.userId)
  userName : message.get "user_name" = .ok (.str conn.userName)
  timestamp : message.get "timestamp" = .ok (.int timestamp)
  members : ∃ v, msg.get "message" = .ok v ∧
    ∀ key, key ∉ ["user_name", "user_id", "timestamp"] → message.get key = v.get key

/-- A whisper is saved under the id of the user who sent it. -/
theorem ensures_whisper {msg : Json} : Ensures (s.whisper w hdl conn msg) fun effects =>
    ∀ senderId receiverId message, Effect.newChatMessage senderId receiverId message ∈ effects →
      Signed conn w.timestamp msg senderId receiverId message := by
  refine .bind' fun msg' htouch => .bind' fun x hx => .bind' fun receiverId hreceiver => ?_
  refine .bind' fun v hv => .bind' fun m₁ h₁ => .bind' fun m₂ h₂ => .bind' fun m₃ h₃ => ?_
  refine .bind' fun msg'' _ => .ok ?_
  intro senderId' receiverId' message hmem
  rw [Json.get_of_touch htouch] at hx hv
  rcases List.mem_append.mp hmem with hmem | hmem
  · rcases List.mem_cons.mp hmem with he | hmem
    · obtain ⟨rfl, rfl, rfl⟩ := Effect.newChatMessage.inj he
      constructor
      · rfl
      · exact ⟨x, hx, hreceiver⟩
      · rw [Json.get_of_set_of_ne h₃ (by decide)]
        exact Json.get_of_set h₂
      · rw [Json.get_of_set_of_ne h₃ (by decide), Json.get_of_set_of_ne h₂ (by decide)]
        exact Json.get_of_set h₁
      · exact Json.get_of_set h₃
      · refine ⟨v, hv, fun key hkey => ?_⟩
        obtain ⟨hname, hid, htime⟩ :
            key ≠ "user_name" ∧ key ≠ "user_id" ∧ key ≠ "timestamp" := by simpa using hkey
        rw [Json.get_of_set_of_ne h₃ htime, Json.get_of_set_of_ne h₂ hid,
          Json.get_of_set_of_ne h₁ hname]
    · rcases List.mem_pair.mp hmem with he | he
      · cases he
      · cases he
  · obtain ⟨_, _, he⟩ := List.mem_map.mp hmem
    cases he

theorem not_mem_push {o : Outbox} : Effect.newChatMessage senderId receiverId message ∉ push o := by
  intro hmem
  obtain ⟨_, _, he⟩ := List.mem_map.mp hmem
  cases he

/-- The text asks to whisper. -/
def Whispers (parse : String → Except Fault (Option Json)) (text : String) (msg : Json) : Prop :=
  parse text = .ok (some msg) ∧ msg.Reads "message_type" Json.asString "WHISPER_MESSAGE"

/-- Only an authorized connection makes a new message. -/
theorem ensures_message_signed {text : String} : Ensures (s.message parse w hdl text) fun r =>
    ∀ senderId receiverId message, Effect.newChatMessage senderId receiverId message ∈ r.1 →
      ∃ conn msg, s.connections.lookup hdl = some conn ∧ Whispers parse text msg ∧
        Signed conn w.timestamp msg senderId receiverId message := by
  have hnone {senderId receiverId : Int} {message : Json} {P : Prop}
      (h : Effect.newChatMessage senderId receiverId message ∈ ([] : List Effect)) : P :=
    absurd h List.not_mem_nil
  have hsend {senderId receiverId : Int} {message v : Json} {P : Prop}
      (h : Effect.newChatMessage senderId receiverId message ∈ [Effect.send hdl v]) : P := by
    cases List.mem_singleton.mp h
  unfold message
  refine .bind' fun parsed hparse => ?_
  cases parsed with
  | none => exact .ok fun _ _ _ => hnone
  | some msg =>
    unfold parsedMessage
    refine .bind' fun _ _ => .ite (fun _ => ?_) fun _ => .ok fun _ _ _ => hnone
    unfold typedMessage
    refine .bind' fun t ht => .bind' fun messageType htype => ?_
    cases hconn : s.connections.lookup hdl with
    | some conn =>
      show Ensures (s.authorizedMessage w hdl conn messageType msg) _
      unfold authorizedMessage
      refine .ite (fun hwhisper => ?_) fun _ => .ite (fun _ => ?_) fun _ => ?_
      · refine Ensures.bind ensures_whisper fun effects heffects => .ok ?_
        have hwhispers : Whispers parse text msg := ⟨hparse, t, ht, hwhisper ▸ htype⟩
        exact fun _ _ _ hmem => ⟨conn, msg, rfl, hwhispers, heffects _ _ _ hmem⟩
      · exact .bind' fun _ _ => .bind' fun _ _ => .bind' fun _ _ => .ok fun _ _ _ => hnone
      · exact .bind' fun _ _ => .ok fun _ _ _ hmem => absurd hmem not_mem_push
    | none =>
      show Ensures (s.unauthorizedMessage w hdl messageType msg) _
      unfold unauthorizedMessage
      refine .ite (fun _ => .ok fun _ _ _ => hsend) fun _ => ?_
      refine .bind' fun _ _ => .bind' fun _ _ => .bind' fun user _ => ?_
      cases user with
      | none => exact .ok fun _ _ _ => hsend
      | some user => exact .ok fun _ _ _ => hsend

/-- A message is saved when a whisper is processed, and as it was sent. -/
theorem step_newChatMessage (h : s.step parse (w, a) = .ok (out, s'))
    (hmem : Effect.newChatMessage senderId receiverId message ∈ out) :
    ∃ hdl text conn msg, a = .message hdl text ∧ s.connections.lookup hdl = some conn ∧
      Whispers parse text msg ∧ Signed conn w.timestamp msg senderId receiverId message := by
  cases a with
  | message hdl text =>
    have hensures : Ensures (s.message parse w hdl text) _ := ensures_message_signed
    obtain ⟨conn, msg, hconn, hwhispers, hsigned⟩ := hensures _ h _ _ _ hmem
    exact ⟨hdl, text, conn, msg, rfl, hconn, hwhispers, hsigned⟩
  | subscribe | visit =>
    obtain ⟨rfl, -⟩ := Prod.mk.inj (Except.ok.inj h)
    exact absurd hmem List.not_mem_nil
  | unsubscribe hdl =>
    obtain ⟨rfl, -⟩ := Prod.mk.inj (Except.ok.inj h)
    change Effect.newChatMessage senderId receiverId message ∈ (s.unsubscribe w hdl).1 at hmem
    unfold unsubscribe at hmem
    split at hmem
    · exact absurd hmem List.not_mem_nil
    · exact absurd hmem not_mem_push
  | update roomId =>
    obtain ⟨rfl, -⟩ := Prod.mk.inj (Except.ok.inj h)
    exact absurd hmem not_mem_push

/-- The connections after an action. -/
theorem step_connections (h : s.step parse (w, a) = .ok (out, s'))
    (hconn : s'.connections.lookup hdl = some conn) : s.connections.lookup hdl = some conn ∨
      ∃ text, a = .message hdl text ∧ Authorizes parse w text conn.userId conn.userName := by
  cases a with
  | message hdl' text =>
    have hensures : Ensures (s.message parse w hdl' text) _ := ensures_outcome
    cases hensures _ h with
    | rooms => exact .inl hconn
    | login _ hauth =>
      change (s.connections.insert hdl' _).lookup hdl = some conn at hconn
      rw [lookup_insert_eq] at hconn
      split at hconn
      · rename_i he
        obtain rfl := Option.some.inj hconn
        exact .inr ⟨text, he ▸ rfl, hauth⟩
      · exact .inl hconn
  | subscribe | visit | update =>
    obtain ⟨-, rfl⟩ := Prod.mk.inj (Except.ok.inj h)
    exact .inl hconn
  | unsubscribe hdl' =>
    obtain ⟨-, rfl⟩ := Prod.mk.inj (Except.ok.inj h)
    change (s.unsubscribe w hdl').2.connections.lookup hdl = some conn at hconn
    unfold unsubscribe at hconn
    split at hconn
    · exact .inl hconn
    · change (s.connections.erase hdl').lookup hdl = some conn at hconn
      rw [lookup_erase_eq] at hconn
      split at hconn
      · cases hconn
      · exact .inl hconn

end Step

end WsServer

namespace Site

open WsServer (Signed Whispers)

/-! ## Connections -/

section Connections

variable (reader : String → Except Fault (Bool × Json)) (write : Json → String)

/-- The step `e` after the steps `h` authorizes the connection: its text is an `AUTHORIZE` with a
session of a user with the id and the name of the connection, and the session has been opened. -/
def Connects (h : List SiteStep) (e : SiteStep) (hdl : Hdl) (conn : Connection) : Prop :=
  ∃ c env text msg t u, e.act = .other (.act c env (.message hdl text)) ∧
    valueOf reader text = .ok (some msg) ∧
    msg.Reads "message_type" Json.asString "AUTHORIZE" ∧ msg.Reads "sessdata" Json.asUInt t ∧
    u ∈ e.pre.state.inbox.accounts.users ∧ u.sessdata = some t ∧ toInt u.id = conn.userId ∧
    u.userName = conn.userName ∧ Opened reader h t u.id

/-- The connection has been authorized. -/
def Connected (h : List SiteStep) (hdl : Hdl) (conn : Connection) : Prop :=
  ∃ h₁ e h₂, h = h₁ ++ e :: h₂ ∧ Connects reader h₁ e hdl conn

/-- The text of the message has been written for a `WHISPER_MESSAGE` over a connection that was
authorized as the sender: it is the message of the request, for the receiver of the request, and
names the sender. -/
def Whispered (h : List SiteStep) (senderId receiverId : Int) (text : String) : Prop :=
  ∃ h₁ e h₂ c env hdl request conn msg message out, h = h₁ ++ e :: h₂ ∧
    e.act = .other (.act c env (.message hdl request)) ∧ e.out = .other out ∧
    Effect.newChatMessage senderId receiverId message ∈ out ∧ text = write message ∧
    e.pre.state.ws.connections.lookup hdl = some conn ∧ Connected reader h₁ hdl conn ∧
    Whispers (valueOf reader) request msg ∧
    Signed conn c.draw.time msg senderId receiverId message

/-- The messages of the history, and those that are still to be added. -/
structure Sourced (h : List SiteStep) (s : Site) : Prop where
  messages : ∀ m ∈ s.chat.allMessages, Whispered reader write h m.senderId m.receiverId m.message
  tasks : ∀ senderId receiverId message, Task.newChatMessage senderId receiverId message ∈ s.tasks →
    Whispered reader write h senderId receiverId (write message)

variable {reader write} {h : List SiteStep} {e : SiteStep} {S : Requests} {hdl : Hdl}
  {conn : Connection}

theorem Connected.append (hc : Connected reader h hdl conn) :
    Connected reader (h ++ [e]) hdl conn := by
  obtain ⟨h₁, e', h₂, rfl, hconnects⟩ := hc
  exact ⟨h₁, e', h₂ ++ [e], by rw [List.append_assoc]; rfl, hconnects⟩

theorem Whispered.append {senderId receiverId : Int} {text : String}
    (hw : Whispered reader write h senderId receiverId text) (l : List SiteStep) :
    Whispered reader write (h ++ l) senderId receiverId text := by
  obtain ⟨h₁, e', h₂, c, env, hdl, request, conn, msg, message, out, rfl, hrest⟩ := hw
  exact ⟨h₁, e', h₂ ++ l, c, env, hdl, request, conn, msg, message, out,
    by rw [List.append_assoc]; rfl, hrest⟩

/-- No request touches the connections, the messages and the tasks. -/
theorem ws_of_does {parse : String → Except Fault Json} {r : Request} {past : Site → Prop}
    {s s' : Site} (hd : Does parse r past s s') :
    s'.ws = s.ws ∧ s'.chat = s.chat ∧ s'.tasks = s.tasks := by
  cases hd <;> exact ⟨rfl, rfl, rfl⟩

/-- A step leaves all these alone, or it is one of another thread. -/
theorem other_cases (hx : Explained (elsewhere reader write) (Does (rootOf reader))
      (Answers (storedValue reader)) h e) :
    (e.post.state.ws = e.pre.state.ws ∧ e.post.state.chat = e.pre.state.chat ∧
      e.post.state.tasks = e.pre.state.tasks) ∨
      ∃ k out, e.act = .other k ∧ e.out = .other out ∧
        e.pre.state.elsewhere reader write k = .ok (out, e.post.state) := by
  cases hx with
  | nothing hstate => exact .inl (hstate ▸ ⟨rfl, rfl, rfl⟩)
  | answer _ _ _ hstate => exact .inl (hstate ▸ ⟨rfl, rfl, rfl⟩)
  | goes _ _ hdo => exact .inl (ws_of_does hdo)
  | other hact helse hout => exact .inr ⟨_, _, hact, hout, helse⟩

/-- What `process_message` is answered about a session. -/
theorem row_of_worldOf {s : Site} {c : Chance} {env : Env} {t : Nat} {userId : Int}
    {userName : String} (h : (s.worldOf c env).authorize t = .ok (some (userId, userName))) :
    ∃ u ∈ s.inbox.accounts.users, u.sessdata = some t ∧ toInt u.id = userId ∧
      u.userName = userName := by
  unfold worldOf at h
  dsimp only at h
  split at h
  · cases h
  · have ha := Except.ok.inj h
    unfold Authorizer.authorize at ha
    split at ha
    · cases ha
    · rename_i u hu
      obtain ⟨rfl, rfl⟩ := Prod.mk.inj (Option.some.inj ha)
      obtain ⟨hmem, ht⟩ := selectUser_mem hu
      exact ⟨u, hmem, beq_iff_eq.mp ht, rfl, rfl⟩

/-- A task is none of a connection. -/
theorem ws_performFirst (write : Json → String) (s : Site) (c : Chance) :
    (s.performFirst write c).ws = s.ws := by
  unfold performFirst
  split
  · rfl
  · rename_i task _ _
    cases task <;> rfl

/-- **Step lemma.** A connection was there before, or its text has been read. -/
theorem connection_cases {k : Elsewhere} {out : List Effect} {s s' : Site}
    (helse : s.elsewhere reader write k = .ok (out, s'))
    (hconn : s'.ws.connections.lookup hdl = some conn) :
    s.ws.connections.lookup hdl = some conn ∨ ∃ c env text, k = .act c env (.message hdl text) ∧
      WsServer.Authorizes (valueOf reader) (s.worldOf c env) text conn.userId conn.userName := by
  cases k with
  | act c env action =>
    obtain ⟨-, rfl⟩ | ⟨ws, hws, rfl⟩ := elsewhere_act helse
    · exact .inl hconn
    · obtain hold | ⟨text, rfl, hauth⟩ := WsServer.step_connections hws hconn
      · exact .inl hold
      · exact .inr ⟨c, env, text, rfl, hauth⟩
  | task c =>
    obtain ⟨-, rfl⟩ := Prod.mk.inj (Except.ok.inj helse)
    rw [ws_performFirst] at hconn
    exact .inl hconn
  | writeCacheToDatabase | writeDatabase =>
    obtain ⟨-, rfl⟩ := Prod.mk.inj (Except.ok.inj helse)
    exact .inl hconn

/-- **Run lemma.** Every connection has been authorized as its user. -/
theorem connected_of_run (hr : SiteRun reader write h S) :
    ∀ hdl conn, S.state.ws.connections.lookup hdl = some conn → Connected reader h hdl conn := by
  induction hr with
  | nil => exact fun _ _ hconn => nomatch hconn
  | @snoc l S S' a b hl hok hstep ih =>
    intro hdl conn hconn
    obtain ⟨hws, -⟩ | ⟨k, out, hact, -, helse⟩ := other_cases (explained_last (hl.snoc hok hstep))
    · rw [show S'.state.ws = S.state.ws from hws] at hconn
      exact (ih hdl conn hconn).append
    obtain hold | ⟨c, env, text, rfl, msg, t, hparse, htype, hreads, hauth⟩ :=
      connection_cases helse hconn
    · exact (ih hdl conn hold).append
    · obtain ⟨u, hu, ht, hid, hname⟩ := row_of_worldOf hauth
      have hopened := opened_of_run hl _ (.inr rfl) u hu t ht
      exact ⟨l, _, [], rfl, c, env, text, msg, t, u, hact, hparse, htype, hreads, hu, ht, hid,
        hname, hopened⟩

theorem Sourced.append {s : Site} (hs : Sourced reader write h s) (l : List SiteStep) :
    Sourced reader write (h ++ l) s :=
  ⟨fun m hm => (hs.messages m hm).append l, fun a b m hm => (hs.tasks a b m hm).append l⟩

/-- What a round of `write_database` leaves was there before. -/
theorem mem_allMessages_writeDatabase {s : ChatHistory} {fails : Nat → Bool} {m : ChatMessage}
    (hm : m ∈ (s.writeDatabase fails).allMessages) : m ∈ s.allMessages := by
  rw [ChatHistory.allMessages_writeDatabase] at hm
  rcases List.mem_append.mp hm with hm | hm
  · exact List.mem_append_left _ hm
  · obtain ⟨p, hp, rfl⟩ := List.mem_map.mp hm
    have hcache := List.fst_mem_of_mem_zipIdx (List.mem_filter.mp hp).1
    exact List.mem_append_right _ (List.mem_reverse.mp hcache)

/-- What has been read is no new message. -/
theorem not_mem_readBy {ws : WsServer} {a : Action} {senderId receiverId : Int} {message : Json} :
    Task.newChatMessage senderId receiverId message ∉ (readBy reader ws a).toList := by
  unfold readBy
  split
  · split
    · split
      · exact fun hmem => nomatch List.mem_singleton.mp hmem
      · exact List.not_mem_nil
    · exact List.not_mem_nil
  · exact List.not_mem_nil

/-- The first task is performed. -/
theorem Sourced.performFirst {s : Site} (hs : Sourced reader write h s) (c : Chance) :
    Sourced reader write h (s.performFirst write c) := by
  unfold Site.performFirst
  split
  · exact hs
  · rename_i task tasks htasks
    have hrest : ∀ senderId receiverId message,
        Task.newChatMessage senderId receiverId message ∈ tasks →
        Whispered reader write h senderId receiverId (write message) := fun _ _ _ hmem =>
      hs.tasks _ _ _ (htasks ▸ List.mem_cons_of_mem _ hmem)
    cases task with
    | newChatMessage senderId receiverId message =>
      refine ⟨fun m hm => ?_, hrest⟩
      change m ∈ _ ++ (s.chat.cache ++ [_]) at hm
      rw [← List.append_assoc] at hm
      rcases List.mem_append.mp hm with hm | hm
      · exact hs.messages m hm
      · obtain rfl := List.mem_singleton.mp hm
        exact hs.tasks _ _ _ (htasks ▸ List.mem_cons_self)
    | addOneUnread | clearUnread => exact ⟨hs.messages, hrest⟩

/-- **Step lemma.** What is new are the messages of an action. -/
theorem Sourced.elsewhere {k : Elsewhere} {out : List Effect} {s s' : Site}
    (hs : Sourced reader write h s) (helse : s.elsewhere reader write k = .ok (out, s'))
    (hnew : ∀ c env action ws, k = .act c env action →
      s.ws.step (valueOf reader) (s.worldOf c env, action) = .ok (out, ws) →
      ∀ senderId receiverId message, Effect.newChatMessage senderId receiverId message ∈ out →
      Whispered reader write h senderId receiverId (write message)) :
    Sourced reader write h s' := by
  cases k with
  | act c env action =>
    obtain ⟨-, rfl⟩ | ⟨ws, hws, rfl⟩ := elsewhere_act helse
    · exact hs
    refine ⟨hs.messages, fun senderId receiverId message hmem => ?_⟩
    rcases List.mem_append.mp hmem with hmem | hmem
    · rcases List.mem_append.mp hmem with hmem | hmem
      · exact hs.tasks _ _ _ hmem
      · obtain ⟨effect, heffect, he⟩ := List.mem_filterMap.mp hmem
        cases effect with
        | newChatMessage senderId' receiverId' message' =>
          obtain ⟨rfl, rfl, rfl⟩ := Task.newChatMessage.inj (Option.some.inj he)
          exact hnew c env action ws rfl hws _ _ _ heffect
        | addOneUnread | send | pushMessage => cases he
    · exact absurd hmem not_mem_readBy
  | task c =>
    obtain ⟨-, rfl⟩ := Prod.mk.inj (Except.ok.inj helse)
    exact hs.performFirst c
  | writeCacheToDatabase =>
    obtain ⟨-, rfl⟩ := Prod.mk.inj (Except.ok.inj helse)
    exact ⟨hs.messages, hs.tasks⟩
  | writeDatabase fails =>
    obtain ⟨-, rfl⟩ := Prod.mk.inj (Except.ok.inj helse)
    exact ⟨fun m hm => hs.messages m (mem_allMessages_writeDatabase hm), hs.tasks⟩

/-- **Run lemma.** Every message goes back to a connection of its sender. -/
theorem whispered_of_run (hr : SiteRun reader write h S) : Sourced reader write h S.state := by
  induction hr with
  | nil =>
    exact ⟨fun _ hm => absurd hm List.not_mem_nil, fun _ _ _ hm => absurd hm List.not_mem_nil⟩
  | @snoc l S S' a b hl hok hstep ih =>
    have hold := ih.append [⟨S, a, b, S'⟩]
    obtain ⟨-, hchat, htasks⟩ | ⟨k, out, hact, hout, helse⟩ :=
      other_cases (explained_last (hl.snoc hok hstep))
    · have hchat : S'.state.chat = S.state.chat := hchat
      have htasks : S'.state.tasks = S.state.tasks := htasks
      exact ⟨hchat ▸ hold.messages, htasks ▸ hold.tasks⟩
    · refine hold.elsewhere helse ?_
      rintro c env action ws rfl hws senderId receiverId message hmem
      obtain ⟨hdl, request, conn, msg, rfl, hconn, hwhispers, hsigned⟩ :=
        WsServer.step_newChatMessage hws hmem
      have hconnected := connected_of_run hl hdl conn hconn
      exact ⟨l, _, [], c, env, hdl, request, conn, msg, _, _, rfl, hact, hout, hmem, rfl, hconn,
        hconnected, hwhispers, hsigned⟩

/-- The same of the states in between. -/
theorem sourced_of_been (hr : SiteRun reader write h S) {s : Site} (hs : Been h s) :
    Sourced reader write h s := by
  obtain ⟨e, he, rfl⟩ := hs
  obtain ⟨h₁, h₂, rfl⟩ := List.append_of_mem he
  rw [List.append_cons] at hr ⊢
  obtain ⟨S₁, hr₁, -⟩ := hr.split
  rw [List.append_assoc]
  exact (whispered_of_run (run_of_append hr₁).1).append _

end Connections

/-! ## Answers -/

section Private

variable {read : String → Json} {u : Int} {P : ChatMessage → Prop} {v v' : Json} {m : ChatMessage}
  {order : Nat → Nat} {tie : ChatRow → Nat} {s s' : ChatHistory} {r : ChatRow} {latest : Int}

/-- The members of the value list items of messages with the property. -/
structure Collected (read : String → Json) (u : Int) (P : ChatMessage → Prop) (v : Json) :
    Prop where
  object : ∃ members, v = .obj members
  members : ∀ key x, v.find key = .ok (some x) → ∃ items, x = .arr items ∧
    ∀ item ∈ items, ∃ m, P m ∧ key = toString (ChatHistory.friendOf u m) ∧
      ChatHistory.messageItem read m = .ok item

theorem collected_nil : Collected read u P (.obj []) :=
  ⟨⟨[], rfl⟩, fun _ _ hx => nomatch Except.ok.inj hx⟩

/-- **Step lemma.** -/
theorem Collected.append (hc : Collected read u P v) (hm : P m)
    (happ : ChatHistory.appendMessage read u v m = .ok v') : Collected read u P v' := by
  obtain ⟨⟨members, rfl⟩, hmembers⟩ := hc
  unfold ChatHistory.appendMessage at happ
  cases hitem : ChatHistory.messageItem read m with
  | error e =>
    rw [hitem] at happ
    cases happ
  | ok item =>
    rw [hitem] at happ
    have hfriend : (if m.senderId = u then m.receiverId else m.senderId) =
        ChatHistory.friendOf u m := rfl
    rw [hfriend] at happ
    -- the items that are listed for the friend already
    obtain ⟨items, hitems, hlisted⟩ : ∃ items : List Json,
        ((members.lookup (toString (ChatHistory.friendOf u m))).getD .null).append item =
          .ok (.arr (items ++ [item])) ∧
        ∀ item ∈ items, ∃ m', P m' ∧ toString (ChatHistory.friendOf u m) =
          toString (ChatHistory.friendOf u m') ∧ ChatHistory.messageItem read m' = .ok item := by
      cases hlook : members.lookup (toString (ChatHistory.friendOf u m)) with
      | none => exact ⟨[], rfl, List.forall_mem_nil _⟩
      | some x =>
        obtain ⟨items, rfl, hall⟩ := hmembers _ x (congrArg Except.ok hlook)
        exact ⟨items, rfl, hall⟩
    change (do
      let items ← ((members.lookup (toString (ChatHistory.friendOf u m))).getD .null).append item
      (Json.obj members).set (toString (ChatHistory.friendOf u m)) items) = _ at happ
    rw [hitems] at happ
    obtain rfl := Except.ok.inj happ
    refine ⟨⟨_, rfl⟩, fun key x hx => ?_⟩
    have hlook := Except.ok.inj hx
    by_cases hkey : key = toString (ChatHistory.friendOf u m)
    · rw [hkey, Json.lookup_upsert] at hlook
      obtain rfl := Option.some.inj hlook
      refine ⟨_, rfl, fun item' hmem => ?_⟩
      rcases List.mem_append.mp hmem with hmem | hmem
      · exact hkey ▸ hlisted item' hmem
      · obtain rfl := List.mem_singleton.mp hmem
        exact ⟨m, hm, hkey, hitem⟩
    · rw [Json.lookup_upsert_of_ne _ _ hkey] at hlook
      exact hmembers key x (congrArg Except.ok hlook)

/-- What has been collected from more rows is of more rows. -/
theorem Collected.foldl {rows : List ChatRow} (hc : Collected read u P v)
    (hrows : ∀ r ∈ rows, P r.toChatMessage)
    (hfold : rows.foldlM (fun res r => ChatHistory.appendMessage read u res r.toChatMessage) v =
      .ok v') : Collected read u P v' := by
  induction rows generalizing v with
  | nil =>
    obtain rfl := Except.ok.inj hfold
    exact hc
  | cons r rows ih =>
    rw [List.foldlM_cons] at hfold
    obtain ⟨hr, hrest⟩ := List.forall_mem_cons.mp hrows
    cases happ : ChatHistory.appendMessage read u v r.toChatMessage with
    | error e =>
      rw [happ] at hfold
      cases hfold
    | ok v₁ =>
      rw [happ] at hfold
      exact ih (hc.append hr happ) hrest hfold

/-- A message of the cache that is shown is one of the user. -/
theorem party_of_mem_cachedRows (hs : s.index = ChatHistory.indexOf s.cache)
    (hr : r ∈ ChatHistory.cachedRows order s u latest) :
    r.toChatMessage ∈ s.allMessages ∧ ChatHistory.Party u r := by
  unfold ChatHistory.cachedRows at hr
  obtain ⟨i, hi, hrow⟩ := List.mem_filterMap.mp (List.mem_filter.mp hr).1
  obtain ⟨⟨v, j⟩, hentry, rfl⟩ := List.mem_map.mp hi
  obtain ⟨hmem, hv⟩ := List.mem_filter.mp ((hashOrder_perm ..).mem_iff.mp hentry)
  obtain rfl : v = u := of_decide_eq_true hv
  rw [hs] at hmem
  obtain ⟨m, hm, hparty⟩ := ChatHistory.mem_indexOf.mp hmem
  obtain ⟨m', hm', rfl⟩ := Option.map_eq_some_iff.mp hrow
  obtain rfl := Option.some.inj (hm.symm.trans hm')
  exact ⟨List.mem_append_right _ (List.mem_of_getElem? hm), hparty⟩

/-- A message of the table that is selected is one between the users. -/
theorem party_of_mem_selectChat {friendId : Int}
    (hr : r ∈ (ChatHistory.selectChat tie s.chat u friendId latest).take 20) :
    r.toChatMessage ∈ s.allMessages ∧ ChatHistory.Party u r := by
  obtain ⟨hmem, hbetween, -⟩ :=
    ChatHistory.mem_between.mp (ChatHistory.mem_selectChat.mp (List.mem_of_mem_take hr))
  refine ⟨List.mem_append_left _ (List.mem_map.mpr ⟨r, hmem, rfl⟩), ?_⟩
  exact hbetween.imp And.left And.left

/-- Each item of a list that is read comes from an element of the list. -/
theorem exists_of_mem_mapM {α : Type} {f : α → Except Fault Json} {l : List α} {items : List Json}
    (h : l.mapM f = .ok items) {item : Json} (hitem : item ∈ items) :
    ∃ x ∈ l, f x = .ok item := by
  induction l generalizing items with
  | nil =>
    obtain rfl := Except.ok.inj h
    exact absurd hitem List.not_mem_nil
  | cons x l ih =>
    rw [List.mapM_cons] at h
    cases hx : f x with
    | error e =>
      rw [hx] at h
      cases h
    | ok y =>
      cases hl : l.mapM f with
      | error e =>
        rw [hx, hl] at h
        cases h
      | ok ys =>
        rw [hx, hl] at h
        obtain rfl := Except.ok.inj h
        rcases List.mem_cons.mp hitem with rfl | hitem
        · exact ⟨x, List.mem_cons_self, hx⟩
        · obtain ⟨x', hx', hf⟩ := ih hl hitem
          exact ⟨x', List.mem_cons_of_mem _ hx', hf⟩

end Private

section Runs

variable {reader : String → Except Fault (Bool × Json)} {write : Json → String}
  {h : List SiteStep} {e : SiteStep} {S : Requests}

/-- The value lists the item, in an array or in a member that is an array. -/
def Listed (v item : Json) : Prop :=
  item ∈ v.items ∨ ∃ key x, v.find key = .ok (some x) ∧ item ∈ x.items

/-- The item is that of a message of the user in a history. -/
def ItemOf (read : String → Json) (past : Site → Prop) (id : Int) (item : Json) : Prop :=
  ∃ s m, past s ∧ m ∈ s.chat.allMessages ∧ (m.senderId = id ∨ m.receiverId = id) ∧
    ChatHistory.messageItem read m = .ok item

/-- Each item that is listed is a message by or to the user. -/
theorem itemOf_of_shows {read : String → Json} {r : Request} {past : Site → Prop} {id : Int}
    {v item : Json} (hroute : r.route = .getChatHistory ∨ r.route = .getChatHistory20)
    (hindexed : ∀ s, past s → s.Indexed) (hshows : Shows read r past id v) (hitem : Listed v item) :
    ItemOf read past id item := by
  unfold Shows at hshows
  rcases hroute with hroute | hroute
  · rw [hroute] at hshows
    obtain ⟨s, s', order, tie, latest, hs, hs', hv⟩ := hshows
    rw [ChatHistory.getChatMessage_eq (hindexed s hs)] at hv
    have hrows : ∀ r ∈ ChatHistory.shown order tie s.chat s'.chat id latest,
        ∃ s, past s ∧ r.toChatMessage ∈ s.chat.allMessages ∧ ChatHistory.Party id r := by
      intro r hr
      rcases List.mem_append.mp hr with hr | hr
      · exact ⟨s, hs, party_of_mem_cachedRows (hindexed s hs) hr⟩
      · obtain ⟨f, hr⟩ := ChatHistory.mem_storedRows.mp hr
        exact ⟨s', hs', party_of_mem_selectChat hr⟩
    obtain ⟨⟨members, rfl⟩, hmembers⟩ := collected_nil.foldl
      (P := fun m => ∃ s, past s ∧ m ∈ s.chat.allMessages ∧ (m.senderId = id ∨ m.receiverId = id))
      hrows hv
    rcases hitem with hitem | ⟨key, x, hx, hitem⟩
    · exact absurd hitem List.not_mem_nil
    · obtain ⟨items, rfl, hall⟩ := hmembers key x hx
      obtain ⟨m, ⟨s, hs, hm, hparty⟩, -, hof⟩ := hall item hitem
      exact ⟨s, m, hs, hm, hparty, hof⟩
  · rw [hroute] at hshows
    obtain ⟨s, tie, friendId, latest, items, hs, hitems, rfl⟩ := hshows
    rcases hitem with hitem | ⟨key, x, hx, -⟩
    · obtain ⟨r, hr, hof⟩ := exists_of_mem_mapM hitems hitem
      obtain ⟨hm, hparty⟩ := party_of_mem_selectChat hr
      exact ⟨s, r.toChatMessage, hs, hm, hparty, hof⟩
    · cases hx

/-- **Privacy.** Whoever asks for the chat history is shown nothing but items of messages that were
sent to or by the user whose session the request carries, each of them over a connection that was
authorized as its sender. -/
theorem private_of_run (hr : SiteRun reader write (h ++ [e]) S) {r : Request} {res : Response}
    {v : Json} (hroute : r.route = .getChatHistory ∨ r.route = .getChatHistory20)
    (hout : e.out = .answer r (.ok res)) (hv : res.content = .json v) :
    ∃ since id, AnsweredBy h e r since res ∧ SignedInAs reader h (Been since) r id ∧
      ∀ item, Listed v item → ∃ m, ChatHistory.messageItem (storedValue reader) m = .ok item ∧
        (m.senderId = id ∨ m.receiverId = id) ∧
        Whispered reader write h m.senderId m.receiverId m.message := by
  obtain ⟨since, hanswered, hgiven⟩ := answers_of_out (explained_last hr) hout
  have hrun := (run_of_append hr).1
  cases hgiven with
  | refused => cases hv
  | toAnyone hopen => rcases hroute with hroute | hroute <;> exact nomatch hroute ▸ hopen
  | @toUser _ id hby hkept hshows =>
    have hsigned := MadeBy.signedIn hrun (fun s hs => .inl (hanswered.been hs)) hby
    refine ⟨since, id, hanswered, hsigned, fun item hitem => ?_⟩
    have hindexed : ∀ s, Been since s → s.Indexed := fun s hs =>
      (explained hrun).1.been s (hanswered.been hs)
    obtain ⟨s, m, hs, hm, hparty, hof⟩ := itemOf_of_shows hroute hindexed (hshows v hv) hitem
    exact ⟨m, hof, hparty, (sourced_of_been hrun (hanswered.been hs)).messages m hm⟩

/-- Alice connects and whispers. -/
def aliceWhispers : List (Act Chance Request Elsewhere) :=
  aliceLogsIn ++ [.other (.act plainChance Room.plainEnv (.message 0 "authorize")),
    .other (.act plainChance Room.plainEnv (.message 0 "whisper")), .other (.task plainChance)]

/-- A value with one member is answered. -/
def isHistory : Content → Bool
  | .json (.obj [(key, .arr [_])]) => key == "2"
  | _ => false

/-- Alice asks for her chat history. -/
def asksForHistory : Request :=
  { request .getChatHistory aliceCookie "" with params := [("latest_timestamp", "1800000000")] }

theorem exec_history : (execAll knownStep (answersTo .getChatHistory isHistory) (System.init new)
    (aliceWhispers ++ [.arrive 1 asksForHistory, .go 1 plainChance, .go 1 plainChance,
      .go 1 plainChance] ++ [.leave 1])).any (fun _ => true) = true := by
  decide +kernel

/-- The receiver asks for the messages, and is shown the whisper. -/
theorem private_of_run_history : ∃ h e S r res v,
    SiteRun knownTexts (fun _ => "text") (h ++ [e]) S ∧
    (r.route = .getChatHistory ∨ r.route = .getChatHistory20) ∧ e.out = .answer r (.ok res) ∧
    res.content = .json v ∧ (∃ item, Listed v item) ∧
    ∃ since id, AnsweredBy h e r since res ∧ SignedInAs knownTexts h (Been since) r id ∧
      ∀ item, Listed v item → ∃ m,
        ChatHistory.messageItem (storedValue knownTexts) m = .ok item ∧
        (m.senderId = id ∨ m.receiverId = id) ∧
        Whispered knownTexts (fun _ => "text") h m.senderId m.receiverId m.message := by
  obtain ⟨h, e, S, hr, -, hact, hp, -⟩ := exists_last exec_history
  obtain ⟨r, res, hout, hroute, hhistory⟩ := answer_of_answersTo hact hp
  obtain ⟨headers, content⟩ := res
  unfold isHistory at hhistory
  split at hhistory
  · rename_i key item hcontent
    have hlisted : Listed (.obj [(key, .arr [item])]) item := by
      refine .inr ⟨key, .arr [item], ?_, List.mem_cons_self⟩
      exact congrArg Except.ok List.lookup_cons_self
    exact ⟨h, e, S, r, _, _, hr, .inl hroute, hout, hcontent, ⟨item, hlisted⟩,
      private_of_run hr (.inl hroute) hout hcontent⟩
  · cases hhistory

end Runs

end Site

end UnoppServer
