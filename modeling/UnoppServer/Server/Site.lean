import UnoppServer.Http.Authority
import UnoppServer.Http.Failures
import UnoppServer.Server.Pipeline

/-!
# The program

Any number of requests are handled at the same time, each by a thread of `HttpServer`, and beside
them there are the thread of `process_message` with its actions, those of the rooms, and those that
write the caches to the databases. What `process_message` does with `ChatHistory` and `Authorizer`
after a message are tasks, performed one after the other before the next message.

- `authorized_of_run`: in every run, whatever belongs to a user is changed only by a request of that
  user, with a session that has been opened with the password;
- `answered_of_run`: in every run, what a user is answered is what there was for that user while
  the request was being handled;
- `failed_of_run`: in every run, a request that has failed has changed nothing.
-/

namespace UnoppServer

open Assoc Authorizer FindIf HttpServer Runs Sections

/-- What else changes the site. -/
inductive Elsewhere where
  | act (c : Chance) (env : Env) (a : Action)
  | task (c : Chance)
  | writeCacheToDatabase
  | writeDatabase (fails : Nat → Bool)

/-- The action is one of another thread than that of `process_message`. -/
def Action.isAside : Action → Bool
  | .visit _ | .update _ => true
  | _ => false

namespace Site

section Model

variable (reader : String → Except Fault (Bool × Json)) (write : Json → String)

/-- The root after a text, whether it could be parsed or not. -/
def rootOf (text : String) : Except Fault Json := (reader text).map Prod.snd

/-- The value of a text, if it could be parsed. -/
def valueOf (text : String) : Except Fault (Option Json) :=
  (reader text).map fun p => if p.1 then some p.2 else none

/-- The value of a text that the server has written, for which the reader does not throw. -/
def storedValue (text : String) : Json :=
  match reader text with
  | .ok (_, v) => v
  | .error _ => .null

/-- What `process_message` is answered by `Authorizer` and the clock. -/
def worldOf (s : Site) (c : Chance) (env : Env) : World where
  env := env
  authorize sessdata :=
    match c.throws with
    | some what => .error (.exception what)
    | none => .ok (s.inbox.accounts.authorize c.draw.order sessdata).toOption
  clearUnread _ _ :=
    match c.throws with
    | some what => .error (.exception what)
    | none => .ok ()
  timestamp := c.draw.time

/-- What is to be done with `ChatHistory` and `Authorizer`. -/
def taskOf : Effect → Option Task
  | .newChatMessage senderId receiverId message =>
    some (.newChatMessage senderId receiverId message)
  | .addOneUnread userId friendId => some (.addOneUnread userId friendId)
  | _ => none

/-- What a message with `READ_WHISPER_MESSAGES` has read. -/
def readBy (ws : WsServer) : Action → Option Task
  | .message hdl text =>
    match ws.connections.lookup hdl, valueOf reader text with
    | some conn, .ok (some msg) =>
      match (msg.get "message_type").bind Json.asString, (msg.get "friend_id").bind Json.asInt with
      | .ok "READ_WHISPER_MESSAGES", .ok friendId => some (.clearUnread conn.userId friendId)
      | _, _ => none
    | _, _ => none
  | _ => none

/-- A task is performed. -/
def perform (s : Site) (c : Chance) : Task → Site
  | .newChatMessage senderId receiverId message =>
    { s with chat := s.chat.newChatMessage senderId receiverId (write message) c.draw.time }
  | .addOneUnread userId friendId => { s with inbox := s.inbox.addOneUnread userId friendId }
  | .clearUnread userId friendId => { s with inbox := s.inbox.clearUnread userId friendId }

/-- An action is handled. -/
def act (s : Site) (c : Chance) (env : Env) (a : Action) : Except Fault (List Effect × Site) :=
  if s.tasks ≠ [] ∧ ¬ a.isAside then .ok ([], s)
  else do
    let (effects, ws) ← s.ws.step (valueOf reader) (s.worldOf c env, a)
    return (effects,
      { s with ws, tasks := s.tasks ++ effects.filterMap taskOf ++ (readBy reader s.ws a).toList })

/-- The first task is performed. -/
def performFirst (s : Site) (c : Chance) : Site :=
  match s.tasks with
  | [] => s
  | task :: tasks => { s.perform write c task with tasks }

/-- Something else is done. -/
def elsewhere (s : Site) : Elsewhere → Except Fault (List Effect × Site)
  | .act c env a => s.act reader c env a
  | .task c => .ok ([], s.performFirst write c)
  | .writeCacheToDatabase => .ok ([], { s with inbox := s.inbox.writeCacheToDatabase })
  | .writeDatabase fails => .ok ([], { s with chat := s.chat.writeDatabase fails })

end Model

/-- The site with the requests in progress. -/
abbrev Requests := System Site Chance Fault Response Request

/-- A recorded step. -/
abbrev SiteStep := Sections.Step Site Chance Fault Response Request Elsewhere (List Effect)

/-- The steps `h` have led from the start to `S`. -/
abbrev SiteRun (reader : String → Except Fault (Bool × Json)) (write : Json → String)
    (h : List SiteStep) (S : Requests) : Prop :=
  Run (Sections.step (handle (rootOf reader) (storedValue reader)) (elsewhere reader write))
    (fun _ _ => True) (System.init new) h S

/-- The index of the chat history is that of its cache. -/
def Indexed (s : Site) : Prop := s.chat.index = ChatHistory.indexOf s.chat.cache

/-! ## Sessions -/

section Sessions

variable (reader : String → Except Fault (Bool × Json))

/-- The step `e` after the steps `h` opens the session `t` for the row with the id: it is a section
of a login, with the password that the user has had since the request has arrived. -/
def Opens (h : List SiteStep) (e : SiteStep) (t : Nat) (id : Int) : Prop :=
  ∃ thread w r since u d, e.act = .go thread w ∧ Arrived h thread r since ∧
    WasUser (Been (since ++ [e])) u ∧ Credentials (rootOf reader) r u ∧
    (id = u.id ∨ id = toInt u.id) ∧ t = generateSessdata d u.userName

/-- The session has been opened. -/
def Opened (h : List SiteStep) (t : Nat) (id : Int) : Prop :=
  ∃ h₁ e h₂, h = h₁ ++ e :: h₂ ∧ Opens reader h₁ e t id

/-- The request carries a session that has been opened, and was one of the user with the id at some
time. -/
def SignedInAs (h : List SiteStep) (past : Site → Prop) (r : Request) (id : Int) : Prop :=
  ∃ t u, parseCookie r.cookie = (t, false) ∧ WasUser past u ∧ u.sessdata = some t ∧
    toInt u.id = id ∧ Opened reader h t u.id

end Sessions

section Elsewhere

variable {reader : String → Except Fault (Bool × Json)} {write : Json → String} {s s' : Site}
  {k : Elsewhere} {out : List Effect}

/-- Other threads leave alone what belongs to the users. -/
structure LeavesAlone (s s' : Site) : Prop where
  accounts : s'.inbox.accounts = s.inbox.accounts
  slogan : s'.inbox.slogan = s.inbox.slogan
  icons : s'.icons = s.icons

theorem perform_leavesAlone (write : Json → String) (s : Site) (c : Chance) (task : Task) :
    LeavesAlone s (s.perform write c task) := by
  cases task <;> exact ⟨rfl, rfl, rfl⟩

/-- **Inversion** of an action. -/
theorem elsewhere_act {c : Chance} {env : Env} {a : Action}
    (h : s.elsewhere reader write (.act c env a) = .ok (out, s')) :
    (out = [] ∧ s' = s) ∨ ∃ ws, s.ws.step (valueOf reader) (s.worldOf c env, a) = .ok (out, ws) ∧
      s' = { s with
        ws, tasks := s.tasks ++ out.filterMap taskOf ++ (readBy reader s.ws a).toList } := by
  change s.act reader c env a = .ok (out, s') at h
  unfold act at h
  split at h
  · obtain ⟨rfl, rfl⟩ := Prod.mk.inj (Except.ok.inj h)
    exact .inl ⟨rfl, rfl⟩
  · cases hstep : s.ws.step (valueOf reader) (s.worldOf c env, a) with
    | error e =>
      rw [hstep] at h
      cases h
    | ok r =>
      rw [hstep] at h
      obtain ⟨rfl, rfl⟩ := Prod.mk.inj (Except.ok.inj h)
      exact .inr ⟨_, rfl, rfl⟩

/-- What happens elsewhere leaves alone what belongs to the users. -/
theorem elsewhere_leavesAlone (h : s.elsewhere reader write k = .ok (out, s')) :
    LeavesAlone s s' := by
  cases k with
  | act c env a =>
    obtain ⟨-, rfl⟩ | ⟨ws, -, rfl⟩ := elsewhere_act h
    · exact ⟨rfl, rfl, rfl⟩
    · exact ⟨rfl, rfl, rfl⟩
  | task c =>
    obtain ⟨-, rfl⟩ := Prod.mk.inj (Except.ok.inj h)
    unfold performFirst
    split
    · exact ⟨rfl, rfl, rfl⟩
    · rename_i task tasks _
      obtain ⟨haccounts, hslogan, hicons⟩ := perform_leavesAlone write s c task
      exact ⟨haccounts, hslogan, hicons⟩
  | writeCacheToDatabase | writeDatabase fails =>
    obtain ⟨-, rfl⟩ := Prod.mk.inj (Except.ok.inj h)
    exact ⟨rfl, rfl, rfl⟩

theorem indexed_new : new.Indexed := rfl

theorem indexed_newChatMessage {senderId receiverId now : Int} {message : String}
    (hs : s.chat.index = ChatHistory.indexOf s.chat.cache) :
    (s.chat.newChatMessage senderId receiverId message now).index =
      ChatHistory.indexOf (s.chat.newChatMessage senderId receiverId message now).cache := by
  show s.chat.index ++ _ = ChatHistory.indexOf (s.chat.cache ++ [_])
  rw [ChatHistory.indexOf_concat, hs]

/-- What happens elsewhere keeps the index of the messages. -/
theorem elsewhere_indexed (hs : s.Indexed) (h : s.elsewhere reader write k = .ok (out, s')) :
    s'.Indexed := by
  cases k with
  | act c env a =>
    obtain ⟨-, rfl⟩ | ⟨ws, -, rfl⟩ := elsewhere_act h
    · exact hs
    · exact hs
  | task c =>
    obtain ⟨-, rfl⟩ := Prod.mk.inj (Except.ok.inj h)
    unfold performFirst
    split
    · exact hs
    · rename_i task tasks _
      cases task with
      | newChatMessage senderId receiverId message => exact indexed_newChatMessage hs
      | addOneUnread | clearUnread => exact hs
  | writeCacheToDatabase =>
    obtain ⟨-, rfl⟩ := Prod.mk.inj (Except.ok.inj h)
    exact hs
  | writeDatabase fails =>
    obtain ⟨-, rfl⟩ := Prod.mk.inj (Except.ok.inj h)
    rfl

/-- No request changes the chat history. -/
theorem chat_of_does {parse : String → Except Fault Json} {r : Request} {past : Site → Prop}
    (h : Does parse r past s s') : s'.chat = s.chat := by
  cases h <;> rfl

end Elsewhere

section Runs

variable {reader : String → Except Fault (Bool × Json)} {write : Json → String}
  {h : List SiteStep} {e : SiteStep} {S : Requests} {t : Nat} {id : Int}

/-- **Every step** of a run is explained. -/
theorem explained (hr : SiteRun reader write h S) :
    Inv Indexed (Does (rootOf reader)) (Answers (storedValue reader)) h S ∧
      ∀ h₁ e h₂, h = h₁ ++ e :: h₂ → Explained (elsewhere reader write) (Does (rootOf reader))
        (Answers (storedValue reader)) h₁ e := by
  refine explained_of_run indexed_new (fun r past past' a hpast ha => ha.mono hpast) ?_ ?_
    (fun r past => acts_handle r past) hr
  · intro r past s s' hs hdoes
    unfold Indexed
    rw [chat_of_does hdoes]
    exact hs
  · exact fun _ _ _ _ _ hs hstep => elsewhere_indexed hs hstep

theorem explained_last (hr : SiteRun reader write (h ++ [e]) S) :
    Explained (elsewhere reader write) (Does (rootOf reader)) (Answers (storedValue reader)) h e :=
  (explained hr).2 h e [] rfl

theorem Opened.append (ho : Opened reader h t id) : Opened reader (h ++ [e]) t id := by
  obtain ⟨h₁, e', h₂, rfl, hopens⟩ := ho
  exact ⟨h₁, e', h₂ ++ [e], by rw [List.append_assoc]; rfl, hopens⟩

/-- A row after `UPDATE`. -/
theorem mem_users_updateUser {s : Site} {f : User → User} {y : User}
    (hy : y ∈ (s.updateUser id f).inbox.accounts.users) :
    ∃ x ∈ s.inbox.accounts.users, y = if x.id = id then f x else x := by
  obtain ⟨x, hx, rfl⟩ := List.mem_map.mp hy
  exact ⟨x, hx, rfl⟩

/-- Where the sessions after a step come from. -/
theorem session_cases (hx : Explained (elsewhere reader write) (Does (rootOf reader))
      (Answers (storedValue reader)) h e) {y : User}
    (hy : y ∈ e.post.state.inbox.accounts.users) (ht : y.sessdata = some t) :
    (∃ x ∈ e.pre.state.inbox.accounts.users, x.id = y.id ∧ x.sessdata = some t) ∨
      Opens reader h e t y.id := by
  cases hx with
  | nothing hstate =>
    rw [hstate] at hy
    exact .inl ⟨y, hy, rfl, ht⟩
  | answer _ _ _ hstate =>
    rw [hstate] at hy
    exact .inl ⟨y, hy, rfl, ht⟩
  | other _ hstep =>
    rw [(elsewhere_leavesAlone hstep).accounts] at hy
    exact .inl ⟨y, hy, rfl, ht⟩
  | @goes thread w r since hact harrived hdo =>
    generalize hpost : e.post.state = s' at hdo hy
    cases hdo with
    | nothing | setsSlogan | setsIcon | requests | removes | relates => exact .inl ⟨y, hy, rfl, ht⟩
    | registers =>
      rcases List.mem_append.mp hy with hy | hy
      · exact .inl ⟨y, hy, rfl, ht⟩
      · obtain rfl := List.mem_singleton.mp hy
        cases ht
    | @logsIn u id d hu hcred hid =>
      obtain ⟨x, hmem, rfl⟩ := mem_users_updateUser hy
      split at ht
      · rename_i hxid
        rw [if_pos hxid]
        refine .inr ⟨thread, w, r, since, u, d, hact, harrived, hu, hcred, ?_, ?_⟩
        · exact hxid ▸ hid
        · exact (Option.some.inj ht).symm
      · rename_i hxid
        rw [if_neg hxid]
        exact .inl ⟨x, hmem, rfl, ht⟩
    | logsOut =>
      obtain ⟨x, hmem, rfl⟩ := mem_users_updateUser hy
      split at ht
      · cases ht
      · rename_i hxid
        rw [if_neg hxid]
        exact .inl ⟨x, hmem, rfl, ht⟩
    | renames =>
      obtain ⟨x, hmem, rfl⟩ := mem_users_updateUser hy
      split at ht
      · rename_i hxid
        rw [if_pos hxid]
        exact .inl ⟨x, hmem, rfl, ht⟩
      · rename_i hxid
        rw [if_neg hxid]
        exact .inl ⟨x, hmem, rfl, ht⟩

/-- **Run lemma.** Every session that there is or was has been opened with the password. -/
theorem opened_of_run (hr : SiteRun reader write h S) : ∀ s, Been h s ∨ s = S.state →
    ∀ u ∈ s.inbox.accounts.users, ∀ t, u.sessdata = some t → Opened reader h t u.id := by
  induction hr with
  | nil =>
    rintro s (⟨e, he, -⟩ | rfl) u hu
    · exact absurd he List.not_mem_nil
    · exact absurd hu List.not_mem_nil
  | @snoc l S S' a b hl hok hstep ih =>
    have hx := explained_last (hl.snoc hok hstep)
    rintro s hs u hu t ht
    have hold : Been l s ∨ s = S.state → Opened reader (l ++ [⟨S, a, b, S'⟩]) t u.id :=
      fun hs => (ih s hs u hu t ht).append
    rcases hs with ⟨e, he, rfl⟩ | rfl
    · rcases List.mem_append.mp he with he | he
      · exact hold (.inl ⟨e, he, rfl⟩)
      · obtain rfl := List.mem_singleton.mp he
        exact hold (.inr rfl)
    · rcases session_cases hx hu ht with ⟨x, hmem, hid, hxt⟩ | hopens
      · exact hid ▸ (ih _ (.inr rfl) x hmem t hxt).append
      · exact ⟨l, _, [], rfl, hopens⟩

/-- A run without its last step. -/
theorem run_of_append (hr : SiteRun reader write (h ++ [e]) S) :
    SiteRun reader write h e.pre ∧ e.post = S := by
  generalize hh : h ++ [e] = l at hr
  cases hr with
  | nil => exact absurd hh (List.append_ne_nil_of_right_ne_nil _ (List.cons_ne_nil _ _))
  | snoc hl hok hstep =>
    obtain ⟨rfl, hlast⟩ := List.append_inj' hh rfl
    obtain rfl := (List.cons.inj hlast).1
    exact ⟨hl, rfl⟩

/-- The session of a request has been opened. -/
theorem MadeBy.signedIn {r : Request} {past : Site → Prop} (hr : SiteRun reader write h S)
    (hpast : ∀ s, past s → Been h s ∨ s = S.state) (hby : MadeBy r past id) :
    SignedInAs reader h past r id := by
  obtain ⟨t, u, hcookie, ⟨s, hs, hu⟩, ht, hid⟩ := hby
  exact ⟨t, u, hcookie, ⟨s, hs, hu⟩, ht, hid, opened_of_run hr s (hpast s hs) u hu t ht⟩

end Runs

end Site

end UnoppServer
