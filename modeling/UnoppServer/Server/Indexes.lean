import UnoppServer.Lib.Ensures
import UnoppServer.Json.Fields
import UnoppServer.Server.Server

/-!
# The server: its connection indexes

The server keeps its connections by handle and indexes them by connection id
(`conn_id_2_hdl`) and by user id (`user_id_2_conn_id`). `IndexesAgree` says that
the three agree. A login adds to all three, a logout removes from all three; but
the entries of the multimap are erased by key with the *connection* id as the
key, which is some other user's id, or nobody's.

- `Action.KeepsIndexes`: the logins that get a free connection id, and the
  logouts of a user whose id is the number of the one connection that user has;
- `indexes_agree_iff`: along every run of such actions the indexes agree and a
  whisper reaches the live connections of its receiver, and the next action
  keeps this iff it is one of these.
-/

namespace UnoppServer

open Assoc FindIf Runs

namespace WsServer

/-- The handle has a connection of the user under the connection id. -/
def Live (s : WsServer) (hdl : Hdl) (userId : Int) (connId : Nat) : Prop :=
  ∃ conn, s.connections.lookup hdl = some conn ∧ conn.userId = userId ∧ conn.connId = connId

/-- The indexes agree with the connections. -/
structure IndexesAgree (s : WsServer) : Prop where
  once : s.userId2ConnId.Nodup
  user : ∀ u c, (u, c) ∈ s.userId2ConnId ↔ ∃ hdl, s.Live hdl u c
  hdl : ∀ c hdl, s.connId2Hdl.lookup c = some hdl ↔ ∃ u, s.Live hdl u c

/-- A whisper to a user is queued to every live connection of the user, and to no
other. -/
def WhispersReach (s : WsServer) : Prop :=
  ∀ env u, (s.recipients env u).Nodup ∧ ∀ c, c ∈ s.recipients env u ↔ ∃ hdl, s.Live hdl u c

/-- A whisper reaches every live connection of its receiver, and no other. -/
theorem IndexesAgree.whispersReach {s : WsServer} (h : IndexesAgree s) : WhispersReach s := by
  intro env u
  have hperm := hashOrder_perm env.order Prod.snd (s.userId2ConnId.filter fun p => p.1 = u)
  constructor
  · refine (List.Perm.map Prod.snd hperm).nodup_iff.mpr ?_
    refine List.Nodup.map_on (fun p hp q hq he => ?_) (h.once.filter _)
    have hp := of_decide_eq_true (List.mem_filter.mp hp).2
    have hq := of_decide_eq_true (List.mem_filter.mp hq).2
    exact Prod.ext (hp.trans hq.symm) he
  · intro c
    rw [← h.user, recipients, (List.Perm.map Prod.snd hperm).mem_iff, List.mem_map]
    constructor
    · rintro ⟨⟨v, c'⟩, hp, rfl⟩
      obtain ⟨hmem, hv⟩ := List.mem_filter.mp hp
      obtain rfl : v = u := of_decide_eq_true hv
      exact hmem
    · intro hp
      exact ⟨(u, c), List.mem_filter.mpr ⟨hp, decide_eq_true rfl⟩, rfl⟩

/-- A handle has one connection. -/
theorem Live.unique {s : WsServer} {hdl : Hdl} {u u' : Int} {c c' : Nat} (h : s.Live hdl u c)
    (h' : s.Live hdl u' c') : u = u' ∧ c = c' := by
  obtain ⟨conn, hconn, rfl, rfl⟩ := h
  obtain ⟨conn', hconn', rfl, rfl⟩ := h'
  obtain rfl := Option.some.inj (hconn.symm.trans hconn')
  exact ⟨rfl, rfl⟩

/-- A connection id has one handle. -/
theorem IndexesAgree.hdl_unique {s : WsServer} (h : IndexesAgree s) {hdl hdl' : Hdl} {u u' : Int}
    {c : Nat} (hl : s.Live hdl u c) (hl' : s.Live hdl' u' c) : hdl = hdl' :=
  Option.some.inj (((h.hdl c hdl).mpr ⟨u, hl⟩).symm.trans ((h.hdl c hdl').mpr ⟨u', hl'⟩))

theorem indexesAgree_new : IndexesAgree new :=
  ⟨List.nodup_nil, fun _ _ => iff_of_false List.not_mem_nil (fun ⟨_, _, h, _⟩ => nomatch h),
    fun _ _ => iff_of_false (fun h => nomatch h) (fun ⟨_, _, h, _⟩ => nomatch h)⟩

/-! ## Logins -/

/-- After a log-in the new connection is live, besides the others. -/
theorem live_logIn {s : WsServer} {hdl : Hdl} {userId : Int} {userName : String} {hdl' : Hdl}
    {u : Int} {c : Nat} : (s.logIn hdl userId userName).Live hdl' u c ↔
      if hdl' = hdl then u = userId ∧ c = s.nextConnId else s.Live hdl' u c := by
  unfold Live logIn
  simp only [lookup_insert_eq]
  split
  · exact ⟨fun ⟨_, he, hu, hc⟩ => by cases he; exact ⟨hu.symm, hc.symm⟩,
      fun ⟨hu, hc⟩ => ⟨_, rfl, hu.symm, hc.symm⟩⟩
  · exact Iff.rfl

theorem not_live {s : WsServer} {hdl : Hdl} (hnew : s.connections.lookup hdl = none) (u : Int)
    (c : Nat) : ¬ s.Live hdl u c := by
  rintro ⟨conn, hconn, -⟩
  rw [hnew] at hconn
  cases hconn

theorem live_logIn_self {s : WsServer} (hdl : Hdl) (userId : Int) (userName : String) :
    (s.logIn hdl userId userName).Live hdl userId s.nextConnId :=
  live_logIn.mpr (by rw [if_pos rfl]; exact ⟨rfl, rfl⟩)

/-- A connection id that nobody has makes a new entry in each index. -/
theorem IndexesAgree.logIn {s : WsServer} (h : IndexesAgree s) {hdl : Hdl}
    (hnew : s.connections.lookup hdl = none) (hfree : ∀ hdl' u, ¬ s.Live hdl' u s.nextConnId)
    (userId : Int) (userName : String) : IndexesAgree (s.logIn hdl userId userName) := by
  have hself := live_logIn_self (s := s) hdl userId userName
  constructor
  case once =>
    refine List.nodup_append.mpr ⟨h.once, List.nodup_singleton _, ?_⟩
    rintro ⟨u, c⟩ hp _ hq rfl
    obtain ⟨rfl, rfl⟩ := Prod.mk.inj (List.mem_singleton.mp hq)
    obtain ⟨hdl', hlive⟩ := (h.user _ _).mp hp
    exact hfree hdl' _ hlive
  case user =>
    intro u c
    show (u, c) ∈ s.userId2ConnId ++ _ ↔ _
    rw [List.mem_append, List.mem_singleton, h.user]
    constructor
    · rintro (⟨hdl', hlive⟩ | he)
      · refine ⟨hdl', live_logIn.mpr ?_⟩
        rw [if_neg (by rintro rfl; exact not_live hnew _ _ hlive)]
        exact hlive
      · obtain ⟨rfl, rfl⟩ := Prod.mk.inj he
        exact ⟨hdl, hself⟩
    · rintro ⟨hdl', hlive⟩
      have hlive := live_logIn.mp hlive
      split at hlive
      · exact .inr (Prod.ext hlive.1 hlive.2)
      · exact .inl ⟨hdl', hlive⟩
  case hdl =>
    intro c hdl'
    show (s.connId2Hdl.insert s.nextConnId hdl).lookup c = some hdl' ↔ _
    rw [lookup_insert_eq]
    simp only [live_logIn]
    by_cases hc : c = s.nextConnId
    · rw [if_pos hc, hc]
      by_cases hh : hdl' = hdl
      · rw [hh]
        exact iff_of_true rfl ⟨userId, by rw [if_pos rfl]; exact ⟨rfl, rfl⟩⟩
      · refine iff_of_false (fun he => hh (Option.some.inj he).symm) ?_
        rintro ⟨u, hlive⟩
        rw [if_neg hh] at hlive
        exact hfree hdl' u hlive
    · rw [if_neg hc, h.hdl]
      by_cases hh : hdl' = hdl
      · refine iff_of_false (fun ⟨u, hlive⟩ => not_live hnew u c (hh ▸ hlive)) ?_
        rintro ⟨u, hlive⟩
        rw [if_pos hh] at hlive
        exact hc hlive.2
      · simp only [if_neg hh]

/-- A login keeps the agreement iff no live connection has the new connection id. -/
theorem logIn_iff {s : WsServer} (h : IndexesAgree s) {hdl : Hdl}
    (hnew : s.connections.lookup hdl = none) (userId : Int) (userName : String) :
    IndexesAgree (s.logIn hdl userId userName) ↔ ∀ hdl' u, ¬ s.Live hdl' u s.nextConnId := by
  constructor
  · intro h' hdl' u hlive
    have hne : hdl' ≠ hdl := by
      rintro rfl
      exact not_live hnew _ _ hlive
    -- the id would lead to two handles
    have hlive' : (s.logIn hdl userId userName).Live hdl' u s.nextConnId :=
      live_logIn.mpr (by rw [if_neg hne]; exact hlive)
    exact hne (h'.hdl_unique hlive' (live_logIn_self hdl userId userName))
  · intro hfree
    exact h.logIn hnew hfree userId userName

/-! ## Logouts -/

/-- After a connection has been closed the others are live. -/
theorem live_unsubscribe {w : World} {s : WsServer} {hdl : Hdl} {conn : Connection}
    (hconn : s.connections.lookup hdl = some conn) {hdl' : Hdl} {u : Int} {c : Nat} :
    (s.unsubscribe w hdl).2.Live hdl' u c ↔ hdl' ≠ hdl ∧ s.Live hdl' u c := by
  unfold Live unsubscribe
  rw [hconn]
  simp only [lookup_erase_eq]
  by_cases he : hdl' = hdl
  · simp only [if_pos he]
    exact ⟨fun ⟨_, h, _⟩ => (nomatch h), fun h => absurd he h.1⟩
  · simp only [if_neg he]
    exact (and_iff_right he).symm

/-- The index afterwards has what is live, but for a user whose id is the connection's number. -/
theorem mem_unsubscribe {w : World} {s : WsServer} (h : IndexesAgree s) {hdl : Hdl}
    {conn : Connection} (hconn : s.connections.lookup hdl = some conn) (u : Int) (c : Nat) :
    (u, c) ∈ (s.unsubscribe w hdl).2.userId2ConnId ↔
      u ≠ toInt conn.connId ∧ ∃ hdl', s.Live hdl' u c := by
  unfold unsubscribe
  rw [hconn]
  show (u, c) ∈ List.filter _ s.userId2ConnId ↔ _
  rw [List.mem_filter, h.user, and_comm, decide_eq_true_iff]

theorem lookup_unsubscribe {w : World} {s : WsServer} {hdl : Hdl} {conn : Connection}
    (hconn : s.connections.lookup hdl = some conn) (c : Nat) :
    (s.unsubscribe w hdl).2.connId2Hdl.lookup c =
      if c = conn.connId then none else s.connId2Hdl.lookup c := by
  unfold unsubscribe
  rw [hconn]
  exact lookup_erase_eq ..

/-- The entries that are erased are the one entry of the closed connection. -/
theorem IndexesAgree.unsubscribe {w : World} {s : WsServer} (h : IndexesAgree s) {hdl : Hdl}
    {conn : Connection} (hconn : s.connections.lookup hdl = some conn)
    (hone : ∀ hdl' c, s.Live hdl' (toInt conn.connId) c ↔ hdl' = hdl ∧ c = conn.connId) :
    IndexesAgree (s.unsubscribe w hdl).2 := by
  have hself : s.Live hdl conn.userId conn.connId := ⟨conn, hconn, rfl, rfl⟩
  have hid : conn.userId = toInt conn.connId :=
    (hself.unique ((hone hdl conn.connId).mpr ⟨rfl, rfl⟩)).1
  constructor
  case once =>
    unfold WsServer.unsubscribe
    rw [hconn]
    exact h.once.filter _
  case user =>
    intro u c
    rw [mem_unsubscribe h hconn]
    simp only [live_unsubscribe hconn]
    constructor
    · rintro ⟨hu, hdl', hlive⟩
      refine ⟨hdl', ?_, hlive⟩
      rintro rfl
      exact hu ((hlive.unique hself).1.trans hid)
    · rintro ⟨hdl', hne, hlive⟩
      refine ⟨?_, hdl', hlive⟩
      rintro rfl
      exact hne ((hone hdl' c).mp hlive).1
  case hdl =>
    intro c hdl'
    simp only [live_unsubscribe hconn]
    rw [lookup_unsubscribe hconn]
    by_cases hc : c = conn.connId
    · rw [if_pos hc]
      refine iff_of_false (fun he => nomatch he) ?_
      rintro ⟨u, hne, hlive⟩
      exact hne (h.hdl_unique (hc ▸ hlive) hself)
    · rw [if_neg hc, h.hdl]
      refine exists_congr fun u => (and_iff_right_of_imp fun hlive => ?_).symm
      rintro rfl
      exact hc (hlive.unique hself).2

/-- A logout keeps the agreement iff the connections of the user whose id is the
number of the connection are this one. -/
theorem unsubscribe_iff {w : World} {s : WsServer} (h : IndexesAgree s) {hdl : Hdl}
    {conn : Connection} (hconn : s.connections.lookup hdl = some conn) :
    IndexesAgree (s.unsubscribe w hdl).2 ↔
      ∀ hdl' c, s.Live hdl' (toInt conn.connId) c ↔ hdl' = hdl ∧ c = conn.connId := by
  refine ⟨fun h' hdl' c => ?_, h.unsubscribe hconn⟩
  have hself : s.Live hdl conn.userId conn.connId := ⟨conn, hconn, rfl, rfl⟩
  have huser := h'.user
  simp only [mem_unsubscribe h hconn, live_unsubscribe hconn] at huser
  -- the entry of the closed connection is gone, so it was one of the erased ones
  have hid : conn.userId = toInt conn.connId := by
    by_contra hne
    obtain ⟨hdl', hne', hlive⟩ := (huser conn.userId conn.connId).mp ⟨hne, hdl, hself⟩
    exact hne' (h.hdl_unique hlive hself)
  constructor
  · intro hlive
    -- no entry of the user is left, so no connection but the closed one is
    obtain rfl : hdl' = hdl := by
      by_contra hne
      exact ((huser _ c).mpr ⟨hdl', hne, hlive⟩).1 rfl
    exact ⟨rfl, (hlive.unique hself).2⟩
  · rintro ⟨rfl, rfl⟩
    exact hid ▸ hself

/-! ## Actions -/

section Run

variable (parse : String → Except Fault (Option Json))

/-- The session of the message belongs to a user. -/
def HasSession (w : World) (msg : Json) : Prop :=
  ∃ sessdata user, msg.Reads "sessdata" Json.asUInt sessdata ∧
    w.authorize sessdata = .ok (some user)

/-- The message is an `AUTHORIZE` with a valid session. -/
def LogsIn (w : World) (text : String) : Prop :=
  ∃ msg, parse text = .ok (some msg) ∧ msg.isMember "message_type" = .ok true ∧
    msg.Reads "message_type" Json.asString "AUTHORIZE" ∧ HasSession w msg

/-- The actions that keep the indexes in agreement. A successful `AUTHORIZE` gets a
connection id that no live connection has; a connection that closes is the only
one of the user whose id is its number. -/
def KeepsIndexes (s : WsServer) (a : World × Action) : Prop :=
  match a.2 with
  | .unsubscribe hdl => ∀ conn, s.connections.lookup hdl = some conn →
    ∀ hdl' c, s.Live hdl' (toInt conn.connId) c ↔ hdl' = hdl ∧ c = conn.connId
  | .message hdl text => s.connections.lookup hdl = none → LogsIn parse a.1 text →
    ∀ hdl' u, ¬ s.Live hdl' u s.nextConnId
  | _ => True

/-- Only the rooms differ. -/
theorem indexesAgree_roomManager {s : WsServer} {roomManager : Manager} :
    IndexesAgree { s with roomManager := roomManager } ↔ IndexesAgree s :=
  ⟨fun h => ⟨h.once, h.user, h.hdl⟩, fun h => ⟨h.once, h.user, h.hdl⟩⟩

/-- A message from an authorized connection changes the rooms only. -/
theorem ensures_authorizedMessage {w : World} {s : WsServer} {hdl : Hdl} {conn : Connection}
    {messageType : String} {msg : Json} :
    Ensures (s.authorizedMessage w hdl conn messageType msg) fun r =>
      ∃ roomManager, r.2 = { s with roomManager := roomManager } := by
  unfold authorizedMessage
  refine .ite (fun _ => .bind' fun _ _ => .ok ⟨s.roomManager, rfl⟩) fun _ => ?_
  refine .ite (fun _ => ?_) fun _ => ?_
  · exact .bind' fun _ _ => .bind' fun _ _ => .bind' fun _ _ => .ok ⟨s.roomManager, rfl⟩
  · exact .bind' fun r _ => .ok ⟨r.2, rfl⟩

/-- A message has logged its sender in, if it is a login, and else has changed the
rooms only. -/
def Handled (s : WsServer) (hdl : Hdl) (login : Prop) (s' : WsServer) : Prop :=
  (s.connections.lookup hdl = none ∧ login ∧
    ∃ userId userName, s' = s.logIn hdl userId userName) ∨
  ((s.connections.lookup hdl = none → ¬ login) ∧
    ∃ roomManager, s' = { s with roomManager := roomManager })

theorem Handled.congr {s s' : WsServer} {hdl : Hdl} {login login' : Prop}
    (h : s.Handled hdl login s') (hiff : login ↔ login') : s.Handled hdl login' s' := by
  obtain rfl := propext hiff
  exact h

theorem Handled.same {s : WsServer} {hdl : Hdl} {login : Prop} (h : ¬ login) :
    s.Handled hdl login s := .inr ⟨fun _ => h, s.roomManager, rfl⟩

section Message

variable {w : World} {s : WsServer} {hdl : Hdl}

/-- A message of a new connection logs it in, or leaves the indexes alone. -/
theorem ensures_unauthorizedMessage (hnew : s.connections.lookup hdl = none) (messageType : String)
    (msg : Json) : Ensures (s.unauthorizedMessage w hdl messageType msg) fun r =>
      s.Handled hdl (messageType = "AUTHORIZE" ∧ HasSession w msg) r.2 := by
  unfold unauthorizedMessage
  refine .ite (fun hne => .ok (.same fun h => hne h.1)) fun heq => ?_
  refine .bind' fun v hv => .bind' fun sessdata hsess => .bind' fun user huser => ?_
  have hread : msg.Reads "sessdata" Json.asUInt sessdata := ⟨v, hv, hsess⟩
  cases user with
  | some user =>
    exact .ok (.inl ⟨hnew, ⟨not_not.mp heq, sessdata, user, hread, huser⟩, user.1, user.2, rfl⟩)
  | none =>
    refine .ok (.same ?_)
    rintro ⟨-, sessdata', user', hread', huser'⟩
    obtain rfl := hread.unique hread'
    cases huser.symm.trans huser'

/-- A message logs its connection in, or leaves the indexes alone. -/
theorem ensures_typedMessage (msg : Json) : Ensures (s.typedMessage w hdl msg) fun r =>
    s.Handled hdl (msg.Reads "message_type" Json.asString "AUTHORIZE" ∧ HasSession w msg) r.2 := by
  unfold typedMessage
  refine .bind' fun t ht => .bind' fun messageType htype => ?_
  have hread : msg.Reads "message_type" Json.asString messageType := ⟨t, ht, htype⟩
  cases hconn : s.connections.lookup hdl with
  | some conn =>
    refine ensures_authorizedMessage.mono fun r hr => .inr ⟨fun h => ?_, hr⟩
    rw [hconn] at h
    cases h
  | none =>
    refine (ensures_unauthorizedMessage hconn messageType msg).mono fun r hr => hr.congr ?_
    exact and_congr_left fun _ => ⟨fun h => h ▸ hread, hread.unique⟩

variable {parse}

/-- A message that is handled logs its sender in or changes the rooms only. -/
theorem ensures_message {text : String} : Ensures (s.message parse w hdl text) fun r =>
    s.Handled hdl (LogsIn parse w text) r.2 := by
  unfold message
  refine .bind' fun parsed hparse => ?_
  cases parsed with
  | none =>
    refine .ok (.same ?_)
    rintro ⟨msg, hmsg, -⟩
    cases hparse.symm.trans hmsg
  | some msg =>
    have hiff : LogsIn parse w text ↔ msg.isMember "message_type" = .ok true ∧
        msg.Reads "message_type" Json.asString "AUTHORIZE" ∧ HasSession w msg := by
      constructor
      · rintro ⟨msg', hmsg, h⟩
        obtain rfl := Option.some.inj (Except.ok.inj (hparse.symm.trans hmsg))
        exact h
      · intro h
        exact ⟨msg, hparse, h⟩
    rw [hiff]
    unfold parsedMessage
    refine .bind' fun isMember hmember => .ite (fun htrue => ?_) fun hfalse => .ok (.same ?_)
    · rw [htrue] at hmember
      exact (ensures_typedMessage msg).mono fun r hr => hr.congr (and_iff_right hmember).symm
    · intro h
      exact hfalse (Except.ok.inj (hmember.symm.trans h.1))

end Message

variable {parse}

/-- **Step lemma**: an action keeps the agreement iff it is of the kind that
does. -/
theorem step_iff {s s' : WsServer} (h : IndexesAgree s) {a : World × Action}
    {effects : List Effect} (hs : s.step parse a = .ok (effects, s')) :
    IndexesAgree s' ↔ s.KeepsIndexes parse a := by
  obtain ⟨w, action⟩ := a
  cases action with
  | subscribe hdl =>
    cases hs
    exact iff_of_true h trivial
  | unsubscribe hdl =>
    obtain rfl : (s.unsubscribe w hdl).2 = s' := congrArg Prod.snd (Except.ok.inj hs)
    cases hconn : s.connections.lookup hdl with
    | none =>
      have hsame : (s.unsubscribe w hdl).2 = s := by
        unfold unsubscribe
        rw [hconn]
      rw [hsame]
      refine iff_of_true h fun conn hconn' => ?_
      rw [hconn] at hconn'
      cases hconn'
    | some conn =>
      refine (unsubscribe_iff h hconn).trans ⟨fun hone conn' hconn' => ?_, fun hk => hk conn hconn⟩
      obtain rfl := Option.some.inj (hconn.symm.trans hconn')
      exact hone
  | message hdl text =>
    rcases ensures_message _ hs with ⟨hnew, hlogin, userId, userName, rfl⟩ | ⟨hno, m, rfl⟩
    · exact (logIn_iff h hnew userId userName).trans
        ⟨fun hfree _ _ => hfree, fun hk => hk hnew hlogin⟩
    · exact iff_of_true (indexesAgree_roomManager.mpr h) fun hnew hlogin => absurd hlogin (hno hnew)
  | visit roomId =>
    cases hs
    exact iff_of_true (indexesAgree_roomManager.mpr h) trivial
  | update roomId =>
    cases hs
    exact iff_of_true (indexesAgree_roomManager.mpr h) trivial

/-- **The connection indexes**: in every run whose actions are of the kind that
keeps the indexes, they agree in the state reached and whispers reach the live
connections of their receiver; and there a further action keeps the agreement iff
it is of this kind. -/
theorem indexes_agree_iff {h : List (Entry WsServer (World × Action) (List Effect))}
    {s : WsServer} (hr : Run (step parse) (fun s a => s.KeepsIndexes parse a) new h s) :
    IndexesAgree s ∧ WhispersReach s ∧ ∀ a effects s', s.step parse a = .ok (effects, s') →
      (IndexesAgree s' ↔ s.KeepsIndexes parse a) := by
  have hs : IndexesAgree s :=
    Run.invariant indexesAgree_new (fun _ _ _ _ h ha hs => (step_iff h hs).mpr ha) hr
  exact ⟨hs, hs.whispersReach, fun a effects s' hs' => step_iff hs hs'⟩

end Run

/-- An `AUTHORIZE` with the session 7. -/
def authorizeText : String := "\x7b\"message_type\":\"AUTHORIZE\",\"sessdata\":7\x7d"

/-- A parser that knows one text. -/
def parseAuthorize (text : String) : Except Fault (Option Json) :=
  .ok (if text = authorizeText then
    some (.obj [("message_type", .str "AUTHORIZE"), ("sessdata", .int 7)]) else none)

/-- A world in which every session belongs to a user. -/
def worldOf (user : Int × String) : World :=
  ⟨⟨fun _ => 0, fun k => k, fun i => i.toNat, fun _ _ => 0⟩, fun _ => .ok (some user),
    fun _ _ => .ok (), 0⟩

theorem indexes_agree_iff_login : IndexesAgree (new.logIn 0 1 "a") ∧
    ((1, 1) ∈ (new.logIn 0 1 "a").userId2ConnId) := by
  have hr : Run (step parseAuthorize) (fun s a => s.KeepsIndexes parseAuthorize a) new
      [⟨new, (worldOf (1, "a"), .message 0 authorizeText), _, new.logIn 0 1 "a"⟩]
      (new.logIn 0 1 "a") :=
    .snoc .nil (fun _ _ _ _ ⟨_, h, _⟩ => nomatch h) rfl
  exact ⟨(indexes_agree_iff hr).1, List.mem_singleton.mpr rfl⟩

/-- User 2 logs in on connection 1 and leaves. -/
def loginLogout : List (World × Action) :=
  [(worldOf (2, "b"), .message 0 authorizeText), (worldOf (2, "b"), .unsubscribe 0)]

/-- The connection is gone, and its pair is still in the multimap. -/
theorem logout_leaves_pair : ∃ s, exec (step parseAuthorize) new loginLogout = .ok s ∧
    (2, 1) ∈ s.userId2ConnId ∧ (∀ hdl, ¬ s.Live hdl 2 1) ∧ ¬ IndexesAgree s := by
  have hexec : execTo (step parseAuthorize) new loginLogout (fun s =>
      decide ((2, 1) ∈ s.userId2ConnId) && decide (s.connections.entries = [])) = true := by
    decide
  obtain ⟨s, hs, hcheck⟩ := exists_of_execTo hexec
  obtain ⟨hpair, hempty⟩ := Bool.and_eq_true_iff.mp hcheck
  have hpair : (2, 1) ∈ s.userId2ConnId := of_decide_eq_true hpair
  have hdead : ∀ hdl, ¬ s.Live hdl 2 1 := by
    rintro hdl ⟨conn, hconn, -⟩
    have hmem := AList.mem_lookup_iff.mp hconn
    rw [of_decide_eq_true hempty] at hmem
    exact absurd hmem List.not_mem_nil
  refine ⟨s, hs, hpair, hdead, fun h => ?_⟩
  obtain ⟨hdl, hlive⟩ := (h.user 2 1).mp hpair
  exact hdead hdl hlive

end WsServer

end UnoppServer
