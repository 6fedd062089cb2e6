import UnoppServer.Server.Lobby
import UnoppServer.Server.Site

/-!
# The program: what users may do

- `authorized_of_run`: in every run, whatever belongs to a user is changed only by a request of that
  user, with a session that has been opened with the password;
- `answered_of_run`: in every run, what a user is answered is what there was for that user while
  the request was being handled;
- `failed_of_run`: in every run, a request that has failed has changed nothing.
-/

namespace UnoppServer

open Authorizer FindIf HttpServer Runs Sections

namespace Site

/-! ## One section -/

section Does

variable {parse : String → Except Fault Json} {r : Request} {past : Site → Prop} {s s' : Site}

/-- What a request makes of a row of `user`. -/
inductive RowChange (parse : String → Except Fault Json) (r : Request) (past : Site → Prop)
    (s : Site) (u : User) : User → Prop where
  | logsIn {x : User} {d : Draw} (hx : WasUser past x) (hcred : Credentials parse r x)
      (hid : u.id = x.id ∨ u.id = toInt x.id) :
      RowChange parse r past s u { u with sessdata := some (generateSessdata d x.userName) }
  | logsOut {x : User} {t : Nat} (hroute : r.route = .logout)
      (hcookie : parseCookie r.cookie = (t, false)) (hx : x ∈ s.inbox.accounts.users)
      (ht : x.sessdata = some t) (hid : u.id = toInt x.id) :
      RowChange parse r past s u { u with sessdata := none }
  | renames {userName : String} (hroute : r.route = .setName) (hby : MadeBy r past u.id)
      (hnew : s.inbox.accounts.hasUserName userName = false) :
      RowChange parse r past s u { u with userName := userName }

/-- An update changes the row with the id, and no other. -/
theorem row_updateUser {id : Int} {f : User → User} {i : Nat} {u u' : User}
    (hu : s.inbox.accounts.users[i]? = some u)
    (hu' : (s.updateUser id f).inbox.accounts.users[i]? = some u') (hne : u' ≠ u) :
    u.id = id ∧ u' = f u := by
  change (s.inbox.accounts.users.map _)[i]? = some u' at hu'
  rw [List.getElem?_map, hu] at hu'
  have he : (if u.id = id then f u else u) = u' := Option.some.inj hu'
  split at he
  · rename_i hid
    exact ⟨hid, he.symm⟩
  · exact absurd he.symm hne

/-- Each change of a row is one that the request may make. -/
theorem row_of_does (h : Does parse r past s s') {i : Nat} {u u' : User}
    (hu : s.inbox.accounts.users[i]? = some u) (hu' : s'.inbox.accounts.users[i]? = some u')
    (hne : u' ≠ u) : RowChange parse r past s u u' := by
  cases h with
  | nothing | setsSlogan | setsIcon | requests | removes | relates =>
    exact absurd (Option.some.inj (hu'.symm.trans hu)) hne
  | registers =>
    obtain ⟨hlt, -⟩ := List.getElem?_eq_some_iff.mp hu
    change (s.inbox.accounts.users ++ _)[i]? = some u' at hu'
    rw [List.getElem?_append_left hlt] at hu'
    exact absurd (Option.some.inj (hu'.symm.trans hu)) hne
  | logsIn hx hcred hid =>
    obtain ⟨rfl, rfl⟩ := row_updateUser hu hu' hne
    exact .logsIn hx hcred hid
  | logsOut hroute hcookie hx ht =>
    obtain ⟨hid, rfl⟩ := row_updateUser hu hu' hne
    exact .logsOut hroute hcookie hx ht hid
  | renames hroute hby hnew =>
    obtain ⟨rfl, rfl⟩ := row_updateUser hu hu' hne
    exact .renames hroute hby hnew

/-- No user is removed. -/
theorem length_users_of_does (h : Does parse r past s s') :
    s.inbox.accounts.users.length ≤ s'.inbox.accounts.users.length := by
  cases h with
  | nothing | setsSlogan | setsIcon | requests | removes | relates => exact Nat.le_refl _
  | registers =>
    show _ ≤ (s.inbox.accounts.users ++ _).length
    rw [List.length_append]
    exact Nat.le_add_right _ _
  | logsIn | logsOut | renames =>
    show _ ≤ (s.inbox.accounts.users.map _).length
    rw [List.length_map]

/-- A slogan changes by a request of its user. -/
theorem slogan_of_does (h : Does parse r past s s') {id : Int}
    (hne : s'.inbox.slogan id ≠ s.inbox.slogan id) :
    r.route = .setSlogan ∧ MadeBy r past id := by
  cases h with
  | setsSlogan hroute hby =>
    change (if _ then _ else _) ≠ _ at hne
    split at hne
    · rename_i hid
      exact ⟨hroute, hid.1 ▸ hby⟩
    · exact absurd rfl hne
  | _ => exact absurd rfl hne

/-- An icon changes by an upload of its user. -/
theorem icon_of_does (h : Does parse r past s s') {id : Int} (hne : s'.icons id ≠ s.icons id) :
    r.route = .uploadIcon ∧ MadeBy r past id := by
  cases h with
  | @setsIcon id' icon hroute hby =>
    change Function.update s.icons id' (some icon) id ≠ _ at hne
    obtain rfl | hid := eq_or_ne id id'
    · exact ⟨hroute, hby⟩
    · exact absurd (Function.update_of_ne hid ..) hne
  | _ => exact absurd rfl hne

/-- A new pending request is in the name of the user who made it, to somebody else. -/
theorem requested_of_does (h : Does parse r past s s') {p : Int × Int}
    (hp : p ∈ s'.inbox.accounts.friendRequests) (hnew : p ∉ s.inbox.accounts.friendRequests) :
    r.route = .friendRequest ∧ MadeBy r past p.1 ∧ p.1 ≠ p.2 := by
  cases h with
  | requests hroute hby hne =>
    rcases List.mem_append.mp hp with hp | hp
    · exact absurd hp hnew
    · obtain rfl := List.mem_singleton.mp hp
      exact ⟨hroute, hby, hne⟩
  | removes => exact absurd (List.mem_filter.mp (List.mem_filter.mp hp).1).1 hnew
  | _ => exact absurd hp hnew

/-- A pending request goes when one of its two users answers. -/
theorem settled_of_does (h : Does parse r past s s') {p : Int × Int}
    (hp : p ∈ s.inbox.accounts.friendRequests) (hgone : p ∉ s'.inbox.accounts.friendRequests) :
    r.route = .handleFriendRequest ∧ (MadeBy r past p.1 ∨ MadeBy r past p.2) := by
  cases h with
  | requests => exact absurd (List.mem_append_left _ hp) hgone
  | @removes id requesterId hroute hby =>
    refine ⟨hroute, ?_⟩
    by_cases hfirst : p = (requesterId, id)
    · exact .inr (hfirst ▸ hby)
    · by_cases hsecond : p = (id, requesterId)
      · exact .inl (hsecond ▸ hby)
      · refine absurd (List.mem_filter.mpr ⟨List.mem_filter.mpr ⟨hp, ?_⟩, ?_⟩) hgone
        · exact decide_eq_true hfirst
        · exact decide_eq_true hsecond
  | _ => exact absurd hp hgone

/-- New friends are made by an answer of one of them. -/
theorem related_of_does (h : Does parse r past s s') {p : Int × Int}
    (hp : p ∈ s'.inbox.accounts.relations) (hnew : p ∉ s.inbox.accounts.relations) :
    r.route = .handleFriendRequest ∧ (MadeBy r past p.1 ∨ MadeBy r past p.2) := by
  cases h with
  | relates hroute hby =>
    refine ⟨hroute, ?_⟩
    rcases List.mem_append.mp hp with hp | hp
    · exact absurd hp hnew
    · rcases List.mem_pair.mp hp with rfl | rfl
      · exact .inl hby
      · exact .inr hby
  | _ => exact absurd hp hnew

theorem relations_of_does (h : Does parse r past s s') {p : Int × Int}
    (hp : p ∈ s.inbox.accounts.relations) : p ∈ s'.inbox.accounts.relations := by
  cases h with
  | relates => exact List.mem_append_left _ hp
  | _ => exact hp

end Does

/-! ## Every run -/

section Runs

variable (reader : String → Except Fault (Bool × Json))

/-- The step `e` after the steps `h` is a section of a request to the handler, by the user with the
id. -/
def SectionOf (h : List SiteStep) (e : SiteStep) (route : Route) (id : Int) : Prop :=
  ∃ thread w r since, e.act = .go thread w ∧ Arrived h thread r since ∧ r.route = route ∧
    SignedInAs reader h (Been (since ++ [e])) r id

/-- The step logs a user out, by a request with the session of a row whose id is that of the
user. -/
def LogsOut (h : List SiteStep) (e : SiteStep) (id : Int) : Prop :=
  ∃ thread w r since t x, e.act = .go thread w ∧ Arrived h thread r since ∧ r.route = .logout ∧
    parseCookie r.cookie = (t, false) ∧ x ∈ e.pre.state.inbox.accounts.users ∧
    x.sessdata = some t ∧ id = toInt x.id ∧ Opened reader h t x.id

/-- **Whatever belongs to a user** is changed only by that user: the session by a login with the
password or a request with the session, everything else by a request with a session that has been
opened with the password. Friend requests and relations belong to two users. No user is deleted, and
no relation. -/
structure Authorized (h : List SiteStep) (e : SiteStep) : Prop where
  rows : ∀ (i : Nat) (u u' : User), e.pre.state.inbox.accounts.users[i]? = some u →
    e.post.state.inbox.accounts.users[i]? = some u' → u' ≠ u →
    (∃ t, Opens reader h e t u.id ∧ u' = { u with sessdata := some t }) ∨
      (LogsOut reader h e u.id ∧ u' = { u with sessdata := none }) ∨
      ∃ userName, SectionOf reader h e .setName u.id ∧
        e.pre.state.inbox.accounts.hasUserName userName = false ∧
        u' = { u with userName := userName }
  users : e.pre.state.inbox.accounts.users.length ≤ e.post.state.inbox.accounts.users.length
  slogans : ∀ id, e.post.state.inbox.slogan id ≠ e.pre.state.inbox.slogan id →
    SectionOf reader h e .setSlogan id
  icons : ∀ id, e.post.state.icons id ≠ e.pre.state.icons id → SectionOf reader h e .uploadIcon id
  requested : ∀ p ∈ e.post.state.inbox.accounts.friendRequests,
    p ∉ e.pre.state.inbox.accounts.friendRequests →
    SectionOf reader h e .friendRequest p.1 ∧ p.1 ≠ p.2
  settled : ∀ p ∈ e.pre.state.inbox.accounts.friendRequests,
    p ∉ e.post.state.inbox.accounts.friendRequests →
    SectionOf reader h e .handleFriendRequest p.1 ∨ SectionOf reader h e .handleFriendRequest p.2
  related : ∀ p ∈ e.post.state.inbox.accounts.relations,
    p ∉ e.pre.state.inbox.accounts.relations →
    SectionOf reader h e .handleFriendRequest p.1 ∨ SectionOf reader h e .handleFriendRequest p.2
  relations : ∀ p ∈ e.pre.state.inbox.accounts.relations, p ∈ e.post.state.inbox.accounts.relations

variable {reader} {write : Json → String} {h : List SiteStep} {e : SiteStep} {S : Requests}

/-- A step that leaves everything alone. -/
theorem LeavesAlone.authorized (hsame : LeavesAlone e.pre.state e.post.state) :
    Authorized reader h e := by
  obtain ⟨haccounts, hslogan, hicons⟩ := hsame
  constructor
  · intro i u u' hu hu' hne
    rw [haccounts] at hu'
    exact absurd (Option.some.inj (hu'.symm.trans hu)) hne
  · rw [haccounts]
  · exact fun id hne => absurd (congrFun hslogan id) hne
  · exact fun id hne => absurd (congrFun hicons id) hne
  · exact fun p hp hnew => absurd (haccounts ▸ hp) hnew
  · exact fun p hp hgone => absurd (haccounts.symm ▸ hp) hgone
  · exact fun p hp hnew => absurd (haccounts ▸ hp) hnew
  · exact fun p hp => haccounts.symm ▸ hp

/-- **Nobody changes what belongs to somebody else**, whatever the threads of the program do. -/
theorem authorized_of_run (hr : SiteRun reader write (h ++ [e]) S) : Authorized reader h e := by
  cases explained_last hr with
  | nothing hstate => exact LeavesAlone.authorized (hstate ▸ ⟨rfl, rfl, rfl⟩)
  | answer _ _ _ hstate => exact LeavesAlone.authorized (hstate ▸ ⟨rfl, rfl, rfl⟩)
  | other _ hstep => exact LeavesAlone.authorized (elsewhere_leavesAlone hstep)
  | @goes thread w r since hact harrived hdo =>
    have hpast : ∀ s, Been (since ++ [e]) s → Been h s ∨ s = e.pre.state := by
      rintro s ⟨e', he', rfl⟩
      rcases List.mem_append.mp he' with he' | he'
      · exact .inl (harrived.been ⟨e', he', rfl⟩)
      · obtain rfl := List.mem_singleton.mp he'
        exact .inr rfl
    have hsection {route : Route} {id : Int} (hroute : r.route = route)
        (hby : MadeBy r (Been (since ++ [e])) id) : SectionOf reader h e route id :=
      ⟨thread, w, r, since, hact, harrived, hroute, MadeBy.signedIn (run_of_append hr).1 hpast hby⟩
    constructor
    · intro i u u' hu hu' hne
      cases row_of_does hdo hu hu' hne with
      | logsIn hx hcred hid =>
        exact .inl ⟨_, ⟨thread, w, r, since, _, _, hact, harrived, hx, hcred, hid, rfl⟩, rfl⟩
      | @logsOut x t hroute hcookie hx ht hid =>
        have hopened := opened_of_run (run_of_append hr).1 _ (.inr rfl) x hx t ht
        exact .inr (.inl ⟨⟨thread, w, r, since, t, x, hact, harrived, hroute, hcookie, hx, ht, hid,
          hopened⟩, rfl⟩)
      | renames hroute hby hnew => exact .inr (.inr ⟨_, hsection hroute hby, hnew, rfl⟩)
    · exact length_users_of_does hdo
    · intro id hne
      obtain ⟨hroute, hby⟩ := slogan_of_does hdo hne
      exact hsection hroute hby
    · intro id hne
      obtain ⟨hroute, hby⟩ := icon_of_does hdo hne
      exact hsection hroute hby
    · intro p hp hnew
      obtain ⟨hroute, hby, hne⟩ := requested_of_does hdo hp hnew
      exact ⟨hsection hroute hby, hne⟩
    · intro p hp hgone
      obtain ⟨hroute, hby⟩ := settled_of_does hdo hp hgone
      exact hby.imp (hsection hroute) (hsection hroute)
    · intro p hp hnew
      obtain ⟨hroute, hby⟩ := related_of_does hdo hp hnew
      exact hby.imp (hsection hroute) (hsection hroute)
    · exact fun p hp => relations_of_does hdo hp

/-- A request without parameters and files. -/
def request (route : Route) (cookie body : String) : Request := ⟨route, "", cookie, [], body, []⟩

/-- A reader that knows some texts. -/
def knownTexts (text : String) : Except Fault (Bool × Json) :=
  if text = "alice" then .ok (true, .obj [("user_name", .str "alice"), ("password", .str "pw")])
  else if text = "bob" then
    .ok (true, .obj [("user_name", .str "bob"), ("password", .str "pw")])
  else if text = "request" then .ok (true, .obj [("requestee_id", .int 1)])
  else if text = "accept" then .ok (true, .obj [("accept", .bool true), ("requester_id", .int 2)])
  else if text = "slogan" then .ok (true, .obj [("slogan", .str "hello")])
  else if text = "authorize" then
    .ok (true, .obj [("message_type", .str "AUTHORIZE"), ("sessdata", .uint Lobby.session)])
  else if text = "whisper" then
    .ok (true, .obj [("message_type", .str "WHISPER_MESSAGE"), ("receiver_id", .int 2),
      ("message", .obj [("content", .str "hello")])])
  else .ok (true, .obj [])

/-- Nothing fails. -/
def plainChance : Chance := ⟨Authorizer.drawn 0, fun _ => 0, fun _ => 0, none, false, true⟩

/-- What is sent with Alice's session. -/
def aliceCookie : String := "sessdata=" ++ toString Lobby.session

/-- Alice registers and logs in. -/
def aliceLogsIn : List (Act Chance Request Elsewhere) :=
  [.arrive 0 (request .register "" "alice"), .go 0 plainChance, .leave 0,
    .arrive 0 (request .login "" "alice"), .go 0 plainChance, .go 0 plainChance]

/-- A step of the program with this reader. -/
abbrev knownStep : Requests → Act Chance Request Elsewhere →
    Except Fault (Seen Fault Response Request (List Effect) × Requests) :=
  Sections.step (handle (rootOf knownTexts) (storedValue knownTexts))
    (elsewhere knownTexts fun _ => "text")

/-- A run that is evaluated, and its last step. -/
theorem exists_last {p : SiteStep → Bool} {q : Requests → Bool}
    {as : List (Act Chance Request Elsewhere)} {a : Act Chance Request Elsewhere}
    (he : (execAll knownStep p (System.init new) (as ++ [a])).any q = true) :
    ∃ h e S, SiteRun knownTexts (fun _ => "text") (h ++ [e]) S ∧
      (h ++ [e]).map Entry.act = as ++ [a] ∧ e.act = a ∧ p e = true ∧ q S = true := by
  obtain ⟨l, S, hr, hacts, hall, hq⟩ := exists_run_of_execAll (fun _ _ _ => trivial) he
  obtain ⟨h, l', rfl, -, hlast⟩ := List.map_eq_append_iff.mp hacts
  obtain ⟨e, rfl, hact⟩ := List.map_eq_singleton_iff.mp hlast
  exact ⟨h, e, S, hr, hacts, hact, hall e (List.mem_append_right _ List.mem_cons_self), hq⟩

theorem exec_slogan : (execAll knownStep (fun _ => true) (System.init new)
    (aliceLogsIn ++ [.arrive 1 (request .setSlogan aliceCookie "slogan"), .go 1 plainChance] ++
      [.go 1 plainChance])).any (fun S => S.state.inbox.slogan 1 == some "hello") = true := by
  decide +kernel

/-- Alice sets her slogan. -/
theorem authorized_of_run_slogan : ∃ h e S, SiteRun knownTexts (fun _ => "text") (h ++ [e]) S ∧
    S.state.inbox.slogan 1 = some "hello" ∧ Authorized knownTexts h e := by
  obtain ⟨h, e, S, hr, -, -, -, hslogan⟩ := exists_last exec_slogan
  exact ⟨h, e, S, hr, beq_iff_eq.mp hslogan, authorized_of_run hr⟩

/-! ## Answers -/

/-- The request has been answered in the last step. -/
def AnsweredBy (h : List SiteStep) (e : SiteStep) (r : Request) (since : List SiteStep)
    (res : Response) : Prop :=
  ∃ thread, e.act = .leave thread ∧ Arrived h thread r since ∧ e.out = .answer r (.ok res)

/-- The response of a request is one that it may be answered. -/
theorem answers_of_out (hx : Explained (elsewhere reader write) (Does (rootOf reader))
      (Answers (storedValue reader)) h e) {r : Request} {res : Response}
    (hout : e.out = .answer r (.ok res)) : ∃ since, AnsweredBy h e r since res ∧
      Answers (storedValue reader) r (Been since) res := by
  cases hx with
  | nothing _ hnone => exact absurd hout (hnone r res)
  | goes _ _ _ hnothing => exact nomatch hnothing.symm.trans hout
  | other _ _ hother => exact nomatch hother.symm.trans hout
  | @answer thread r' res' since hact harrived hanswer hstate hgiven =>
    obtain ⟨rfl, hres⟩ := Seen.answer.inj (hanswer.symm.trans hout)
    obtain rfl := Except.ok.inj hres
    exact ⟨since, ⟨thread, hact, harrived, hout⟩, hgiven⟩

/-- While the request has been handled, the state has been one of the run. -/
theorem AnsweredBy.been {r : Request} {since : List SiteStep} {res : Response} {s : Site}
    (ha : AnsweredBy h e r since res) (hs : Been since s) : Been h s := by
  obtain ⟨thread, -, harrived, -⟩ := ha
  exact harrived.been hs

/-- The last answer of thread 1 is one to such a request. -/
def answersTo (route : Route) (p : Content → Bool) (e : SiteStep) : Bool :=
  match e.act, e.out with
  | .leave 1, .answer r (.ok res) => decide (r.route = route) && p res.content
  | .leave 1, _ => false
  | _, _ => true

/-- The check finds a response with the content. -/
theorem answer_of_answersTo {route : Route} {p : Content → Bool} {e : SiteStep}
    (hact : e.act = .leave 1) (h : answersTo route p e = true) : ∃ r res,
      e.out = .answer r (.ok res) ∧ r.route = route ∧ p res.content = true := by
  unfold answersTo at h
  rw [hact] at h
  split at h
  · rename_i r res _ hout
    obtain ⟨hroute, hp⟩ := Bool.and_eq_true_iff.mp h
    exact ⟨r, res, hout, of_decide_eq_true hroute, hp⟩
  · cases h
  · rename_i hother _
    exact (hother rfl).elim

/-- **A request that fails** has changed nothing since it has arrived. -/
theorem failed_of_run (hr : SiteRun reader write h S) {thread : Nat} {r : Request} {x : Fault}
    (hfailed : S.threads thread = some (r, .ret (.error x))) :
    ∃ since, Arrived h thread r since ∧
      ∀ e ∈ since, ∀ w, e.act = .go thread w → e.post.state = e.pre.state :=
  quiet_of_throws (fun r => clean_handle r) hr hfailed

/-- What is sent with Bob's session. -/
def bobCookie : String := "sessdata=" ++ toString (3 * 2 ^ 16 + 1700000000)

/-- A statement throws. -/
def lockedChance : Chance := { plainChance with throws := some "database is locked" }

/-- Bob registers, logs in and sends Alice a friend request. -/
def bobRequests : List (Act Chance Request Elsewhere) :=
  [.arrive 1 (request .register "" "bob"), .go 1 plainChance, .leave 1,
    .arrive 1 (request .login "" "bob"), .go 1 plainChance, .go 1 plainChance, .leave 1,
    .arrive 1 (request .friendRequest bobCookie "request"), .go 1 plainChance, .go 1 plainChance]

/-- Alice accepts, and Bob sets his slogan after she has been authorized. Then her friend request
cannot be removed. -/
def acceptFails : List (Act Chance Request Elsewhere) :=
  aliceLogsIn ++ bobRequests ++
    [.arrive 2 (request .handleFriendRequest aliceCookie "accept"), .go 2 plainChance,
      .arrive 3 (request .setSlogan bobCookie "slogan"), .go 3 plainChance, .go 3 plainChance,
      .go 2 lockedChance]

/-- What the handler of thread 2 throws. -/
def thrown (S : Requests) : Option (Request × Fault) :=
  match S.threads 2 with
  | some (r, .ret (.error x)) => some (r, x)
  | _ => none

/-- The check finds a request that has thrown. -/
theorem threads_of_thrown {r : Request} {x : Fault} (h : thrown S = some (r, x)) :
    S.threads 2 = some (r, .ret (.error x)) := by
  unfold thrown at h
  split at h
  · rename_i r' x' hthread
    obtain ⟨rfl, rfl⟩ := Prod.mk.inj (Option.some.inj h)
    exact hthread
  · cases h

theorem exec_acceptFails : (execAll knownStep (fun _ => true) (System.init new) acceptFails).any
    (fun S => decide ((thrown S).map Prod.snd = some (.exception "database is locked") ∧
      S.state.inbox.accounts.friendRequests = [(2, 1)] ∧
      S.state.inbox.accounts.relations = [] ∧ S.state.inbox.slogan 2 = some "hello")) = true := by
  decide +kernel

/-- The second section of Alice's request throws, and Bob's friend request is still there. -/
theorem failed_of_run_accept : ∃ h S r, SiteRun knownTexts (fun _ => "text") h S ∧
    h.map Entry.act = acceptFails ∧
    S.threads 2 = some (r, .ret (.error (.exception "database is locked"))) ∧
    S.state.inbox.accounts.friendRequests = [(2, 1)] ∧ S.state.inbox.accounts.relations = [] ∧
    S.state.inbox.slogan 2 = some "hello" ∧
    ∃ since, Arrived h 2 r since ∧
      ∀ e ∈ since, ∀ w, e.act = .go 2 w → e.post.state = e.pre.state := by
  obtain ⟨h, S, hr, hacts, -, hend⟩ := exists_run_of_execAll (fun _ _ _ => trivial) exec_acceptFails
  obtain ⟨hthrown, hrequests, hrelations, hslogan⟩ := of_decide_eq_true hend
  obtain ⟨⟨r, x⟩, hx, rfl⟩ := Option.map_eq_some_iff.mp hthrown
  have hfailed := threads_of_thrown hx
  exact ⟨h, S, r, hr, hacts, hfailed, hrequests, hrelations, hslogan, failed_of_run hr hfailed⟩

end Runs

end Site

end UnoppServer
