import UnoppServer.Accounts.Effect
import UnoppServer.Chat.Cache
import UnoppServer.Http.Api

/-!
# The requests: what each may do

- `acts_handle`: whatever happens between the sections of a handler, each of them does only what the
  request is entitled to, and what is answered is for the user whose session is in its cookie.
-/

namespace UnoppServer

open Authorizer FindIf Sections

namespace HttpServer

/-! ## Entitlement -/

/-- The user was in the table at some time. -/
def WasUser (past : Site → Prop) (u : User) : Prop := ∃ s, past s ∧ u ∈ s.inbox.accounts.users

/-- The session of the request was one of the user with the id at some time. -/
def MadeBy (r : Request) (past : Site → Prop) (id : Int) : Prop :=
  ∃ t u, parseCookie r.cookie = (t, false) ∧ WasUser past u ∧ u.sessdata = some t ∧ toInt u.id = id

/-- The request is a login with the name or the id of the user, and the password. -/
def Credentials (parse : String → Except Fault Json) (r : Request) (u : User) : Prop :=
  ∃ payload payload' payload'', parse r.body = .ok payload ∧
    ((r.route = .login ∧ member Json.asString payload "user_name" = .ok (u.userName, payload')) ∨
      (r.route = .loginById ∧ member Json.asInt payload "id" = .ok (u.id, payload'))) ∧
    member Json.asString payload' "password" = .ok (u.password, payload'')

/-- What a section of a request may do, when the states of `past` have been since it has arrived. -/
inductive Does (parse : String → Except Fault Json) (r : Request) (past : Site → Prop) (s : Site) :
    Site → Prop where
  | nothing : Does parse r past s s
  | registers {userName password : String} (hroute : r.route = .register)
      (hnew : s.inbox.accounts.hasUserName userName = false) :
      Does parse r past s (s.withAccounts { s.inbox.accounts with
        users := s.inbox.accounts.users ++
          [⟨s.inbox.accounts.users.length + 1, userName, password, none⟩] })
  | logsIn {u : User} {id : Int} {d : Draw} (hu : WasUser past u) (hcred : Credentials parse r u)
      (hid : id = u.id ∨ id = toInt u.id) :
      Does parse r past s
        (s.updateUser id fun x => { x with sessdata := some (generateSessdata d u.userName) })
  | logsOut {u : User} {t : Nat} (hroute : r.route = .logout)
      (hcookie : parseCookie r.cookie = (t, false)) (hu : u ∈ s.inbox.accounts.users)
      (ht : u.sessdata = some t) :
      Does parse r past s (s.updateUser (toInt u.id) fun x => { x with sessdata := none })
  | renames {id : Int} {userName : String} (hroute : r.route = .setName) (hby : MadeBy r past id)
      (hnew : s.inbox.accounts.hasUserName userName = false) :
      Does parse r past s (s.updateUser id fun x => { x with userName := userName })
  | setsSlogan {id : Int} {slogan : String} (hroute : r.route = .setSlogan)
      (hby : MadeBy r past id) : Does parse r past s (s.updateSlogan id slogan)
  | setsIcon {id : Int} {icon : List UInt8} (hroute : r.route = .uploadIcon)
      (hby : MadeBy r past id) : Does parse r past s (s.writeIcon id icon)
  | requests {id requesteeId : Int} (hroute : r.route = .friendRequest) (hby : MadeBy r past id)
      (hne : id ≠ requesteeId) :
      Does parse r past s (s.withAccounts { s.inbox.accounts with
        friendRequests := s.inbox.accounts.friendRequests ++ [(id, requesteeId)] })
  | removes {id requesterId : Int} (hroute : r.route = .handleFriendRequest)
      (hby : MadeBy r past id) :
      Does parse r past s (s.withAccounts (s.inbox.accounts.removeFriendRequest id requesterId))
  | relates {id requesterId : Int} (hroute : r.route = .handleFriendRequest)
      (hby : MadeBy r past id) (hun : s.inbox.accounts.Unrelated id requesterId) :
      Does parse r past s (s.relate { s.inbox.accounts with
        relations := s.inbox.accounts.relations ++ [(id, requesterId), (requesterId, id)] })

/-- The handlers that do not ask who the user is. -/
def Route.isOpen : Route → Bool
  | .login | .loginById | .logout | .register | .icon | .getUserInfo => true
  | _ => false

/-- What is shown to the user with the id is what was there at some time. -/
def Shows (read : String → Json) (r : Request) (past : Site → Prop) (id : Int) (v : Json) : Prop :=
  match r.route with
  | .getFriendList => ∃ s w, past s ∧ v = s.inbox.getFriendList w id
  | .getFriendRequests => ∃ s w, past s ∧ v = .arr ((s.requesters w id).map s.userInfo)
  | .getChatHistory => ∃ s s' order tie latest, past s ∧ past s' ∧
      ChatHistory.getChatMessage read order tie s.chat s'.chat id latest = .ok v
  | .getChatHistory20 => ∃ s tie friendId latest items, past s ∧
      ChatHistory.get20ChatMessages read tie s.chat.chat id friendId latest = .ok items ∧
      v = .arr items
  | _ => True

/-- The cookie has no session, or at some time it was the session of nobody. -/
def Unknown (r : Request) (past : Site → Prop) : Prop :=
  (∃ t, parseCookie r.cookie = (t, true)) ∨ ∃ t s, parseCookie r.cookie = (t, false) ∧ past s ∧
    ∀ u ∈ s.inbox.accounts.users, u.sessdata ≠ some t

/-- What a request may be answered. -/
inductive Answers (read : String → Json) (r : Request) (past : Site → Prop) : Response → Prop where
  | refused (hunknown : Unknown r past) : Answers read r past (text r "PLEASE_LOG_IN")
  | toAnyone {res : Response} (hopen : r.route.isOpen) : Answers read r past res
  | toUser {res : Response} {id : Int} (hby : MadeBy r past id)
      (hkept : res.content ≠ .text "PLEASE_LOG_IN")
      (hshows : ∀ v, res.content = .json v → Shows read r past id v) : Answers read r past res

section Mono

variable {read : String → Json} {r : Request} {past past' : Site → Prop} {u : User} {id : Int}

theorem WasUser.mono (h : WasUser past u) (hpast : ∀ s, past s → past' s) : WasUser past' u := by
  obtain ⟨s, hs, hu⟩ := h
  exact ⟨s, hpast s hs, hu⟩

theorem MadeBy.mono (h : MadeBy r past id) (hpast : ∀ s, past s → past' s) : MadeBy r past' id := by
  obtain ⟨t, u, hcookie, hu, ht, hid⟩ := h
  exact ⟨t, u, hcookie, hu.mono hpast, ht, hid⟩

/-- What was shown from earlier states was shown from these as well. -/
theorem Shows.mono {v : Json} (h : Shows read r past id v) (hpast : ∀ s, past s → past' s) :
    Shows read r past' id v := by
  unfold Shows at h ⊢
  split at h
  · obtain ⟨s, w, hs, hv⟩ := h
    exact ⟨s, w, hpast s hs, hv⟩
  · obtain ⟨s, w, hs, hv⟩ := h
    exact ⟨s, w, hpast s hs, hv⟩
  · obtain ⟨s, s', order, tie, latest, hs, hs', hv⟩ := h
    exact ⟨s, s', order, tie, latest, hpast s hs, hpast s' hs', hv⟩
  · obtain ⟨s, tie, friendId, latest, items, hs, hv⟩ := h
    exact ⟨s, tie, friendId, latest, items, hpast s hs, hv⟩
  · trivial

theorem Unknown.mono (h : Unknown r past) (hpast : ∀ s, past s → past' s) : Unknown r past' := by
  refine h.imp_right ?_
  rintro ⟨t, s, hcookie, hs, hnobody⟩
  exact ⟨t, s, hcookie, hpast s hs, hnobody⟩

theorem Answers.mono {res : Response} (h : Answers read r past res)
    (hpast : ∀ s, past s → past' s) : Answers read r past' res := by
  cases h with
  | refused hunknown => exact .refused (hunknown.mono hpast)
  | toAnyone hopen => exact .toAnyone hopen
  | toUser hby hkept hshows =>
    exact .toUser (hby.mono hpast) hkept fun v hv => (hshows v hv).mono hpast

end Mono

/-! ## Sections -/

section Acts

variable {α : Type} {I : Site → Prop} {parse : String → Except Fault Json} {read : String → Json}
  {r : Request} {P : (Site → Prop) → α → Prop} {past : Site → Prop} {id : Int}

/-- A section may do nothing. -/
theorem does_refl : ∀ past s, past s → Does parse r past s s := fun _ _ _ => .nothing

/-- One section under the lock: only what it does without throwing counts. -/
theorem acts_query {f : Chance → Site → Except Fault (α × Site)}
    (h : ∀ past' : Site → Prop, (∀ s, past s → past' s) → ∀ w s, past' s → I s → ∀ a s',
      f w s = .ok (a, s') → Does parse r past' s s' ∧ P past' a) :
    Acts I (Does parse r) P (query f) past := by
  refine Acts.call does_refl fun past' hpast w s hs hI a s' hf => ?_
  split at hf
  · cases hf
  · exact h past' hpast w s hs hI a s' hf

/-- A section that only looks something up. -/
theorem acts_lookup {f : Chance → Site → Except Fault (α × Site)}
    (h : ∀ past' : Site → Prop, (∀ s, past s → past' s) → ∀ w s, past' s → ∀ a s',
      f w s = .ok (a, s') → s' = s ∧ P past' a) :
    Acts I (Does parse r) P (query f) past := by
  refine acts_query fun past' hpast w s hs _ a s' hf => ?_
  obtain ⟨rfl, ha⟩ := h past' hpast w s hs a s' hf
  exact ⟨.nothing, ha⟩

/-- A section that changes the accounts, or answers why it does not. -/
theorem acts_change {f : Chance → Authorizer → Except Result Authorizer}
    (h : ∀ past' : Site → Prop, (∀ s, past s → past' s) → ∀ w s accounts,
      f w s.inbox.accounts = .ok accounts → Does parse r past' s (s.withAccounts accounts)) :
    Acts I (Does parse r) (fun _ _ => True) (change f) past := by
  refine acts_query fun past' hpast w s hs _ a s' hf => ?_
  split at hf
  · obtain ⟨-, rfl⟩ := Prod.mk.inj (Except.ok.inj hf)
    exact ⟨.nothing, trivial⟩
  · rename_i accounts haccounts
    obtain ⟨-, rfl⟩ := Prod.mk.inj (Except.ok.inj hf)
    exact ⟨h past' hpast w s accounts haccounts, trivial⟩

theorem acts_selectUser (p : User → Bool) : Acts I (Does parse r)
    (fun past u => ∀ x, u = some x → WasUser past x ∧ p x = true) (selectUser p) past := by
  refine acts_lookup fun past' _ w s hs a s' hf => ?_
  obtain ⟨rfl, rfl⟩ := Prod.mk.inj (Except.ok.inj hf)
  refine ⟨rfl, fun x hx => ?_⟩
  obtain ⟨hmem, hp⟩ := selectUser_mem hx
  exact ⟨⟨s, hs, hmem⟩, hp⟩

theorem acts_startSession {u : User} (hu : WasUser past u) (hcred : Credentials parse r u)
    (hid : id = u.id ∨ id = toInt u.id) :
    Acts I (Does parse r) (fun _ _ => True) (startSession id u.userName) past := by
  refine acts_query fun past' hpast w s _ _ a s' hf => ?_
  obtain ⟨-, rfl⟩ := Prod.mk.inj (Except.ok.inj hf)
  exact ⟨.logsIn (hu.mono hpast) hcred hid, trivial⟩

/-- `authorize` finds the user of a session, or there was a moment without such a user. -/
theorem acts_authorize {t : Nat} : Acts I (Does parse r)
    (fun past a => (∀ id userName, a = .ok (id, userName) →
        ∃ u, WasUser past u ∧ u.sessdata = some t ∧ toInt u.id = id) ∧
      ∀ result, a = .error result → ∃ s, past s ∧
        ∀ u ∈ s.inbox.accounts.users, u.sessdata ≠ some t) (authorize t) past := by
  refine acts_lookup fun past' _ w s hs a s' hf => ?_
  obtain ⟨rfl, rfl⟩ := Prod.mk.inj (Except.ok.inj hf)
  refine ⟨rfl, fun id userName ha => ?_, fun result ha => ⟨s, hs, fun u hu ht => ?_⟩⟩
  · unfold Authorizer.authorize at ha
    split at ha
    · cases ha
    · rename_i u hu
      obtain ⟨rfl, -⟩ := Prod.mk.inj (Except.ok.inj ha)
      obtain ⟨hmem, ht⟩ := selectUser_mem hu
      exact ⟨u, ⟨s, hs, hmem⟩, beq_iff_eq.mp ht, rfl⟩
  · have hfound : ∃ x, s.inbox.accounts.selectUser w.draw.order (·.sessdata == some t) = some x :=
      exists_selectUser hu (beq_iff_eq.mpr ht)
    obtain ⟨x, hx⟩ := hfound
    unfold Authorizer.authorize at ha
    rw [hx] at ha
    cases ha

/-! ## Handlers -/

/-- A text for the user. -/
theorem answers_text (hby : MadeBy r past id) {s : String} (hs : s ≠ "PLEASE_LOG_IN") :
    Answers read r past (text r s) :=
  .toUser hby (fun he => hs (Content.text.inj he)) fun _ hv => nomatch hv

/-- What is shown to the user. -/
theorem answers_json {v : Json} (hby : MadeBy r past id) (hv : Shows read r past id v) :
    Answers read r past (json r v) := by
  refine .toUser hby (fun he => nomatch he) fun v' hv' => ?_
  obtain rfl := Content.json.inj hv'
  exact hv

/-- One of two texts for the user. -/
theorem acts_texts {c : Prop} [Decidable c] {s s' : String} (hby : MadeBy r past id)
    (hs : s ≠ "PLEASE_LOG_IN") (hs' : s' ≠ "PLEASE_LOG_IN") :
    Acts I (Does parse r) (Answers read r)
      (if c then pure (text r s) else pure (text r s') : Api Response) past :=
  Acts.ite (fun _ => Acts.pure (answers_text hby hs)) fun _ => Acts.pure (answers_text hby hs')

/-- The handlers for users who have logged in. -/
theorem acts_signedIn {f : Int → String → Api Response}
    (hf : ∀ past' : Site → Prop, (∀ s, past s → past' s) → ∀ id userName, MadeBy r past' id →
      Acts I (Does parse r) (Answers read r) (f id userName) past') :
    Acts I (Does parse r) (Answers read r) (signedIn r f) past := by
  unfold signedIn
  split
  · rename_i t hcookie
    exact Acts.pure (.refused (.inl ⟨t, hcookie⟩))
  · rename_i t hcookie
    refine Acts.bind acts_authorize fun past' hpast a ha => ?_
    split
    · obtain ⟨s, hs, hnobody⟩ := ha.2 _ rfl
      exact Acts.pure (.refused (.inr ⟨t, s, hcookie, hs, hnobody⟩))
    · rename_i id userName
      obtain ⟨u, hu, ht, hid⟩ := ha.1 id userName rfl
      exact hf past' hpast id userName ⟨t, u, hcookie, hu, ht, hid⟩

theorem acts_hello : Acts I (Does parse r) (Answers read r) (hello r) past := by
  refine acts_signedIn fun _ _ id userName hby => Acts.pure (answers_text hby fun he => ?_)
  -- the first letters differ
  have hhead := congrArg (fun s : String => s.toList.head?) he
  simp only [String.toList_append, List.append_assoc] at hhead
  have hletter : some 'H' = some 'P' := hhead
  exact absurd hletter (by decide)

/-- A login asks for the row first, and goes on when the password is that of the row. -/
theorem acts_checkPassword {p : User → Bool} {password : String} {a b : α} {f : User → Api α}
    (hf : ∀ past' u, WasUser past' u → p u = true → u.password = password →
      Acts I (Does parse r) (fun _ _ => True) (f u) past') :
    Acts I (Does parse r) (fun _ _ => True) (do
      match ← selectUser p with
      | none => return a
      | some u => if u.password ≠ password then return b else f u) past := by
  refine Acts.bind (acts_selectUser p) fun past' _ u hu => ?_
  cases u with
  | none => exact Acts.pure trivial
  | some u =>
    obtain ⟨hwas, hp⟩ := hu u rfl
    exact Acts.ite (fun _ => Acts.pure trivial) fun hne => hf past' u hwas hp (not_not.mp hne)

theorem acts_logIn {userName password : String}
    (hcred : ∀ u : User, u.userName = userName → u.password = password → Credentials parse r u) :
    Acts I (Does parse r) (fun _ _ => True) (logIn userName password) past := by
  refine acts_checkPassword fun past' u hwas hp hpassword => ?_
  obtain rfl := beq_iff_eq.mp hp
  refine Acts.bind (acts_startSession hwas (hcred u rfl hpassword) (.inr rfl)) fun _ _ _ _ => ?_
  exact Acts.pure trivial

theorem acts_logInById {userId : Int} {password : String}
    (hcred : ∀ u : User, u.id = userId → u.password = password → Credentials parse r u) :
    Acts I (Does parse r) (fun _ _ => True) (logInById userId password) past := by
  refine acts_checkPassword fun past' u hwas hp hpassword => ?_
  obtain rfl := beq_iff_eq.mp hp
  refine Acts.bind (acts_startSession hwas (hcred u rfl hpassword) (.inl rfl)) fun _ _ _ _ => ?_
  exact Acts.pure trivial

/-- A log-in by name starts a session of the user whose password was sent. -/
theorem acts_login (hroute : r.route = .login) :
    Acts I (Does parse r) (Answers read r) (login parse r) past := by
  have hopen (past) (res : Response) : Answers read r past res := .toAnyone (by rw [hroute]; rfl)
  refine Acts.lift_bind fun payload hpayload => ?_
  refine Acts.lift_bind fun ⟨userName, payload'⟩ hname => ?_
  refine Acts.lift_bind fun ⟨password, payload''⟩ hpassword => ?_
  refine Acts.bind (acts_logIn ?_) fun _ _ a _ => ?_
  · rintro u rfl rfl
    exact ⟨payload, payload', payload'', hpayload, .inl ⟨hroute, hname⟩, hpassword⟩
  · split <;> exact Acts.pure (hopen _ _)

/-- A log-in by id starts a session of the user whose password was sent. -/
theorem acts_loginById (hroute : r.route = .loginById) :
    Acts I (Does parse r) (Answers read r) (loginById parse r) past := by
  have hopen (past) (res : Response) : Answers read r past res := .toAnyone (by rw [hroute]; rfl)
  refine Acts.lift_bind fun payload hpayload => ?_
  refine Acts.lift_bind fun ⟨id, payload'⟩ hid => ?_
  refine Acts.lift_bind fun ⟨password, payload''⟩ hpassword => ?_
  refine Acts.bind (acts_logInById ?_) fun _ _ a _ => ?_
  · rintro u rfl rfl
    exact ⟨payload, payload', payload'', hpayload, .inr ⟨hroute, hid⟩, hpassword⟩
  · split <;> exact Acts.pure (hopen _ _)

/-- A log-out ends the session it is made with. -/
theorem acts_logout (hroute : r.route = .logout) :
    Acts I (Does parse r) (Answers read r) (logout r) past := by
  have hopen (past) (res : Response) : Answers read r past res := .toAnyone (by rw [hroute]; rfl)
  unfold logout
  split
  · rename_i t hcookie
    exact Acts.pure (.refused (.inl ⟨t, hcookie⟩))
  · rename_i t hcookie
    refine Acts.bind (acts_change fun past' _ w s accounts haccounts => ?_) fun _ _ _ _ => ?_
    · unfold Authorizer.logOut at haccounts
      split at haccounts
      · cases haccounts
      · rename_i u hu
        obtain rfl := Except.ok.inj haccounts
        obtain ⟨hmem, ht⟩ := selectUser_mem hu
        exact .logsOut hroute hcookie hmem (beq_iff_eq.mp ht)
    · exact Acts.ite (fun _ => Acts.pure (hopen _ _)) fun _ => Acts.pure (hopen _ _)

/-- The section of `new_user` adds a user whose name is new, or nobody. -/
theorem acts_newUser {userName password : String} (hroute : r.route = .register) :
    Acts I (Does parse r) (fun _ _ => True) (newUser userName password) past := by
  refine Acts.ite (fun _ => Acts.pure trivial) fun hname => ?_
  refine Acts.ite (fun _ => Acts.pure trivial) fun hpassword => ?_
  refine acts_query fun past' _ w s _ _ a s' hf => ⟨?_, trivial⟩
  obtain ⟨x, hnew, he⟩ := map_eq_ok_iff.mp hf
  obtain ⟨-, rfl⟩ := Prod.mk.inj he
  unfold Authorizer.newUser at hnew
  rw [if_neg hname, if_neg hpassword] at hnew
  split at hnew
  · obtain rfl := Except.ok.inj hnew
    exact .nothing
  · rename_i hfree
    split at hnew
    · cases hnew
    · obtain rfl := Except.ok.inj hnew
      exact .registers hroute (Bool.eq_false_iff.mpr hfree)

/-- A registration adds a user whose name is new, or nobody. -/
theorem acts_register (hroute : r.route = .register) :
    Acts I (Does parse r) (Answers read r) (register parse r) past := by
  have hopen (past) (res : Response) : Answers read r past res := .toAnyone (by rw [hroute]; rfl)
  refine Acts.lift_bind fun payload _ => ?_
  refine Acts.lift_bind fun ⟨userName, payload'⟩ _ => ?_
  refine Acts.lift_bind fun ⟨password, payload''⟩ _ => ?_
  refine Acts.bind (acts_newUser hroute) fun _ _ a _ => ?_
  split <;> exact Acts.pure (hopen _ _)

/-- An upload changes the icon of the user who is signed in. -/
theorem acts_uploadIcon (hroute : r.route = .uploadIcon) :
    Acts I (Does parse r) (Answers read r) (uploadIcon r) past := by
  refine acts_signedIn fun past' _ id _ hby => ?_
  refine Acts.lift_bind fun content _ => ?_
  refine Acts.bind (P := fun _ _ => True) (Acts.call does_refl ?_) fun _ hpast _ _ => ?_
  · intro past'' hpast w s _ _ a s' hf
    refine ⟨?_, trivial⟩
    split at hf
    · obtain ⟨-, rfl⟩ := Prod.mk.inj (Except.ok.inj hf)
      exact .setsIcon hroute (hby.mono hpast)
    · obtain ⟨-, rfl⟩ := Prod.mk.inj (Except.ok.inj hf)
      exact .nothing
  · exact acts_texts (hby.mono hpast) (by decide) (by decide)

/-- An icon is shown to everybody. -/
theorem acts_icon (hroute : r.route = .icon) :
    Acts I (Does parse r) (Answers read r) (icon r) past := by
  have hopen (past) (res : Response) : Answers read r past res := .toAnyone (by rw [hroute]; rfl)
  refine Acts.ite (fun _ => ?_) fun _ => Acts.pure (hopen _ _)
  refine Acts.bind (P := fun _ _ => True) (acts_query fun _ _ _ _ _ _ _ _ hf => ?_)
    fun _ _ _ _ => ?_
  · cases hf
  · exact Acts.pure (hopen _ _)

/-- A new name is that of the user who is signed in. -/
theorem acts_setName (hroute : r.route = .setName) :
    Acts I (Does parse r) (Answers read r) (setName parse r) past := by
  refine acts_signedIn fun past' _ id _ hby => ?_
  refine Acts.lift_bind fun reqbody _ => ?_
  refine Acts.lift_bind fun ⟨userName, _⟩ _ => ?_
  refine Acts.bind (acts_change fun past'' hpast w s accounts haccounts => ?_) fun _ hpast _ _ => ?_
  · unfold Authorizer.setUserName at haccounts
    split at haccounts
    · cases haccounts
    · rename_i hfree
      obtain rfl := Except.ok.inj haccounts
      exact .renames hroute (hby.mono hpast) (Bool.eq_false_iff.mpr hfree)
  · replace hby := hby.mono hpast
    split
    · refine Acts.pure (.toUser hby (fun he => ?_) fun _ hv => nomatch hv)
      exact absurd (Content.text.inj he) (by decide)
    · exact Acts.pure (answers_text hby (by decide))
    · exact Acts.pure (answers_text hby (by decide))

/-- A friend request is in the name of the user who is signed in. -/
theorem acts_friendRequest (hroute : r.route = .friendRequest) :
    Acts I (Does parse r) (Answers read r) (friendRequest parse r) past := by
  refine acts_signedIn fun past' _ id _ hby => ?_
  refine Acts.lift_bind fun reqbody _ => ?_
  refine Acts.lift_bind fun ⟨requesteeId, _⟩ _ => ?_
  refine Acts.bind (P := fun _ _ => True) (Acts.ite (fun _ => Acts.pure trivial) fun hne => ?_)
    fun _ hpast _ _ => ?_
  · refine acts_change fun past'' hpast w s accounts haccounts => ?_
    split at haccounts
    · cases haccounts
    · rename_i a ha
      split at haccounts
      · cases haccounts
      · obtain rfl := Except.ok.inj haccounts
        unfold Authorizer.raiseFriendRequest at ha
        rw [if_neg hne] at ha
        iterate 4
          split at ha
          · cases ha
        obtain rfl := Except.ok.inj ha
        exact .requests hroute (hby.mono hpast) hne
  · replace hby := hby.mono hpast
    split <;> exact Acts.pure (answers_text hby (by decide))

/-- The pending requests are shown to the user they are addressed to. -/
theorem acts_friendRequests (hroute : r.route = .getFriendRequests) :
    Acts I (Does parse r) (Answers read r) (friendRequests r) past := by
  refine acts_signedIn fun past' _ id _ hby => ?_
  refine Acts.bind (P := fun past a => ∀ v, a = .ok v → Shows read r past id v) ?_
    fun _ hpast a ha => ?_
  · refine acts_lookup fun past'' _ w s hs a s' hf => ?_
    split at hf
    · obtain ⟨rfl, rfl⟩ := Prod.mk.inj (Except.ok.inj hf)
      exact ⟨rfl, fun _ ha => nomatch ha⟩
    · obtain ⟨rfl, rfl⟩ := Prod.mk.inj (Except.ok.inj hf)
      refine ⟨rfl, fun v hv => ?_⟩
      obtain rfl := Except.ok.inj hv
      unfold Shows
      rw [hroute]
      exact ⟨s, w.draw.order, hs, rfl⟩
  · replace hby := hby.mono hpast
    split
    · exact Acts.pure (answers_json hby (ha _ rfl))
    · exact Acts.pure (answers_text hby (by decide))

/-- The first section of an acceptance drops a request to the user who is signed in. -/
theorem acts_removeFriendRequest {requesterId : Int} (hroute : r.route = .handleFriendRequest)
    (hby : MadeBy r past id) :
    Acts I (Does parse r) (fun _ _ => True) (removeFriendRequest id requesterId) past := by
  refine acts_change fun past' hpast w s accounts haccounts => ?_
  split at haccounts
  · cases haccounts
  · obtain rfl := Except.ok.inj haccounts
    exact .removes hroute (hby.mono hpast)

/-- The second section makes the user who is signed in a friend of the requester. -/
theorem acts_insertRelations {requesterId : Int} (hroute : r.route = .handleFriendRequest)
    (hby : MadeBy r past id) :
    Acts I (Does parse r) (fun _ _ => True) (insertRelations id requesterId) past := by
  refine Acts.call does_refl fun past' hpast w s _ _ a s' hf => ⟨?_, trivial⟩
  split at hf
  · obtain ⟨-, rfl⟩ := Prod.mk.inj (Except.ok.inj hf)
    exact .nothing
  split at hf
  · obtain ⟨-, rfl⟩ := Prod.mk.inj (Except.ok.inj hf)
    exact .nothing
  · rename_i accounts haccounts
    obtain ⟨-, rfl⟩ := Prod.mk.inj (Except.ok.inj hf)
    unfold Authorizer.insertRelations at haccounts
    split at haccounts
    · cases haccounts
    · rename_i hfirst
      dsimp only at haccounts
      split at haccounts
      · cases haccounts
      · rename_i hsecond
        obtain rfl := Option.some.inj haccounts
        rw [List.mem_append, List.mem_singleton, not_or] at hsecond
        rw [List.append_assoc]
        refine .relates hroute (hby.mono hpast) ⟨?_, hfirst, hsecond.1⟩
        rintro rfl
        exact hsecond.2 rfl

/-- An answer to a friend request is that of the user it is addressed to. -/
theorem acts_handleFriendRequest (hroute : r.route = .handleFriendRequest) :
    Acts I (Does parse r) (Answers read r) (handleFriendRequest parse r) past := by
  refine acts_signedIn fun past' _ id _ hby => ?_
  refine Acts.lift_bind fun reqbody _ => ?_
  refine Acts.lift_bind fun ⟨accept, reqbody'⟩ _ => ?_
  refine Acts.lift_bind fun ⟨requesterId, _⟩ _ => ?_
  refine Acts.bind (P := fun _ _ => True) ?_ fun _ hpast _ _ => ?_
  · refine Acts.ite (fun _ => ?_) fun _ => acts_removeFriendRequest hroute hby
    refine Acts.bind (acts_removeFriendRequest hroute hby) fun _ hpast _ _ => ?_
    refine Acts.ite (fun _ => Acts.pure trivial) fun _ => ?_
    exact acts_insertRelations hroute (hby.mono hpast)
  · exact acts_texts (hby.mono hpast) (by decide) (by decide)

/-- The friend list is shown to the user whose friends it lists. -/
theorem acts_friendList (hroute : r.route = .getFriendList) :
    Acts I (Does parse r) (Answers read r) (friendList r) past := by
  refine acts_signedIn fun past' _ id _ hby => ?_
  refine Acts.bind (P := fun past v => Shows read r past id v) ?_ fun _ hpast v hv => ?_
  · refine acts_lookup fun past'' _ w s hs a s' hf => ?_
    obtain ⟨rfl, rfl⟩ := Prod.mk.inj (Except.ok.inj hf)
    refine ⟨rfl, ?_⟩
    unfold Shows
    rw [hroute]
    exact ⟨s, w.draw.order, hs, rfl⟩
  · exact Acts.pure (answers_json (hby.mono hpast) hv)

/-- The messages are shown to a party of each: first those of the cache, then those of the table. -/
theorem acts_chatHistory (hroute : r.route = .getChatHistory) :
    Acts I (Does parse r) (Answers read r) (chatHistory read r) past := by
  refine acts_signedIn fun past' _ id _ hby => ?_
  refine Acts.bind (P := fun _ _ => True) ?_ fun _ hpast latest _ => ?_
  · unfold latestTimestamp
    split
    · exact Acts.pure trivial
    · refine Acts.call does_refl fun _ _ w s _ _ a s' hf => ⟨?_, trivial⟩
      obtain ⟨-, rfl⟩ := Prod.mk.inj (Except.ok.inj hf)
      exact .nothing
  replace hby := hby.mono hpast
  refine Acts.bind (P := fun past v => Shows read r past id v) ?_ fun _ hpast v hv => ?_
  · -- what the cache has, then what the table has
    refine Acts.bind (P := fun past res => ∃ s order, past s ∧
      s.chat.cacheSection read order id latest = .ok res) (Acts.call does_refl ?_) ?_
    · intro past'' _ w s hs _ a s' hf
      obtain ⟨res, hres, he⟩ := map_eq_ok_iff.mp hf
      obtain ⟨rfl, rfl⟩ := Prod.mk.inj he
      exact ⟨.nothing, s, w.order, hs, hres⟩
    · rintro past'' - res ⟨s₁, order, hs₁, hres⟩
      refine acts_lookup fun past₃ hpast₃ w s hs a s' hf => ?_
      obtain ⟨v, hv, he⟩ := map_eq_ok_iff.mp hf
      obtain ⟨rfl, rfl⟩ := Prod.mk.inj he
      refine ⟨rfl, ?_⟩
      unfold Shows
      rw [hroute]
      refine ⟨s₁, s, order, w.tie, latest, hpast₃ s₁ hs₁, hs, ?_⟩
      unfold ChatHistory.getChatMessage
      rw [hres]
      exact hv
  · exact Acts.pure (answers_json (hby.mono hpast) hv)

/-- A page of messages is shown to one of the two users of the conversation. -/
theorem acts_chatHistory20 (hroute : r.route = .getChatHistory20) :
    Acts I (Does parse r) (Answers read r) (chatHistory20 read r) past := by
  refine acts_signedIn fun past' _ id _ hby => ?_
  split
  · rename_i latest friendId _ _
    refine Acts.bind (P := fun past v => Shows read r past id v) ?_ fun _ hpast v hv => ?_
    · refine acts_lookup fun past'' _ w s hs a s' hf => ?_
      obtain ⟨items, hitems, he⟩ := map_eq_ok_iff.mp hf
      obtain ⟨rfl, rfl⟩ := Prod.mk.inj he
      refine ⟨rfl, ?_⟩
      unfold Shows
      rw [hroute]
      exact ⟨s, w.tie, atoi friendId, strtoll latest, items, hs, hitems, rfl⟩
    · exact Acts.pure (answers_json (hby.mono hpast) hv)
  · exact Acts.pure (answers_text hby (by decide))

/-- The name and the slogan of a user are shown to everybody. -/
theorem acts_userInfo (hroute : r.route = .getUserInfo) :
    Acts I (Does parse r) (Answers read r) (userInfo r) past := by
  have hopen (past) (res : Response) : Answers read r past res := .toAnyone (by rw [hroute]; rfl)
  unfold userInfo
  split
  · refine Acts.bind (P := fun _ _ => True) (acts_lookup fun _ _ w s _ a s' hf => ?_)
      fun _ _ _ _ => ?_
    · obtain ⟨-, rfl⟩ := Prod.mk.inj (Except.ok.inj hf)
      exact ⟨rfl, trivial⟩
    · exact Acts.pure (hopen _ _)
  · exact Acts.pure (hopen _ _)

/-- A new slogan is that of the user who is signed in. -/
theorem acts_slogan (hroute : r.route = .setSlogan) :
    Acts I (Does parse r) (Answers read r) (slogan parse r) past := by
  refine acts_signedIn fun past' _ id _ hby => ?_
  refine Acts.lift_bind fun reqbody _ => ?_
  refine Acts.lift_bind fun ⟨slogan, _⟩ _ => ?_
  refine Acts.bind (P := fun _ _ => True) (acts_query fun _ hpast w s _ _ a s' hf => ?_)
    fun _ hpast _ _ => ?_
  · obtain ⟨-, rfl⟩ := Prod.mk.inj (Except.ok.inj hf)
    exact ⟨.setsSlogan hroute (hby.mono hpast), trivial⟩
  · exact acts_texts (hby.mono hpast) (by decide) (by decide)

/-- **Every handler** does only what its request is entitled to. -/
theorem acts_handle (r : Request) (past : Site → Prop) :
    Acts I (Does parse r) (Answers read r) (handle parse read r) past := by
  unfold handle
  split
  · exact acts_hello
  · exact acts_login ‹_›
  · exact acts_loginById ‹_›
  · exact acts_logout ‹_›
  · exact acts_register ‹_›
  · exact acts_uploadIcon ‹_›
  · exact acts_icon ‹_›
  · exact acts_setName ‹_›
  · exact acts_friendRequest ‹_›
  · exact acts_friendRequests ‹_›
  · exact acts_handleFriendRequest ‹_›
  · exact acts_friendList ‹_›
  · exact acts_chatHistory ‹_›
  · exact acts_chatHistory20 ‹_›
  · exact acts_userInfo ‹_›
  · exact acts_slogan ‹_›

end Acts

end HttpServer

end UnoppServer
