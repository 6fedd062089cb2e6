import UnoppServer.Accounts.Effect
import UnoppServer.Lib.Since

/-!
# Accounts: sessions

A session is a number of 32 bits that `log_in` writes into the row of the user. Names are
looked up before they are written; sessions are not, and `authorize` and `log_out` take
the first row that has the number.

- `sessionsIdentify_iff`: a session identifies its user exactly in the runs in which no
  `log_in` comes upon a number that somebody else has.
-/

namespace UnoppServer

open FindIf Runs

/-- The recorded calls. -/
abbrev AccountHistory := List (Entry Authorizer (Draw × Authorizer.Op) Authorizer.Answer)

/-- The calls `h` have led from empty tables to `a`. -/
abbrev AccountRun (h : AccountHistory) (a : Authorizer) : Prop :=
  Run Authorizer.step (fun _ _ => True) Authorizer.new h a

namespace Authorizer

/-- Who has the session. -/
def Holds (id : Int) (sessdata : Nat) (a : Authorizer) : Prop :=
  ∃ u ∈ a.users, u.id = id ∧ u.sessdata = some sessdata

/-- A change of the session of one user leaves those of the others. -/
theorem holds_setSessdata_of_ne {a : Authorizer} {id id' : Int} {sessdata : Nat}
    {new : Option Nat} (hne : id ≠ id') :
    (a.updateUser id' fun u => { u with sessdata := new }).Holds id sessdata ↔
      a.Holds id sessdata := by
  unfold Holds updateUser
  constructor
  · rintro ⟨u', hu', hid, hs⟩
    obtain ⟨u, hu, rfl⟩ := List.mem_map.mp hu'
    split at hid
    · rename_i he
      exact absurd (hid.symm.trans he) hne
    · rename_i he
      rw [if_neg he] at hs
      exact ⟨u, hu, hid, hs⟩
  · rintro ⟨u, hu, hid, hs⟩
    refine ⟨u, List.mem_map.mpr ⟨u, hu, if_neg fun he => hne (hid.symm.trans he)⟩, hid, hs⟩

/-- No two users have the same session. -/
def TokensDistinct (a : Authorizer) : Prop :=
  ∀ id id' t, a.Holds id t → a.Holds id' t → id = id'

/-- What is known of the users as long as no session is given to two of them: the rows
are numbered from 1, and a session is in the row of the `int` that `authorize` reads. -/
structure SessionInv (a : Authorizer) : Prop where
  rows : a.Numbered
  distinct : a.TokensDistinct
  fits : ∀ id t, a.Holds id t → toInt id = id

/-- The user who logs in with the call, if any, has an id that is an `int`, and nobody
else has the number that the generator, the hash and the time make. -/
def LogsInFresh (a : Authorizer) (e : Draw × Op) : Prop :=
  ∀ u, loginRow e.1 a e.2 = some u → toInt u.id = u.id ∧
    ∀ x ∈ a.users, ∀ t : Nat, x.sessdata = some t →
      (t : Int) = ((e.1.rand + e.1.hash u.userName) * 2 ^ 16 + e.1.time) % 2 ^ 32 → x.id = u.id

theorem generateSessdata_eq (d : Draw) (userName : String) :
    (generateSessdata d userName : Int) =
      ((d.rand + d.hash userName) * 2 ^ 16 + d.time) % 2 ^ 32 := by
  unfold generateSessdata
  dsimp only
  omega

/-- A log-in is fresh when its id fits an `int` and nobody else holds the number it draws. -/
theorem logsInFresh_iff {a : Authorizer} {d : Draw} {op : Op} : a.LogsInFresh (d, op) ↔
    ∀ u t, loggingIn d a op = some (u, t) → toInt u = u ∧ ∀ id, a.Holds id t → id = u := by
  simp only [LogsInFresh, loggingIn, ← generateSessdata_eq, Option.map_eq_some_iff,
    Prod.mk.injEq, Int.natCast_inj]
  constructor
  · rintro h u t ⟨x, hx, rfl, rfl⟩
    obtain ⟨hfit, hfresh⟩ := h x hx
    refine ⟨hfit, ?_⟩
    rintro id ⟨y, hy, rfl, ht⟩
    exact hfresh y hy _ ht rfl
  · intro h x hx
    obtain ⟨hfit, hfresh⟩ := h x.id _ ⟨x, hx, rfl, rfl⟩
    refine ⟨hfit, ?_⟩
    rintro y hy t ht rfl
    exact hfresh y.id ⟨y, hy, rfl, ht⟩

section Inv

variable {d : Draw} {a a' : Authorizer} {op : Op} {u v : Int} {s t : Nat}

theorem sessionInv_new : SessionInv new :=
  ⟨fun _ _ h => (nomatch h), fun _ _ _ ⟨_, h, _⟩ => (nomatch h), fun _ _ ⟨_, h, _⟩ => (nomatch h)⟩

/-- Who logs in has a row. -/
theorem mem_of_loggingIn (h : loggingIn d a op = some (u, t)) : ∃ x ∈ a.users, x.id = u := by
  obtain ⟨x, hrow, hx⟩ := Option.map_eq_some_iff.mp h
  refine ⟨x, ?_, (Prod.mk.inj hx).1⟩
  cases op with
  | logIn userName password | logInById id password =>
    exact (selectUser_mem (Option.filter_eq_some_iff.mp hrow).1).1
  | _ => cases hrow

/-- Who has a session after a call had it before, or has logged in with it. -/
theorem Change.holds_cases (h : Change d a op a') (hv : a'.Holds v s) :
    a.Holds v s ∨ ∃ u, loggingIn d a op = some (u, s) ∧ (v = u ∨ v = toInt u) := by
  cases h with
  | keeps _ hfriends =>
    rw [Holds, hfriends.users] at hv
    exact .inl hv
  | adds =>
    obtain ⟨x, hx, hid, hs⟩ := hv
    rcases List.mem_append.mp hx with hx | hx
    · exact .inl ⟨x, hx, hid, hs⟩
    · obtain rfl := List.mem_singleton.mp hx
      cases hs
  | @logsIn _ u id t hlog hid =>
    by_cases hne : v = id
    · subst hne
      obtain ⟨y, hy, hyid, hys⟩ := hv
      obtain ⟨x, -, rfl⟩ := List.mem_map.mp hy
      split at hys
      · obtain rfl : t = s := Option.some.inj hys
        exact .inr ⟨u, hlog, hid⟩
      · rename_i hx
        rw [if_neg hx] at hyid
        exact absurd hyid hx
    · exact .inl ((holds_setSessdata_of_ne hne).mp hv)
  | logsOut =>
    obtain ⟨y, hy, hyid, hys⟩ := hv
    obtain ⟨x, hx, rfl⟩ := List.mem_map.mp hy
    split at hys
    · cases hys
    · rename_i hne
      rw [if_neg hne] at hyid
      exact .inl ⟨x, hx, hyid, hys⟩
  | renames =>
    obtain ⟨y, hy, hyid, hys⟩ := hv
    obtain ⟨x, hx, rfl⟩ := List.mem_map.mp hy
    refine .inl ⟨x, hx, ?_, ?_⟩
    · split at hyid <;> exact hyid
    · split at hys <;> exact hys

/-- Who logs in has the session. -/
theorem Change.holds_set (h : Change d a op a') (hlog : loggingIn d a op = some (u, t))
    (hfit : toInt u = u) : a'.Holds u t := by
  cases h with
  | keeps hno => cases hno.symm.trans hlog
  | @logsIn _ u' id t' hlog' hid =>
    obtain ⟨rfl, rfl⟩ := Prod.mk.inj (Option.some.inj (hlog'.symm.trans hlog))
    obtain rfl : id = u' := hid.elim (fun h => h) fun h => h.trans hfit
    obtain ⟨x, hx, hxid⟩ := mem_of_loggingIn hlog
    exact ⟨_, List.mem_map.mpr ⟨x, hx, if_pos hxid⟩, hxid, rfl⟩
  | adds | logsOut | renames => cases hlog

/-- A user keeps the session until the next `log_in` or until a `log_out` with it. -/
theorem Change.holds_kept (h : Change d a op a') (hinv : SessionInv a)
    (hfresh : a.LogsInFresh (d, op)) (hv : a.Holds u t)
    (hin : ¬ ∃ t', loggingIn d a op = some (u, t')) (hout : op ≠ .logOut t) : a'.Holds u t := by
  cases h with
  | keeps _ hfriends => rwa [Holds, hfriends.users]
  | adds =>
    obtain ⟨x, hx, hid, hs⟩ := hv
    exact ⟨x, List.mem_append_left _ hx, hid, hs⟩
  | @logsIn _ w id t' hlog hid =>
    have hfit := (logsInFresh_iff.mp hfresh w t' hlog).1
    have hid' : id = w := hid.elim (fun h => h) fun h => h.trans hfit
    have hne : u ≠ id := by
      rintro rfl
      exact hin ⟨t', hid' ▸ hlog⟩
    exact (holds_setSessdata_of_ne hne).mpr hv
  | @logsOut t' y hy ht =>
    have hfit : toInt y.id = y.id := hinv.fits y.id t' ⟨y, hy, rfl, ht⟩
    -- the row that loses its session would be that of the user
    have hne : u ≠ toInt y.id := by
      intro he
      obtain ⟨x, hx, hid, hs⟩ := hv
      obtain rfl := hinv.rows.unique hx hy (hid.trans (he.trans hfit))
      exact hout (congrArg Op.logOut (Option.some.inj (ht.symm.trans hs)))
    exact (holds_setSessdata_of_ne hne).mpr hv
  | renames =>
    obtain ⟨x, hx, hid, hs⟩ := hv
    refine ⟨_, List.mem_map.mpr ⟨x, hx, rfl⟩, ?_, ?_⟩
    · split <;> exact hid
    · split <;> exact hs

/-- **Sessions stay distinct** as long as every new one is. -/
theorem Change.inv (h : Change d a op a') (hinv : SessionInv a)
    (hfresh : a.LogsInFresh (d, op)) : SessionInv a' := by
  -- who has a session has had it, or is the only one to have it
  have hcases {v : Int} {s : Nat} (hv : a'.Holds v s) :
      a.Holds v s ∨ (loggingIn d a op = some (v, s) ∧ toInt v = v) := by
    refine (h.holds_cases hv).imp_right fun ⟨u, hlog, hid⟩ => ?_
    have hfit := (logsInFresh_iff.mp hfresh u s hlog).1
    obtain rfl : v = u := hid.elim (fun h => h) fun h => h.trans hfit
    exact ⟨hlog, hfit⟩
  refine ⟨h.numbered hinv.rows, ?_, ?_⟩
  · intro v w s hv hw
    rcases hcases hv with hv | ⟨hv, -⟩
    · rcases hcases hw with hw | ⟨hw, -⟩
      · exact hinv.distinct v w s hv hw
      · exact (logsInFresh_iff.mp hfresh w s hw).2 v hv
    · rcases hcases hw with hw | ⟨hw, -⟩
      · exact ((logsInFresh_iff.mp hfresh v s hv).2 w hw).symm
      · exact (Prod.mk.inj (Option.some.inj (hv.symm.trans hw))).1
  · intro v s hv
    exact (hcases hv).elim (hinv.fits v s) And.right

/-- **`authorize`** yields the only user who has the session. -/
theorem SessionInv.authorize (h : SessionInv a) (hu : a.Holds u t) (order : Int → Nat) :
    ∃ userName, a.authorize order t = .ok (u, userName) := by
  have hholds := hu
  obtain ⟨x, hx, -, ht⟩ := hu
  obtain ⟨y, hy⟩ : ∃ y, a.selectUser order (fun u => u.sessdata == some t) = some y :=
    exists_selectUser hx (beq_iff_eq.mpr ht)
  obtain ⟨hmem, hyt⟩ := selectUser_mem hy
  have hyholds : a.Holds y.id t := ⟨y, hmem, rfl, eq_of_beq hyt⟩
  refine ⟨y.userName, ?_⟩
  rw [Authorizer.authorize, hy]
  show Except.ok (toInt y.id, y.userName) = _
  rw [h.fits _ _ hyholds, h.distinct _ _ _ hyholds hholds]

/-- Somebody else keeps the session when the user logs in. -/
theorem Change.holds_other (h : Change d a op a') (hlog : loggingIn d a op = some (u, t))
    (hfit : toInt u = u) (hne : v ≠ u) (hv : a.Holds v s) : a'.Holds v s := by
  cases h with
  | keeps hno => cases hno.symm.trans hlog
  | @logsIn _ u' id t' hlog' hid =>
    obtain ⟨rfl, rfl⟩ := Prod.mk.inj (Option.some.inj (hlog'.symm.trans hlog))
    obtain rfl : id = u' := hid.elim (fun h => h) fun h => h.trans hfit
    exact (holds_setSessdata_of_ne hne).mpr hv
  | adds | logsOut | renames => cases hlog

end Inv

/-! ## Runs -/

/-- The call is a `log_in` of the user. -/
def LogsIn (u : Int) (e : Entry Authorizer (Draw × Op) Answer) : Prop :=
  ∃ t, loggingIn e.act.1 e.pre e.act.2 = some (u, t)

/-- The last `log_in` of the user has returned the session, and nobody has logged out with
it since. -/
def LoggedIn (u : Int) (t : Nat) (h : AccountHistory) : Prop :=
  Since (fun e => LogsIn u e ∧ e.out.sessdata = some t)
    (fun e => ¬ LogsIn u e ∧ e.act.2 ≠ .logOut t) h

/-- **A session identifies one user.** No two users ever have the same one, and
`authorize` with the session that a user was given last yields the user. -/
structure SessionsIdentify (h : AccountHistory) : Prop where
  distinct : ∀ e ∈ h, e.post.TokensDistinct
  identify : ∀ h₁ y h₂ u t, h = h₁ ++ y :: h₂ → LoggedIn u t (h₁ ++ [y]) → ∀ order,
    ∃ userName, y.post.authorize order t = .ok (u, userName)

section Run

variable {h : AccountHistory} {a : Authorizer}

theorem spec_of_run (hr : AccountRun h a) :
    ∀ e ∈ h, CallSpec e.act.1 e.pre e.act.2 (e.out, e.post) :=
  fun e he => step_cases (hr.mem_entry e he).2.2

/-- A call that answers with a session has logged that user in. -/
theorem LogsIn.of_session {d : Draw} {op : Op} {a a' : Authorizer} {ans : Answer} {u : Int}
    {t : Nat} (hs : CallSpec d a op (ans, a')) (hlog : LogsIn u ⟨a, (d, op), ans, a'⟩)
    (hans : ans.sessdata = some t) : loggingIn d a op = some (u, t) := by
  obtain ⟨t', ht'⟩ := hlog
  have ht : (loggingIn d a op).map Prod.snd = some t := hs.session.symm.trans hans
  change loggingIn d a op = some (u, t') at ht'
  rw [ht'] at ht ⊢
  rw [← Option.some.inj ht]

/-- **Run lemma.** While every new session is fresh, the sessions are distinct. -/
theorem sessionInv_of_run (hr : AccountRun h a) (hfresh : ∀ e ∈ h, e.pre.LogsInFresh e.act) :
    SessionInv a ∧ ∀ e ∈ h, SessionInv e.pre ∧ SessionInv e.post := by
  induction hr with
  | nil => exact ⟨sessionInv_new, fun e he => absurd he List.not_mem_nil⟩
  | @snoc l s s' e out _ _ hstep ih =>
    obtain ⟨hs, hl⟩ := ih fun e he => hfresh e (List.mem_append_left _ he)
    have hs' : SessionInv s' := (step_cases hstep).change.inv hs
      (hfresh ⟨s, e, out, s'⟩ (List.mem_append_right _ List.mem_cons_self))
    refine ⟨hs', ?_⟩
    rw [List.forall_mem_append, List.forall_mem_singleton]
    exact ⟨hl, hs, hs'⟩

/-- The session that a user was given last is in the row of the user. -/
theorem holds_of_loggedIn (hr : AccountRun h a) (hfresh : ∀ e ∈ h, e.pre.LogsInFresh e.act)
    {u : Int} {t : Nat} (hlog : LoggedIn u t h) : a.Holds u t := by
  have hinv := (sessionInv_of_run hr hfresh).2
  have hstep : ∀ e ∈ h,
      (LogsIn u e ∧ e.out.sessdata = some t → e.post.Holds u t) ∧
        (¬ LogsIn u e ∧ e.act.2 ≠ .logOut t → e.pre.Holds u t → e.post.Holds u t) := by
    refine fun e he => ⟨?_, ?_⟩
    · rintro ⟨hlog, hans⟩
      have hspec := spec_of_run hr e he
      have hlog' := hlog.of_session hspec hans
      exact hspec.change.holds_set hlog' (logsInFresh_iff.mp (hfresh e he) u t hlog').1
    · rintro ⟨hin, hout⟩ hheld
      exact (spec_of_run hr e he).change.holds_kept (hinv e he).1 (hfresh e he) hheld hin hout
  exact hr.held_of_since hstep hlog

/-- **A session identifies one user** exactly when no `log_in` comes upon a number that
somebody else has. -/
theorem sessionsIdentify_iff (hr : AccountRun h a) :
    SessionsIdentify h ↔ ∀ e ∈ h, e.pre.LogsInFresh e.act := by
  constructor
  · rintro ⟨hdistinct, hidentify⟩ e he
    refine logsInFresh_iff.mpr fun u t hlog => ?_
    have hspec := spec_of_run hr e he
    obtain ⟨h₁, h₂, hsplit⟩ := List.append_of_mem he
    have hnow : LoggedIn u t (h₁ ++ [e]) := by
      refine since_concat_iff.mpr (.inl ⟨⟨t, hlog⟩, ?_⟩)
      rw [hspec.session, hlog]
      rfl
    obtain ⟨userName, hauth⟩ := hidentify h₁ e h₂ u t hsplit hnow fun _ => 0
    -- `authorize` yields an `int`
    have hfit : toInt u = u := by
      rw [authorize] at hauth
      split at hauth
      · cases hauth
      · obtain ⟨hu, -⟩ := Prod.mk.inj (Except.ok.inj hauth)
        rw [← hu, toInt_toInt]
    refine ⟨hfit, fun id hid => ?_⟩
    by_contra hne
    have hother := hspec.change.holds_other hlog hfit hne hid
    exact hne (hdistinct e he id u t hother (hspec.change.holds_set hlog hfit))
  · intro hfresh
    have hinv := (sessionInv_of_run hr hfresh).2
    refine ⟨fun e he => (hinv e he).2.distinct, ?_⟩
    rintro h₁ y h₂ u t rfl hlog order
    have hheld : y.post.Holds u t :=
      holds_of_loggedIn hr.upto (fun e he => hfresh e (mem_of_mem_upto he)) hlog
    exact (hinv y (List.mem_append_right _ List.mem_cons_self)).2.authorize hheld order

end Run

/-- What is drawn at one moment, with the length of a name for its hash. -/
def drawn (rand : Nat) : Draw := ⟨rand, String.utf8ByteSize, 1700000000, Int.toNat⟩

/-- Two users, with the password \"pw\", who then log in. -/
def twoLogIns (rand rand' : Nat) : List (Draw × Op) :=
  [(drawn 0, .newUser "alice" "pw"), (drawn 0, .newUser "bob" "pw"),
    (drawn rand, .logIn "alice" "pw"), (drawn rand', .logIn "bob" "pw")]

theorem exec_twoLogIns : execTo step new (twoLogIns 7 9) (fun a =>
    decide ((a.users.map fun u => (u.id, u.sessdata)) =
      [(1, some 1700786432), (2, some 1700786432)])) = true := by
  decide +kernel

theorem sessionsIdentify_iff_twoLogIns : ∃ h a, AccountRun h a ∧ h.map Entry.act = twoLogIns 7 9 ∧
    (SessionsIdentify h ↔ ∀ e ∈ h, e.pre.LogsInFresh e.act) := by
  obtain ⟨h, a, hr, hacts, -⟩ := exists_run_of_execTo exec_twoLogIns
  exact ⟨h, a, hr, hacts, sessionsIdentify_iff hr⟩

/-- Alice and Bob log in, and have the same session. -/
theorem sessions_collide : ∃ h a, AccountRun h a ∧ h.map Entry.act = twoLogIns 7 9 ∧
    ¬ SessionsIdentify h := by
  obtain ⟨h, a, hr, hacts, hcheck⟩ := exists_run_of_execTo exec_twoLogIns
  refine ⟨h, a, hr, hacts, fun hid => ?_⟩
  have hdistinct : a.TokensDistinct := hr.last sessionInv_new.distinct hid.distinct
  have hmem {p : Int × Option Nat} (hp : p ∈ a.users.map fun u => (u.id, u.sessdata)) :
      ∃ u ∈ a.users, u.id = p.1 ∧ u.sessdata = p.2 := by
    obtain ⟨u, hu, rfl⟩ := List.mem_map.mp hp
    exact ⟨u, hu, rfl, rfl⟩
  rw [of_decide_eq_true hcheck] at hmem
  have heq := hdistinct 1 2 1700786432 (hmem List.mem_cons_self)
    (hmem (List.mem_cons_of_mem _ List.mem_cons_self))
  exact nomatch heq

end Authorizer

end UnoppServer
