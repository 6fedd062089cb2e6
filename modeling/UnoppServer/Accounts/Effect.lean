import UnoppServer.Accounts.Authorizer

/-!
# Accounts: what a call does

`step_cases` is the inversion of a call: what it does to the tables, and the session that
it returns.
-/

namespace UnoppServer

open FindIf

namespace Authorizer

section Select

variable {order : Int → Nat} {a : Authorizer} {p : User → Bool} {u : User}

theorem selectUser_mem (h : a.selectUser order p = some u) : u ∈ a.users ∧ p u = true :=
  ⟨(hashOrder_perm ..).mem_iff.mp (List.mem_of_find?_eq_some h), List.find?_some h⟩

theorem exists_selectUser (hu : u ∈ a.users) (hp : p u = true) :
    ∃ u', a.selectUser order p = some u' := by
  refine Option.isSome_iff_exists.mp ?_
  rw [selectUser, List.find?_isSome]
  exact ⟨u, (hashOrder_perm ..).mem_iff.mpr hu, hp⟩

theorem toInt_toInt (i : Int) : toInt (toInt i) = toInt i := Int.bmod_bmod

end Select

/-- The transaction of `accept_friend_request` goes through. -/
def Unrelated (a : Authorizer) (id requesterId : Int) : Prop :=
  id ≠ requesterId ∧ (id, requesterId) ∉ a.relations ∧ (requesterId, id) ∉ a.relations

/-- What a call does to the requests and the relations, when it leaves the users alone. -/
inductive FriendsChange (a : Authorizer) : Op → Authorizer → Prop where
  | stays {op : Op} (hop : ∀ id requesterId, op ≠ .acceptFriendRequest id requesterId) :
      FriendsChange a op a
  | requests {requesterId requesteeId : Int} (hne : requesterId ≠ requesteeId)
      (huser : a.hasUser requesterId) (huser' : a.hasUser requesteeId) :
      FriendsChange a (.raiseFriendRequest requesterId requesteeId)
        { a with friendRequests := a.friendRequests ++ [(requesterId, requesteeId)] }
  | removes {id requesterId : Int} :
      FriendsChange a (.removeFriendRequest id requesterId) (a.removeFriendRequest id requesterId)
  | accepts {id requesterId : Int} (hun : a.Unrelated id requesterId) :
      FriendsChange a (.acceptFriendRequest id requesterId)
        { a.removeFriendRequest id requesterId with
          relations := a.relations ++ [(id, requesterId), (requesterId, id)] }
  | fails {id requesterId : Int} (hun : ¬ a.Unrelated id requesterId) :
      FriendsChange a (.acceptFriendRequest id requesterId) (a.removeFriendRequest id requesterId)

theorem FriendsChange.users {a a' : Authorizer} {op : Op} (h : FriendsChange a op a') :
    a'.users = a.users := by
  cases h <;> rfl

/-- The row that the call logs in. -/
def loginRow (d : Draw) (a : Authorizer) : Op → Option User
  | .logIn userName password =>
    (a.selectUser d.order fun u => u.userName == userName).filter fun u => u.password == password
  | .logInById id password =>
    (a.selectUser d.order fun u => u.id == id).filter fun u => u.password == password
  | _ => none

/-- Who logs in with the call, and the session. -/
def loggingIn (d : Draw) (a : Authorizer) (op : Op) : Option (Int × Nat) :=
  (loginRow d a op).map fun u => (u.id, generateSessdata d u.userName)

/-- What a call does to the tables. -/
inductive Change (d : Draw) (a : Authorizer) : Op → Authorizer → Prop where
  | keeps {op : Op} {a' : Authorizer} (hlog : loggingIn d a op = none)
      (hfriends : FriendsChange a op a') : Change d a op a'
  | adds {userName password : String} (hnew : a.hasUserName userName = false) :
      Change d a (.newUser userName password)
        { a with users := a.users ++ [⟨a.users.length + 1, userName, password, none⟩] }
  | logsIn {op : Op} {u id : Int} {t : Nat} (hlog : loggingIn d a op = some (u, t))
      (hid : id = u ∨ id = toInt u) :
      Change d a op (a.updateUser id fun x => { x with sessdata := some t })
  | logsOut {t : Nat} {x : User} (hx : x ∈ a.users) (ht : x.sessdata = some t) :
      Change d a (.logOut t) (a.updateUser (toInt x.id) fun x => { x with sessdata := none })
  | renames {id : Int} {newUserName : String} (hnew : a.hasUserName newUserName = false) :
      Change d a (.setUserName id newUserName)
        (a.updateUser id fun x => { x with userName := newUserName })

/-- What is known of a call: what it does to the tables, and the session that it returns. -/
structure CallSpec (d : Draw) (a : Authorizer) (op : Op) (r : Answer × Authorizer) : Prop where
  change : Change d a op r.2
  session : r.1.sessdata = (loggingIn d a op).map Prod.snd

section Change

variable {d : Draw} {a a' : Authorizer} {op : Op} {ans : Answer}

theorem loggingIn_of_password {u : User} {password : String} (h : u.password = password)
    (hrow : loginRow d a op = (some u).filter fun u => u.password == password) :
    loggingIn d a op = some (u.id, generateSessdata d u.userName) := by
  rw [loggingIn, hrow, Option.filter_some, if_pos (beq_iff_eq.mpr h), Option.map_some]

theorem loggingIn_of_ne_password {u : User} {password : String} (h : ¬ u.password = password)
    (hrow : loginRow d a op = (some u).filter fun u => u.password == password) :
    loggingIn d a op = none := by
  rw [loggingIn, hrow, Option.filter_some, if_neg fun hb => h (beq_iff_eq.mp hb), Option.map_none]

/-- A call that logs nobody in. -/
theorem CallSpec.quiet (hlog : loggingIn d a op = none) (hans : ans.sessdata = none)
    (hchange : Change d a op a') : CallSpec d a op (ans, a') :=
  ⟨hchange, by rw [hlog]; exact hans⟩

/-- A call that does nothing. -/
theorem CallSpec.idle (hlog : loggingIn d a op = none) (hans : ans.sessdata = none)
    (hop : ∀ id requesterId, op ≠ .acceptFriendRequest id requesterId) :
    CallSpec d a op (ans, a) :=
  .quiet hlog hans (.keeps hlog (.stays hop))

/-- A call that logs somebody in. -/
theorem CallSpec.login {u id : Int} {t : Nat} (hlog : loggingIn d a op = some (u, t))
    (hans : ans.sessdata = some t) (hid : id = u ∨ id = toInt u) :
    CallSpec d a op (ans, a.updateUser id fun x => { x with sessdata := some t }) :=
  ⟨.logsIn hlog hid, by rw [hlog]; exact hans⟩

/-- A call that returns nothing but a result. -/
theorem CallSpec.of_result {r : Except Result Authorizer} (hlog : loggingIn d a op = none)
    (hop : ∀ id requesterId, op ≠ .acceptFriendRequest id requesterId)
    (hr : ∀ b, r = .ok b → Change d a op b) (h : a.answer r = (ans, a')) :
    CallSpec d a op (ans, a') := by
  cases r with
  | error e =>
    obtain ⟨rfl, rfl⟩ := Prod.mk.inj h
    exact .idle hlog rfl hop
  | ok b =>
    obtain ⟨rfl, rfl⟩ := Prod.mk.inj h
    exact .quiet hlog rfl (hr b rfl)

/-- A registration changes nothing, or adds a user whose name is new. -/
theorem newUser_cases {userName password : String} {result : Result}
    (h : a.newUser userName password = .ok (result, a')) :
    Change d a (.newUser userName password) a' := by
  have hkeeps : Change d a (.newUser userName password) a :=
    .keeps rfl (.stays fun _ _ he => nomatch he)
  unfold newUser at h
  split at h
  · exact (Prod.mk.inj (Except.ok.inj h)).2 ▸ hkeeps
  split at h
  · exact (Prod.mk.inj (Except.ok.inj h)).2 ▸ hkeeps
  split at h
  · exact (Prod.mk.inj (Except.ok.inj h)).2 ▸ hkeeps
  split at h
  · cases h
  · rename_i hnew _
    exact (Prod.mk.inj (Except.ok.inj h)).2 ▸ .adds (Bool.eq_false_of_not_eq_true hnew)

/-- A log-out ends a session with the number that was sent, if there is one. -/
theorem logOut_cases {order : Int → Nat} {sessdata : Nat}
    (h : a.logOut order sessdata = .ok a') : Change d a (.logOut sessdata) a' := by
  unfold logOut at h
  cases hsel : a.selectUser order fun u => u.sessdata == some sessdata with
  | none =>
    rw [hsel] at h
    cases h
  | some u =>
    rw [hsel] at h
    obtain ⟨hu, ht⟩ := selectUser_mem hsel
    exact Except.ok.inj h ▸ .logsOut hu (eq_of_beq ht)

theorem setUserName_cases {id : Int} {newUserName : String}
    (h : a.setUserName id newUserName = .ok a') : Change d a (.setUserName id newUserName) a' := by
  unfold setUserName at h
  split at h
  · cases h
  · exact Except.ok.inj h ▸ .renames (Bool.eq_false_of_not_eq_true ‹_›)

/-- A request that does not throw is between two users, and is added to the table. -/
theorem raiseFriendRequest_cases {requesterId requesteeId : Int}
    (h : a.raiseFriendRequest requesterId requesteeId = .ok a') :
    FriendsChange a (.raiseFriendRequest requesterId requesteeId) a' := by
  unfold raiseFriendRequest at h
  split at h
  · cases h
  split at h
  · cases h
  split at h
  · cases h
  split at h
  · cases h
  split at h
  · cases h
  · rename_i hne huser huser' _ _
    exact Except.ok.inj h ▸ .requests hne (not_not.mp huser) (not_not.mp huser')

/-- When no row of the two is there, both rows are added. -/
theorem insertRelations_eq_some {id requesterId : Int} :
    a.insertRelations id requesterId = some a' ↔ a.Unrelated id requesterId ∧
      a' = { a with relations := a.relations ++ [(id, requesterId), (requesterId, id)] } := by
  unfold insertRelations Unrelated
  constructor
  · intro h
    split at h
    · cases h
    dsimp only at h
    split at h
    · cases h
    · rename_i hno hno'
      obtain ⟨hold, hrow⟩ := not_or.mp fun hor => hno' (List.mem_append.mpr hor)
      refine ⟨⟨?_, hno, hold⟩, ?_⟩
      · rintro rfl
        exact hrow List.mem_cons_self
      · rw [← Option.some.inj h, List.append_assoc]
        rfl
  · rintro ⟨⟨hne, hno, hno'⟩, rfl⟩
    have hout : (requesterId, id) ∉ a.relations ++ [(id, requesterId)] := by
      rw [List.mem_append, List.mem_singleton]
      exact not_or.mpr ⟨hno', fun he => hne (Prod.mk.inj he).2⟩
    dsimp only
    rw [if_neg hno, if_neg hout, List.append_assoc]
    rfl

/-- Accepting drops the pending request, and makes two users friends who are not. -/
theorem acceptFriendRequest_cases (id requesterId : Int) :
    FriendsChange a (.acceptFriendRequest id requesterId)
      (a.acceptFriendRequest id requesterId).2 := by
  unfold acceptFriendRequest
  dsimp only
  split
  · rename_i hins
    refine .fails fun hun => ?_
    have hsome := (insertRelations_eq_some (a := a.removeFriendRequest id requesterId)).mpr
      ⟨hun, rfl⟩
    cases hins.symm.trans hsome
  · rename_i hins
    obtain ⟨hun, rfl⟩ := insertRelations_eq_some.mp hins
    exact .accepts hun

/-- The change and the answer of a log-in by name. -/
theorem logIn_spec {userName password : String}
    (h : a.step (d, .logIn userName password) = .ok (ans, a')) :
    CallSpec d a (.logIn userName password) (ans, a') := by
  unfold step logIn at h
  cases hsel : a.selectUser d.order fun u => u.userName == userName with
  | none =>
    simp only [hsel] at h
    obtain ⟨rfl, rfl⟩ := Prod.mk.inj (Except.ok.inj h)
    exact .idle (by rw [loggingIn, loginRow, hsel, Option.filter_none, Option.map_none]) rfl
      fun _ _ he => nomatch he
  | some u =>
    obtain rfl : u.userName = userName := eq_of_beq (selectUser_mem hsel).2
    by_cases hpass : u.password = password
    · simp only [hsel, hpass, ne_eq, not_true_eq_false, if_false] at h
      obtain ⟨rfl, rfl⟩ := Prod.mk.inj (Except.ok.inj h)
      exact .login (loggingIn_of_password hpass (by rw [loginRow, hsel])) rfl (.inr rfl)
    · simp only [hsel, hpass, ne_eq, not_false_eq_true, if_true] at h
      obtain ⟨rfl, rfl⟩ := Prod.mk.inj (Except.ok.inj h)
      exact .idle (loggingIn_of_ne_password hpass (by rw [loginRow, hsel])) rfl
        fun _ _ he => nomatch he

/-- The change and the answer of a log-in by id. -/
theorem logInById_spec {id : Int} {password : String}
    (h : a.step (d, .logInById id password) = .ok (ans, a')) :
    CallSpec d a (.logInById id password) (ans, a') := by
  unfold step logInById at h
  cases hsel : a.selectUser d.order fun u => u.id == id with
  | none =>
    simp only [hsel] at h
    obtain ⟨rfl, rfl⟩ := Prod.mk.inj (Except.ok.inj h)
    exact .idle (by rw [loggingIn, loginRow, hsel, Option.filter_none, Option.map_none]) rfl
      fun _ _ he => nomatch he
  | some u =>
    have hid : id = u.id := (eq_of_beq (selectUser_mem hsel).2).symm
    by_cases hpass : u.password = password
    · simp only [hsel, hpass, ne_eq, not_true_eq_false, if_false] at h
      obtain ⟨rfl, rfl⟩ := Prod.mk.inj (Except.ok.inj h)
      exact .login (loggingIn_of_password hpass (by rw [loginRow, hsel])) rfl (.inl hid)
    · simp only [hsel, hpass, ne_eq, not_false_eq_true, if_true] at h
      obtain ⟨rfl, rfl⟩ := Prod.mk.inj (Except.ok.inj h)
      exact .idle (loggingIn_of_ne_password hpass (by rw [loginRow, hsel])) rfl
        fun _ _ he => nomatch he

/-- **Inversion** of a call. -/
theorem step_cases (h : a.step (d, op) = .ok (ans, a')) : CallSpec d a op (ans, a') := by
  cases op with
  | newUser userName password =>
    unfold step at h
    cases hnew : a.newUser userName password with
    | error e =>
      simp only [hnew] at h
      cases h
    | ok r =>
      simp only [hnew] at h
      obtain ⟨rfl, rfl⟩ := Prod.mk.inj (Except.ok.inj h)
      exact .quiet rfl rfl (newUser_cases hnew)
  | logIn userName password => exact logIn_spec h
  | logInById id password => exact logInById_spec h
  | logOut sessdata =>
    exact .of_result rfl (fun _ _ he => nomatch he) (fun _ => logOut_cases) (Except.ok.inj h)
  | authorize sessdata =>
    unfold step at h
    dsimp only at h
    split at h
    · obtain ⟨rfl, rfl⟩ := Prod.mk.inj (Except.ok.inj h)
      exact .idle rfl rfl fun _ _ he => nomatch he
    · obtain ⟨rfl, rfl⟩ := Prod.mk.inj (Except.ok.inj h)
      exact .idle rfl rfl fun _ _ he => nomatch he
  | setUserName id newUserName =>
    exact .of_result rfl (fun _ _ he => nomatch he) (fun _ => setUserName_cases) (Except.ok.inj h)
  | raiseFriendRequest requesterId requesteeId =>
    exact .of_result rfl (fun _ _ he => nomatch he)
      (fun _ hb => .keeps rfl (raiseFriendRequest_cases hb)) (Except.ok.inj h)
  | removeFriendRequest id requesterId =>
    obtain ⟨rfl, rfl⟩ := Prod.mk.inj (Except.ok.inj h)
    exact .quiet rfl rfl (.keeps rfl .removes)
  | acceptFriendRequest id requesterId =>
    obtain ⟨rfl, rfl⟩ := Prod.mk.inj (Except.ok.inj h)
    exact .quiet rfl rfl (.keeps rfl (acceptFriendRequest_cases id requesterId))

end Change

/-! ## The rows -/

/-- The rows are numbered from 1. -/
def Numbered (a : Authorizer) : Prop :=
  ∀ (i : Nat) u, a.users[i]? = some u → u.id = (i : Int) + 1

/-- No two users have the same name. -/
def NamesDistinct (a : Authorizer) : Prop :=
  ∀ x ∈ a.users, ∀ y ∈ a.users, x.userName = y.userName → x = y

section Rows

variable {d : Draw} {a a' : Authorizer} {op : Op} {id : Int} {f : User → User} {x y : User}

/-- The id is a key of the table. -/
theorem Numbered.unique (h : a.Numbered) (hx : x ∈ a.users) (hy : y ∈ a.users)
    (hid : x.id = y.id) : x = y := by
  obtain ⟨i, hi⟩ := List.mem_iff_getElem?.mp hx
  obtain ⟨j, hj⟩ := List.mem_iff_getElem?.mp hy
  have hij : i = j := by
    have hx := h i x hi
    have hy := h j y hj
    omega
  subst hij
  exact Option.some.inj (hi.symm.trans hj)

/-- An update that keeps the id keeps the numbering. -/
theorem Numbered.updateUser (h : a.Numbered) (hf : ∀ x, (f x).id = x.id) :
    (a.updateUser id f).Numbered := by
  intro i y hy
  rw [Authorizer.updateUser, List.getElem?_map, Option.map_eq_some_iff] at hy
  obtain ⟨x, hx, rfl⟩ := hy
  split
  · exact (hf x).trans (h i x hx)
  · exact h i x hx

/-- No call gives an id a second time. -/
theorem Change.numbered (h : Change d a op a') (hnum : a.Numbered) : a'.Numbered := by
  cases h with
  | keeps _ hfriends =>
    rw [Numbered, hfriends.users]
    exact hnum
  | adds =>
    intro i x hx
    rw [List.getElem?_append] at hx
    split at hx
    · exact hnum i x hx
    · rw [List.getElem?_singleton] at hx
      split at hx
      · obtain rfl := Option.some.inj hx
        show (a.users.length + 1 : Int) = i + 1
        omega
      · cases hx
  | logsIn | logsOut | renames => exact hnum.updateUser fun _ => rfl

/-- The rows of an updated table. -/
theorem mem_updateUser (hy : y ∈ (a.updateUser id f).users) :
    ∃ x ∈ a.users, y = if x.id = id then f x else x := by
  obtain ⟨x, hx, rfl⟩ := List.mem_map.mp hy
  exact ⟨x, hx, rfl⟩

theorem userName_ne_of_hasUserName {userName : String} (h : a.hasUserName userName = false)
    (hx : x ∈ a.users) : x.userName ≠ userName := by
  intro he
  have hany : a.hasUserName userName = true := List.any_eq_true.mpr ⟨x, hx, beq_iff_eq.mpr he⟩
  cases h.symm.trans hany

/-- An update that keeps the name keeps the names distinct. -/
theorem NamesDistinct.updateUser (h : a.NamesDistinct) (hf : ∀ x, (f x).userName = x.userName) :
    (a.updateUser id f).NamesDistinct := by
  intro y hy y' hy' hname
  obtain ⟨x, hx, rfl⟩ := mem_updateUser hy
  obtain ⟨x', hx', rfl⟩ := mem_updateUser hy'
  have hsame (z : User) : (if z.id = id then f z else z).userName = z.userName := by
    split
    · exact hf z
    · rfl
  rw [hsame, hsame] at hname
  rw [h x hx x' hx' hname]

/-- **Names stay distinct.** -/
theorem Change.namesDistinct (h : Change d a op a') (hnum : a.Numbered)
    (hnames : a.NamesDistinct) : a'.NamesDistinct := by
  cases h with
  | keeps _ hfriends =>
    rw [NamesDistinct, hfriends.users]
    exact hnames
  | adds hnew =>
    intro x hx y hy hname
    rcases List.mem_append.mp hx with hx | hx
    · rcases List.mem_append.mp hy with hy | hy
      · exact hnames x hx y hy hname
      · obtain rfl := List.mem_singleton.mp hy
        exact absurd hname (userName_ne_of_hasUserName hnew hx)
    · obtain rfl := List.mem_singleton.mp hx
      rcases List.mem_append.mp hy with hy | hy
      · exact absurd hname.symm (userName_ne_of_hasUserName hnew hy)
      · exact (List.mem_singleton.mp hy).symm
  | logsIn | logsOut => exact hnames.updateUser fun _ => rfl
  | renames hnew =>
    intro y hy y' hy' hname
    obtain ⟨x, hx, rfl⟩ := mem_updateUser hy
    obtain ⟨x', hx', rfl⟩ := mem_updateUser hy'
    split at hname
    · split at hname
      · -- only one row is renamed
        rename_i hid hid'
        rw [hnum.unique hx hx' (hid.trans hid'.symm)]
      · exact absurd hname.symm (userName_ne_of_hasUserName hnew hx')
    · split at hname
      · exact absurd hname (userName_ne_of_hasUserName hnew hx)
      · rw [hnames x hx x' hx' hname]

end Rows

end Authorizer

end UnoppServer
