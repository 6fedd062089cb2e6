import UnoppServer.Accounts.Sessions

/-!
# Accounts: user names

`new_user` refuses a name that is empty, longer than 40 bytes, or taken. `set_user_name`
asks only whether the name is taken.

- `namesValid_iff`: the names are distinct, non-empty and at most 40 bytes long exactly in
  the runs in which nobody is renamed to anything else.
-/

namespace UnoppServer

open Runs

namespace Authorizer

/-- The name is not empty, and has at most 40 bytes. -/
def ValidName (name : String) : Prop := name ≠ "" ∧ name.utf8ByteSize ≤ 40

/-- The column `user_name` holds valid names. -/
def ColumnValid (a : Authorizer) : Prop := ∀ u ∈ a.users, ValidName u.userName

/-- The column `user_name` holds valid names, and none of them twice. -/
def NamesValid (a : Authorizer) : Prop := (a.users.map User.userName).Nodup ∧ a.ColumnValid

/-- A call of `set_user_name` for an existing user, with a name that nobody has, has a valid
one. -/
def RenamesValidly (a : Authorizer) (e : Draw × Op) : Prop :=
  ∀ id newUserName, e.2 = .setUserName id newUserName → a.hasUser id = true →
    a.hasUserName newUserName = false → ValidName newUserName

section Step

variable {d : Draw} {a a' : Authorizer} {op : Op} {ans : Answer} {id : Int}
  {userName password newUserName : String}

theorem ColumnValid.updateUser {f : User → User} (hvalid : a.ColumnValid)
    (hf : ∀ u, (f u).userName = u.userName) : (a.updateUser id f).ColumnValid := by
  intro u' hu'
  obtain ⟨u, hu, rfl⟩ := mem_updateUser hu'
  split
  · exact (hf u).symm ▸ hvalid u hu
  · exact hvalid u hu

/-- The other calls leave the names alone. -/
theorem Change.columnValid (h : Change d a op a') (hvalid : a.ColumnValid)
    (hnew : ∀ userName password, op ≠ .newUser userName password)
    (hset : ∀ id newUserName, op ≠ .setUserName id newUserName) : a'.ColumnValid := by
  cases h with
  | keeps _ hfriends =>
    rw [ColumnValid, hfriends.users]
    exact hvalid
  | adds => exact absurd rfl (hnew _ _)
  | logsIn | logsOut => exact hvalid.updateUser fun _ => rfl
  | renames => exact absurd rfl (hset _ _)

/-- `new_user` adds valid names. -/
theorem ColumnValid.newUser (hvalid : a.ColumnValid) {result : Result}
    (h : a.newUser userName password = .ok (result, a')) : a'.ColumnValid := by
  unfold Authorizer.newUser at h
  split at h
  · exact (Prod.mk.inj (Except.ok.inj h)).2 ▸ hvalid
  split at h
  · exact (Prod.mk.inj (Except.ok.inj h)).2 ▸ hvalid
  split at h
  · exact (Prod.mk.inj (Except.ok.inj h)).2 ▸ hvalid
  split at h
  · cases h
  · rename_i hname _ _ _
    obtain ⟨hne, hlen⟩ := not_or.mp hname
    obtain rfl := (Prod.mk.inj (Except.ok.inj h)).2
    intro u hu
    rcases List.mem_append.mp hu with hu | hu
    · exact hvalid u hu
    · obtain rfl := List.mem_singleton.mp hu
      exact ⟨hne, Nat.le_of_not_lt hlen⟩

/-- A user is renamed. -/
theorem columnValid_setUserName_iff (hvalid : a.ColumnValid)
    (h : a.answer (a.setUserName id newUserName) = (ans, a')) :
    a'.ColumnValid ↔
      (a.hasUser id = true → a.hasUserName newUserName = false → ValidName newUserName) := by
  unfold setUserName at h
  by_cases htaken : a.hasUserName newUserName = true
  · rw [if_pos htaken] at h
    obtain rfl : a = a' := (Prod.mk.inj h).2
    exact iff_of_true hvalid fun _ hfree => absurd (htaken.symm.trans hfree) (by decide)
  · rw [if_neg htaken] at h
    obtain rfl : _ = a' := (Prod.mk.inj h).2
    rw [forall_comm, imp_iff_right (Bool.eq_false_of_not_eq_true htaken)]
    constructor
    · intro hafter huser
      obtain ⟨u, hu, hid⟩ := List.any_eq_true.mp huser
      have hrow := hafter _ (List.mem_map_of_mem (f := fun u => if u.id = id then
        { u with userName := newUserName } else u) hu)
      rwa [if_pos (eq_of_beq hid)] at hrow
    · intro hname u' hu'
      obtain ⟨u, hu, rfl⟩ := mem_updateUser hu'
      split
      case isTrue hid => exact hname (List.any_eq_true.mpr ⟨u, hu, beq_iff_eq.mpr hid⟩)
      case isFalse => exact hvalid u hu

/-- A call keeps the names valid iff it renames nobody to anything else. -/
theorem columnValid_step_iff (hvalid : a.ColumnValid) (h : a.step (d, op) = .ok (ans, a')) :
    a'.ColumnValid ↔ a.RenamesValidly (d, op) := by
  have hquiet (hop : ∀ id newUserName, op ≠ .setUserName id newUserName) (hafter : a'.ColumnValid) :
      a'.ColumnValid ↔ a.RenamesValidly (d, op) :=
    iff_of_true hafter fun id newUserName he => absurd he (hop id newUserName)
  cases op with
  | setUserName id newUserName =>
    rw [columnValid_setUserName_iff hvalid (Except.ok.inj h)]
    constructor
    · rintro hname _ _ ⟨⟩
      exact hname
    · exact fun hname => hname id newUserName rfl
  | newUser userName password =>
    refine hquiet (fun _ _ he => nomatch he) ?_
    unfold step at h
    cases hnew : a.newUser userName password with
    | error e =>
      simp only [hnew] at h
      cases h
    | ok r =>
      simp only [hnew] at h
      obtain rfl := (Prod.mk.inj (Except.ok.inj h)).2
      exact hvalid.newUser hnew
  | logIn | logInById | logOut | authorize | raiseFriendRequest | removeFriendRequest
  | acceptFriendRequest =>
    refine hquiet (fun _ _ he => nomatch he) ?_
    exact (step_cases h).change.columnValid hvalid (fun _ _ he => nomatch he)
      fun _ _ he => nomatch he

end Step

/-- Different rows have different names. -/
theorem NamesDistinct.nodup {a : Authorizer} (h : a.NamesDistinct) (hnum : a.Numbered) :
    (a.users.map User.userName).Nodup := by
  have hrows : a.users.Nodup := by
    refine List.nodup_iff_getElem?_ne_getElem?.mpr fun i j hij hj he => ?_
    obtain ⟨u, hu⟩ : ∃ u, a.users[j]? = some u := ⟨_, List.getElem?_eq_getElem hj⟩
    have hi := hnum i u (he.trans hu)
    have hj := hnum j u hu
    omega
  exact hrows.map_on fun x hx y hy => h x hx y hy

/-- In every run the rows are numbered, and the names are distinct. -/
theorem rows_of_run {h : AccountHistory} {a : Authorizer} (hr : AccountRun h a) :
    a.Numbered ∧ a.NamesDistinct := by
  induction hr with
  | nil => exact ⟨fun _ _ h => (nomatch h), fun _ h => absurd h List.not_mem_nil⟩
  | snoc _ _ hstep ih =>
    have hchange := (step_cases hstep).change
    exact ⟨hchange.numbered ih.1, hchange.namesDistinct ih.1 ih.2⟩

/-- **Names stay valid and unique** exactly when every `set_user_name` that renames a user
has a valid name. -/
theorem namesValid_iff {h : AccountHistory} {a : Authorizer} (hr : AccountRun h a) :
    (∀ e ∈ h, e.post.NamesValid) ↔ ∀ e ∈ h, e.pre.RenamesValidly e.act := by
  have hnew : new.ColumnValid := fun u hu => absurd hu List.not_mem_nil
  rw [← hr.safe_iff (fun s e _ _ hvalid hstep => columnValid_step_iff hvalid hstep) hnew]
  refine forall₂_congr fun e he => and_iff_right ?_
  obtain ⟨⟨l, hl⟩, -, hstep⟩ := hr.mem_entry e he
  obtain ⟨hnum, hnames⟩ := rows_of_run (hl.snoc trivial hstep)
  exact hnames.nodup hnum

theorem namesValid_iff_renamed : ∃ h a, AccountRun h a ∧
    h.map Entry.act = [(drawn 0, .newUser "alice" "pw"), (drawn 0, .setUserName 1 "bob")] ∧
    ((∀ e ∈ h, e.post.NamesValid) ↔ ∀ e ∈ h, e.pre.RenamesValidly e.act) := by
  have he : exec step new [(drawn 0, .newUser "alice" "pw"), (drawn 0, .setUserName 1 "bob")] =
      .ok ⟨[⟨1, "bob", "pw", none⟩], [], []⟩ := rfl
  obtain ⟨h, hr, hacts⟩ := exists_run_of_exec (fun _ _ _ => trivial) he
  exact ⟨h, _, hr, hacts, namesValid_iff hr⟩

/-- A user with no name at all. -/
theorem renamed_empty : ∃ h a, AccountRun h a ∧
    h.map Entry.act = [(drawn 0, .newUser "alice" "pw"), (drawn 0, .setUserName 1 "")] ∧
    ¬ ∀ e ∈ h, e.post.NamesValid := by
  have he : exec step new [(drawn 0, .newUser "alice" "pw"), (drawn 0, .setUserName 1 "")] =
      .ok ⟨[⟨1, "", "pw", none⟩], [], []⟩ := rfl
  obtain ⟨h, hr, hacts⟩ := exists_run_of_exec (fun _ _ _ => trivial) he
  refine ⟨h, _, hr, hacts, fun hvalid => ?_⟩
  have hnames : NamesValid ⟨[⟨1, "", "pw", none⟩], [], []⟩ :=
    hr.last ⟨List.nodup_nil, fun u hu => absurd hu List.not_mem_nil⟩ hvalid
  exact (hnames.2 _ List.mem_cons_self).1 rfl

end Authorizer

end UnoppServer
