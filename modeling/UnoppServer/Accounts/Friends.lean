import Mathlib.Data.Sym.Sym2
import UnoppServer.Accounts.Sessions

/-!
# Accounts: friends

`raise_friend_request` asks whether there are two users. `accept_friend_request` asks
nothing: it deletes the requests between the two ids, of which there may be none, and
inserts the relation.

- `friendsConsent_iff`: friends are users who have consented exactly in the runs in which
  every call that inserts a relation finds the request that it accepts.
-/

namespace UnoppServer

open Runs

namespace Authorizer

/-- No requests and no relations. -/
def Friendless (a : Authorizer) : Prop := a.friendRequests = [] ∧ a.relations = []

/-- The call inserts the relation between the two users. -/
def Befriends (a : Authorizer) (op : Op) (u v : Int) : Prop :=
  ∃ id requesterId, op = .acceptFriendRequest id requesterId ∧ s(id, requesterId) = s(u, v) ∧
    a.Unrelated id requesterId

/-- A request between the two users is pending, and the call accepts it for the
requestee. -/
def Accepts (a : Authorizer) (op : Op) (u v : Int) : Prop :=
  ∃ id requesterId, op = .acceptFriendRequest id requesterId ∧ s(id, requesterId) = s(u, v) ∧
    (requesterId, id) ∈ a.friendRequests

/-- Requests are between two users. -/
def RequestsMade (a : Authorizer) : Prop :=
  ∀ u v, (u, v) ∈ a.friendRequests → u ≠ v ∧ a.hasUser u ∧ a.hasUser v

section Change

variable {d : Draw} {a a' : Authorizer} {op : Op} {u v : Int}

/-- Rows of `user` stay. -/
theorem Change.hasUser (h : Change d a op a') (hu : a.hasUser u) : a'.hasUser u := by
  obtain ⟨x, hx, hid⟩ := List.any_eq_true.mp hu
  refine List.any_eq_true.mpr ?_
  have hrow {id : Int} {f : User → User} (hf : (f x).id = x.id) :
      ∃ y ∈ (a.updateUser id f).users, (y.id == u) = true := by
    refine ⟨_, List.mem_map.mpr ⟨x, hx, rfl⟩, ?_⟩
    split
    · rwa [hf]
    · exact hid
  cases h with
  | keeps _ hfriends => exact ⟨x, hfriends.users ▸ hx, hid⟩
  | adds => exact ⟨x, List.mem_append_left _ hx, hid⟩
  | logsIn => exact hrow (f := fun x => { x with sessdata := _ }) rfl
  | logsOut => exact hrow (f := fun x => { x with sessdata := none }) rfl
  | renames => exact hrow (f := fun x => { x with userName := _ }) rfl

theorem mem_removeFriendRequest {id requesterId : Int} {r : Int × Int}
    (h : r ∈ (a.removeFriendRequest id requesterId).friendRequests) : r ∈ a.friendRequests :=
  (List.mem_filter.mp (List.mem_filter.mp h).1).1

/-- A request that is pending after a call was so before, or has been made with it. -/
theorem Change.mem_friendRequests (h : Change d a op a') (hmem : (u, v) ∈ a'.friendRequests) :
    (u, v) ∈ a.friendRequests ∨ (u ≠ v ∧ a.hasUser u ∧ a.hasUser v) := by
  cases h with
  | keeps _ hfriends =>
    cases hfriends with
    | stays => exact .inl hmem
    | requests hne huser huser' =>
      rcases List.mem_append.mp hmem with hmem | hmem
      · exact .inl hmem
      · obtain ⟨rfl, rfl⟩ := Prod.mk.inj (List.mem_singleton.mp hmem)
        exact .inr ⟨hne, huser, huser'⟩
    | removes | accepts | fails => exact .inl (mem_removeFriendRequest hmem)
  | adds | logsIn | logsOut | renames => exact .inl hmem

/-- Accepting makes friends of the two users it names, when they are not friends yet. -/
theorem befriends_acceptFriendRequest {id requesterId : Int} :
    a.Befriends (.acceptFriendRequest id requesterId) u v ↔
      s(id, requesterId) = s(u, v) ∧ a.Unrelated id requesterId := by
  constructor
  · rintro ⟨_, _, he, hpair⟩
    cases he
    exact hpair
  · exact fun h => ⟨id, requesterId, rfl, h⟩

theorem not_befriends (hop : ∀ id requesterId, op ≠ .acceptFriendRequest id requesterId) :
    ¬ a.Befriends op u v :=
  fun ⟨id, requesterId, he, _⟩ => hop id requesterId he

/-- **Relations** stay, and new ones are inserted by `accept_friend_request`. -/
theorem Change.mem_relations (h : Change d a op a') :
    (u, v) ∈ a'.relations ↔ a.Befriends op u v ∨ (u, v) ∈ a.relations := by
  have hsame (hno : ¬ a.Befriends op u v) (hrel : a'.relations = a.relations) :
      (u, v) ∈ a'.relations ↔ a.Befriends op u v ∨ (u, v) ∈ a.relations := by
    rw [hrel, or_iff_right hno]
  cases h with
  | keeps _ hfriends =>
    cases hfriends with
    | stays hop => exact hsame (not_befriends hop) rfl
    | requests | removes => exact hsame (not_befriends fun _ _ he => nomatch he) rfl
    | fails hun => exact hsame (fun h => hun (befriends_acceptFriendRequest.mp h).2) rfl
    | @accepts id requesterId hun =>
      rw [befriends_acceptFriendRequest, and_iff_left hun, Sym2.eq_iff, List.mem_append,
        List.mem_cons, List.mem_singleton, Prod.mk.injEq, Prod.mk.injEq]
      grind
  | adds | logsOut | renames => exact hsame (not_befriends fun _ _ he => nomatch he) rfl
  | logsIn hlog =>
    refine hsame (not_befriends fun _ _ he => ?_) rfl
    subst he
    cases hlog

end Change

/-! ## Runs -/

/-- The recorded calls lead from the one state of the tables to the other. -/
abbrev AccountRunFrom (a₀ : Authorizer) (h : AccountHistory) (a : Authorizer) : Prop :=
  Run step (fun _ _ => True) a₀ h a

/-- A call that inserts a relation finds the request that it accepts. -/
def AcceptsPending (a : Authorizer) (op : Op) : Prop :=
  ∀ id requesterId, op = .acceptFriendRequest id requesterId → a.Unrelated id requesterId →
    (requesterId, id) ∈ a.friendRequests

/-- **Friendship needs consent.** Whenever two ids are related, the one has accepted a
pending request of the other, and both are users. -/
def FriendsConsent (h : AccountHistory) : Prop :=
  ∀ h₁ y h₂ u v, h = h₁ ++ y :: h₂ → (u, v) ∈ y.post.relations → (v, u) ∈ y.post.relations →
    (∃ e ∈ h₁ ++ [y], e.pre.Accepts e.act.2 u v) ∧ y.post.hasUser u ∧ y.post.hasUser v

section Run

variable {a₀ a : Authorizer} {h : AccountHistory}

/-- **Run lemma.** Pending requests are between two users. -/
theorem requestsMade_of_run (h₀ : a₀.Friendless) (hr : AccountRunFrom a₀ h a) :
    RequestsMade a := by
  refine hr.invariant (fun u v hmem => ?_) ?_
  · rw [h₀.1] at hmem
    exact absurd hmem List.not_mem_nil
  · intro s e out s' hs _ hstep u v hmem
    have hchange := (step_cases hstep).change
    obtain ⟨hne, hu, hv⟩ := (hchange.mem_friendRequests hmem).elim (hs u v) fun h => h
    exact ⟨hne, hchange.hasUser hu, hchange.hasUser hv⟩

/-- The two ids are related. -/
def Related (u v : Int) (a : Authorizer) : Prop := (u, v) ∈ a.relations

/-- A relation goes back to the call that has inserted it. -/
theorem related_iff (h₀ : a₀.Friendless) (hr : AccountRunFrom a₀ h a) (u v : Int) :
    a.Related u v ↔ ∃ e ∈ h, e.pre.Befriends e.act.2 u v := by
  have hno : ¬ a₀.Related u v := by
    rw [Related, h₀.2]
    exact List.not_mem_nil
  rw [← since_true_iff]
  refine hr.held_iff_since hno fun e he => ?_
  rw [true_and]
  exact (step_cases (hr.mem_entry e he).2.2).change.mem_relations

/-- Relations are between different users, and go both ways. -/
theorem Related.symm (h₀ : a₀.Friendless) (hr : AccountRunFrom a₀ h a) {u v : Int}
    (huv : a.Related u v) : a.Related v u ∧ u ≠ v := by
  obtain ⟨e, he, id, requesterId, hop, hpair, hun⟩ := (related_iff h₀ hr u v).mp huv
  have hswap : s(id, requesterId) = s(v, u) := hpair.trans Sym2.eq_swap
  refine ⟨(related_iff h₀ hr v u).mpr ⟨e, he, id, requesterId, hop, hswap, hun⟩, ?_⟩
  rcases Sym2.eq_iff.mp hpair with ⟨rfl, rfl⟩ | ⟨rfl, rfl⟩
  · exact hun.1
  · exact hun.1.symm

/-- Whose request has been accepted is a friend. -/
theorem Accepts.related (h₀ : a₀.Friendless) (hr : AccountRunFrom a₀ h a) {u v : Int}
    {e : Entry Authorizer (Draw × Op) Answer} (he : e ∈ h) (hacc : e.pre.Accepts e.act.2 u v) :
    a.Related u v := by
  obtain ⟨id, requesterId, hop, hpair, hpending⟩ := hacc
  obtain ⟨h₁, h₂, rfl⟩ := List.append_of_mem he
  have hne := (requestsMade_of_run h₀ hr.take requesterId id hpending).1
  rw [related_iff h₀ hr]
  by_cases hun : e.pre.Unrelated id requesterId
  · exact ⟨e, he, id, requesterId, hop, hpair, hun⟩
  · -- they have been friends before
    have hrel : e.pre.Related id requesterId := by
      by_contra hno
      exact hun ⟨hne.symm, hno, fun h => hno (Related.symm h₀ hr.take h).1⟩
    have hrel' : e.pre.Related u v := by
      rcases Sym2.eq_iff.mp hpair with ⟨rfl, rfl⟩ | ⟨rfl, rfl⟩
      · exact hrel
      · exact (hrel.symm h₀ hr.take).1
    obtain ⟨x, hx, hbefriends⟩ := (related_iff h₀ hr.take u v).mp hrel'
    exact ⟨x, List.mem_append_left _ hx, hbefriends⟩

/-- **Friendship needs consent** exactly when every call that inserts a relation finds
the request that it accepts. -/
theorem friendsConsent_iff (h₀ : a₀.Friendless) (hr : AccountRunFrom a₀ h a) :
    FriendsConsent h ↔ ∀ e ∈ h, e.pre.AcceptsPending e.act.2 := by
  constructor
  · intro hconsent e he id requesterId hop hun
    obtain ⟨h₁, h₂, hsplit⟩ := List.append_of_mem he
    have hrel {u v : Int} (hpair : s(id, requesterId) = s(u, v)) : (u, v) ∈ e.post.relations :=
      (step_cases (hr.mem_entry e he).2.2).change.mem_relations.mpr
        (.inl ⟨id, requesterId, hop, hpair, hun⟩)
    obtain ⟨⟨x, hx, hacc⟩, -⟩ :=
      hconsent h₁ e h₂ id requesterId hsplit (hrel rfl) (hrel Sym2.eq_swap)
    subst hsplit
    rcases List.mem_append.mp hx with hx | hx
    · -- they would have been friends since then
      exact absurd (hacc.related h₀ hr.take hx) hun.2.1
    · obtain rfl := List.mem_singleton.mp hx
      obtain ⟨id', requesterId', hop', -, hpending⟩ := hacc
      cases hop.symm.trans hop'
      exact hpending
  · rintro hall h₁ y h₂ u v rfl huv -
    have hrun := hr.upto
    obtain ⟨e, he, id, requesterId, hop, hpair, hun⟩ := (related_iff h₀ hrun u v).mp huv
    have hpending := hall e (mem_of_mem_upto he) id requesterId hop hun
    refine ⟨⟨e, he, id, requesterId, hop, hpair, hpending⟩, ?_⟩
    -- a request has two users, who stay
    obtain ⟨l, l', hl⟩ := List.append_of_mem he
    have hmade : RequestsMade e.pre := requestsMade_of_run h₀ (hl ▸ hrun).take
    obtain ⟨-, hrequester, hid⟩ := hmade requesterId id hpending
    have hkept {w : Int} (hw : e.pre.hasUser w) : y.post.hasUser w :=
      hrun.kept (fun a => a.hasUser w = true)
        (fun x hx => (step_cases (hrun.mem_entry x hx).2.2).change.hasUser) he hw
    rcases Sym2.eq_iff.mp hpair with ⟨rfl, rfl⟩ | ⟨rfl, rfl⟩
    · exact ⟨hkept hid, hkept hrequester⟩
    · exact ⟨hkept hrequester, hkept hid⟩

end Run

/-- Two users who are no friends. -/
def twoUsers : Authorizer := ⟨[⟨1, "alice", "pw", none⟩, ⟨2, "bob", "pw", none⟩], [], []⟩

/-- Alice and Bob as friends. -/
def twoFriends : Authorizer := { twoUsers with relations := [(1, 2), (2, 1)] }

/-- User 2 asks user 1, who accepts. -/
theorem friendsConsent_iff_requested : ∃ h, AccountRunFrom twoUsers h twoFriends ∧
    h.map Entry.act =
      [(drawn 0, .raiseFriendRequest 2 1), (drawn 0, .acceptFriendRequest 1 2)] ∧
    (FriendsConsent h ↔ ∀ e ∈ h, e.pre.AcceptsPending e.act.2) := by
  have he : exec step twoUsers
      [(drawn 0, .raiseFriendRequest 2 1), (drawn 0, .acceptFriendRequest 1 2)] =
        .ok twoFriends := rfl
  obtain ⟨h, hr, hacts⟩ := exists_run_of_exec (fun _ _ _ => trivial) he
  exact ⟨h, hr, hacts, friendsConsent_iff ⟨rfl, rfl⟩ hr⟩

/-- Alice accepts what nobody has asked for, and is a friend of Bob. -/
theorem accepts_nothing : ∃ h, AccountRunFrom twoUsers h twoFriends ∧
    h.map Entry.act = [(drawn 0, .acceptFriendRequest 1 2)] ∧ ¬ FriendsConsent h := by
  have hstep : step twoUsers (drawn 0, .acceptFriendRequest 1 2) =
      .ok (.only .success, twoFriends) := rfl
  refine ⟨_, Run.nil.snoc trivial hstep, rfl, fun hconsent => ?_⟩
  obtain ⟨⟨e, he, _, _, -, -, hpending⟩, -⟩ :=
    hconsent [] _ [] 1 2 rfl List.mem_cons_self (List.mem_cons_of_mem _ List.mem_cons_self)
  obtain rfl := List.mem_singleton.mp he
  exact absurd hpending List.not_mem_nil

end Authorizer

end UnoppServer
