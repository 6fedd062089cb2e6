import UnoppServer.Accounts.Effect
import UnoppServer.Json.Value
import UnoppServer.Lib.Assoc
import UnoppServer.Lib.Since

/-!
# Accounts: unread messages

How many messages of a friend a user has not read is in two places: the column `unread` of
`relation`, and a cache that counts the messages since `write_cache_to_database` has last
run. Every ten minutes it adds the counts to the column and clears the cache. A count of
two ids that are not related is added to no row, and is gone.

- `transparent_of_run`: nothing else shows that counts are written, and every number shown
  is the number of messages since the last `clear_unread`.
-/

namespace UnoppServer

open Assoc FindIf Runs

/-- The part of `Authorizer` that counts messages: the accounts, the columns `slogan` of
`user` and `unread` of `relation`, and the cache. The cache is a multimap from users to
pairs of a friend and a count, into which no pair is put that is there already. -/
structure Inbox where
  accounts : Authorizer
  slogan : Int → Option String
  unread : Int × Int → Int
  cache : Map (Int × Int) Int

namespace Inbox

open Authorizer

/-- Rows are equal when their two ids are. -/
local instance lawfulRows : LawfulBEq (Int × Int) := inferInstance

/-- `UPDATE relation SET unread=... WHERE user_id=? AND friend_id=?`. -/
def updateUnread (relations : List (Int × Int)) (p : Int × Int) (f : Int → Int)
    (unread : Int × Int → Int) : Int × Int → Int :=
  fun q => if q = p ∧ q ∈ relations then f (unread q) else unread q

/-- `add_one_unread`. -/
def addOneUnread (s : Inbox) (userId friendId : Int) : Inbox :=
  let cache :=
    match s.cache.lookup (userId, friendId) with
    | some n => s.cache.insert (userId, friendId) (toInt (n + 1))
    | none => s.cache.insert (userId, friendId) 1
  { s with cache }

/-- `clear_unread`. -/
def clearUnread (s : Inbox) (userId friendId : Int) : Inbox :=
  let cache :=
    match s.cache.lookup (userId, friendId) with
    | some _ => s.cache.insert (userId, friendId) 0
    | none => s.cache
  { s with
    cache
    unread := updateUnread s.accounts.relations (userId, friendId) (fun _ => 0) s.unread }

/-- One round of `write_cache_to_database`. -/
def writeCacheToDatabase (s : Inbox) : Inbox :=
  { s with
    -- an `UPDATE` without a row to update is a success
    unread := s.cache.entries.foldl (fun unread item =>
      updateUnread s.accounts.relations item.1 (· + item.2) unread) s.unread
    cache := ∅ }

/-- `accept_friend_request`: the column `unread` of a new row is 0. -/
def acceptFriendRequest (s : Inbox) (id requesterId : Int) : Result × Inbox :=
  let (result, accounts) := s.accounts.acceptFriendRequest id requesterId
  (result, { s with
    accounts
    unread := fun p => if p ∈ s.accounts.relations then s.unread p else 0 })

/-- `query_for_user_info`: a null value has no members, and a slogan that is `NULL` reads as
an empty text. -/
def queryForUserInfo (s : Inbox) (id : Int) : List (String × Json) :=
  match s.accounts.users.find? fun u => u.id == id with
  | none => []
  | some u => [("name", .str u.userName), ("slogan", .str ((s.slogan id).getD "")), ("id", .int id)]

/-- An item of the list of friends. -/
def friend (s : Inbox) (friendId unread : Int) : Json :=
  .obj (s.queryForUserInfo friendId ++ [("unread", .int unread)])

/-- The friends of a user, in the order of the rows. -/
def friends (s : Inbox) (order : Int → Nat) (id : Int) : List Int :=
  (hashOrder order Prod.snd (s.accounts.relations.filter fun r => r.1 = id)).map Prod.snd

/-- What is shown as the number of unread messages: the column and the count of the cache. -/
def shown (s : Inbox) (id friendId : Int) : Int :=
  let unread := toInt (s.unread (id, friendId))
  match s.cache.lookup (id, friendId) with
  | some n => toInt (unread + n)
  | none => unread

/-- `get_friend_list`. -/
def getFriendList (s : Inbox) (order : Int → Nat) (id : Int) : Json :=
  .arr ((s.friends order id).map fun friendId => s.friend friendId (s.shown id friendId))

/-! ## Calls -/

/-- A call, or a round of the thread that writes the cache. -/
inductive Op where
  | addOneUnread (userId friendId : Int)
  | clearUnread (userId friendId : Int)
  | acceptFriendRequest (id requesterId : Int)
  | getFriendList (order : Int → Nat) (id : Int)
  | writeCacheToDatabase

/-- What it returns. -/
inductive Answer where
  | result (result : Result)
  | list (value : Json)
  | nothing

/-- Perform it. -/
def step (s : Inbox) : Op → Except Empty (Answer × Inbox)
  | .addOneUnread userId friendId => .ok (.result .success, s.addOneUnread userId friendId)
  | .clearUnread userId friendId => .ok (.result .success, s.clearUnread userId friendId)
  | .acceptFriendRequest id requesterId =>
    let (result, s) := s.acceptFriendRequest id requesterId
    .ok (.result result, s)
  | .getFriendList order id => .ok (.list (s.getFriendList order id), s)
  | .writeCacheToDatabase => .ok (.nothing, s.writeCacheToDatabase)

/-! ## Totals -/

/-- The unread messages of a pair of ids, of which the cache counts some. -/
def total (s : Inbox) (p : Int × Int) : Int :=
  (if p ∈ s.accounts.relations then s.unread p else 0) + (s.cache.lookup p).getD 0

section Total

variable {s t : Inbox} {p : Int × Int} {userId friendId id requesterId : Int}

theorem toInt_add_toInt (i j : Int) : toInt (i + toInt j) = toInt (i + j) := by
  unfold toInt
  rw [Int.add_comm, Int.bmod_add_bmod, Int.add_comm]

theorem toInt_add_congr {i j : Int} (h : toInt i = toInt j) : toInt (i + 1) = toInt (j + 1) := by
  rw [Int.add_comm i, Int.add_comm j, ← toInt_add_toInt, h, toInt_add_toInt]

/-- For friends, the number shown is the total as an `int`. -/
theorem shown_eq (h : (id, friendId) ∈ s.accounts.relations) :
    s.shown id friendId = toInt (s.total (id, friendId)) := by
  unfold shown total
  rw [if_pos h]
  cases s.cache.lookup (id, friendId) with
  | none => rw [Option.getD_none, Int.add_zero]
  | some n =>
    show toInt (toInt _ + n) = toInt (_ + n)
    rw [Int.add_comm, toInt_add_toInt, Int.add_comm]

/-- A message adds one to the total of its pair, modulo the range of an `int`. -/
theorem total_addOneUnread (p : Int × Int) : toInt ((s.addOneUnread userId friendId).total p) =
    toInt (if p = (userId, friendId) then s.total p + 1 else s.total p) := by
  unfold addOneUnread total
  cases hlook : s.cache.lookup (userId, friendId) with
  | some n =>
    simp only [lookup_insert_eq]
    by_cases hp : p = (userId, friendId)
    · rw [if_pos hp, if_pos hp, hp, hlook, Option.getD_some, Option.getD_some, toInt_add_toInt,
        Int.add_assoc]
    · rw [if_neg hp, if_neg hp]
  | none =>
    simp only [lookup_insert_eq]
    by_cases hp : p = (userId, friendId)
    · rw [if_pos hp, if_pos hp, hp, hlook, Option.getD_some, Option.getD_none, Int.add_zero]
    · rw [if_neg hp, if_neg hp]

/-- Reading sets the total of the pair to zero, and that of no other pair. -/
theorem total_clearUnread (p : Int × Int) : (s.clearUnread userId friendId).total p =
    if p = (userId, friendId) then 0 else s.total p := by
  have hcache : ((s.clearUnread userId friendId).cache.lookup p).getD 0 =
      if p = (userId, friendId) then 0 else (s.cache.lookup p).getD 0 := by
    unfold clearUnread
    cases hlook : s.cache.lookup (userId, friendId) with
    | some n =>
      simp only [lookup_insert_eq]
      split <;> rfl
    | none =>
      by_cases hp : p = (userId, friendId)
      · rw [if_pos hp, hp, hlook, Option.getD_none]
      · rw [if_neg hp]
  have hunread : (s.clearUnread userId friendId).unread p =
      if p = (userId, friendId) ∧ p ∈ s.accounts.relations then 0 else s.unread p := rfl
  have hrelations : (s.clearUnread userId friendId).accounts.relations = s.accounts.relations := rfl
  rw [total, total, hcache, hunread, hrelations]
  by_cases hp : p = (userId, friendId)
  · rw [if_pos hp, if_pos hp, Int.add_zero]
    by_cases hrel : p ∈ s.accounts.relations
    · rw [if_pos hrel, if_pos ⟨hp, hrel⟩]
    · rw [if_neg hrel]
  · have hrow : ¬ (p = (userId, friendId) ∧ p ∈ s.accounts.relations) := fun h => hp h.1
    rw [if_neg hp, if_neg hp, if_neg hrow]

/-- New friends start at zero, as strangers do. -/
theorem total_acceptFriendRequest (p : Int × Int) :
    (s.acceptFriendRequest id requesterId).2.total p = s.total p := by
  have hstays : p ∈ s.accounts.relations →
      p ∈ (s.accounts.acceptFriendRequest id requesterId).2.relations := by
    intro hp
    generalize ha : (s.accounts.acceptFriendRequest id requesterId).2 = a'
    have hchange := ha ▸ acceptFriendRequest_cases (a := s.accounts) id requesterId
    cases hchange with
    | stays hop => exact absurd rfl (hop id requesterId)
    | fails => exact hp
    | accepts => exact List.mem_append_left _ hp
  show (if p ∈ (s.accounts.acceptFriendRequest id requesterId).2.relations then
    if p ∈ s.accounts.relations then s.unread p else 0 else 0) + _ = _
  unfold total
  by_cases hp : p ∈ s.accounts.relations
  · rw [if_pos (hstays hp)]
    rfl
  · rw [if_neg hp, ite_self]
    rfl

/-- Every pair with a count in the cache is a row of `relation`. -/
def Covered (s : Inbox) : Prop :=
  ∀ p n, s.cache.lookup p = some n → n ≠ 0 → p ∈ s.accounts.relations

/-- The loop adds to each row the count of its pair, unless the statement fails. -/
theorem foldl_updateUnread {l : List (Sigma fun _ : Int × Int => Int)} (hl : l.NodupKeys)
    {relations : List (Int × Int)} (hp : p ∈ relations) (fails : Int × Int → Bool)
    (unread : Int × Int → Int) :
    l.foldl (fun unread item => if fails item.1 then unread
      else updateUnread relations item.1 (· + item.2) unread) unread p =
      unread p + if fails p then 0 else (l.dlookup p).getD 0 := by
  induction l generalizing unread with
  | nil =>
    rw [List.dlookup_nil, Option.getD_none, ite_self]
    exact (Int.add_zero _).symm
  | cons item l ih =>
    obtain ⟨q, n⟩ := item
    obtain ⟨hq, hl⟩ := List.nodupKeys_cons.mp hl
    rw [List.foldl_cons, ih hl]
    by_cases hpq : p = q
    · subst hpq
      rw [List.dlookup_cons_eq, List.dlookup_eq_none.mpr hq, Option.getD_none, ite_self,
        Int.add_zero]
      cases fails p with
      | true => exact (Int.add_zero _).symm
      | false => exact if_pos ⟨rfl, hp⟩
    · rw [List.dlookup_cons_ne _ _ hpq]
      have hrow : (if fails q then unread else updateUnread relations q (· + n) unread) p =
          unread p := by
        split
        · rfl
        · exact if_neg fun h => hpq h.1
      rw [hrow]

/-- The flush moves counts from the cache to the table and changes no total. -/
theorem total_writeCacheToDatabase (h : s.Covered) (p : Int × Int) :
    s.writeCacheToDatabase.total p = s.total p := by
  unfold total
  show (if p ∈ s.accounts.relations then _ else 0) + 0 = _
  by_cases hp : p ∈ s.accounts.relations
  · rw [if_pos hp, if_pos hp, Int.add_zero]
    exact foldl_updateUnread s.cache.nodupKeys hp (fun _ => false) s.unread
  · rw [if_neg hp, if_neg hp]
    cases hlook : s.cache.lookup p with
    | none => rfl
    | some n =>
      have hn : n = 0 := by
        by_contra hn
        exact hp (h p n hlook hn)
      rw [hn]
      rfl

end Total

/-! ## Runs -/

/-- A round of `write_cache_to_database`. -/
def Op.writes : Op → Bool
  | .writeCacheToDatabase => true
  | _ => false

/-- A message to the one from the other. -/
def Op.adds (p : Int × Int) : Op → Bool
  | .addOneUnread userId friendId => p == (userId, friendId)
  | _ => false

/-- The one has read the messages of the other. -/
def Op.clears (p : Int × Int) : Op → Bool
  | .clearUnread userId friendId => p == (userId, friendId)
  | _ => false

/-- A round of `write_cache_to_database` finds a row for every count. -/
def FindsRows (s : Inbox) (op : Op) : Prop := op.writes = true → s.Covered

/-- The recorded calls. -/
abbrev InboxHistory := List (Entry Inbox Op Answer)

/-- The number of calls of `add_one_unread` since the last one of `clear_unread`. -/
def messages (p : Int × Int) (h : InboxHistory) : Nat :=
  (h.reverse.takeWhile fun e => !e.act.clears p).countP fun e => e.act.adds p

/-- **The cache is transparent.** The same calls without `write_cache_to_database` return
the same, and the numbers of unread messages, which are `int`s, are those of the messages. -/
structure Transparent (s₀ : Inbox) (h : InboxHistory) : Prop where
  silent : ∃ h' s', Run step (fun _ _ => True) s₀ h' s' ∧
    h'.map Entry.seen = (loud Op.writes h).map Entry.seen
  counts : ∀ h₁ e h₂ order id, h = h₁ ++ e :: h₂ → e.act = .getFriendList order id →
    e.out = .list (.arr ((e.pre.friends order id).map fun friendId =>
      e.pre.friend friendId (toInt (messages (id, friendId) h₁))))

section Step

variable {s s' t : Inbox} {op : Op} {ans : Answer} {p : Int × Int} {order : Int → Nat} {id : Int}

/-- **Step lemma.** What a call does to the number of unread messages. -/
theorem total_step (hrows : s.FindsRows op) (h : s.step op = .ok (ans, s')) (p : Int × Int) :
    toInt (s'.total p) = toInt
      (if op.clears p then 0 else if op.adds p then s.total p + 1 else s.total p) := by
  cases op with
  | addOneUnread userId friendId =>
    obtain rfl := (Prod.mk.inj (Except.ok.inj h)).2
    rw [total_addOneUnread]
    simp only [Op.clears, Op.adds, beq_iff_eq, Bool.false_eq_true, if_false]
  | clearUnread userId friendId =>
    obtain rfl := (Prod.mk.inj (Except.ok.inj h)).2
    rw [total_clearUnread]
    simp only [Op.clears, Op.adds, beq_iff_eq, Bool.false_eq_true, if_false]
  | acceptFriendRequest id requesterId =>
    obtain rfl := (Prod.mk.inj (Except.ok.inj h)).2
    exact congrArg toInt (total_acceptFriendRequest p)
  | getFriendList order id =>
    obtain rfl := (Prod.mk.inj (Except.ok.inj h)).2
    rfl
  | writeCacheToDatabase =>
    obtain rfl := (Prod.mk.inj (Except.ok.inj h)).2
    rw [total_writeCacheToDatabase (hrows rfl)]
    rfl

theorem mem_friends {friendId : Int} (h : friendId ∈ s.friends order id) :
    (id, friendId) ∈ s.accounts.relations := by
  obtain ⟨r, hr, rfl⟩ := List.mem_map.mp h
  obtain ⟨hmem, hid⟩ := List.mem_filter.mp ((hashOrder_perm ..).mem_iff.mp hr)
  exact of_decide_eq_true hid ▸ hmem

/-- The list of friends shows the numbers of unread messages. -/
theorem getFriendList_eq : s.getFriendList order id = .arr ((s.friends order id).map
    fun friendId => s.friend friendId (toInt (s.total (id, friendId)))) := by
  unfold getFriendList
  congr 1
  refine List.map_congr_left fun friendId hmem => ?_
  rw [shown_eq (mem_friends hmem)]

/-- Two states that differ at most in where the messages are counted. -/
structure SameTotals (s t : Inbox) : Prop where
  accounts : s.accounts = t.accounts
  slogan : s.slogan = t.slogan
  totals : ∀ p, toInt (s.total p) = toInt (t.total p)

/-- The friend list shows nothing but totals. -/
theorem SameTotals.getFriendList (h : SameTotals s t) :
    s.getFriendList order id = t.getFriendList order id := by
  have hfriend (friendId n : Int) : s.friend friendId n = t.friend friendId n := by
    unfold friend queryForUserInfo
    rw [h.accounts, h.slogan]
  have hfriends : s.friends order id = t.friends order id := by
    unfold friends
    rw [h.accounts]
  rw [getFriendList_eq, getFriendList_eq, hfriends]
  congr 1
  refine List.map_congr_left fun friendId _ => ?_
  rw [h.totals, hfriend]

/-- The other calls do the same in both, and return the same. -/
theorem SameTotals.step (hst : SameTotals s t) (hop : op.writes = false)
    (h : s.step op = .ok (ans, s')) : ∃ t', t.step op = .ok (ans, t') ∧ SameTotals s' t' := by
  have hrows {u : Inbox} : u.FindsRows op := fun hw => nomatch hop.symm.trans hw
  have htotals {t' : Inbox} (ht : t.step op = .ok (ans, t')) (p : Int × Int) :
      toInt (s'.total p) = toInt (t'.total p) := by
    rw [total_step hrows h, total_step hrows ht]
    split
    · rfl
    split
    · exact toInt_add_congr (hst.totals p)
    · exact hst.totals p
  cases op with
  | addOneUnread userId friendId =>
    obtain ⟨rfl, rfl⟩ := Prod.mk.inj (Except.ok.inj h)
    exact ⟨_, rfl, hst.accounts, hst.slogan, htotals rfl⟩
  | clearUnread userId friendId =>
    obtain ⟨rfl, rfl⟩ := Prod.mk.inj (Except.ok.inj h)
    exact ⟨_, rfl, hst.accounts, hst.slogan, htotals rfl⟩
  | acceptFriendRequest id requesterId =>
    obtain ⟨rfl, rfl⟩ := Prod.mk.inj (Except.ok.inj h)
    have ht : t.step (.acceptFriendRequest id requesterId) =
        .ok (.result (s.accounts.acceptFriendRequest id requesterId).1,
          (t.acceptFriendRequest id requesterId).2) := by rw [hst.accounts]; rfl
    refine ⟨_, ht, ?_, hst.slogan, htotals ht⟩
    show (s.accounts.acceptFriendRequest id requesterId).2 =
      (t.accounts.acceptFriendRequest id requesterId).2
    rw [hst.accounts]
  | getFriendList order id =>
    obtain ⟨rfl, rfl⟩ := Prod.mk.inj (Except.ok.inj h)
    exact ⟨t, by rw [hst.getFriendList]; rfl, hst⟩
  | writeCacheToDatabase => cases hop

/-- A round of `write_cache_to_database` moves the counts. -/
theorem SameTotals.write (hst : SameTotals s t) (hrows : s.FindsRows op) (hop : op.writes = true)
    (h : s.step op = .ok (ans, s')) : SameTotals s' t := by
  cases op with
  | writeCacheToDatabase =>
    have htotals := total_step hrows h
    obtain rfl := (Prod.mk.inj (Except.ok.inj h)).2
    exact ⟨hst.accounts, hst.slogan, fun p => (htotals p).trans (hst.totals p)⟩
  | _ => cases hop

end Step

section Run

variable {s₀ s : Inbox} {h : InboxHistory}

/-- Nobody has been written to. -/
structure NoMessages (s : Inbox) : Prop where
  cache : s.cache = ∅
  unread : ∀ p, s.unread p = 0

/-- The messages to a pair since its last clear, one call later. -/
theorem messages_concat (p : Int × Int) (h : InboxHistory) (e : Entry Inbox Op Answer) :
    messages p (h ++ [e]) = if e.act.clears p then 0
      else if e.act.adds p then messages p h + 1 else messages p h := by
  rw [messages, List.reverse_append, List.reverse_singleton, List.singleton_append,
    List.takeWhile_cons]
  cases hclears : e.act.clears p with
  | true => rfl
  | false =>
    rw [Bool.not_false, if_pos rfl, if_neg Bool.false_ne_true, List.countP_cons]
    split <;> rfl

/-- **Run lemma.** The numbers of unread messages are those of the messages. -/
theorem totals_of_run (h₀ : s₀.NoMessages) (hr : Run step FindsRows s₀ h s) (p : Int × Int) :
    toInt (s.total p) = toInt (messages p h) := by
  induction hr with
  | nil =>
    have htotal : s₀.total p = 0 := by
      unfold total
      rw [h₀.cache, h₀.unread, ite_self]
      rfl
    rw [htotal]
    rfl
  | @snoc l s s' op ans _ hrows hstep ih =>
    rw [total_step hrows hstep, messages_concat]
    by_cases hclears : op.clears p = true
    · rw [if_pos hclears, if_pos hclears, Nat.cast_zero]
    rw [if_neg hclears, if_neg hclears]
    by_cases hadds : op.adds p = true
    · rw [if_pos hadds, if_pos hadds, Nat.cast_add, Nat.cast_one]
      exact toInt_add_congr ih
    · rw [if_neg hadds, if_neg hadds]
      exact ih

/-- The calls return the same without the rounds of `write_cache_to_database`. -/
theorem silent_of_run (hr : Run step FindsRows s₀ h s) :
    ∃ h' s', Run step (fun _ _ => True) s₀ h' s' ∧
      h'.map Entry.seen = (loud Op.writes h).map Entry.seen := by
  have hsame : SameTotals s₀ s₀ := ⟨rfl, rfl, fun _ => rfl⟩
  obtain ⟨h', t, hr', -, hseen⟩ := hr.erase hsame
    (fun _ _ _ _ _ hst hrows hop hstep => hst.write hrows hop hstep)
    (fun _ _ _ _ _ hst _ hop hstep => ⟨trivial, hst.step hop hstep⟩)
  exact ⟨h', t, hr', hseen⟩

/-- **The cache is transparent** in every run in which `write_cache_to_database` finds a row
for every count. -/
theorem transparent_of_run (h₀ : s₀.NoMessages) (hr : Run step FindsRows s₀ h s) :
    Transparent s₀ h := by
  refine ⟨silent_of_run hr, fun h₁ e h₂ order id hsplit hact => ?_⟩
  subst hsplit
  obtain ⟨-, -, hstep⟩ := hr.mem_entry e (List.mem_append_right _ List.mem_cons_self)
  rw [hact] at hstep
  obtain ⟨hout, -⟩ := Prod.mk.inj (Except.ok.inj hstep)
  rw [← hout, getFriendList_eq]
  refine congrArg (fun items => Answer.list (.arr items)) (List.map_congr_left fun friendId _ => ?_)
  rw [totals_of_run h₀ hr.take]

end Run

/-- Alice and Bob, who are no friends. -/
def strangers : Inbox where
  accounts := ⟨[⟨1, "alice", "pw", none⟩, ⟨2, "bob", "pw", none⟩], [], []⟩
  slogan _ := none
  unread _ := 0
  cache := ∅

/-- What Alice sees of Bob when they are friends. -/
def seesBob (unread : Int) : Json :=
  .arr [.obj [("name", .str "bob"), ("slogan", .str ""), ("id", .int 2), ("unread", .int unread)]]

/-- Bob writes to Alice before she accepts his request, or after that. -/
def writtenBefore : List Op :=
  [.addOneUnread 1 2, .writeCacheToDatabase, .acceptFriendRequest 1 2, .getFriendList Int.toNat 1]

/-- Bob writes to Alice when she has accepted his request. -/
def writtenAfter : List Op :=
  [.acceptFriendRequest 1 2, .addOneUnread 1 2, .writeCacheToDatabase, .getFriendList Int.toNat 1]

/-- Bob's message counts, although the flush runs before the friend list is read. -/
theorem transparent_of_run_friends : ∃ h s, Run step FindsRows strangers h s ∧
    h.map Entry.act = writtenAfter ∧ Transparent strangers h := by
  let s₁ := (strangers.acceptFriendRequest 1 2).2
  let s₂ := s₁.addOneUnread 1 2
  have hquiet {s : Inbox} {op : Op} (hop : op.writes = false) : s.FindsRows op :=
    fun hw => nomatch hop.symm.trans hw
  have haccept : step strangers (.acceptFriendRequest 1 2) = .ok (.result .success, s₁) := rfl
  have hadd : step s₁ (.addOneUnread 1 2) = .ok (.result .success, s₂) := rfl
  have hwrite : step s₂ .writeCacheToDatabase = .ok (.nothing, s₂.writeCacheToDatabase) := rfl
  have hlist : step s₂.writeCacheToDatabase (.getFriendList Int.toNat 1) =
      .ok (.list (seesBob 1), s₂.writeCacheToDatabase) := rfl
  have hcovered : s₂.Covered := by
    intro p n hp _
    have hlook : (strangers.cache.insert (1, 2) 1).lookup p = some n := hp
    rw [lookup_insert_eq] at hlook
    split at hlook
    · rename_i heq
      exact heq ▸ List.mem_cons_self
    · cases hlook
  have hr := (((Run.nil.snoc (hquiet rfl) haccept).snoc (hquiet rfl) hadd).snoc
    (fun _ => hcovered) hwrite).snoc (hquiet rfl) hlist
  exact ⟨_, _, hr, rfl, transparent_of_run ⟨rfl, fun _ => rfl⟩ hr⟩

/-- The message of a stranger is forgotten when the cache is written before they are
friends. -/
theorem message_forgotten : ∃ h s, Run step (fun _ _ => True) strangers h s ∧
    h.map Entry.act = writtenBefore ∧ ¬ Transparent strangers h := by
  let s₁ := strangers.addOneUnread 1 2
  let s₂ := s₁.writeCacheToDatabase
  let s₃ := (s₂.acceptFriendRequest 1 2).2
  let t₂ := (s₁.acceptFriendRequest 1 2).2
  have hadd : step strangers (.addOneUnread 1 2) = .ok (.result .success, s₁) := rfl
  have hwrite : step s₁ .writeCacheToDatabase = .ok (.nothing, s₂) := rfl
  have haccept : step s₂ (.acceptFriendRequest 1 2) = .ok (.result .success, s₃) := rfl
  have hlist : step s₃ (.getFriendList Int.toNat 1) = .ok (.list (seesBob 0), s₃) := rfl
  have haccept' : step s₁ (.acceptFriendRequest 1 2) = .ok (.result .success, t₂) := rfl
  have hlist' : step t₂ (.getFriendList Int.toNat 1) = .ok (.list (seesBob 1), t₂) := rfl
  have hadded : Run step (fun _ _ => True) strangers _ s₁ := Run.nil.snoc trivial hadd
  have hr := ((hadded.snoc trivial hwrite).snoc trivial haccept).snoc trivial hlist
  have hr' := (hadded.snoc trivial haccept').snoc trivial hlist'
  refine ⟨_, _, hr, rfl, fun htransparent => ?_⟩
  obtain ⟨h', s', hrun, hseen⟩ := htransparent.silent
  -- the run without the round is known by its calls
  have hacts := congrArg (List.map Prod.fst) hseen
  rw [List.map_map, List.map_map] at hacts
  rw [hrun.history_unique hr' hacts] at hseen
  have hlast := congrArg List.getLast? hseen
  have hlists : Answer.list (seesBob 1) = Answer.list (seesBob 0) :=
    (Prod.mk.inj (Option.some.inj hlast)).2
  simp [seesBob] at hlists

end Inbox

end UnoppServer
