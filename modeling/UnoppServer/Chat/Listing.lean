import Mathlib
import UnoppServer.Chat.Cache
import UnoppServer.Chat.Pages

/-!
# Chat history: what a read lists

`new_chat_message` enters a message into `index` once for its sender and once for its receiver. A
message of a user to themselves is in the index of this user twice, and until the next round of
`write_database` a read lists it twice. Everything else is listed as it should be.

- `exists_fold`: the members of the result, after any messages have been appended;
- `filter_cachedMessages`, `filter_storedRows`: what is appended for one friend;
- `faithful_iff`: the read is faithful if and only if no message of the user to themselves is in
  the cache.
-/

namespace UnoppServer

open FindIf Paging Runs

namespace ChatHistory

/-- The other user of a message. -/
def friendOf (userId : Int) (m : ChatMessage) : Int :=
  if m.senderId = userId then m.receiverId else m.senderId

/-- The message is one between the two users. -/
def IsBetween (userId friendId : Int) (m : ChatMessage) : Prop :=
  (m.senderId = userId ∧ m.receiverId = friendId) ∨ (m.receiverId = userId ∧ m.senderId = friendId)

instance (userId friendId : Int) (m : ChatMessage) : Decidable (IsBetween userId friendId m) :=
  inferInstanceAs (Decidable (_ ∨ _))

/-- The message is one of the user to themselves. -/
def ToSelf (userId : Int) (m : ChatMessage) : Prop := m.senderId = userId ∧ m.receiverId = userId

instance (userId : Int) (m : ChatMessage) : Decidable (ToSelf userId m) :=
  inferInstanceAs (Decidable (_ ∧ _))

/-- The newest of some rows, as many as there are up to `n`, in any order. -/
def Newest (n : ℕ) (rows newest : List ChatRow) : Prop :=
  ∃ rest, (newest ++ rest).Perm rows ∧ newest.length = min n rows.length ∧
    ∀ r ∈ newest, ∀ r' ∈ rest, r'.timestamp ≤ r.timestamp

/-- The value has a member under the key that lists the messages, in any order, or none when
there are no messages. -/
def Lists (parse : String → Json) (res : Json) (key : String) (messages : List ChatMessage) :
    Prop :=
  if messages = [] then res.find key = .ok none
  else ∃ (l : List ChatMessage) (items : List Json), l.Perm messages ∧
    l.mapM (messageItem parse) = .ok items ∧ res.find key = .ok (some (.arr items))

/-- **The read is faithful.** Its indices are in the cache, and the result lists for each friend
the messages in the cache and the 20 newest of the table, and nothing else. -/
structure Faithful (parse : String → Json) (order : Nat → Nat) (tie : ChatRow → Nat)
    (s : ChatHistory) (userId latestTimestamp : Int) : Prop where
  bounds : ∀ e ∈ s.index, e.1 = userId → e.2 < s.cache.length
  result : ∃ res, getChatMessage parse order tie s s userId latestTimestamp = .ok res ∧
    (∀ friendId, ∃ newest, Newest 20 (conversation s.chat userId friendId) newest ∧
      Lists parse res (toString friendId) (s.cache.filter (fun m => IsBetween userId friendId m) ++
        newest.map ChatRow.toChatMessage)) ∧
    ∀ key, (∀ friendId : Int, key ≠ toString friendId) → res.find key = .ok none

/-- The server writes the text of an object, and all insertions succeed. -/
def Carries (parse : String → Json) : Op → Prop
  | .newChatMessage _ _ message _ => (parse message).TakesMembers
  | .writeDatabase fails => ∀ i, fails i = false

/-- The history can be reached by any messages that a whisper carries. -/
abbrev WhisperReachable (parse : String → Json) (s : ChatHistory) : Prop :=
  Reachable step (fun _ op => Carries parse op) new s

/-- The index is that of the cache, and every message can be shown. -/
structure Legible (parse : String → Json) (s : ChatHistory) : Prop where
  index : s.index = indexOf s.cache
  cached : ∀ m ∈ s.cache, (parse m.message).TakesMembers
  stored : ∀ r ∈ s.chat, (parse r.message).TakesMembers

section Reachable

variable {parse : String → Json} {s s' : ChatHistory}

theorem mem_cache_of_pending {r : ChatRow} (h : r ∈ s.pending) : r.toChatMessage ∈ s.cache := by
  obtain ⟨i, hi⟩ := mem_pending_iff.mp h
  obtain ⟨m, hm, rfl⟩ := Option.map_eq_some_iff.mp hi
  exact List.mem_of_getElem? hm

/-- The messages stay legible, as what is sent is. -/
theorem Legible.step {op : Op} (h : Legible parse s) (hop : Carries parse op)
    (hstep : s.step op = .ok ((), s')) : Legible parse s' := by
  cases op with
  | newChatMessage senderId receiverId message now =>
    obtain ⟨-, rfl⟩ := Prod.mk.inj (Except.ok.inj hstep)
    refine ⟨?_, ?_, h.stored⟩
    · show s.index ++ _ = indexOf (s.cache ++ [_])
      rw [indexOf_concat, h.index]
    · intro m hm
      rcases List.mem_append.mp hm with hm | hm
      · exact h.cached m hm
      · obtain rfl := List.mem_singleton.mp hm
        exact hop
  | writeDatabase fails =>
    obtain ⟨-, rfl⟩ := Prod.mk.inj (Except.ok.inj hstep)
    refine ⟨rfl, fun m hm => absurd hm List.not_mem_nil, fun r hr => ?_⟩
    rw [writeDatabase_chat hop] at hr
    rcases List.mem_append.mp hr with hr | hr
    · exact h.stored r hr
    · exact h.cached _ (mem_cache_of_pending hr)

/-- **Run lemma.** -/
theorem WhisperReachable.legible (h : WhisperReachable parse s) : Legible parse s :=
  h.invariant ⟨rfl, fun _ hm => absurd hm List.not_mem_nil, fun _ hr => absurd hr List.not_mem_nil⟩
    fun _ _ _ _ hs hop hstep => hs.step hop hstep

end Reachable

/-! ## The members of the result -/

/-- The item of a message that can be shown. -/
def itemOf (parse : String → Json) (m : ChatMessage) : Json :=
  match messageItem parse m with
  | .ok item => item
  | .error _ => .null

/-- The member for some items, if there are any. -/
def listing (items : List Json) : Option Json := if items = [] then none else some (.arr items)

/-- The members are those for the messages `l`. -/
structure Collects (parse : String → Json) (u : Int) (l : List ChatMessage)
    (members : List (String × Json)) : Prop where
  friends : ∀ f : Int, members.lookup (toString f) =
    listing ((l.filter fun m => friendOf u m = f).map (itemOf parse))
  others : ∀ key, (∀ f : Int, key ≠ toString f) → members.lookup key = none

section Members

variable {parse : String → Json} {u f : Int} {l messages : List ChatMessage} {m : ChatMessage}
  {members : List (String × Json)}

theorem messageItem_eq (h : (parse m.message).TakesMembers) :
    messageItem parse m = .ok (itemOf parse m) := by
  obtain ⟨item, hitem⟩ := completes_messageItem_iff.mpr h
  rw [itemOf, hitem]

theorem toString_inj {f f' : Int} : (toString f : String) = toString f' ↔ f = f' := Int.repr_inj

/-- The item goes to the end of the friend's list. -/
theorem appendMessage_eq (hm : (parse m.message).TakesMembers) {items : List Json}
    (hitems : members.lookup (toString (friendOf u m)) = listing items) :
    appendMessage parse u (.obj members) m = .ok (.obj (Json.upsert members
      (toString (friendOf u m)) (.arr (items ++ [itemOf parse m])))) := by
  have hget : (Json.obj members).get (toString (friendOf u m)) =
      .ok ((listing items).getD .null) := by
    rw [Json.get_obj, hitems]
  have happend : ((listing items).getD .null).append (itemOf parse m) =
      .ok (.arr (items ++ [itemOf parse m])) := by
    unfold listing
    split
    · rename_i hnil
      rw [hnil]
      rfl
    · rfl
  unfold appendMessage
  rw [messageItem_eq hm]
  show (do
    let items ← (Json.obj members).get (toString (friendOf u m))
    (Json.obj members).set (toString (friendOf u m)) (← items.append (itemOf parse m))) = _
  rw [hget]
  show (do
    (Json.obj members).set (toString (friendOf u m))
      (← ((listing items).getD .null).append (itemOf parse m))) = _
  rw [happend]
  rfl

/-- A message is appended for its friend, and the other lists stay. -/
theorem Collects.append (h : Collects parse u l members) (hm : (parse m.message).TakesMembers) :
    ∃ members', appendMessage parse u (.obj members) m = .ok (.obj members') ∧
      Collects parse u (l ++ [m]) members' := by
  refine ⟨_, appendMessage_eq hm (h.friends _), fun f => ?_, fun key hkey => ?_⟩
  · rw [List.filter_append]
    by_cases hf : friendOf u m = f
    · obtain rfl := hf
      have hone : ([m].filter fun x => friendOf u x = friendOf u m) = [m] := by simp
      rw [hone, Json.lookup_upsert, List.map_append]
      exact (if_neg (List.append_ne_nil_of_right_ne_nil _ (List.cons_ne_nil _ _))).symm
    · have hnone : ([m].filter fun x => friendOf u x = f) = [] := by simp [hf]
      rw [hnone, Json.lookup_upsert_of_ne _ _ fun he => hf (toString_inj.mp he).symm, h.friends,
        List.append_nil]
  · rw [Json.lookup_upsert_of_ne _ _ (hkey _), h.others key hkey]

/-- **What has been appended.** -/
theorem exists_fold (hl : ∀ m ∈ l, (parse m.message).TakesMembers) :
    ∃ members, l.foldlM (appendMessage parse u) (.obj []) = .ok (.obj members) ∧
      Collects parse u l members := by
  induction l using List.reverseRecOn with
  | nil => exact ⟨[], rfl, fun _ => rfl, fun _ _ => rfl⟩
  | append_singleton l m ih =>
    rw [List.forall_mem_append, List.forall_mem_singleton] at hl
    obtain ⟨members, hfold, hcollects⟩ := ih hl.1
    obtain ⟨members', happend, hcollects'⟩ := hcollects.append hl.2
    refine ⟨members', ?_, hcollects'⟩
    rw [List.foldlM_append, hfold]
    show ([m].foldlM (appendMessage parse u) (.obj members)) = _
    rw [List.foldlM_cons, happend]
    rfl

/-- The listed messages are those that have been appended for the friend. -/
theorem Collects.lists (h : Collects parse u l members)
    (hl : ∀ m ∈ l, (parse m.message).TakesMembers)
    (hperm : (l.filter fun m => friendOf u m = f).Perm messages) :
    Lists parse (.obj members) (toString f) messages := by
  have hfind : (Json.obj members).find (toString f) = .ok (members.lookup (toString f)) := rfl
  unfold Lists
  rw [hfind, h.friends, listing]
  split
  · rename_i hnil
    obtain rfl := hnil
    rw [hperm.eq_nil]
    rfl
  · rename_i hne
    have hne' : (l.filter fun m => friendOf u m = f).map (itemOf parse) ≠ [] := fun hnil =>
      hne (List.nil_perm.mp (List.map_eq_nil_iff.mp hnil ▸ hperm))
    rw [if_neg hne']
    exact ⟨_, _, hperm, mapM_eq_ok fun m hm => messageItem_eq (hl m (List.mem_filter.mp hm).1), rfl⟩

/-- There are as many listed messages as have been appended for the friend. -/
theorem Collects.length_eq (h : Collects parse u l members)
    (hlists : Lists parse (.obj members) (toString f) messages) :
    messages.length = (l.filter fun m => friendOf u m = f).length := by
  have hfind : (Json.obj members).find (toString f) = .ok (members.lookup (toString f)) := rfl
  unfold Lists at hlists
  rw [hfind, h.friends, listing] at hlists
  split at hlists
  · rename_i hnil
    split at hlists
    · rename_i hnone
      rw [hnil, List.map_eq_nil_iff.mp hnone]
    · cases hlists
  · obtain ⟨l', items, hperm, hitems, harr⟩ := hlists
    have hall : ∀ m ∈ l', messageItem parse m = .ok (itemOf parse m) := fun m hm =>
      messageItem_eq (completes_messageItem_iff.mp (completes_mapM_iff.mp ⟨items, hitems⟩ m hm))
    split at harr
    · cases harr
    · cases harr
      have hlen := congrArg List.length (Except.ok.inj ((mapM_eq_ok hall).symm.trans hitems))
      rw [List.length_map, List.length_map] at hlen
      rw [← hperm.length_eq, hlen]

end Members

/-! ## What is appended for a friend -/

/-- A message as often as it is in the index of the user. -/
def copies (u : Int) (m : ChatMessage) : List ChatMessage :=
  (if m.senderId = u then [m] else []) ++ if m.receiverId = u then [m] else []

section Sections

variable {order : Nat → Nat} {tie : ChatRow → Nat} {s : ChatHistory} {chat : List ChatRow}
  {cache : List ChatMessage} {u f t : Int}

/-- The messages at the positions that the index has for the user. -/
theorem filterMap_indexOf (u : Int) (cache : List ChatMessage) :
    (((indexOf cache).filter fun e => e.1 = u).map Prod.snd).filterMap (fun i => cache[i]?) =
      cache.flatMap (copies u) := by
  induction cache using List.reverseRecOn with
  | nil => rfl
  | append_singleton cache m ih =>
    have hold : (((indexOf cache).filter fun e => e.1 = u).map Prod.snd).filterMap
        (fun i => (cache ++ [m])[i]?) =
        (((indexOf cache).filter fun e => e.1 = u).map Prod.snd).filterMap fun i => cache[i]? := by
      refine List.filterMap_congr fun i hi => ?_
      obtain ⟨e, he, rfl⟩ := List.mem_map.mp hi
      obtain ⟨m', hm', -⟩ := mem_indexOf.mp (List.mem_filter.mp he).1
      exact List.getElem?_append_left (List.getElem?_eq_some_iff.mp hm').1
    have hnew : (([(m.senderId, cache.length), (m.receiverId, cache.length)].filter
        fun e => e.1 = u).map Prod.snd).filterMap (fun i => (cache ++ [m])[i]?) = copies u m := by
      have hlast : (cache ++ [m])[cache.length]? = some m := List.getElem?_concat_length
      unfold copies
      by_cases hs : m.senderId = u <;> by_cases hr : m.receiverId = u <;> simp [hs, hr]
    rw [indexOf_concat, List.filter_append, List.map_append, List.filterMap_append, hold, ih, hnew,
      List.flatMap_append, List.flatMap_singleton]

/-- What the first section appends. -/
theorem cachedRows_perm (h : s.index = indexOf s.cache) (ht : ∀ m ∈ s.cache, m.timestamp < t) :
    ((cachedRows order s u t).map ChatRow.toChatMessage).Perm (s.cache.flatMap (copies u)) := by
  have hrow (i : Nat) : (s.rowAt i).map ChatRow.toChatMessage = s.cache[i]? := by
    rw [rowAt, Option.map_map]
    exact Option.map_id'
  have hall : ∀ r ∈ ((hashOrder order Prod.snd (s.index.filter fun e => e.1 = u)).map
      Prod.snd).filterMap s.rowAt, decide (r.timestamp < t) = true := by
    intro r hr
    obtain ⟨i, -, hi⟩ := List.mem_filterMap.mp hr
    exact decide_eq_true (ht _ (mem_cache_of_pending (mem_pending_iff.mpr ⟨i, hi⟩)))
  rw [cachedRows, List.filter_eq_self.mpr hall, List.map_filterMap, ← filterMap_indexOf, ← h]
  simp only [hrow]
  exact ((hashOrder_perm ..).map _).filterMap _

/-- A message is listed once under its other party, and twice when it is to oneself. -/
theorem filter_copies (m : ChatMessage) : ((copies u m).filter fun x => friendOf u x = f) =
    if IsBetween u f m then (if ToSelf u m then [m, m] else [m]) else [] := by
  unfold copies IsBetween ToSelf friendOf
  by_cases hs : m.senderId = u
  · by_cases hr : m.receiverId = u
    · by_cases hf : u = f <;> simp [hs, hr, hf]
    · by_cases hf : m.receiverId = f
      · obtain rfl := hf
        simp [hs, hr]
      · simp [hs, hr, hf]
  · by_cases hr : m.receiverId = u
    · by_cases hf : m.senderId = f
      · obtain rfl := hf
        simp [hs, hr]
      · simp [hs, hr, hf]
    · simp [hs, hr]

/-- Without a message to oneself, the first section appends what it should. -/
theorem filter_cachedMessages (h : ∀ m ∈ cache, ¬ ToSelf u m) :
    ((cache.flatMap (copies u)).filter fun m => friendOf u m = f) =
      cache.filter fun m => IsBetween u f m := by
  induction cache with
  | nil => rfl
  | cons m rest ih =>
    obtain ⟨hm, hrest⟩ := List.forall_mem_cons.mp h
    rw [List.flatMap_cons, List.filter_append, filter_copies, if_neg hm, ih hrest,
      List.filter_cons]
    by_cases hbetween : IsBetween u f m
    · rw [if_pos hbetween, if_pos (decide_eq_true hbetween)]
      rfl
    · rw [if_neg hbetween, if_neg fun he => hbetween (of_decide_eq_true he)]
      rfl

/-- A message to oneself is appended twice. -/
theorem length_cachedMessages (u : Int) (cache : List ChatMessage) :
    ((cache.flatMap (copies u)).filter fun m => friendOf u m = u).length =
      2 * (cache.filter fun m => IsBetween u u m).length := by
  induction cache with
  | nil => rfl
  | cons m rest ih =>
    rw [List.flatMap_cons, List.filter_append, filter_copies, List.length_append, ih,
      List.filter_cons]
    by_cases hself : IsBetween u u m
    · have hself' : ToSelf u m := hself.elim id fun h => ⟨h.2, h.1⟩
      rw [if_pos hself, if_pos hself', if_pos (decide_eq_true hself)]
      simp only [List.length_cons, List.length_nil]
      omega
    · rw [if_neg hself, if_neg fun he => hself (of_decide_eq_true he)]
      exact Nat.zero_add _

/-- A message between two users is listed under the other one. -/
theorem friendOf_eq_of_isBetween {m : ChatMessage} (h : IsBetween u f m) : friendOf u m = f := by
  unfold friendOf
  rcases h with ⟨hs, hr⟩ | ⟨hr, hs⟩
  · rw [if_pos hs, hr]
  · split
    · rename_i hu
      rw [hr, ← hu, hs]
    · exact hs

/-- The second section appends the newest messages of the table. -/
theorem filter_storedRows : ((storedRows tie chat u t).filter
    fun r => friendOf u r.toChatMessage = f) = (selectChat tie chat u f t).take 20 := by
  have hfriend (f' : Int) : ∀ r ∈ (selectChat tie chat u f' t).take 20,
      friendOf u r.toChatMessage = f' := by
    intro r hr
    obtain ⟨-, hor, -⟩ := mem_between.mp (mem_selectChat.mp (List.mem_of_mem_take hr))
    exact friendOf_eq_of_isBetween hor
  have hnodup : (friendIds chat u).Nodup := (sortBy_perm _ _).nodup_iff.mpr (List.nodup_dedup _)
  rw [storedRows, filter_flatMap_of_key hfriend f hnodup]
  split
  · rfl
  · rename_i hnot
    -- without messages the friend is not asked for
    have hnil : selectChat tie chat u f t = [] := List.eq_nil_iff_forall_not_mem.mpr fun r hr =>
      hnot (mem_friendIds (mem_selectChat.mp hr))
    rw [hnil, List.take_nil]

/-- The first 20 rows of a `SELECT` are the newest. -/
theorem newest_take (tie : ChatRow → Nat) (u f : Int) (ht : ∀ r ∈ chat, r.timestamp < t) :
    Newest 20 (conversation chat u f) ((selectChat tie chat u f t).take 20) := by
  have hperm : (selectChat tie chat u f t).Perm (conversation chat u f) :=
    selectChat_perm fun r hr => ht r (List.mem_filter.mp hr).1
  refine ⟨(selectChat tie chat u f t).drop 20, ?_, ?_, ?_⟩
  · rwa [List.take_append_drop]
  · rw [List.length_take, hperm.length_eq]
  · have hsorted : (selectChat tie chat u f t).Pairwise fun a b => b.timestamp ≤ a.timestamp :=
      selectChat_pairwise
    rw [← List.take_append_drop 20 (selectChat tie chat u f t), List.pairwise_append] at hsorted
    exact hsorted.2.2

end Sections

/-! ## The read -/

/-- The messages that a read appends. -/
def appended (order : Nat → Nat) (tie : ChatRow → Nat) (s : ChatHistory) (u t : Int) :
    List ChatMessage :=
  (shown order tie s s u t).map ChatRow.toChatMessage

section Faithful

variable {parse : String → Json} {order : Nat → Nat} {tie : ChatRow → Nat} {s : ChatHistory}
  {u f t : Int}

/-- The copies of a message are the message. -/
theorem mem_of_copies {m m' : ChatMessage} (h : m' ∈ copies u m) : m' = m := by
  unfold copies at h
  rcases List.mem_append.mp h with h | h
  · split at h
    · exact List.mem_singleton.mp h
    · cases h
  · split at h
    · exact List.mem_singleton.mp h
    · cases h

/-- Each listed message can take the members that the list adds. -/
theorem Legible.takesMembers (h : Legible parse s) (order : Nat → Nat) (tie : ChatRow → Nat)
    (u : Int) (ht : ∀ m ∈ s.cache, m.timestamp < t) :
    ∀ m ∈ appended order tie s u t, (parse m.message).TakesMembers := by
  intro m hm
  rw [appended, shown, List.map_append] at hm
  rcases List.mem_append.mp hm with hm | hm
  · obtain ⟨m', hm', hcopy⟩ :=
      List.mem_flatMap.mp ((cachedRows_perm h.index ht).mem_iff.mp hm)
    obtain rfl := mem_of_copies hcopy
    exact h.cached _ hm'
  · obtain ⟨r, hr, rfl⟩ := List.mem_map.mp hm
    obtain ⟨f, hr⟩ := mem_storedRows.mp hr
    exact h.stored r (mem_between.mp (mem_selectChat.mp (List.mem_of_mem_take hr))).1

/-- What is appended for a friend, from both sections. -/
theorem filter_appended_perm (h : s.index = indexOf s.cache) (ht : ∀ m ∈ s.cache, m.timestamp < t) :
    ((appended order tie s u t).filter fun m => friendOf u m = f).Perm
      (((s.cache.flatMap (copies u)).filter fun m => friendOf u m = f) ++
        ((selectChat tie s.chat u f t).take 20).map ChatRow.toChatMessage) := by
  rw [appended, shown, List.map_append, List.filter_append, ← filter_storedRows,
    List.filter_map (l := storedRows tie s.chat u t)]
  exact ((cachedRows_perm h ht).filter _).append_right _

/-- **The result of a read.** -/
theorem exists_read (h : Legible parse s) (order : Nat → Nat) (tie : ChatRow → Nat) (u : Int)
    (ht : ∀ m ∈ s.cache, m.timestamp < t) :
    ∃ members, getChatMessage parse order tie s s u t = .ok (.obj members) ∧
      Collects parse u (appended order tie s u t) members := by
  obtain ⟨members, hfold, hcollects⟩ :=
    exists_fold (u := u) (h.takesMembers order tie u ht)
  refine ⟨members, ?_, hcollects⟩
  rw [getChatMessage_eq h.index, ← hfold, appended, List.foldlM_map]

/-- A faithful read means that no message to oneself is in the cache. -/
theorem Faithful.not_toSelf (hf : Faithful parse order tie s u t) (h : Legible parse s)
    (ht : ∀ m ∈ s.cache, m.timestamp < t) (ht' : ∀ r ∈ s.chat, r.timestamp < t) :
    ∀ m ∈ s.cache, ¬ ToSelf u m := by
  obtain ⟨members, hread, hcollects⟩ := exists_read h order tie u ht
  obtain ⟨res, hres, hlists, -⟩ := hf.result
  obtain rfl := Except.ok.inj (hread.symm.trans hres)
  obtain ⟨newest, ⟨-, -, hlen, -⟩, hself⟩ := hlists u
  obtain ⟨-, -, hlen', -⟩ := newest_take tie u u ht'
  -- the messages to oneself have been appended twice
  have hcount := hcollects.length_eq hself
  rw [(filter_appended_perm h.index ht).length_eq, List.length_append, List.length_append,
    List.length_map, List.length_map, length_cachedMessages, hlen, hlen'] at hcount
  have hnil : s.cache.filter (fun m => IsBetween u u m) = [] :=
    List.length_eq_zero_iff.mp (by omega)
  intro m hm hto
  have hmem : m ∈ s.cache.filter fun m => IsBetween u u m :=
    List.mem_filter.mpr ⟨hm, decide_eq_true (.inl hto)⟩
  rw [hnil] at hmem
  exact List.not_mem_nil hmem

/-- **A read is faithful** if and only if no message of the user to themselves is in the cache. -/
theorem faithful_iff (hs : WhisperReachable parse s) (ht : ∀ m ∈ s.cache, m.timestamp < t)
    (ht' : ∀ r ∈ s.chat, r.timestamp < t) :
    Faithful parse order tie s u t ↔ ∀ m ∈ s.cache, ¬ ToSelf u m := by
  have h := hs.legible
  refine ⟨fun hf => hf.not_toSelf h ht ht', fun hself => ⟨fun e he _ => ?_, ?_⟩⟩
  · rw [h.index] at he
    obtain ⟨m, hm, -⟩ := mem_indexOf.mp he
    exact (List.getElem?_eq_some_iff.mp hm).1
  · obtain ⟨members, hread, hcollects⟩ := exists_read h order tie u ht
    refine ⟨.obj members, hread, fun f => ⟨_, newest_take tie u f ht', ?_⟩, fun key hkey => ?_⟩
    · refine hcollects.lists (h.takesMembers order tie u ht) ?_
      rw [← filter_cachedMessages hself]
      exact filter_appended_perm h.index ht
    · exact congrArg Except.ok (hcollects.others key hkey)

/-- User 1 writes to user 2, and then to themselves. -/
def ownNote : ChatHistory :=
  (new.newChatMessage 1 2 "\x7b\x7d" 1700000000).newChatMessage 1 1 "\x7b\x7d" 1700000000

theorem reachable_ownNote : WhisperReachable (fun _ => .obj []) ownNote :=
  (Reachable.refl.tail (a := .newChatMessage 1 2 "\x7b\x7d" 1700000000) trivial rfl).tail
    (a := .newChatMessage 1 1 "\x7b\x7d" 1700000000) trivial rfl

/-- User 2 is not affected. -/
theorem faithful_iff_ownNote :
    Faithful (fun _ => .obj []) id ChatRow.id ownNote 2 1700000001 ↔
      ∀ m ∈ ownNote.cache, ¬ ToSelf 2 m :=
  faithful_iff reachable_ownNote (by decide) (by decide)

/-- User 1 finds the second message twice. -/
theorem lists_message_twice : ¬ ∀ (parse : String → Json) (order : Nat → Nat) (tie : ChatRow → Nat)
    (s : ChatHistory) (u t : Int), WhisperReachable parse s → (∀ m ∈ s.cache, m.timestamp < t) →
      (∀ r ∈ s.chat, r.timestamp < t) → Faithful parse order tie s u t := by
  intro h
  have hfaithful := h _ id ChatRow.id ownNote 1 1700000001 reachable_ownNote (by decide) (by decide)
  exact hfaithful.not_toSelf reachable_ownNote.legible (by decide) (by decide)
    ⟨1, 1, "\x7b\x7d", 1700000000⟩ (by decide) ⟨rfl, rfl⟩

end Faithful

end ChatHistory

end UnoppServer
