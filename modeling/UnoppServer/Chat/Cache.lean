import Mathlib.Data.List.Dedup
import UnoppServer.Chat.History
import UnoppServer.Lib.Runs

/-!
# Chat history: the cache and the table

`pending s` are the rows that the cache becomes with the next round of `write_database`
(`writeDatabase_chat`). They give a message in the cache the identity that it has in the
table from then on.

`shown` are the messages of a read, and `getChatMessage_eq` says that the read appends them
one after the other.
-/

namespace UnoppServer

open FindIf Paging Runs

namespace ChatHistory

/-- The entries of `index` for the messages of the cache. -/
def indexOf (cache : List ChatMessage) : List (Int × Nat) :=
  cache.zipIdx.flatMap fun p => [(p.1.senderId, p.2), (p.1.receiverId, p.2)]

/-- The row that the message at a position of the cache becomes. -/
def rowAt (s : ChatHistory) (i : Nat) : Option ChatRow :=
  s.cache[i]?.map fun m => ⟨m, s.chat.length + (s.cache.length - i)⟩

/-- The rows that the cache becomes, in the order of their insertion. -/
def pending (s : ChatHistory) : List ChatRow :=
  (s.cache.reverse.zipIdx (s.chat.length + 1)).map fun p => ⟨p.1, p.2⟩

/-- What every reached history has: the rows are numbered, the index is that of the cache,
and nobody writes to oneself. -/
structure Inv (s : ChatHistory) : Prop where
  ids : s.chat.map ChatRow.id = List.range' 1 s.chat.length
  index : s.index = indexOf s.cache
  rows : ∀ r ∈ s.chat, r.senderId ≠ r.receiverId
  cached : ∀ m ∈ s.cache, m.senderId ≠ m.receiverId

/-- The rows of the table are numbered, and nobody writes to oneself. -/
def SoundTable (chat : List ChatRow) : Prop :=
  chat.map ChatRow.id = List.range' 1 chat.length ∧ ∀ r ∈ chat, r.senderId ≠ r.receiverId

/-- A message between different users, or a round of `write_database`. -/
def Admits : Op → Prop
  | .newChatMessage senderId receiverId _ _ => senderId ≠ receiverId
  | .writeDatabase _ => True

/-- The history can be reached by messages between different users. -/
abbrev ChatReachable (s : ChatHistory) : Prop :=
  Reachable step (fun _ op => Admits op) new s

section Pending

variable {s : ChatHistory} {i : Nat} {r : ChatRow}

/-- When every row is inserted, the rows get consecutive ids. -/
theorem foldl_insertChat {fails : Nat → Bool} (hfails : ∀ i, fails i = false)
    (l : List ChatMessage) (n : Nat) (chat : List ChatRow) :
    (l.zipIdx n).foldl (fun chat p => if fails p.2 then chat else insertChat chat p.1) chat =
      chat ++ (l.zipIdx (chat.length + 1)).map fun p => ⟨p.1, p.2⟩ := by
  induction l generalizing n chat with
  | nil => rw [List.zipIdx_nil, List.zipIdx_nil, List.map_nil, List.append_nil]; rfl
  | cons m l ih =>
    rw [List.zipIdx_cons, List.foldl_cons, hfails, if_neg Bool.false_ne_true, ih, insertChat,
      List.length_append, List.length_singleton, List.append_assoc, List.zipIdx_cons,
      List.map_cons, List.singleton_append]

/-- **A round of `write_database`** appends the pending rows. -/
theorem writeDatabase_chat {fails : Nat → Bool} (hfails : ∀ i, fails i = false) :
    (s.writeDatabase fails).chat = s.chat ++ s.pending :=
  foldl_insertChat hfails s.cache.reverse 0 s.chat

/-- A pending row is that of a message at some place of the cache. -/
theorem mem_pending_iff : r ∈ s.pending ↔ ∃ i, s.rowAt i = some r := by
  unfold pending rowAt
  rw [List.mem_map]
  constructor
  · rintro ⟨⟨m, n⟩, hmem, rfl⟩
    obtain ⟨hle, hget⟩ := List.mem_zipIdx_iff_le_and_getElem?_sub.mp hmem
    have hlt := (List.getElem?_eq_some_iff.mp hget).1
    rw [List.length_reverse] at hlt
    rw [List.getElem?_reverse hlt] at hget
    refine ⟨_, Option.map_eq_some_iff.mpr ⟨m, hget, ?_⟩⟩
    dsimp only at hle
    rw [ChatRow.mk.injEq]
    exact ⟨rfl, by omega⟩
  · rintro ⟨i, hi⟩
    obtain ⟨m, hget, rfl⟩ := Option.map_eq_some_iff.mp hi
    have hlt : i < s.cache.length := (List.getElem?_eq_some_iff.mp hget).1
    refine ⟨(m, s.chat.length + (s.cache.length - i)), ?_, rfl⟩
    refine List.mem_zipIdx_iff_le_and_getElem?_sub.mpr ⟨by omega, ?_⟩
    have hpos : s.chat.length + (s.cache.length - i) - (s.chat.length + 1) =
        s.cache.length - 1 - i := by omega
    dsimp only
    rw [hpos, List.getElem?_reverse (by omega), ← hget]
    congr 1
    omega

/-- Different positions become different rows. -/
theorem rowAt_inj {j : Nat} {r' : ChatRow} (hi : s.rowAt i = some r) (hj : s.rowAt j = some r')
    (hid : r.id = r'.id) : i = j := by
  obtain ⟨m, hm, rfl⟩ := Option.map_eq_some_iff.mp hi
  obtain ⟨m', hm', rfl⟩ := Option.map_eq_some_iff.mp hj
  have hlt := (List.getElem?_eq_some_iff.mp hm).1
  have hlt' := (List.getElem?_eq_some_iff.mp hm').1
  dsimp only at hid
  omega

theorem indexOf_concat (cache : List ChatMessage) (m : ChatMessage) :
    indexOf (cache ++ [m]) =
      indexOf cache ++ [(m.senderId, cache.length), (m.receiverId, cache.length)] := by
  rw [indexOf, List.zipIdx_append, List.flatMap_append, Nat.zero_add]
  rfl

theorem inv_new : Inv new :=
  ⟨rfl, rfl, fun _ h => absurd h List.not_mem_nil, fun _ h => absurd h List.not_mem_nil⟩

/-- The rows after the next round are numbered. -/
theorem Inv.ids_pending (h : Inv s) : (s.chat ++ s.pending).map ChatRow.id =
    List.range' 1 (s.chat ++ s.pending).length := by
  have hids : s.pending.map ChatRow.id = List.range' (s.chat.length + 1) s.cache.length := by
    rw [pending, List.map_map]
    show (s.cache.reverse.zipIdx (s.chat.length + 1)).map Prod.snd = _
    rw [List.zipIdx_map_snd, List.length_reverse]
  have hlen : s.pending.length = s.cache.length := by
    rw [pending, List.length_map, List.length_zipIdx, List.length_reverse]
  rw [List.map_append, h.ids, hids, List.length_append, hlen, Nat.add_comm s.chat.length 1,
    List.range'_append_1]

/-- A row with two parties keeps the table sound. -/
theorem SoundTable.insertChat {chat : List ChatRow} {m : ChatMessage} (h : SoundTable chat)
    (hm : m.senderId ≠ m.receiverId) : SoundTable (ChatHistory.insertChat chat m) := by
  refine ⟨?_, fun r hr => ?_⟩
  · rw [ChatHistory.insertChat, List.map_append, h.1, List.length_append, List.length_singleton,
      List.range'_concat, Nat.one_mul, Nat.add_comm 1]
    rfl
  · rcases List.mem_append.mp hr with hr | hr
    · exact h.2 r hr
    · obtain rfl := List.mem_singleton.mp hr
      exact hm

/-- A round keeps the rows numbered, whichever insertions fail. -/
theorem Inv.writeDatabase (h : Inv s) (fails : Nat → Bool) : Inv (s.writeDatabase fails) := by
  have htable : SoundTable (s.writeDatabase fails).chat := by
    refine List.foldlRecOn _ _ (⟨h.ids, h.rows⟩ : SoundTable s.chat) fun chat hchat p hp => ?_
    split
    · exact hchat
    · have hm : p.1 ∈ s.cache.reverse := List.mem_of_getElem? (List.mem_zipIdx_iff_getElem?.mp hp)
      exact hchat.insertChat (h.cached p.1 (List.mem_reverse.mp hm))
  exact ⟨htable.1, rfl, htable.2, fun m hm => absurd hm List.not_mem_nil⟩

/-- Each operation keeps the cache and its index in step. -/
theorem Inv.step {op : Op} {s' : ChatHistory} (h : Inv s) (hop : Admits op)
    (hstep : s.step op = .ok ((), s')) : Inv s' := by
  cases op with
  | newChatMessage senderId receiverId message now =>
    obtain ⟨-, rfl⟩ := Prod.mk.inj (Except.ok.inj hstep)
    refine ⟨h.ids, ?_, h.rows, ?_⟩
    · show s.index ++ _ = indexOf (s.cache ++ [_])
      rw [indexOf_concat, h.index]
    · intro m hm
      rcases List.mem_append.mp hm with hm | hm
      · exact h.cached m hm
      · obtain rfl := List.mem_singleton.mp hm
        exact hop
  | writeDatabase fails =>
    obtain ⟨-, rfl⟩ := Prod.mk.inj (Except.ok.inj hstep)
    exact h.writeDatabase fails

/-- **Run lemma.** -/
theorem ChatReachable.inv (h : ChatReachable s) : Inv s :=
  h.invariant inv_new fun _ _ _ _ hs hop hstep => hs.step hop hstep

end Pending

/-! ## What a read shows -/

/-- The messages that the cache section appends, as rows. -/
def cachedRows (order : Nat → Nat) (s : ChatHistory) (userId latestTimestamp : Int) :
    List ChatRow :=
  (((hashOrder order Prod.snd (s.index.filter fun e => e.1 = userId)).map Prod.snd).filterMap
    s.rowAt).filter fun r => r.timestamp < latestTimestamp

/-- The messages that the database section appends. -/
def storedRows (tie : ChatRow → Nat) (chat : List ChatRow) (userId latestTimestamp : Int) :
    List ChatRow :=
  (friendIds chat userId).flatMap fun f => (selectChat tie chat userId f latestTimestamp).take 20

/-- The messages of a read that finds the cache of `s` and the table of `s'`. -/
def shown (order : Nat → Nat) (tie : ChatRow → Nat) (s s' : ChatHistory)
    (userId latestTimestamp : Int) : List ChatRow :=
  cachedRows order s userId latestTimestamp ++ storedRows tie s'.chat userId latestTimestamp

/-- The user has sent or received the message. -/
def Party (userId : Int) (r : ChatRow) : Prop := r.senderId = userId ∨ r.receiverId = userId

section Shown

variable {parse : String → Json} {order : Nat → Nat} {tie : ChatRow → Nat} {s s' : ChatHistory}
  {chat : List ChatRow} {u f t : Int} {r : ChatRow}

/-- A user's entries in the index are the places of the messages the user is a party of. -/
theorem mem_indexOf {cache : List ChatMessage} {i : Nat} : (u, i) ∈ indexOf cache ↔
    ∃ m, cache[i]? = some m ∧ (m.senderId = u ∨ m.receiverId = u) := by
  unfold indexOf
  rw [List.mem_flatMap]
  constructor
  · rintro ⟨⟨m, j⟩, hmem, he⟩
    rw [List.mem_zipIdx_iff_getElem?] at hmem
    rcases List.mem_cons.mp he with he | he
    · obtain ⟨rfl, rfl⟩ := Prod.mk.inj he
      exact ⟨m, hmem, .inl rfl⟩
    · obtain ⟨rfl, rfl⟩ := Prod.mk.inj (List.mem_singleton.mp he)
      exact ⟨m, hmem, .inr rfl⟩
  · rintro ⟨m, hm, rfl | rfl⟩
    · exact ⟨(m, i), List.mem_zipIdx_iff_getElem?.mpr hm, List.mem_cons_self⟩
    · exact ⟨(m, i), List.mem_zipIdx_iff_getElem?.mpr hm, List.mem_cons_of_mem _ List.mem_cons_self⟩

/-- The index has no entry twice, as nobody writes to oneself. -/
theorem nodup_indexOf {cache : List ChatMessage} (h : ∀ m ∈ cache, m.senderId ≠ m.receiverId) :
    (indexOf cache).Nodup := by
  refine List.nodup_flatMap.mpr ⟨fun p hp => ?_, ?_⟩
  · have hne := h p.1 (List.mem_of_getElem? (List.mem_zipIdx_iff_getElem?.mp hp))
    rw [List.nodup_cons, List.mem_singleton]
    exact ⟨fun he => hne (Prod.mk.inj he).1, List.nodup_singleton _⟩
  · -- the positions differ
    have hpos : (cache.zipIdx.map Prod.snd).Nodup := by
      rw [List.zipIdx_map_snd]
      exact List.nodup_range'
    refine (List.pairwise_map.mp hpos).imp fun {p q} hne e he he' => hne ?_
    have hsnd {p : ChatMessage × Nat}
        (he : e ∈ [(p.1.senderId, p.2), (p.1.receiverId, p.2)]) : e.2 = p.2 := by
      rcases List.mem_cons.mp he with rfl | he
      · rfl
      · rw [List.mem_singleton.mp he]
    exact (hsnd he).symm.trans (hsnd he')

/-- The first section reads the pending rows of a user before the time that is asked for. -/
theorem mem_cachedRows (h : Inv s) : r ∈ cachedRows order s u t ↔
    r ∈ s.pending ∧ Party u r ∧ r.timestamp < t := by
  rw [cachedRows, List.mem_filter, decide_eq_true_iff, List.mem_filterMap, mem_pending_iff,
    ← and_assoc]
  refine and_congr_left fun _ => ?_
  have hentry {i : Nat} (hi : s.rowAt i = some r) :
      i ∈ (hashOrder order Prod.snd (s.index.filter fun e => e.1 = u)).map Prod.snd ↔
        Party u r := by
    obtain ⟨m, hm, rfl⟩ := Option.map_eq_some_iff.mp hi
    have hparty : (u, i) ∈ s.index ↔ m.senderId = u ∨ m.receiverId = u := by
      rw [h.index, mem_indexOf, hm]
      exact ⟨fun ⟨_, he, hor⟩ => Option.some.inj he ▸ hor, fun hor => ⟨m, rfl, hor⟩⟩
    rw [List.mem_map]
    constructor
    · rintro ⟨⟨v, j⟩, he, rfl⟩
      obtain ⟨hmem, hv⟩ := List.mem_filter.mp ((hashOrder_perm ..).mem_iff.mp he)
      obtain rfl : v = u := of_decide_eq_true hv
      exact hparty.mp hmem
    · intro hor
      refine ⟨(u, i), (hashOrder_perm ..).mem_iff.mpr ?_, rfl⟩
      exact List.mem_filter.mpr ⟨hparty.mpr hor, decide_eq_true rfl⟩
  constructor
  · rintro ⟨i, hmem, hi⟩
    exact ⟨⟨i, hi⟩, (hentry hi).mp hmem⟩
  · rintro ⟨⟨i, hi⟩, hparty⟩
    exact ⟨i, (hentry hi).mpr hparty, hi⟩

/-- The first section reads no pending row twice. -/
theorem nodup_cachedRows (h : Inv s) : (cachedRows order s u t).Nodup := by
  have hindex : s.index.Nodup := h.index ▸ nodup_indexOf h.cached
  have hpos :
      ((hashOrder order Prod.snd (s.index.filter fun e => e.1 = u)).map Prod.snd).Nodup := by
    refine ((hashOrder_perm ..).nodup_iff.mpr (hindex.filter _)).map_on fun e he e' he' hsnd => ?_
    have hfst {e : Int × Nat}
        (he : e ∈ hashOrder order Prod.snd (s.index.filter fun e => e.1 = u)) : e.1 = u :=
      of_decide_eq_true (List.mem_filter.mp ((hashOrder_perm ..).mem_iff.mp he)).2
    exact Prod.ext ((hfst he).trans (hfst he').symm) hsnd
  exact (hpos.filterMap fun i j r hi hj => rowAt_inj hi hj rfl).filter _

theorem mem_between : r ∈ between chat u f t ↔ r ∈ chat ∧
    ((r.senderId = u ∧ r.receiverId = f) ∨ (r.receiverId = u ∧ r.senderId = f)) ∧
      r.timestamp < t := by
  rw [between, List.mem_filter, decide_eq_true_iff]

theorem mem_selectChat : r ∈ selectChat tie chat u f t ↔ r ∈ between chat u f t :=
  (sortBy_perm _ _).mem_iff

theorem mem_friendIds (h : r ∈ between chat u f t) : f ∈ friendIds chat u := by
  obtain ⟨hmem, hor, -⟩ := mem_between.mp h
  refine (sortBy_perm _ _).mem_iff.mpr (List.mem_dedup.mpr (List.mem_append.mpr ?_))
  refine hor.imp (fun ⟨hu, hf⟩ => ?_) fun ⟨hu, hf⟩ => ?_
  · exact List.mem_map.mpr ⟨r, List.mem_filter.mpr ⟨hmem, decide_eq_true hu⟩, hf⟩
  · exact List.mem_map.mpr ⟨r, List.mem_filter.mpr ⟨hmem, decide_eq_true hu⟩, hf⟩

theorem mem_storedRows : r ∈ storedRows tie chat u t ↔
    ∃ f, r ∈ (selectChat tie chat u f t).take 20 := by
  rw [storedRows, List.mem_flatMap]
  refine exists_congr fun f => and_iff_right_of_imp fun hr => ?_
  exact mem_friendIds (mem_selectChat.mp (List.mem_of_mem_take hr))

/-- The second section reads no stored row twice. -/
theorem nodup_storedRows (hids : (chat.map ChatRow.id).Nodup)
    (hrows : ∀ r ∈ chat, r.senderId ≠ r.receiverId) : (storedRows tie chat u t).Nodup := by
  refine List.nodup_flatMap.mpr ⟨fun f _ => ?_, ?_⟩
  · have hchat : chat.Nodup := hids.of_map _
    exact ((sortBy_perm _ _).nodup_iff.mpr (hchat.filter _)).sublist (List.take_sublist 20 _)
  · have hfriends : (friendIds chat u).Nodup :=
      (sortBy_perm _ _).nodup_iff.mpr (List.nodup_dedup _)
    refine hfriends.imp fun {f f'} hne r hr hr' => hne ?_
    -- a message has one other party
    obtain ⟨hmem, hor, -⟩ := mem_between.mp (mem_selectChat.mp (List.mem_of_mem_take hr))
    obtain ⟨-, hor', -⟩ := mem_between.mp (mem_selectChat.mp (List.mem_of_mem_take hr'))
    have hself := hrows r hmem
    rcases hor with ⟨hu, rfl⟩ | ⟨hu, rfl⟩
    · rcases hor' with ⟨-, rfl⟩ | ⟨hu', -⟩
      · rfl
      · exact absurd (hu.trans hu'.symm) hself
    · rcases hor' with ⟨hu', -⟩ | ⟨-, rfl⟩
      · exact absurd (hu'.trans hu.symm) hself
      · rfl

/-- The first section appends the messages of the cached rows, in their order. -/
theorem cacheSection_eq (h : s.index = indexOf s.cache) : cacheSection parse order s u t =
    (cachedRows order s u t).foldlM
      (fun res r => appendMessage parse u res r.toChatMessage) (.obj []) := by
  have hbounds : ∀ e ∈ hashOrder order Prod.snd (s.index.filter fun e => e.1 = u),
      ∃ m, s.cache[e.2]? = some m := by
    intro e he
    have hmem := (List.mem_filter.mp ((hashOrder_perm ..).mem_iff.mp he)).1
    rw [h] at hmem
    obtain ⟨m, hm, -⟩ := mem_indexOf.mp hmem
    exact ⟨m, hm⟩
  unfold cacheSection cachedRows
  generalize hashOrder order Prod.snd (s.index.filter fun e => e.1 = u) = entries at hbounds
  generalize Json.obj [] = res
  induction entries generalizing res with
  | nil => rfl
  | cons e entries ih =>
    obtain ⟨⟨m, hm⟩, hrest⟩ := List.forall_mem_cons.mp hbounds
    have hrow : s.rowAt e.2 = some ⟨m, s.chat.length + (s.cache.length - e.2)⟩ := by
      rw [rowAt, hm, Option.map_some]
    rw [List.foldlM_cons, List.map_cons, List.filterMap_cons_some hrow, List.filter_cons, hm]
    dsimp only
    by_cases ht : m.timestamp < t
    · rw [if_pos ht, if_pos (decide_eq_true ht), List.foldlM_cons]
      exact bind_congr fun res => ih hrest res
    · rw [if_neg ht, if_neg (by rwa [decide_eq_true_iff])]
      exact ih hrest res

/-- The second section appends the messages of the stored rows, in their order. -/
theorem databaseSection_eq (res : Json) : databaseSection parse tie chat u t res =
    (storedRows tie chat u t).foldlM
      (fun res r => appendMessage parse u res r.toChatMessage) res := by
  unfold databaseSection storedRows
  induction friendIds chat u generalizing res with
  | nil => rfl
  | cons f friends ih =>
    rw [List.foldlM_cons, List.flatMap_cons, List.foldlM_append]
    exact bind_congr ih

/-- **The read** appends the messages that it shows, one after the other. -/
theorem getChatMessage_eq (h : s.index = indexOf s.cache) :
    getChatMessage parse order tie s s' u t = (shown order tie s s' u t).foldlM
      (fun res r => appendMessage parse u res r.toChatMessage) (.obj []) := by
  rw [getChatMessage, cacheSection_eq h, shown, List.foldlM_append]
  exact bind_congr databaseSection_eq

end Shown

end ChatHistory

end UnoppServer
