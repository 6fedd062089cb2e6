import UnoppServer.Chat.Cache

/-!
# Chat history: a read between the flushes

`get_chat_message` gives `cache_mutex` back before it takes `db_mutex`. A round of
`write_database` in between moves messages that the read has already shown to the table,
where the read finds them again.

- `consistentRead_iff`: a read is consistent if and only if no round comes in between, or
  none of the messages in the cache is one of the 20 newest.
-/

namespace UnoppServer

open FindIf Paging

namespace ChatHistory

/-- Rounds of `write_database` whose insertions succeed. -/
def rounds (k : ℕ) (s : ChatHistory) : ChatHistory :=
  (fun s : ChatHistory => s.writeDatabase fun _ => false)^[k] s

/-- The message is one of the 20 newest between the two users that are older than
`latestTimestamp`, in the table and in the cache: less than 20 come before it. -/
def AmongNewest (tie : ChatRow → Nat) (s : ChatHistory) (userId friendId latestTimestamp : Int)
    (r : ChatRow) : Prop :=
  r ∈ between (s.chat ++ s.pending) userId friendId latestTimestamp ∧
    (between (s.chat ++ s.pending) userId friendId latestTimestamp).countP
      (fun r' => rowKey tie r' < rowKey tie r) < 20

/-- **The read is consistent.** It appends its messages one after the other, no message
twice, and each of the 20 newest of every friend once. -/
structure ConsistentRead (parse : String → Json) (order : Nat → Nat) (tie : ChatRow → Nat)
    (s s' : ChatHistory) (userId latestTimestamp : Int) : Prop where
  result : getChatMessage parse order tie s s' userId latestTimestamp =
    (shown order tie s s' userId latestTimestamp).foldlM
      (fun res r => appendMessage parse userId res r.toChatMessage) (.obj [])
  once : (shown order tie s s' userId latestTimestamp).Nodup
  newest : ∀ friendId r, AmongNewest tie s userId friendId latestTimestamp r →
    (shown order tie s s' userId latestTimestamp).count r = 1

section Read

variable {parse : String → Json} {order : Nat → Nat} {tie : ChatRow → Nat} {s : ChatHistory}
  {chat : List ChatRow} {u f t : Int} {r : ChatRow}

/-- After some rounds of the flush the pending rows are in the table. -/
theorem rounds_chat (k : ℕ) (s : ChatHistory) : (rounds (k + 1) s).chat = s.chat ++ s.pending := by
  have hempty : ∀ (k : ℕ) (s : ChatHistory), s.cache = [] → (rounds k s).chat = s.chat := by
    intro k
    induction k with
    | zero => exact fun _ _ => rfl
    | succ k ih =>
      intro s hs
      rw [rounds, Function.iterate_succ_apply]
      refine (ih _ rfl).trans ((writeDatabase_chat fun _ => rfl).trans ?_)
      rw [pending, hs]
      exact List.append_nil _
  rw [rounds, Function.iterate_succ_apply]
  exact (hempty k _ rfl).trans (writeDatabase_chat fun _ => rfl)

theorem Inv.nodup_ids (h : Inv s) : ((s.chat ++ s.pending).map ChatRow.id).Nodup :=
  h.ids_pending ▸ List.nodup_range'

/-- The rows of a table that are among the first 20 of a `SELECT`. -/
theorem mem_take_selectChat_iff (hids : (chat.map ChatRow.id).Nodup) (hr : r ∈ between chat u f t) :
    r ∈ (selectChat tie chat u f t).take 20 ↔
      (between chat u f t).countP (fun r' => rowKey tie r' < rowKey tie r) < 20 := by
  have hkeys : ((between chat u f t).map (rowKey tie)).Nodup := by
    have hids' : ((between chat u f t).map ChatRow.id).Nodup :=
      hids.sublist (List.filter_sublist.map _)
    refine List.Nodup.of_map (fun k => (ofLex (ofLex k).2).2) ?_
    rwa [List.map_map]
  exact mem_take_sortBy_iff hkeys hr

theorem amongNewest_iff (h : Inv s) : AmongNewest tie s u f t r ↔
    r ∈ (selectChat tie (s.chat ++ s.pending) u f t).take 20 := by
  constructor
  · exact fun ⟨hr, hcount⟩ => (mem_take_selectChat_iff h.nodup_ids hr).mpr hcount
  · intro hmem
    have hr := mem_selectChat.mp (List.mem_of_mem_take hmem)
    exact ⟨hr, (mem_take_selectChat_iff h.nodup_ids hr).mp hmem⟩

/-- What is new stays so when other rows are taken away. -/
theorem AmongNewest.stored (h : Inv s) (hnew : AmongNewest tie s u f t r) (hr : r ∈ s.chat) :
    r ∈ (selectChat tie s.chat u f t).take 20 := by
  obtain ⟨hmem, hcount⟩ := hnew
  have hids : (s.chat.map ChatRow.id).Nodup := h.ids ▸ List.nodup_range'
  have hbetween : r ∈ between s.chat u f t := mem_between.mpr ⟨hr, (mem_between.mp hmem).2⟩
  refine (mem_take_selectChat_iff hids hbetween).mpr (lt_of_le_of_lt ?_ hcount)
  rw [between, between, List.filter_append, List.countP_append]
  exact Nat.le_add_right _ _

/-- A cached message that is one of the newest is shown by the first section. -/
theorem AmongNewest.cached (h : Inv s) (hnew : AmongNewest tie s u f t r) (hr : r ∈ s.pending) :
    r ∈ cachedRows order s u t := by
  obtain ⟨-, hor, ht⟩ := mem_between.mp hnew.1
  exact (mem_cachedRows h).mpr ⟨hr, hor.imp And.left And.left, ht⟩

/-- The two sections show different messages when the second one shows none of the cache. -/
theorem nodup_shown_iff {s' : ChatHistory} (h : Inv s) (h' : Inv s') :
    (shown order tie s s' u t).Nodup ↔
      ∀ r ∈ cachedRows order s u t, r ∉ storedRows tie s'.chat u t := by
  have hids : (s'.chat.map ChatRow.id).Nodup := h'.ids ▸ List.nodup_range'
  rw [shown, List.nodup_append', and_iff_right (nodup_cachedRows h),
    and_iff_right (nodup_storedRows hids h'.rows)]
  rfl

theorem Inv.rounds (h : Inv s) (k : ℕ) : Inv (ChatHistory.rounds k s) := by
  induction k generalizing s with
  | zero => exact h
  | succ k ih =>
    rw [ChatHistory.rounds, Function.iterate_succ_apply]
    exact ih (h.writeDatabase _)

/-- After a round, the second section shows what is new. -/
theorem mem_storedRows_rounds (h : Inv s) (k : ℕ) :
    r ∈ storedRows tie (rounds (k + 1) s).chat u t ↔ ∃ f, AmongNewest tie s u f t r := by
  rw [rounds_chat, mem_storedRows]
  exact exists_congr fun f => (amongNewest_iff h).symm

/-- Without a round, no message is in both places. -/
theorem Inv.nodup_shown (h : Inv s) : (shown order tie s s u t).Nodup := by
  refine (nodup_shown_iff h h).mpr fun r hr hr' => ?_
  obtain ⟨f, hmem⟩ := mem_storedRows.mp hr'
  have hchat := (mem_between.mp (mem_selectChat.mp (List.mem_of_mem_take hmem))).1
  have hdisjoint := (List.nodup_append'.mp h.nodup_ids.of_map).2.2
  exact hdisjoint hchat ((mem_cachedRows h).mp hr).1

/-- Each of the newest messages is shown, with a round or without. -/
theorem AmongNewest.mem_shown (h : Inv s) (hnew : AmongNewest tie s u f t r) (k : ℕ) :
    r ∈ shown order tie s (rounds k s) u t := by
  cases k with
  | zero =>
    rcases List.mem_append.mp (mem_between.mp hnew.1).1 with hr | hr
    · exact List.mem_append_right _ (mem_storedRows.mpr ⟨f, hnew.stored h hr⟩)
    · exact List.mem_append_left _ (hnew.cached h hr)
  | succ k => exact List.mem_append_right _ ((mem_storedRows_rounds h k).mpr ⟨f, hnew⟩)

/-- After a round, a message is shown twice when it was in the cache and is new. -/
theorem nodup_shown_rounds_iff (h : Inv s) (k : ℕ) :
    (shown order tie s (rounds (k + 1) s) u t).Nodup ↔
      ∀ f, ∀ r ∈ s.pending, ¬ AmongNewest tie s u f t r := by
  rw [nodup_shown_iff h (h.rounds (k + 1))]
  constructor
  · exact fun hdisjoint f r hr hnew =>
      hdisjoint r (hnew.cached h hr) ((mem_storedRows_rounds h k).mpr ⟨f, hnew⟩)
  · intro hnone r hr hr'
    obtain ⟨f, hnew⟩ := (mem_storedRows_rounds h k).mp hr'
    exact hnone f r ((mem_cachedRows h).mp hr).1 hnew

/-- **A read is consistent** if and only if no round of `write_database` comes between its
sections, or none of the messages in the cache is one of the 20 newest. -/
theorem consistentRead_iff (hs : ChatReachable s) (k : ℕ) :
    ConsistentRead parse order tie s (rounds k s) u t ↔
      k = 0 ∨ ∀ f, ∀ r ∈ s.pending, ¬ AmongNewest tie s u f t r := by
  have h := hs.inv
  have hiff : ConsistentRead parse order tie s (rounds k s) u t ↔
      (shown order tie s (rounds k s) u t).Nodup :=
    ⟨ConsistentRead.once, fun honce => ⟨getChatMessage_eq h.index, honce, fun _ _ hnew =>
      List.count_eq_one_of_mem honce (hnew.mem_shown h k)⟩⟩
  rw [hiff]
  cases k with
  | zero => exact iff_of_true h.nodup_shown (.inl rfl)
  | succ k => rw [nodup_shown_rounds_iff h, or_iff_right k.succ_ne_zero]

end Read

/-- A message of user 1 to user 2 is in the cache. -/
def oneMessage : ChatHistory := new.newChatMessage 1 2 "\x7b\x7d" 1700000000

theorem reachable_oneMessage : ChatReachable oneMessage :=
  Runs.Reachable.tail (a := .newChatMessage 1 2 "\x7b\x7d" 1700000000) .refl
    (show (1 : Int) ≠ 2 by decide) rfl

theorem consistentRead_iff_oneMessage :
    ConsistentRead (fun _ => .obj []) id ChatRow.id oneMessage (rounds 1 oneMessage) 1 1700000001 ↔
      1 = 0 ∨ ∀ f, ∀ r ∈ oneMessage.pending,
        ¬ AmongNewest ChatRow.id oneMessage 1 f 1700000001 r :=
  consistentRead_iff reachable_oneMessage 1

/-- The message is moved to the table between the sections, and is shown twice. -/
theorem shows_message_twice : ChatReachable oneMessage ∧
    ¬ ConsistentRead (fun _ => .obj []) id ChatRow.id oneMessage (rounds 1 oneMessage)
      1 1700000001 := by
  refine ⟨reachable_oneMessage, fun h => ?_⟩
  have hcount : ¬ (shown id ChatRow.id oneMessage (rounds 1 oneMessage) 1 1700000001).Nodup := by
    decide +kernel
  exact hcount h.once

end ChatHistory

end UnoppServer
