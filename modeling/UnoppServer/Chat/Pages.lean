import UnoppServer.Chat.History
import UnoppServer.Json.Fields

/-!
# Chat history: page by page

`get_20_chat_messages` yields the 20 newest messages that are older than a timestamp, and a
client sends the timestamp of the last one to get the next page. Timestamps are seconds, and
messages of the same second as the last one of a page are on no page.

- `pagingComplete_iff`: the pages hold every message exactly once if and only if every page
  ends between two timestamps.
-/

namespace UnoppServer

open Paging

namespace ChatHistory

/-- The messages between two users. -/
def conversation (chat : List ChatRow) (userId friendId : Int) : List ChatRow :=
  chat.filter fun r =>
    (r.senderId = userId ∧ r.receiverId = friendId) ∨
      (r.receiverId = userId ∧ r.senderId = friendId)

/-- The timestamps of a conversation, the newest first. -/
def timestamps (chat : List ChatRow) (userId friendId : Int) : List Int :=
  sortBy (fun t => -t) ((conversation chat userId friendId).map fun r => r.timestamp)

/-- The timestamp of an item, as the client reads it. -/
def itemTimestamp (item : Json) : Int :=
  match item.get "timestamp" with
  | .ok (.int t) => t
  | _ => 0

/-- **Paging is complete**: from above all timestamps on, the pages hold every message
exactly once, whatever the order of equal timestamps in each `SELECT`. -/
def PagingComplete (parse : String → Json) (chat : List ChatRow) (userId friendId : Int) : Prop :=
  ∀ (tie : ℕ → ChatRow → ℕ) (latestTimestamp : Int),
    (∀ r ∈ conversation chat userId friendId, r.timestamp < latestTimestamp) →
    ∃ items all,
      Reads (fun i => get20ChatMessages parse (tie i) chat userId friendId) itemTimestamp 0
        latestTimestamp items ∧
      (conversation chat userId friendId).mapM (fun r => messageItem parse r.toChatMessage) =
        .ok all ∧
      items.Perm all

/-- There is a time after all messages of a conversation. -/
theorem exists_above (chat : List ChatRow) (u f : Int) :
    ∃ t, ∀ r ∈ conversation chat u f, r.timestamp < t := by
  induction conversation chat u f with
  | nil => exact ⟨0, fun r hr => absurd hr List.not_mem_nil⟩
  | cons r l ih =>
    obtain ⟨t, ht⟩ := ih
    refine ⟨max t (r.timestamp + 1), List.forall_mem_cons.mpr ⟨?_, fun x hx => ?_⟩⟩
    · exact lt_max_of_lt_right (Int.lt_succ _)
    · exact lt_max_of_lt_left (ht x hx)

section Rows

variable {parse : String → Json} {chat : List ChatRow} {u f t : Int}

theorem between_eq : between chat u f t =
    (conversation chat u f).filter fun r => r.timestamp < t := by
  rw [between, conversation, List.filter_filter]
  refine List.filter_congr fun r _ => ?_
  rw [Bool.eq_iff_iff]
  simp only [decide_eq_true_eq, Bool.and_eq_true]
  exact and_comm

theorem rowKey_le {tie : ChatRow → Nat} {a b : ChatRow} (h : rowKey tie a ≤ rowKey tie b) :
    b.timestamp ≤ a.timestamp := by
  rcases Prod.Lex.toLex_le_toLex.mp h with h | ⟨h, -⟩
  · exact (neg_lt_neg_iff.mp h).le
  · exact (neg_inj.mp h).ge

theorem selectChat_pairwise {tie : ChatRow → Nat} :
    (selectChat tie chat u f t).Pairwise fun a b => b.timestamp ≤ a.timestamp := by
  unfold selectChat
  exact (sortBy_pairwise (rowKey tie) _).imp rowKey_le

theorem selects_selectChat (chat : List ChatRow) (u f : Int) (tie : ℕ → ChatRow → ℕ) :
    Selects (fun r : ChatRow => r.timestamp) (conversation chat u f)
      fun i t => selectChat (tie i) chat u f t :=
  ⟨fun _ _ => (sortBy_perm _ _).trans (.of_eq between_eq),
    fun _ _ => selectChat_pairwise⟩

/-- Above all timestamps everything is selected. -/
theorem selectChat_perm {tie : ChatRow → Nat} (ht : ∀ r ∈ conversation chat u f, r.timestamp < t) :
    (selectChat tie chat u f t).Perm (conversation chat u f) := by
  refine (sortBy_perm _ _).trans (.of_eq ?_)
  rw [between_eq, List.filter_eq_self]
  exact fun r hr => decide_eq_true (ht r hr)

/-- The query yields the times of the conversation, the latest first. -/
theorem map_timestamp_selectChat {tie : ChatRow → Nat}
    (ht : ∀ r ∈ conversation chat u f, r.timestamp < t) :
    (selectChat tie chat u f t).map (fun r => r.timestamp) = timestamps chat u f := by
  have hperm : ((selectChat tie chat u f t).map fun r => r.timestamp).Perm (timestamps chat u f) :=
    ((selectChat_perm ht).map _).trans (sortBy_perm _ _).symm
  have hsorted : ((selectChat tie chat u f t).map fun r => r.timestamp).Pairwise (· ≥ ·) :=
    List.pairwise_map.mpr selectChat_pairwise
  have hsorted' : (timestamps chat u f).Pairwise (· ≥ ·) :=
    (sortBy_pairwise _ _).imp neg_le_neg_iff.mp
  exact hperm.eq_of_pairwise (fun _ _ _ _ h h' => le_antisymm h' h) hsorted hsorted'

/-- The item of a message has its timestamp. -/
theorem itemTimestamp_messageItem {m : ChatMessage} {item : Json}
    (h : messageItem parse m = .ok item) : itemTimestamp item = m.timestamp := by
  rw [itemTimestamp, Json.get_of_set h]

theorem completes_messageItem_iff {m : ChatMessage} :
    Completes (messageItem parse m) ↔ (parse m.message).TakesMembers :=
  Json.completes_set_iff _ _ _

/-- What a client reads when every message has an item. -/
theorem reads_items (hitems : ∀ r ∈ conversation chat u f, (parse r.message).TakesMembers)
    (tie : ℕ → ChatRow → ℕ) (ht : ∀ r ∈ conversation chat u f, r.timestamp < t) :
    ∃ items all,
      Reads (fun i => get20ChatMessages parse (tie i) chat u f) itemTimestamp 0 t items ∧
      (conversation chat u f).mapM (fun r => messageItem parse r.toChatMessage) = .ok all ∧
      (items.Perm all ↔ CleanCuts 20 (timestamps chat u f)) := by
  have hsome : ∀ r : ChatRow, ∃ v, r ∈ conversation chat u f →
      messageItem parse r.toChatMessage = .ok v := by
    intro r
    by_cases hr : r ∈ conversation chat u f
    · obtain ⟨v, hv⟩ := completes_messageItem_iff.mpr (hitems r hr)
      exact ⟨v, fun _ => hv⟩
    · exact ⟨.null, fun h => absurd h hr⟩
  choose g hg using hsome
  obtain ⟨l, hreads, hsub, hiff⟩ := exists_reads Fault (by decide : 0 < 20)
    (selects_selectChat chat u f tie) 0 t
  have hmem {i : ℕ} {t : Int} {r : ChatRow}
      (hr : r ∈ (selectChat (tie i) chat u f t).take 20) : r ∈ conversation chat u f := by
    have hperm := (selects_selectChat chat u f tie).perm i t
    exact (List.mem_filter.mp (hperm.mem_iff.mp (List.mem_of_mem_take hr))).1
  refine ⟨l.map g, (conversation chat u f).map g, ?_, mapM_eq_ok hg, ?_⟩
  · refine hreads.map (fun i t page hpage => ?_) fun i t page hpage r hr => ?_
    · obtain rfl := Except.ok.inj hpage
      exact mapM_eq_ok fun r hr => hg r (hmem hr)
    · obtain rfl := Except.ok.inj hpage
      exact itemTimestamp_messageItem (hg r (hmem hr))
  · rw [← map_timestamp_selectChat ht, ← hiff]
    have hall : (selectChat (tie 0) chat u f t).Perm (conversation chat u f) := selectChat_perm ht
    constructor
    · intro hperm
      -- a row that is not read is missing from the number of the items
      refine hsub.perm_of_length_le ?_
      rw [hall.length_eq, ← List.length_map g, ← hperm.length_eq, List.length_map]
    · intro hperm
      exact (hperm.trans hall).map g

end Rows

variable {parse : String → Json} {chat : List ChatRow} {u f : Int}

theorem PagingComplete.takesMembers (h : PagingComplete parse chat u f) :
    ∀ r ∈ conversation chat u f, (parse r.message).TakesMembers := by
  obtain ⟨t, ht⟩ : ∃ t, ∀ r ∈ conversation chat u f, r.timestamp < t := exists_above chat u f
  obtain ⟨items, all, -, hall, -⟩ := h (fun _ _ => 0) t ht
  exact fun r hr => completes_messageItem_iff.mp (completes_mapM_iff.mp ⟨all, hall⟩ r hr)

/-- When paging is complete no second is cut by the end of a page. -/
theorem PagingComplete.cleanCuts (h : PagingComplete parse chat u f) :
    CleanCuts 20 (timestamps chat u f) := by
  obtain ⟨t, ht⟩ := exists_above chat u f
  obtain ⟨items, all, hreads, hall, hperm⟩ := h (fun _ _ => 0) t ht
  obtain ⟨items', all', hreads', hall', hiff⟩ := reads_items h.takesMembers (fun _ _ => 0) ht
  obtain rfl := hreads.unique hreads'
  obtain rfl := Except.ok.inj (hall.symm.trans hall')
  exact hiff.mp hperm

/-- **Paging is complete** if and only if the server can render every message, and every
page ends between two timestamps. -/
theorem pagingComplete_iff : PagingComplete parse chat u f ↔
    (∀ r ∈ conversation chat u f, (parse r.message).TakesMembers) ∧
      CleanCuts 20 (timestamps chat u f) := by
  refine ⟨fun h => ⟨h.takesMembers, h.cleanCuts⟩, fun ⟨hitems, hcuts⟩ tie t ht => ?_⟩
  obtain ⟨items, all, hreads, hall, hiff⟩ := reads_items hitems tie ht
  exact ⟨items, all, hreads, hall, hiff.mpr hcuts⟩

/-- Messages of one second from user 1 to user 2. -/
def burst (n : ℕ) : List ChatRow :=
  (List.range n).map fun i => ⟨⟨1, 2, "\x7b\x7d", 1700000000⟩, i + 1⟩

/-- The last of 21 messages of one second is on no page. -/
theorem paging_loses_message : ¬ PagingComplete (fun _ => .obj []) (burst 21) 1 2 := by
  intro h
  have hts : timestamps (burst 21) 1 2 = List.replicate 21 1700000000 := by decide +kernel
  have hcuts := h.cleanCuts
  rw [hts] at hcuts
  exact hcuts 0 1700000000 1700000000 rfl rfl rfl

end ChatHistory

end UnoppServer
