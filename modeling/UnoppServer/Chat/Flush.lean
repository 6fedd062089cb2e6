import UnoppServer.Accounts.Unread
import UnoppServer.Chat.Cache

/-!
# Rounds in which statements fail

`ChatHistory::write_database` and `Authorizer::write_cache_to_database` write a cache to the
database row by row. An exception from a row is caught and forgotten, and after the commit the
whole cache is cleared, so the rows that failed are neither in the database nor in the cache.

- `messagesKept_iff`: no message is lost if and only if no insertion fails;
- `countsKept_iff`: no count is lost if and only if no statement fails that has something to add.
-/

namespace UnoppServer

open Assoc

namespace ChatHistory

/-- The messages in the table and in the cache. -/
def allMessages (s : ChatHistory) : List ChatMessage := s.chat.map ChatRow.toChatMessage ++ s.cache

/-- Every message is there as often as before. -/
def MessagesKept (s s' : ChatHistory) : Prop := s.allMessages.Subperm s'.allMessages

variable {s : ChatHistory} {fails : Nat → Bool}

/-- The loop inserts the messages whose insertions do not fail. -/
theorem map_foldl_insertChat (fails : Nat → Bool) (l : List (ChatMessage × Nat))
    (chat : List ChatRow) :
    (l.foldl (fun chat p => if fails p.2 then chat else insertChat chat p.1) chat).map
        ChatRow.toChatMessage =
      chat.map ChatRow.toChatMessage ++ (l.filter fun p => !fails p.2).map Prod.fst := by
  induction l generalizing chat with
  | nil => exact (List.append_nil _).symm
  | cons p l ih =>
    rw [List.foldl_cons, ih, List.filter_cons]
    cases fails p.2 with
    | true => rfl
    | false =>
      show (chat ++ [_]).map ChatRow.toChatMessage ++ _ = _ ++ p.1 :: _
      rw [List.map_append, List.append_assoc]
      rfl

theorem allMessages_writeDatabase (s : ChatHistory) (fails : Nat → Bool) :
    (s.writeDatabase fails).allMessages = s.chat.map ChatRow.toChatMessage ++
      (s.cache.reverse.zipIdx.filter fun p => !fails p.2).map Prod.fst :=
  (List.append_nil _).trans (map_foldl_insertChat fails s.cache.reverse.zipIdx s.chat)

/-- **A round keeps the messages** if and only if no insertion fails. -/
theorem messagesKept_iff : MessagesKept s (s.writeDatabase fails) ↔
    ∀ i, i < s.cache.length → fails i = false := by
  have hall : (∀ p ∈ s.cache.reverse.zipIdx, (!fails p.2) = true) ↔
      ∀ i, i < s.cache.length → fails i = false := by
    constructor
    · intro h i hi
      rw [← List.length_reverse] at hi
      have hmem : (s.cache.reverse[i], i) ∈ s.cache.reverse.zipIdx :=
        List.mem_zipIdx_iff_getElem?.mpr (List.getElem?_eq_getElem hi)
      exact (Bool.not_eq_true' (fails i)).mp (h _ hmem)
    · intro h p hp
      have hi := (List.getElem?_eq_some_iff.mp (List.mem_zipIdx_iff_getElem?.mp hp)).1
      rw [List.length_reverse] at hi
      rw [h p.2 hi]
      rfl
  rw [← hall, MessagesKept, allMessages_writeDatabase]
  constructor
  · intro h
    -- nothing is left in the cache, so as many messages have been inserted
    have hlen := h.length_le
    rw [allMessages, List.length_append, List.length_append, List.length_map, List.length_map]
      at hlen
    have hle := List.length_filter_le (fun p => !fails p.2) s.cache.reverse.zipIdx
    rw [List.length_zipIdx, List.length_reverse] at hle
    refine List.length_filter_eq_length_iff.mp ?_
    rw [List.length_zipIdx, List.length_reverse]
    omega
  · intro h
    rw [List.filter_eq_self.mpr h, List.zipIdx_map_fst]
    exact ((List.reverse_perm s.cache).symm.append_left _).subperm

end ChatHistory

namespace Inbox

/-- Rows are equal when their two ids are. -/
local instance lawfulPairs : LawfulBEq (Int × Int) := inferInstance

/-- One round of `write_cache_to_database`, in which the statements for some pairs throw. -/
def tryWriteCacheToDatabase (s : Inbox) (fails : Int × Int → Bool) : Inbox :=
  { s with
    -- an exception is caught, and the count is lost
    unread := s.cache.entries.foldl (fun unread item => if fails item.1 then unread
      else updateUnread s.accounts.relations item.1 (· + item.2) unread) s.unread
    cache := ∅ }

/-- When nothing fails it is the round of before. -/
theorem tryWriteCacheToDatabase_eq (s : Inbox) :
    s.tryWriteCacheToDatabase (fun _ => false) = s.writeCacheToDatabase := rfl

/-- The rows of the counts in the cache have as many unread messages as before. -/
def CountsKept (s s' : Inbox) : Prop :=
  ∀ p n, s.cache.lookup p = some n → p ∈ s.accounts.relations → s'.total p = s.total p

/-- **A round keeps the counts** if and only if no statement fails that has something to add. -/
theorem countsKept_iff {s : Inbox} {fails : Int × Int → Bool} :
    CountsKept s (s.tryWriteCacheToDatabase fails) ↔
      ∀ p n, s.cache.lookup p = some n → p ∈ s.accounts.relations → n ≠ 0 → fails p = false := by
  have htotal {p : Int × Int} (hp : p ∈ s.accounts.relations) :
      (s.tryWriteCacheToDatabase fails).total p =
        s.unread p + if fails p then 0 else (s.cache.lookup p).getD 0 := by
    unfold total
    show (if p ∈ s.accounts.relations then _ else 0) + 0 = _
    rw [if_pos hp, Int.add_zero]
    exact foldl_updateUnread s.cache.nodupKeys hp fails s.unread
  refine forall_congr' fun p => forall_congr' fun n => forall_congr' fun hn =>
    forall_congr' fun hp => ?_
  rw [htotal hp, total, if_pos hp, hn, Option.getD_some]
  cases fails p with
  | true =>
    show s.unread p + 0 = s.unread p + n ↔ (n ≠ 0 → true = false)
    constructor
    · exact fun h hn => absurd (add_left_cancel h).symm hn
    · intro h
      by_contra hne
      exact Bool.noConfusion (h fun hn => hne (by rw [hn]))
  | false => exact iff_of_true rfl fun _ => rfl

end Inbox

/-- **Rounds keep what they write** if and only if nothing fails that has something to write. -/
theorem rounds_keep_iff (s : ChatHistory) (fails : Nat → Bool) (inbox : Inbox)
    (fails' : Int × Int → Bool) :
    (s.MessagesKept (s.writeDatabase fails) ↔ ∀ i, i < s.cache.length → fails i = false) ∧
      (inbox.CountsKept (inbox.tryWriteCacheToDatabase fails') ↔
        ∀ p n, inbox.cache.lookup p = some n → p ∈ inbox.accounts.relations → n ≠ 0 →
          fails' p = false) :=
  ⟨ChatHistory.messagesKept_iff, Inbox.countsKept_iff⟩

/-- A message of user 1 to user 2, who is a friend. -/
def unwritten : ChatHistory × Inbox :=
  (ChatHistory.new.newChatMessage 1 2 "\x7b\x7d" 1700000000,
    Inbox.addOneUnread ⟨⟨[⟨1, "alice", "pw", none⟩, ⟨2, "bob", "pw", none⟩], [], [(1, 2), (2, 1)]⟩,
      fun _ => none, fun _ => 0, ∅⟩ 2 1)

/-- When the statements fail, the message and the count are gone. -/
theorem rounds_lose : (¬ ∀ (s : ChatHistory) (fails : Nat → Bool),
      s.MessagesKept (s.writeDatabase fails)) ∧
    ¬ ∀ (inbox : Inbox) (fails : Int × Int → Bool),
      inbox.CountsKept (inbox.tryWriteCacheToDatabase fails) := by
  constructor
  · intro h
    have hkept := h unwritten.1 fun _ => true
    exact absurd (ChatHistory.messagesKept_iff.mp hkept 0 (by decide)) (by decide)
  · intro h
    have hkept := h unwritten.2 fun _ => true
    have hlook : unwritten.2.cache.lookup (2, 1) = some 1 := rfl
    exact absurd (Inbox.countsKept_iff.mp hkept (2, 1) 1 hlook (by decide) (by decide)) (by decide)

end UnoppServer
