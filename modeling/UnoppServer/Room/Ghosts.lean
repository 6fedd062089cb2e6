import UnoppServer.Room.Phases

/-!
# Rooms: ghost members

A connection that closes during a game keeps its seat and is marked offline
(`process_close`), and the end of the game does not look at the seats. Whoever is
offline when a game ends stays in a room with no game: nothing removes the entry, its
user cannot join another room, and `everyone_prepared` waits for the user.

- `freeOfGhosts_iff`: there are no ghost members exactly in the runs in which every game
  ends with everybody online.
-/

namespace UnoppServer

open Assoc FindIf Runs Room

namespace Room

/-- Nobody is offline. -/
def AllOnline (r : Room) : Prop :=
  ∀ k info, r.connections.lookup k = some info → info.offline = false

/-- The connection has no entry, or one that is marked offline. -/
def Absent (r : Room) (k : Nat) : Prop :=
  ∀ info, r.connections.lookup k = some info → info.offline = true

section Online

variable {r : Room}

/-- Another online entry leaves all of them online. -/
theorem AllOnline.insert {connections : Connections} {k : Nat} {info : UserInfo}
    (h : r.AllOnline) (hr : connections = r.connections.insert k info)
    (hinfo : info.offline = false) : ({ r with connections := connections } : Room).AllOnline := by
  intro k' info' hlook
  change connections.lookup k' = some info' at hlook
  rw [hr, lookup_insert_eq] at hlook
  split at hlook
  · obtain rfl := Option.some.inj hlook
    exact hinfo
  · exact h k' info' hlook

/-- When everybody is online, nobody waits for an offline member. -/
theorem AllOnline.everyonePrepared (h : r.AllOnline) :
    r.everyonePrepared = r.connections.entries.all fun e => e.2.offline || e.2.prepared := by
  unfold Room.everyonePrepared
  rw [Bool.eq_iff_iff, List.all_eq_true, List.all_eq_true]
  refine forall₂_congr fun e he => ?_
  rw [h e.1 e.2 (AList.mem_lookup_iff.mpr he), Bool.false_or]

/-- An entry with another id, or one that is offline, leaves a connection absent. -/
theorem Absent.insert {k k' : Nat} {info : UserInfo} (h : r.Absent k)
    (hinfo : k' = k → info.offline = true) :
    ({ r with connections := r.connections.insert k' info } : Room).Absent k := by
  intro info' hlook
  change (r.connections.insert k' info).lookup k = some info' at hlook
  rw [lookup_insert_eq] at hlook
  split at hlook
  · obtain rfl := Option.some.inj hlook
    exact hinfo (Eq.symm ‹k = k'›)
  · exact h info' hlook

/-- An entry less leaves a connection absent. -/
theorem Absent.erase {k k' : Nat} (h : r.Absent k) :
    ({ r with connections := r.connections.erase k' } : Room).Absent k := by
  intro info hlook
  change (r.connections.erase k').lookup k = some info at hlook
  rw [lookup_erase_eq] at hlook
  split at hlook
  · cases hlook
  · exact h info hlook

theorem Absent.clearPrepared {k : Nat} (h : r.Absent k) : r.clearPrepared.Absent k := by
  intro info hlook
  change (mapValues _ r.connections).lookup k = some info at hlook
  rw [lookup_mapValues, Option.map_eq_some_iff] at hlook
  obtain ⟨info', hinfo', rfl⟩ := hlook
  exact h info' hinfo'

end Online

end Room

namespace RoomState

/-- Outside games nobody is offline. -/
def NoGhosts (s : RoomState) : Prop := s.room.isGameOn = false → s.room.AllOnline

/-- If the event ends a game, nobody is offline. -/
def EndsOnline (s : RoomState) (e : Env × RoomEvent) : Prop :=
  s.room.Ends e.1 e.2 → s.room.AllOnline

/-- The connection has no entry that is online. -/
def Away (k : Nat) (s : RoomState) : Prop := s.room.Absent k

/-- The connection joins with the event. -/
def Joining (k : Nat) : RoomEvent → Prop
  | .message c messageType _ => messageType = "JOIN_ROOM" ∧ c.connId = k
  | _ => False

section Change

variable {env : Env} {s s' : RoomState} {e : RoomEvent}

theorem Fresh.noGhosts (h : s.Fresh) : s.NoGhosts := by
  obtain ⟨id, creator, creatorId, name, password, roomType, slot, -, hroom⟩ := h
  intro _ k info hlook
  rw [hroom] at hlook
  cases hlook

/-- An event leaves no ghosts iff it ends no game while somebody is offline. -/
theorem Change.noGhosts_iff (h : Change env s e s') (hs : s.NoGhosts) :
    s'.NoGhosts ↔ (s.room.Ends env e → s.room.AllOnline) := by
  have hkeeps (hs' : s'.NoGhosts) (hends : ¬ s.room.Ends env e) :
      s'.NoGhosts ↔ (s.room.Ends env e → s.room.AllOnline) :=
    iff_of_true hs' fun h => absurd h hends
  have hbase {messageType : String} (hmem : messageType ∈ ["CREATE_ROOM", "GET_ROOM_LIST",
      "JOIN_ROOM", "CHAT_MESSAGE", "GAME_PREPARE"]) (c : Caller) (payload : Json) :
      ¬ s.room.Ends env (.message c messageType payload) :=
    not_ends_of_isGameMessage (s.room.isGameMessage_eq_false hmem)
  cases h with
  | stays _ _ hends => exact hkeeps hs hends
  | elsewhere => exact hkeeps hs fun h => h
  | @joins c payload s' hadmits =>
    refine hkeeps (fun hoff => ?_) (hbase (by decide) c payload)
    rw [hadmits.room] at hoff ⊢
    have hold : s.room.oldConnId env c.userName = none :=
      if_neg fun hon => Bool.false_ne_true (hoff.symm.trans hon)
    rw [hold]
    exact (hs hoff).insert rfl rfl
  | @prepares c payload info _ hinfo =>
    refine hkeeps (fun hoff => ?_) (hbase (by decide) c payload)
    have hinfo' : info.offline = false := hs hoff _ _ hinfo
    exact (hs hoff).insert rfl hinfo'
  | @starts c payload =>
    exact hkeeps (fun hoff => nomatch hoff) (hbase (by decide) c payload)
  | plays _ hends => exact hkeeps hs hends
  | finishes _ hends =>
    rw [imp_iff_right hends]
    exact imp_iff_right rfl
  | offline _ hon => exact hkeeps (fun hoff => nomatch hoff.symm.trans hon) fun h => h
  | leaves _ hon =>
    refine hkeeps (fun _ k info hlook => ?_) fun h => h
    change (s.room.connections.erase _).lookup k = some info at hlook
    rw [lookup_erase_eq] at hlook
    split at hlook
    · cases hlook
    · exact hs hon k info hlook

/-- A connection stays away until it joins. -/
theorem Change.away {k : Nat} (h : Change env s e s') (hk : s.Away k)
    (hjoin : ¬ Joining k e) : s'.Away k := by
  cases h with
  | stays | elsewhere | plays | finishes => exact hk
  | @joins c payload s' hadmits =>
    rw [Away, hadmits.room]
    intro info hlook
    rw [lookup_enter] at hlook
    split at hlook
    · exact absurd ⟨rfl, Eq.symm ‹k = c.connId›⟩ hjoin
    · split at hlook
      · cases hlook
      · exact hk info hlook
  | @prepares c payload info _ hinfo => exact hk.insert fun he => hk info (he ▸ hinfo)
  | @starts c payload info _ _ hinfo =>
    have hset : (s.room.setPrepared c.connId info _).Absent k :=
      hk.insert fun he => hk info (he ▸ hinfo)
    exact hset.clearPrepared
  | offline => exact hk.insert fun _ => rfl
  | leaves => exact hk.erase

/-- What a closed connection leaves behind. Outside games this is nothing, and its
user is in no room. -/
theorem closes_cases {k : Nat} {out : Outbox} (h : s.step (env, .close k) = .ok (out, s')) :
    s'.Away k ∧ (s.room.isGameOn = false → ∀ info,
      s.room.connections.lookup k = some info → s'.userRooms info.userId = none) := by
  obtain ⟨-, rfl⟩ := Prod.mk.inj (Except.ok.inj h)
  show Absent (s.room.processClose env s.userRooms k).2.2 k ∧ (s.room.isGameOn = false → ∀ info,
    s.room.connections.lookup k = some info →
      (s.room.processClose env s.userRooms k).2.1 info.userId = none)
  unfold processClose
  cases hinfo : s.room.connections.lookup k with
  | none => exact ⟨fun info hlook => (nomatch hinfo.symm.trans hlook), fun _ info h => (nomatch h)⟩
  | some info =>
    by_cases hon : s.room.isGameOn = true
    · simp only [if_pos hon]
      refine ⟨fun info' hlook => ?_, fun hoff => (nomatch hoff.symm.trans hon)⟩
      obtain rfl := Option.some.inj ((AList.lookup_insert _).symm.trans hlook)
      rfl
    · simp only [if_neg hon]
      refine ⟨fun info' hlook => (nomatch (AList.lookup_erase k _).symm.trans hlook), ?_⟩
      rintro - info' he
      obtain rfl := Option.some.inj he
      exact Function.update_self _ _ _

end Change

/-- **No ghost members.** Outside games nobody is offline; a connection that has closed,
and has not joined again, is no member of a room with no game; a user whose connection
closes outside games can join another room; and `everyone_prepared` waits for no offline
member. -/
structure FreeOfGhosts (h : RoomHistory) : Prop where
  online : ∀ e ∈ h, e.post.NoGhosts
  closed : ∀ h₁ y h₂ k, h = h₁ ++ y :: h₂ → y.post.room.isGameOn = false →
    Since (fun e => e.act.2 = .close k) (fun e => ¬ Joining k e.act.2) (h₁ ++ [y]) →
    y.post.room.connections.lookup k = none
  leaves : ∀ e ∈ h, ∀ k info, e.act.2 = .close k → e.pre.room.isGameOn = false →
    e.pre.room.connections.lookup k = some info → e.post.userRooms info.userId = none
  prepared : ∀ e ∈ h, e.post.room.isGameOn = false → e.post.room.everyonePrepared =
    e.post.room.connections.entries.all fun p => p.2.offline || p.2.prepared

section Run

variable {s₀ s : RoomState} {h : RoomHistory}

/-- A closed connection that has not joined again has no entry that is online. -/
theorem away_of_since (h₀ : s₀.Fresh) (hr : RoomRun s₀ h s) {k : Nat}
    (hsince : Since (fun e => e.act.2 = .close k) (fun e => ¬ Joining k e.act.2) h) :
    s.Away k := by
  refine hr.held_of_since (fun e he => ⟨?_, ?_⟩) hsince
  · intro hclose
    obtain ⟨-, -, hstep⟩ := hr.mem_entry e he
    obtain ⟨pre, ⟨env, event⟩, out, post⟩ := e
    obtain rfl : event = .close k := hclose
    exact (closes_cases hstep).1
  · intro hjoin haway
    exact (spec_of_run h₀ hr e he).2.change.away haway hjoin

/-- **There are no ghost members** exactly when every game ends with everybody
online. -/
theorem freeOfGhosts_iff (h₀ : s₀.Fresh) (hr : RoomRun s₀ h s) :
    FreeOfGhosts h ↔ ∀ e ∈ h, e.pre.EndsOnline e.act := by
  have honline : (∀ e ∈ h, e.post.NoGhosts) ↔ ∀ e ∈ h, e.pre.EndsOnline e.act :=
    hr.safe_iff (fun s e out s' hs hstep => (step_cases hstep).change.noGhosts_iff hs) h₀.noGhosts
  rw [← honline]
  refine ⟨FreeOfGhosts.online, fun hall => ⟨hall, ?_, ?_, ?_⟩⟩
  · rintro h₁ y h₂ k rfl hoff hsince
    cases hlook : y.post.room.connections.lookup k with
    | none => rfl
    | some info =>
      have hoffline := away_of_since h₀ hr.upto hsince info hlook
      have honline := hall y (List.mem_append_right _ List.mem_cons_self) hoff k info hlook
      exact nomatch honline.symm.trans hoffline
  · intro e he k info hclose hoff hlook
    obtain ⟨-, -, hstep⟩ := hr.mem_entry e he
    obtain ⟨pre, ⟨env, event⟩, out, post⟩ := e
    obtain rfl : event = .close k := hclose
    exact (closes_cases hstep).2 hoff info hlook
  · exact fun e he hoff => (hall e he hoff).everyonePrepared

end Run

theorem exec_ghost : execTo step (roomOf (.uno none))
    (threeStart ++ unoRounds ++ [(plainEnv, .close 3)])
    (fun s => stepTo step s (playsCard 2 4) fun _ s' =>
      !s'.room.isGameOn && (s'.room.connections.lookup 3).any UserInfo.offline) = true := by
  decide +kernel

theorem freeOfGhosts_iff_threeStart : ∃ h s, RoomRun (roomOf (.uno none)) h s ∧ s.Playing ∧
    (FreeOfGhosts h ↔ ∀ e ∈ h, e.pre.EndsOnline e.act) := by
  obtain ⟨h, s, hr, -, hon⟩ := exists_run_of_execTo exec_threeStart
  exact ⟨h, s, hr, hon, freeOfGhosts_iff fresh_uno hr⟩

/-- User 3 is offline when user 2 wins, and stays in the room. -/
theorem uno_leaves_ghost : ∃ h s, RoomRun (roomOf (.uno none)) h s ∧
    h.map Entry.act = threeStart ++ unoRounds ++ [(plainEnv, .close 3)] ++ [playsCard 2 4] ∧
    ¬ FreeOfGhosts h := by
  obtain ⟨h, s, hr, hacts, hcheck⟩ := exists_run_of_execTo exec_ghost
  obtain ⟨out, s', hstep, hghost⟩ := exists_of_stepTo hcheck
  obtain ⟨hoff, hoffline⟩ := Bool.and_eq_true_iff.mp hghost
  obtain ⟨info, hlook, hinfo⟩ := (Option.any_eq_true _ _).mp hoffline
  refine ⟨_, s', hr.snoc trivial hstep, by rw [List.map_append, hacts]; rfl, fun hfree => ?_⟩
  have hlast := hfree.online _ (List.mem_append_right _ List.mem_cons_self)
  have hinfo' : info.offline = false := hlast ((Bool.not_eq_true' _).mp hoff) 3 info hlook
  exact nomatch hinfo'.symm.trans hinfo

end RoomState

end UnoppServer
