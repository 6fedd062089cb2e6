import UnoppServer.Room.Phases
import UnoppServer.Room.Rejoin

/-!
# Rooms: the password

`JOIN_ROOM` checks the password unless the client says `no_password`, and then it
checks `authorized_user_id`. The list begins with the creator and grows with every
user who is let in, and nobody has a connection who is not on it (`Gated`).

- `supplied_of_mem`: every user in the room is the creator or has supplied the
  password.
-/

namespace UnoppServer

open Assoc Runs Room

namespace Room

section Join

variable {env : Env} {userRooms : UserRooms} {r : Room} {c : Caller} {payload : Json}

/-- Whoever passes is on the list, or supplies the password. -/
theorem Passes.supplied (h : r.Passes c payload) :
    c.userId ∈ r.authorizedUserId ∨ payload.Reads "password" Json.asString r.password := by
  obtain ⟨noPassword, -, hcorrect, hlisted⟩ := h
  cases noPassword with
  | true => exact .inl (hlisted rfl)
  | false =>
    refine .inr ?_
    unfold passwordIncorrect at hcorrect
    cases hget : payload.get "password" with
    | error e => simp [hget, bind, Except.bind] at hcorrect
    | ok v =>
      cases hread : v.asString with
      | error e => simp [hget, hread, bind, Except.bind] at hcorrect
      | ok password =>
        have hsame : password = r.password := by
          simpa [hget, hread, bind, Except.bind, pure, Except.pure] using hcorrect
        exact ⟨v, hget, hsame ▸ hread⟩

/-- `JOIN_ROOM` lets nobody in who does not pass. -/
theorem ensures_joinRoom_passes :
    Ensures (r.joinRoom env userRooms c payload) fun s =>
      s.2.2 = r ∨ (r.Passes c payload ∧ ∃ old, s.2.2 = r.enter c old) := by
  unfold joinRoom
  refine .ite (fun _ => .ok (.inl rfl)) fun _ => .ite (fun _ => .ok (.inl rfl)) fun _ => ?_
  refine .bind' fun v hv => .bind' fun noPassword hread => .bind' fun incorrect hincorrect => ?_
  refine .ite (fun _ => .ok (.inl rfl)) fun hcorrect => ?_
  refine .ite (fun _ => .ok (.inl rfl)) fun hlisted => .ok (.inr ⟨?_, _, rfl⟩)
  refine ⟨noPassword, ⟨v, hv, hread⟩, ?_, fun h => by_contra fun hout => hlisted ⟨h, hout⟩⟩
  rw [hincorrect, Bool.eq_false_of_not_eq_true hcorrect]

end Join

end Room

namespace RoomState

/-- A `JOIN_ROOM` of the user with the password. -/
def Supplies (password : String) (userId : Int)
    (e : Entry RoomState (Env × RoomEvent) Outbox) : Prop :=
  ∃ c payload, e.act.2 = .message c "JOIN_ROOM" payload ∧ c.userId = userId ∧
    payload.Reads "password" Json.asString password

/-- The password and the list stay, and nobody gets a connection. -/
structure SameList (r r' : Room) : Prop where
  secret : r'.password = r.password
  listed : r'.authorizedUserId = r.authorizedUserId
  seats : ∀ k info, r'.connections.lookup k = some info →
    ∃ k' info', r.connections.lookup k' = some info' ∧ info'.userId = info.userId

theorem SameList.refl (r : Room) : SameList r r := ⟨rfl, rfl, fun k info h => ⟨k, info, h, rfl⟩⟩

/-- An entry that stays with its user keeps the list. -/
theorem SameList.insert {r : Room} {k : Nat} {info info' : UserInfo}
    (h : r.connections.lookup k = some info) (hsame : info'.userId = info.userId) :
    SameList r { r with connections := r.connections.insert k info' } := by
  refine ⟨rfl, rfl, fun k₁ info₁ h₁ => ?_⟩
  rw [lookup_insert_eq] at h₁
  split at h₁
  · obtain rfl := Option.some.inj h₁
    exact ⟨k, info, h, hsame.symm⟩
  · exact ⟨k₁, info₁, h₁, rfl⟩

theorem SameList.clearPrepared {r r' : Room} (h : SameList r r') : SameList r r'.clearPrepared := by
  refine ⟨h.secret, h.listed, fun k info hlook => ?_⟩
  unfold Room.clearPrepared at hlook
  rw [lookup_mapValues] at hlook
  obtain ⟨info', hinfo', rfl⟩ := Option.map_eq_some_iff.mp hlook
  exact h.seats k info' hinfo'

theorem SameList.erase (r : Room) (k : Nat) :
    SameList r { r with connections := r.connections.erase k } := by
  refine ⟨rfl, rfl, fun k' info h => ?_⟩
  rw [lookup_erase_eq] at h
  split at h
  · cases h
  · exact ⟨k', info, h, rfl⟩

/-- Events other than `JOIN_ROOM` leave the list alone, and let nobody in. -/
theorem Change.sameList {env : Env} {ev : RoomEvent} {s s' : RoomState} (h : Change env s ev s')
    (hjoin : ∀ c payload, ev ≠ .message c "JOIN_ROOM" payload) : SameList s.room s'.room := by
  cases h with
  | stays | elsewhere => exact .refl s.room
  | plays | finishes => exact ⟨rfl, rfl, (SameList.refl s.room).seats⟩
  | joins => exact absurd rfl (hjoin _ _)
  | prepares hinfo | offline hinfo => exact .insert hinfo rfl
  | @starts c payload info prepared game hinfo =>
    have hset : SameList s.room (s.room.setPrepared c.connId info prepared) := .insert hinfo rfl
    exact SameList.clearPrepared ⟨rfl, rfl, hset.seats⟩
  | leaves => exact .erase s.room _

/-- Who is in the room is on the list, and who is on the list is the creator or has
supplied the password. -/
structure Gated (creatorId : Int) (password : String) (h : RoomHistory) (s : RoomState) :
    Prop where
  secret : s.room.password = password
  listed : ∀ userId ∈ s.room.authorizedUserId,
    userId = creatorId ∨ ∃ e ∈ h, Supplies password userId e
  seated : ∀ k info, s.room.connections.lookup k = some info →
    info.userId ∈ s.room.authorizedUserId

section Gated

variable {creatorId : Int} {password : String} {h : RoomHistory} {s s' : RoomState} {env : Env}
  {ev : RoomEvent} {out : Outbox}

/-- A step that keeps the list keeps it gated. -/
theorem Gated.of_sameList (hs : Gated creatorId password h s) (hsame : SameList s.room s'.room)
    {h' : RoomHistory} (hh : h ⊆ h') : Gated creatorId password h' s' := by
  refine ⟨hsame.secret.trans hs.secret, ?_, fun k info hinfo => ?_⟩
  · rw [hsame.listed]
    intro userId hmem
    exact (hs.listed userId hmem).imp_right fun ⟨e, he, hsup⟩ => ⟨e, hh he, hsup⟩
  · obtain ⟨k', info', hinfo', huser⟩ := hsame.seats k info hinfo
    rw [hsame.listed, ← huser]
    exact hs.seated k' info' hinfo'

/-- A caller who passes is put on the list. -/
theorem Gated.enter {c : Caller} {payload : Json} {old : Option Nat}
    (hs : Gated creatorId password h s) (hpasses : s.room.Passes c payload)
    (hroom : s'.room = s.room.enter c old) :
    Gated creatorId password (h ++ [⟨s, (env, .message c "JOIN_ROOM" payload), out, s'⟩]) s' := by
  have hlist : s'.room.authorizedUserId = s.room.authorizedUserId.insert c.userId := by
    rw [hroom]
    rfl
  have hbefore : ∀ userId, userId = creatorId ∨ (∃ e ∈ h, Supplies password userId e) →
      userId = creatorId ∨ ∃ e ∈ h ++ [⟨s, (env, .message c "JOIN_ROOM" payload), out, s'⟩],
        Supplies password userId e :=
    fun userId hor => hor.imp_right fun ⟨e, he, hsup⟩ => ⟨e, List.mem_append_left _ he, hsup⟩
  refine ⟨?_, fun userId hmem => ?_, fun k info hinfo => ?_⟩
  · rw [hroom]
    exact hs.secret
  · rw [hlist] at hmem
    rcases List.mem_insert_iff.mp hmem with rfl | hmem
    · rcases hpasses.supplied with hlisted | hread
      · exact hbefore c.userId (hs.listed c.userId hlisted)
      · refine .inr ⟨_, List.mem_append_right _ List.mem_cons_self, c, payload, rfl, rfl, ?_⟩
        rwa [← hs.secret]
    · exact hbefore userId (hs.listed userId hmem)
  · rw [hlist]
    rw [hroom, lookup_enter] at hinfo
    split at hinfo
    · obtain rfl := Option.some.inj hinfo
      exact List.mem_insert_self
    · split at hinfo
      · cases hinfo
      · exact List.mem_insert_of_mem (hs.seated k info hinfo)

/-- Each step keeps the list gated: the newcomer has supplied the password in it. -/
theorem Gated.step (hs : Gated creatorId password h s)
    (hstep : s.step (env, ev) = .ok (out, s')) :
    Gated creatorId password (h ++ [⟨s, (env, ev), out, s'⟩]) s' := by
  by_cases hjoin : ∃ c payload, ev = .message c "JOIN_ROOM" payload
  · obtain ⟨c, payload, rfl⟩ := hjoin
    have hens : Ensures (s.step (env, .message c "JOIN_ROOM" payload)) fun x =>
        x.2.room = s.room ∨ (s.room.Passes c payload ∧ ∃ old, x.2.room = s.room.enter c old) :=
      (ensures_receive_joinRoom (Q := fun r => r = s.room ∨ (s.room.Passes c payload ∧
        ∃ old, r = s.room.enter c old)) ensures_joinRoom_passes).bind fun _ h => .ok h
    rcases hens _ hstep with hroom | ⟨hpasses, old, hroom⟩
    · exact hs.of_sameList (hroom ▸ .refl s.room) (List.subset_append_left h _)
    · exact hs.enter hpasses hroom
  · exact hs.of_sameList ((step_cases hstep).change.sameList fun c payload he =>
      hjoin ⟨c, payload, he⟩) (List.subset_append_left h _)

/-- **The password gate**: every user in the room is the creator, or has supplied the
password. -/
theorem supplied_of_mem {s₀ : RoomState} {id : Nat} {creator name : String} {game : GameSlot}
    (h₀ : s₀.room = Room.new id creator creatorId name password game) (hr : RoomRun s₀ h s) :
    ∀ k info, s.room.connections.lookup k = some info →
      info.userId = creatorId ∨ ∃ e ∈ h, Supplies password info.userId e := by
  have hgated : Gated creatorId password h s := by
    induction hr with
    | nil =>
      rw [Room.new] at h₀
      refine ⟨by rw [h₀], fun userId hmem => ?_, fun k info hinfo => ?_⟩
      · rw [h₀] at hmem
        exact .inl (List.mem_singleton.mp hmem)
      · rw [h₀] at hinfo
        cases hinfo
    | snoc _ _ hstep ih => exact ih.step hstep
  exact fun k info hinfo => hgated.listed _ (hgated.seated k info hinfo)

end Gated

/-- A room of user 1 with a password. -/
def lockedRoom : RoomState := ⟨fun _ => none, Room.new 0 "a" 1 "" "open" (.splendor none)⟩

/-- User 2 tries without the password, and then with it. -/
def twoTries : List (Env × RoomEvent) :=
  [sends 2 "JOIN_ROOM" [("no_password", .bool true)],
    sends 2 "JOIN_ROOM" [("password", .str "open")]]

theorem exec_twoTries : execTo step lockedRoom twoTries
    (fun s => (s.room.connections.lookup 2).any fun info => decide (info.userId = 2)) = true := by
  decide +kernel

/-- User 2 is refused, and let in when the password comes with the request. -/
theorem supplied_of_twoTries : ∃ h s, RoomRun lockedRoom h s ∧
    h.map Entry.act = twoTries ∧ ∃ e ∈ h, Supplies "open" 2 e := by
  obtain ⟨h, s, hr, hacts, hcheck⟩ := exists_run_of_execTo exec_twoTries
  obtain ⟨info, hinfo, huser⟩ := (Option.any_eq_true _ _).mp hcheck
  have huser : info.userId = 2 := of_decide_eq_true huser
  have hcreated : lockedRoom.room = Room.new 0 "a" 1 "" "open" (.splendor none) := rfl
  have hgate := supplied_of_mem hcreated hr 2 info hinfo
  rw [huser] at hgate
  exact ⟨h, s, hr, hacts, hgate.resolve_left (by decide)⟩

end RoomState

end UnoppServer
