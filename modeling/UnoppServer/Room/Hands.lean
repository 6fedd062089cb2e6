import UnoppServer.Room.GameExists
import UnoppServer.Uno.Turn

/-!
# Rooms: whose hands are sent

`send_cards_in_hand` looks up every user in the room among the players of `uno_game`. The
players are those who were in the room when the game began, and while it is on nobody
but they can join (`Change.seating`). After its end anybody can, and the game still
answers.

- `handsOwned_iff`: every hand that is sent belongs to a player exactly when nobody asks
  for the hands, between two games, while somebody is there who has not played.
-/

namespace UnoppServer

open Assoc FindIf Runs Room

/-- The caller, if there is one, has the name that belongs to the user. -/
def RoomEvent.Named (nameOf : Int → String) : RoomEvent → Prop
  | .message c _ _ => c.userName = nameOf c.userId
  | _ => True

namespace Room

/-- The room sends the hands of the game after the event. -/
def ShowsHands (r : Room) : RoomEvent → Prop
  | .message c messageType payload =>
    match r.game with
    | .uno unoGame => ∃ u op, unoGame = some u ∧
      unoRequest c.userId messageType payload = .ok (some op) ∧ op.SendsHands u
    | _ => False
  | _ => False

/-- Everybody in the room plays the last game of Uno. -/
def OnlyPlayers (r : Room) : Prop :=
  ∀ u, r.game = .uno (some u) → r.AllSeated u

/-- The members have the names that belong to the users. -/
def NamedMembers (nameOf : Int → String) (r : Room) : Prop :=
  ∀ k info, r.connections.lookup k = some info → info.userName = nameOf info.userId

section Seats

variable {env : Env} {r r' : Room} {nameOf : Int → String}

/-- The state of a game is sent to its players. -/
theorem sendState_ne_endIterator (h : r.OnlyPlayers) : r.sendState env ≠ .error .endIterator := by
  unfold sendState
  cases hslot : r.game with
  | uno unoGame =>
    cases unoGame with
    | none => exact fun h => nomatch h
    | some u => exact fun he => ((failsIff_sendUno _ (.inr rfl)).mp he).2 (h u hslot)
  | splendor game =>
    cases game with
    | none | some => exact fun h => nomatch h
  | gomoku => exact fun h => nomatch h

/-- An operation sends a hand to somebody who does not play iff it sends the hands and
somebody is there who does not. -/
theorem blamed_endIterator_iff {event : RoomEvent} :
    r.Blamed .endIterator event ↔ r.ShowsHands event ∧ ¬ r.OnlyPlayers := by
  cases event with
  | message c messageType payload =>
    unfold Blamed ShowsHands OnlyPlayers
    cases hslot : r.game with
    | uno unoGame =>
      dsimp only
      constructor
      · rintro ⟨op, hop, ⟨-, h⟩ | ⟨u, rfl, -, hsends, hseats⟩⟩
        · cases h
        · exact ⟨⟨u, op, rfl, hop, hsends⟩, fun h => hseats (h u rfl)⟩
      · rintro ⟨⟨u, op, rfl, hop, hsends⟩, hseats⟩
        refine ⟨op, hop, .inr ⟨u, rfl, rfl, hsends, fun h => hseats fun u' hu' => ?_⟩⟩
        cases hu'
        exact h
    | splendor game =>
      refine iff_of_false ?_ fun h => h.1
      rintro ⟨_, _, _, h⟩
      cases h
    | gomoku => exact iff_of_false (fun h => h) fun h => h.1
  | close | update | elsewhere => exact iff_of_false (fun h => h) fun h => h.1

/-- A seat that is there was there. -/
theorem SameSeats.seat_mem (h : SameSeats r r') {k : Nat} {info' : UserInfo}
    (hlook : r'.connections.lookup k = some info') :
    ∃ info, r.connections.lookup k = some info ∧ info'.seat = info.seat := by
  have hseat := h.seat k
  rw [hlook] at hseat
  cases hr : r.connections.lookup k with
  | none =>
    rw [hr] at hseat
    cases hseat
  | some info =>
    rw [hr] at hseat
    exact ⟨info, rfl, Option.some.inj hseat⟩

theorem SameSeats.named (h : SameSeats r r') (hn : r.NamedMembers nameOf) :
    r'.NamedMembers nameOf := by
  intro k info' hlook
  obtain ⟨info, hinfo, hseat⟩ := h.seat_mem hlook
  obtain ⟨hname, hid⟩ := Prod.mk.inj hseat
  rw [hname, hid]
  exact hn k info hinfo

theorem SameSeats.allSeated (h : SameSeats r r') {u u' : Uno} (hu : r.AllSeated u)
    (hids : u'.ids = u.ids) : r'.AllSeated u' := by
  intro k info' hlook
  obtain ⟨info, hinfo, hseat⟩ := h.seat_mem hlook
  rw [hids, (Prod.mk.inj hseat).2]
  exact hu k info hinfo

/-- Who comes back to a running game plays it. -/
theorem Admits.onlyPlayers {userRooms userRooms' : UserRooms} {c : Caller}
    (h : r.Admits env userRooms c userRooms' r') (hinj : Function.Injective nameOf)
    (hn : r.NamedMembers nameOf) (hc : c.userName = nameOf c.userId)
    (hplayers : r.isGameOn = true → r.OnlyPlayers) (hon : r'.isGameOn = true) :
    r'.OnlyPlayers := by
  have hon' : r.isGameOn = true := by rwa [h.room] at hon
  have hgame : r'.game = r.game := by rw [h.room]; rfl
  intro u hu k info hlook
  have hseats := hplayers hon' u (hgame.symm.trans hu)
  rcases h.cases hlook with rfl | hlook
  · obtain ⟨k₀, hold⟩ := Option.ne_none_iff_exists'.mp (h.game hon')
    obtain ⟨info₀, hlook₀, hname⟩ := lookup_oldConnId hold
    have hid : info₀.userId = c.userId := hinj (by rw [← hn k₀ info₀ hlook₀, hname, hc])
    show c.userId ∈ u.ids
    exact hid ▸ hseats k₀ info₀ hlook₀
  · exact hseats k info hlook

/-- A new game is played by everybody in the room. -/
theorem NewGame.onlyPlayers {game : GameSlot} {isGameOn : Bool} (h : NewGame env r game) :
    ({ r with isGameOn := isGameOn, game := game } : Room).clearPrepared.OnlyPlayers := by
  rintro u hu k info hlook
  change game = .uno (some u) at hu
  subst hu
  cases h with
  | uno _ _ hnew =>
    change (mapValues _ r.connections).lookup k = some info at hlook
    rw [lookup_mapValues] at hlook
    obtain ⟨info₀, hlook₀, rfl⟩ := Option.map_eq_some_iff.mp hlook
    refine (Uno.ids_new _ hnew).mem_iff.mpr ?_
    exact List.mem_map.mpr ⟨(k, info₀), mem_ranked.mpr hlook₀, rfl⟩

/-- An operation keeps the players. -/
theorem GameStep.onlyPlayers {event : RoomEvent} {game : GameSlot}
    (h : GameStep env r event game) (hplayers : r.OnlyPlayers) :
    ({ r with game := game } : Room).OnlyPlayers := by
  rintro u hu
  change game = .uno (some u) at hu
  subst hu
  cases h with
  | @uno c messageType payload u₀ _ op b hgame hop hstep =>
    have hids : u.ids = u₀.ids := by
      rcases Uno.step_cases hstep with ⟨-, rfl, -⟩ | heffect
      · rfl
      · exact Uno.ids_effect heffect
    exact (allSeated_congr hids).mpr (hplayers u₀ hgame)

end Seats

end Room

namespace RoomState

/-- An event that admits nobody and removes nobody keeps the seats. -/
theorem Change.seats_cases {env : Env} {s s' : RoomState} {e : RoomEvent}
    (h : Change env s e s') :
    SameSeats s.room s'.room ∨
    (∃ c payload, e = .message c "JOIN_ROOM" payload ∧
      s.room.Admits env s.userRooms c s'.userRooms s'.room) ∨
    (s.room.isGameOn = false ∧ s'.room.isGameOn = false ∧
      ∃ k, s'.room.connections = s.room.connections.erase k) := by
  cases h with
  | stays | elsewhere => exact .inl (.refl _)
  | joins hadmits => exact .inr (.inl ⟨_, _, rfl, hadmits⟩)
  | prepares hinfo => exact .inl (sameSeats_insert hinfo rfl)
  | @starts c payload info prepared game hinfo =>
    have hset := sameSeats_setPrepared hinfo prepared
    have hgame : GameOnly (s.room.setPrepared c.connId info prepared)
      { s.room.setPrepared c.connId info prepared with isGameOn := true, game := game } :=
      ⟨game, true, rfl⟩
    exact .inl (hset.trans (hgame.sameSeats.trans (sameSeats_clearPrepared _)))
  | @plays _ game =>
    have hgame : GameOnly s.room { s.room with game := game } := ⟨game, s.room.isGameOn, rfl⟩
    exact .inl hgame.sameSeats
  | @finishes _ game =>
    have hgame : GameOnly s.room { s.room with game := game, isGameOn := false } :=
      ⟨game, false, rfl⟩
    exact .inl hgame.sameSeats
  | offline hinfo => exact .inl (sameSeats_insert hinfo rfl)
  | leaves _ hon => exact .inr (.inr ⟨hon, hon, _, rfl⟩)

/-- What is known of a room of cards whose members have fixed names: while a game is on,
everybody plays it. -/
structure Seating (nameOf : Int → String) (s : RoomState) : Prop where
  cards : s.Cards
  named : s.room.NamedMembers nameOf
  players : s.Playing → s.room.OnlyPlayers

section Change

variable {env : Env} {s s' : RoomState} {e : RoomEvent} {nameOf : Int → String}

/-- Users keep their names in the room. -/
theorem Change.named (h : Change env s e s') (hn : s.room.NamedMembers nameOf)
    (he : e.Named nameOf) : s'.room.NamedMembers nameOf := by
  rcases h.seats_cases with hsame | ⟨c, payload, rfl, hadmits⟩ | ⟨-, -, k₀, hconnections⟩
  · exact hsame.named hn
  · intro k info hlook
    rcases hadmits.cases hlook with rfl | hlook
    · exact he
    · exact hn k info hlook
  · intro k info hlook
    rw [hconnections, lookup_erase_eq] at hlook
    split at hlook
    · cases hlook
    · exact hn k info hlook

/-- **The players** are the members of the room when the game begins, and stay the only
ones while it is on. -/
theorem Change.players (hinj : Function.Injective nameOf) (h : Change env s e s')
    (hs : s.Seating nameOf) (he : e.Named nameOf) (hon : s'.Playing) : s'.room.OnlyPlayers := by
  cases h with
  | stays | elsewhere => exact hs.players hon
  | joins hadmits => exact hadmits.onlyPlayers hinj hs.named he hs.players hon
  | prepares hinfo =>
    exact fun u hu => (sameSeats_setPrepared hinfo _).allSeated (hs.players hon u hu) rfl
  | starts _ _ hgame => exact hgame.onlyPlayers
  | plays hgame => exact hgame.onlyPlayers (hs.players hon)
  | finishes => cases hon
  | @offline connId info hinfo =>
    have hsame : SameSeats s.room { s.room with
        connections := s.room.connections.insert connId { info with offline := true } } :=
      sameSeats_insert hinfo rfl
    exact fun u hu => hsame.allSeated (hs.players hon u hu) rfl
  | leaves _ hoff => exact absurd (hoff.symm.trans hon) Bool.false_ne_true

theorem Change.seating (hinj : Function.Injective nameOf) (h : Change env s e s')
    (hs : s.Seating nameOf) (he : e.Named nameOf) : s'.Seating nameOf :=
  ⟨(h.hasGame_iff hs.cards).1, h.named hs.named he, h.players hinj hs he⟩

/-- **One event** makes the room look for the hand of somebody who does not play iff it
makes the room send the hands, between two games, while somebody is there who does not. -/
theorem step_endIterator_iff (hinj : Function.Injective nameOf) (hs : s.Seating nameOf)
    (he : e.Named nameOf) : s.step (env, e) = .error .endIterator ↔
      ¬ s.Playing ∧ s.room.ShowsHands e ∧ ¬ s.room.OnlyPlayers := by
  have hoff : s.room.ShowsHands e ∧ ¬ s.room.OnlyPlayers → ¬ s.Playing :=
    fun h hon => h.2 (hs.players hon)
  rw [and_iff_right_of_imp hoff, ← blamed_endIterator_iff]
  refine step_error_iff (.inr rfl) hs.cards fun s' hchange hon => ?_
  exact sendState_ne_endIterator ((hchange.seating hinj hs he).players hon)

end Change

section Run

variable {s₀ s : RoomState} {h : RoomHistory} {nameOf : Int → String}

theorem Fresh.seating (h₀ : s₀.Fresh) (hcards : s₀.Cards) : s₀.Seating nameOf := by
  refine ⟨hcards, fun k info hlook => ?_, fun hon => absurd hon h₀.not_playing⟩
  obtain ⟨id, creator, creatorId, name, password, roomType, slot, -, hroom⟩ := h₀
  rw [hroom] at hlook
  cases hlook

/-- A run in which no user is renamed. -/
theorem Seating.of_run (hinj : Function.Injective nameOf) (h₀ : s₀.Fresh) (hcards : s₀.Cards)
    (hr : RoomRun s₀ h s) (hnamed : ∀ x ∈ h, x.act.2.Named nameOf) : s.Seating nameOf := by
  induction hr with
  | nil => exact h₀.seating hcards
  | @snoc l s s' a b _ _ hstep ih =>
    have hs := ih fun x hx => hnamed x (List.mem_append_left _ hx)
    have ha : a.2.Named nameOf := hnamed _ (List.mem_append_right _ List.mem_cons_self)
    exact (step_cases hstep).change.seating hinj hs ha

/-- No hand is sent to somebody who does not play while the events are handled. -/
def HandsOwned (s₀ : RoomState) (as : List (Env × RoomEvent)) : Prop :=
  exec step s₀ as ≠ .error .endIterator

/-- **Every hand that is sent belongs to a player** exactly when nobody asks for the
hands, between two games, while somebody is there who has not played. -/
theorem handsOwned_iff (hinj : Function.Injective nameOf) (h₀ : s₀.Fresh) (hcards : s₀.Cards)
    {as : List (Env × RoomEvent)} (hnamed : ∀ a ∈ as, a.2.Named nameOf) :
    HandsOwned s₀ as ↔ ∀ h s a post, RoomRun s₀ h s → as = h.map Entry.act ++ a :: post →
      ¬ s.Playing → s.room.ShowsHands a.2 → s.room.OnlyPlayers := by
  refine exec_ne_error_iff fun h s a post hr he => ?_
  rw [he, List.forall_mem_append, List.forall_mem_cons, List.forall_mem_map] at hnamed
  rw [Classical.not_imp, Classical.not_imp]
  exact step_endIterator_iff hinj (.of_run hinj h₀ hcards hr hnamed.1) hnamed.2.1

end Run

theorem named_sends (k : Nat) (messageType : String) (fields : List (String × Json)) :
    (sends k messageType fields).2.Named tally := rfl

theorem named_unoWon : ∀ a ∈ threeStart ++ unoRounds ++ [playsCard 2 4], a.2.Named tally := by
  simp only [threeStart, unoRounds, playsCard, prepares, List.map_cons, List.map_nil,
    List.flatMap_cons, List.flatMap_nil, List.cons_append, List.nil_append, List.forall_mem_cons,
    named_sends, true_and]
  exact fun _ h => nomatch h

/-- A game with three players, in which each sees only the hand of the own seat. -/
theorem handsOwned_iff_unoWon :
    HandsOwned (roomOf (.uno none)) (threeStart ++ unoRounds ++ [playsCard 2 4]) ∧
    (HandsOwned (roomOf (.uno none)) (threeStart ++ unoRounds ++ [playsCard 2 4]) ↔
      ∀ h s a post, RoomRun (roomOf (.uno none)) h s →
        threeStart ++ unoRounds ++ [playsCard 2 4] = h.map Entry.act ++ a :: post →
          ¬ s.Playing → s.room.ShowsHands a.2 → s.room.OnlyPlayers) := by
  refine ⟨fun hfault => ?_, handsOwned_iff tally_injective fresh_uno trivial named_unoWon⟩
  obtain ⟨s, hs, -⟩ := exists_of_execTo exec_unoWon
  cases hfault.symm.trans hs

/-- User 2 wins, user 4 joins and says UNO, for the next player. -/
theorem uno_sends_hand_of_newcomer : ¬ HandsOwned (roomOf (.uno none)) (threeStart ++ unoRounds ++
    [playsCard 2 4, sends 4 "JOIN_ROOM" [], sends 4 "UNO_SAY_UNO" []]) := by
  have hfault : (match exec step (roomOf (.uno none)) (threeStart ++ unoRounds ++
      [playsCard 2 4, sends 4 "JOIN_ROOM" [], sends 4 "UNO_SAY_UNO" []]) with
      | .error e => decide (e = .endIterator)
      | .ok _ => false) = true := by
    decide +kernel
  split at hfault
  · rename_i e he
    obtain rfl := of_decide_eq_true hfault
    exact not_not.mpr he
  · cases hfault

end RoomState

end UnoppServer
