import UnoppServer.Lib.Avoids
import UnoppServer.Room.Completion
import UnoppServer.Room.Phases

/-!
# Rooms: which faults a room can run into

A payload that cannot be converted is an exception, and the operations of the games run
out of cards or out of bounds. Two faults are left to the rooms: a game that does not
exist is called (`nullPointer`), and a hand is sent to somebody who does not play
(`endIterator`). Everything below a room avoids both.
-/

namespace UnoppServer

open Assoc FindIf

/-- The faults that a room adds to those of its game and of the payload. -/
def Fault.OfRoom (e : Fault) : Prop := e = .nullPointer ∨ e = .endIterator

section Payload

theorem avoids_exception {α : Type} (what : String) :
    Avoids (.error (.exception what) : Except Fault α) Fault.OfRoom :=
  .error fun h => h.elim (fun h => nomatch h) fun h => nomatch h

theorem avoids_emptyQueue {α : Type} : Avoids (.error .emptyQueue : Except Fault α) Fault.OfRoom :=
  .error fun h => h.elim (fun h => nomatch h) fun h => nomatch h

theorem avoids_outOfBounds {α : Type} :
    Avoids (.error .outOfBounds : Except Fault α) Fault.OfRoom :=
  .error fun h => h.elim (fun h => nomatch h) fun h => nomatch h

theorem avoids_assertion {α : Type} : Avoids (.error .assertion : Except Fault α) Fault.OfRoom :=
  .error fun h => h.elim (fun h => nomatch h) fun h => nomatch h

theorem avoids_of_completes {α : Type} {r : Except Fault α} (h : Completes r) :
    Avoids r Fault.OfRoom := by
  obtain ⟨a, rfl⟩ := h
  exact .ok

theorem avoids_asInt (v : Json) : Avoids v.asInt Fault.OfRoom := by
  cases v with
  | int | uint | real => exact .ite (fun _ => .ok) fun _ => avoids_exception _
  | null | bool => exact .ok
  | str | arr | obj => exact avoids_exception _

theorem avoids_asBool (v : Json) : Avoids v.asBool Fault.OfRoom := by
  cases v with
  | str | arr | obj => exact avoids_exception _
  | _ => exact .ok

theorem avoids_asString (v : Json) : Avoids v.asString Fault.OfRoom := by
  cases v with
  | arr | obj => exact avoids_exception _
  | _ => exact .ok

theorem avoids_get (v : Json) (key : String) : Avoids (v.get key) Fault.OfRoom := by
  refine .bind ?_ fun _ _ => .ok
  cases v with
  | null | obj => exact .ok
  | _ => exact avoids_exception _

theorem avoids_item (v : Json) (index : Nat) : Avoids (v.item index) Fault.OfRoom := by
  cases v with
  | null | arr => exact .ok
  | _ => exact avoids_exception _

theorem avoids_set (v : Json) (key : String) (value : Json) :
    Avoids (v.set key value) Fault.OfRoom := by
  cases v with
  | null | obj => exact .ok
  | _ => exact avoids_exception _

end Payload

/-! ## The operations of the games -/

namespace Uno

section Operations

variable {u : Uno}

/-- The loop of `give_cards` raises none of the two faults. -/
theorem avoids_giveLoop (i : Nat) {count : Nat} {res : Card} :
    Avoids (giveLoop i count res u) Fault.OfRoom := by
  induction count generalizing res u with
  | zero => exact .ok
  | succ count ih =>
    unfold giveLoop
    cases u.deck with
    | nil => exact avoids_emptyQueue
    | cons card deck => exact ih

theorem avoids_give (i count : Nat) : Avoids (u.give i count) Fault.OfRoom := avoids_giveLoop i

theorem avoids_getLastCard : Avoids u.getLastCard Fault.OfRoom := by
  unfold getLastCard
  cases u.deck.getLast? with
  | none => exact avoids_emptyQueue
  | some card => exact .ok

theorem avoids_punishUnsaid : Avoids u.punishUnsaid Fault.OfRoom := by
  unfold punishUnsaid
  exact .ite (fun _ => (avoids_give _ _).bind fun _ _ => .ok) fun _ => .ok

theorem avoids_punishSaid : Avoids u.punishSaid Fault.OfRoom := by
  unfold punishSaid
  exact .ite (fun _ => (avoids_give _ _).bind fun _ _ => .ok) fun _ => .ok

theorem avoids_applyCard (card : Card) : Avoids (u.applyCard card) Fault.OfRoom := by
  unfold applyCard
  refine .ite (fun _ => (avoids_give _ _).bind fun _ _ => .ok) fun _ => ?_
  exact .ite (fun _ => .ok) fun _ => .ite (fun _ => .ok) fun _ => .ok

theorem avoids_play (playerId : Int) (card : Card) (specifiedColor : Int) :
    Avoids (u.play playerId card specifiedColor) Fault.OfRoom := by
  unfold play
  refine .ite (fun _ => .ok) fun _ => .ite (fun _ => .ok) fun _ => .ite (fun _ => .ok) fun _ => ?_
  refine .ite (fun _ => .ok) fun _ => avoids_punishUnsaid.bind fun r _ => ?_
  exact (avoids_applyCard card).bind fun _ _ => .ok

theorem avoids_drawOne (playerId : Int) : Avoids (u.drawOne playerId) Fault.OfRoom := by
  unfold drawOne
  refine .ite (fun _ => .ok) fun _ => .ite (fun _ => .ok) fun _ => .ite (fun _ => .ok) fun _ => ?_
  exact avoids_punishSaid.bind fun _ _ => (avoids_give _ _).bind fun _ _ => .ok

theorem avoids_sayUno (playerId : Int) : Avoids (u.sayUno playerId) Fault.OfRoom := by
  unfold sayUno
  cases u.seatOf playerId with
  | some r => exact (avoids_give _ _).bind fun _ _ => .ok
  | none => exact .ite (fun _ => (avoids_give _ _).bind fun _ _ => .ok) fun _ => .ok

theorem avoids_penalise (success : Bool) : Avoids (u.penalise success) Fault.OfRoom := by
  unfold penalise
  exact .ite (fun _ => (avoids_give _ _).bind fun _ _ => .ok)
    fun _ => (avoids_give _ _).bind fun _ _ => .ok

theorem avoids_suspect (playerId : Int) : Avoids (u.suspect playerId) Fault.OfRoom := by
  unfold suspect
  refine .ite (fun _ => .ok) fun _ => .ite (fun _ => .ok) fun _ => ?_
  refine (avoids_penalise _).bind fun u' _ => ?_
  split
  · exact avoids_outOfBounds
  · exact .ok

theorem avoids_dissuspect (playerId : Int) : Avoids (u.dissuspect playerId) Fault.OfRoom := by
  unfold dissuspect
  refine .ite (fun _ => .ok) fun _ => .ite (fun _ => .ok) fun _ => ?_
  exact (avoids_give _ _).bind fun _ _ => .ok

end Operations

end Uno

namespace Splendor

section Operations

variable {g : Game}

theorem avoids_readAt {n : Nat} (a : Vector Int n) (i : Int) :
    Avoids (readAt a i) Fault.OfRoom := by
  unfold readAt
  split
  · exact .ok
  · exact avoids_outOfBounds

theorem avoids_addAt {n : Nat} (a : Vector Int n) (i d : Int) :
    Avoids (addAt a i d) Fault.OfRoom := by
  unfold addAt
  split
  · exact .ok
  · exact avoids_outOfBounds

/-- A call that looks its player up raises none, when what it does with the player does not. -/
theorem avoids_find {player : Int} {f : Nat → Player → Except Fault (Bool × Game)}
    (h : ∀ it p, Avoids (f it p) Fault.OfRoom) :
    Avoids (match g.find player with
      | none => .ok (false, g)
      | some (it, p) => f it p) Fault.OfRoom := by
  cases g.find player with
  | none => exact .ok
  | some r => exact h r.1 r.2

/-- A call that looks for a coupon raises none, when what it does with the coupon does not. -/
theorem avoids_search {q : Coupon → Bool} {l : List Coupon}
    {f : Nat → Coupon → Except Fault (Bool × Game)}
    (h : ∀ slot c, Avoids (f slot c) Fault.OfRoom) :
    Avoids (match findIf q l with
      | none => .ok (false, g)
      | some (slot, c) => f slot c) Fault.OfRoom := by
  cases findIf q l with
  | none => exact .ok
  | some r => exact h r.1 r.2

theorem avoids_or {x y : Except Fault Bool} (hx : Avoids x Fault.OfRoom)
    (hy : Avoids y Fault.OfRoom) : Avoids (x <||> y) Fault.OfRoom := by
  refine hx.bind fun b _ => ?_
  cases b with
  | true => exact .ok
  | false => exact hy

theorem avoids_isOut (mine : Int) : Avoids (g.isOut mine) Fault.OfRoom := by
  unfold Game.isOut
  exact (avoids_readAt _ _).bind fun _ _ => .ok

/-- Taking three mines raises none: each index is checked before it is used. -/
theorem avoids_take3Mines (m₀ m₁ m₂ player : Int) :
    Avoids (g.take3Mines m₀ m₁ m₂ player) Fault.OfRoom := by
  refine avoids_find fun it p => .ite (fun _ => .ok) fun _ => .ite (fun _ => .ok) fun _ => ?_
  refine Avoids.bind ?_ fun _ _ => ?_
  · exact avoids_or (avoids_isOut _) (avoids_or (avoids_isOut _) (avoids_isOut _))
  refine .ite (fun _ => .ok) fun _ => .ite (fun _ => .ok) fun _ => ?_
  refine (avoids_addAt _ _ _).bind fun _ _ => (avoids_addAt _ _ _).bind fun _ _ =>
    (avoids_addAt _ _ _).bind fun _ _ => ?_
  exact (avoids_addAt _ _ _).bind fun _ _ => (avoids_addAt _ _ _).bind fun _ _ =>
    (avoids_addAt _ _ _).bind fun _ _ => .ok

theorem avoids_take2Mines (mine player : Int) :
    Avoids (g.take2Mines mine player) Fault.OfRoom := by
  refine avoids_find fun it p => .ite (fun _ => .ok) fun _ => (avoids_readAt _ _).bind fun _ _ => ?_
  refine .ite (fun _ => .ok) fun _ => .ite (fun _ => .ok) fun _ => ?_
  exact (avoids_addAt _ _ _).bind fun _ _ => (avoids_addAt _ _ _).bind fun _ _ => .ok

theorem avoids_reserveCoupon (couponIdx player : Int) :
    Avoids (g.reserveCoupon couponIdx player) Fault.OfRoom :=
  avoids_find fun _ _ => .ite (fun _ => .ok) fun _ => .ite (fun _ => .ok) fun _ =>
    avoids_search fun _ _ => .ok

theorem avoids_buyCoupon (couponIdx player : Int) :
    Avoids (g.buyCoupon couponIdx player) Fault.OfRoom := by
  refine avoids_find fun _ _ => .ite (fun _ => .ok) fun _ => avoids_search fun _ _ => ?_
  exact .ite (fun _ => .ok) fun _ => (avoids_addAt _ _ _).bind fun _ _ => .ok

theorem avoids_buyReservedCoupon (couponIdx player : Int) :
    Avoids (g.buyReservedCoupon couponIdx player) Fault.OfRoom := by
  refine avoids_find fun _ _ => .ite (fun _ => .ok) fun _ => avoids_search fun _ _ => ?_
  refine .ite (fun _ => .ok) fun _ => .ite (fun _ => avoids_assertion) fun _ => ?_
  exact (avoids_addAt _ _ _).bind fun _ _ => .ok

theorem avoids_returnMine (mine player : Int) :
    Avoids (g.returnMine mine player) Fault.OfRoom := by
  refine avoids_find fun _ _ => .ite (fun _ => .ok) fun _ => (avoids_readAt _ _).bind fun _ _ => ?_
  refine .ite (fun _ => .ok) fun _ => ?_
  exact (avoids_addAt _ _ _).bind fun _ _ => (avoids_addAt _ _ _).bind fun _ _ => .ok

/-- No call of Splendor raises one. -/
theorem avoids_step (op : Op) : Avoids (g.step op) Fault.OfRoom := by
  cases op with
  | take3Mines => exact avoids_take3Mines _ _ _ _
  | take2Mines => exact avoids_take2Mines _ _
  | reserveCoupon => exact avoids_reserveCoupon _ _
  | buyCoupon => exact avoids_buyCoupon _ _
  | buyReservedCoupon => exact avoids_buyReservedCoupon _ _
  | returnMine => exact avoids_returnMine _ _

end Operations

end Splendor

/-- The room sends the hands after the operation: a call that is answered, once the deck
has had the cards that it takes. -/
def Uno.Op.SendsHands (u : Uno) : Uno.Op → Prop
  | .play playerId card _ => u.Accepts playerId card ∧ u.playTakes card ≤ u.deckSize + 1
  | .drawOne _ => False
  | .skipAfterDrawingOne playerId => u.MaySkip playerId ∧ 0 < u.deckSize
  | .sayUno playerId => ¬ u.MaySay playerId ∧ 2 ≤ u.deckSize
  | .suspect playerId =>
    u.MayAnswer playerId ∧ (if u.isGuilty u.lastPlayer then 4 else 6) ≤ u.deckSize
  | .dissuspect playerId => u.MayAnswer playerId ∧ 4 ≤ u.deckSize

namespace Room

/-! ## Hands -/

section Hands

variable {env : Env} {r : Room} {u : Uno} {c : Caller}

/-- The only fault of `send_cards_in_hand` is a user who does not play. -/
theorem failsIff_sendCardsInHand :
    FailsIff (r.sendCardsInHand env u) Fault.OfRoom .endIterator (¬ r.AllSeated u) := by
  have hseated : Completes (r.sendCardsInHand env u) ↔ r.AllSeated u :=
    completes_sendCardsInHand_iff
  rw [← hseated]
  refine .of_only fun e => ?_
  unfold sendCardsInHand
  generalize r.members env = l
  induction l with
  | nil => exact fun h => nomatch h
  | cons p rest ih =>
    intro h
    rw [sendCardsTo] at h
    cases hcards : getCardsInHand u p.2.userId with
    | error e' =>
      rw [hcards] at h
      obtain rfl : e' = e := Except.error.inj h
      unfold getCardsInHand at hcards
      split at hcards
      · cases hcards
      · exact (Except.error.inj hcards).symm
    | ok cards =>
      rw [hcards] at h
      cases hrest : sendCardsTo u rest with
      | error e' =>
        obtain rfl : e' = e := by
          change (sendCardsTo u rest >>= _) = _ at h
          rw [hrest] at h
          exact Except.error.inj h
        exact ih hrest
      | ok out =>
        change (sendCardsTo u rest >>= _) = _ at h
        rw [hrest] at h
        cases h

theorem avoids_sendUnoInfo : Avoids (r.sendUnoInfo env u) Fault.OfRoom := by
  unfold sendUnoInfo unoGameInfo
  exact (Uno.avoids_getLastCard.bind fun _ _ => .ok).bind fun _ _ => .ok

theorem failsIff_sendUno :
    FailsIff (r.sendUno env u) Fault.OfRoom .endIterator (¬ r.AllSeated u) := by
  unfold sendUno
  exact failsIff_sendCardsInHand.bind fun _ _ => avoids_sendUnoInfo.bind fun _ _ => .ok

theorem avoids_checkUnoOver : Avoids (r.checkUnoOver env u) Fault.OfRoom := by
  unfold checkUnoOver unoGameResult
  split
  · exact .ok
  · exact (Uno.avoids_getLastCard.bind fun _ _ => .ok).bind fun _ _ => .ok

/-- The hands are sent after an operation that takes `k` cards. -/
theorem failsIff_takes (r : Room) {α β : Type} {x : Except Fault α} {state : α → Uno} {k : Nat}
    {f : α → Except Fault β} (hx : Uno.Takes u k x state) (havoids : Avoids x Fault.OfRoom)
    (hf : ∀ a, x = .ok a → FailsIff (f a) Fault.OfRoom .endIterator (¬ r.AllSeated (state a))) :
    FailsIff (x >>= f) Fault.OfRoom .endIterator (k ≤ u.deckSize ∧ ¬ r.AllSeated u) := by
  have hafter : FailsIff (x >>= f) Fault.OfRoom .endIterator ((∃ a, x = .ok a) ∧ ¬ r.AllSeated u) :=
    .after havoids fun a ha => (hf a ha).congr (not_congr (allSeated_congr (hx.spent a ha).kept))
  exact hafter.congr (and_congr_left' hx.yields)

/-- A play fails when it sends hands, and someone with an entry has no seat. -/
theorem failsIff_unoPlay (cardHash specifiedColor : Int) :
    FailsIff (r.unoPlay env u c cardHash specifiedColor) Fault.OfRoom .endIterator
      ((Uno.Op.play c.userId (int2Card cardHash) specifiedColor).SendsHands u ∧
        ¬ r.AllSeated u) := by
  unfold unoPlay
  by_cases hacc : u.Accepts c.userId (int2Card cardHash)
  · have hok := Uno.ensures_play u c.userId (int2Card cardHash) specifiedColor
    have hput : Uno.ids (u.putCard (int2Card cardHash)) = u.ids := Uno.ids_putCard ..
    refine (failsIff_takes r (Uno.takes_play hacc specifiedColor) (Uno.avoids_play _ _ _)
      fun a ha => ?_).congr ?_
    · obtain ⟨⟨success, punish⟩, u'⟩ := a
      obtain rfl : success = true := (hok _ ha).elim (fun h => absurd hacc h.2.2) fun h => h.1
      have hsend : FailsIff ((r.withUno u').sendUno env u') Fault.OfRoom .endIterator
        (¬ r.AllSeated u') := failsIff_sendUno
      exact (hsend.bind fun _ _ => .ok).bind fun _ _ => avoids_checkUnoOver.bind fun _ _ => .ok
    · rw [allSeated_congr hput, Uno.deckSize_putCard, Uno.Op.SendsHands, and_iff_right hacc]
  · rw [Uno.play_refused hacc specifiedColor]
    exact .of_avoids (avoids_checkUnoOver.bind fun _ _ => .ok) fun h => hacc h.1.1

/-- Drawing a card fails when it sends hands, and someone with an entry has no seat. -/
theorem failsIff_unoDrawOne :
    FailsIff (r.unoDrawOne env u c) Fault.OfRoom .endIterator
      ((Uno.Op.drawOne c.userId).SendsHands u ∧ ¬ r.AllSeated u) := by
  unfold unoDrawOne
  refine .of_avoids ((Uno.avoids_drawOne _).bind fun ⟨⟨card, punish⟩, u'⟩ _ => ?_) fun h => h.1
  cases card with
  | none => exact .ok
  | some card => exact avoids_sendUnoInfo.bind fun _ _ => .ok

/-- Skipping fails when it sends hands, and someone with an entry has no seat. -/
theorem failsIff_unoSkip :
    FailsIff (r.unoSkip env u c) Fault.OfRoom .endIterator
      ((Uno.Op.skipAfterDrawingOne c.userId).SendsHands u ∧ ¬ r.AllSeated u) := by
  unfold unoSkip
  by_cases hmay : u.MaySkip c.userId
  · rw [Uno.skip_accepted hmay]
    have hsend : FailsIff ((r.withUno u.skipped).sendCardsInHand env u.skipped) Fault.OfRoom
      .endIterator (¬ r.AllSeated u.skipped) := failsIff_sendCardsInHand
    -- an empty deck stops the state of the game, which is sent first
    have hafter : FailsIff ((r.withUno u.skipped).sendUnoInfo env u.skipped >>= fun info =>
        (r.withUno u.skipped).sendCardsInHand env u.skipped >>= fun cards =>
          .ok (info ++ cards, r.withUno u.skipped)) Fault.OfRoom .endIterator
        (Completes ((r.withUno u.skipped).sendUnoInfo env u.skipped) ∧
          ¬ r.AllSeated u.skipped) :=
      .after avoids_sendUnoInfo fun _ _ => hsend.bind fun _ _ => .ok
    refine hafter.congr ?_
    have hsize := (Uno.drawn_skipped u).size
    rw [completes_sendUnoInfo_iff, allSeated_congr (Uno.drawn_skipped u).kept,
      Uno.Op.SendsHands, and_iff_right hmay, ← hsize]
    rfl
  · rw [Uno.skip_refused hmay]
    exact .of_avoids .ok fun h => hmay h.1.1

/-- Saying UNO fails when it sends hands, and someone with an entry has no seat. -/
theorem failsIff_unoSayUno :
    FailsIff (r.unoSayUno env u c) Fault.OfRoom .endIterator
      ((Uno.Op.sayUno c.userId).SendsHands u ∧ ¬ r.AllSeated u) := by
  unfold unoSayUno
  by_cases hmay : u.MaySay c.userId
  · rw [Uno.sayUno_accepted hmay]
    exact .of_avoids .ok fun h => h.1.1 hmay
  · obtain ⟨htakes, hfalse⟩ := Uno.takes_sayUno hmay
    refine (failsIff_takes r htakes (Uno.avoids_sayUno _) fun a ha => ?_).congr ?_
    · obtain ⟨success, u'⟩ := a
      obtain rfl : success = false := hfalse _ ha
      have hsend : FailsIff ((r.withUno u').sendUno env u') Fault.OfRoom .endIterator
        (¬ r.AllSeated u') := failsIff_sendUno
      exact hsend.bind fun _ _ => .ok
    · rw [Uno.Op.SendsHands, and_iff_right hmay]

/-- A challenge fails when it sends hands, and someone with an entry has no seat. -/
theorem failsIff_unoSuspect :
    FailsIff (r.unoSuspect env u c) Fault.OfRoom .endIterator
      ((Uno.Op.suspect c.userId).SendsHands u ∧ ¬ r.AllSeated u) := by
  unfold unoSuspect
  by_cases hmay : u.MayAnswer c.userId
  · obtain ⟨htakes, hsome⟩ := Uno.takes_suspect hmay
    refine (failsIff_takes r htakes (Uno.avoids_suspect _) fun a ha => ?_).congr ?_
    · have hsome := (hsome _ ha).1
      obtain ⟨result, u'⟩ := a
      cases result with
      | none => cases hsome
      | some result =>
        have hsend : FailsIff ((r.withUno u').sendUno env u') Fault.OfRoom .endIterator
          (¬ r.AllSeated u') := failsIff_sendUno
        exact hsend.bind fun _ _ => .ok
    · rw [Uno.Op.SendsHands, and_iff_right hmay]
  · rw [Uno.suspect_refused hmay]
    exact .of_avoids .ok fun h => hmay h.1.1

/-- Giving up a challenge fails when it sends hands, and someone with an entry has no seat. -/
theorem failsIff_unoDissuspect :
    FailsIff (r.unoDissuspect env u c) Fault.OfRoom .endIterator
      ((Uno.Op.dissuspect c.userId).SendsHands u ∧ ¬ r.AllSeated u) := by
  unfold unoDissuspect
  by_cases hmay : u.MayAnswer c.userId
  · obtain ⟨htakes, htrue⟩ := Uno.takes_dissuspect hmay
    refine (failsIff_takes r htakes (Uno.avoids_dissuspect _) fun a ha => ?_).congr ?_
    · have htrue := (htrue _ ha).1
      obtain ⟨success, u'⟩ := a
      obtain rfl : success = true := htrue
      have hsend : FailsIff ((r.withUno u').sendUno env u') Fault.OfRoom .endIterator
        (¬ r.AllSeated u') := failsIff_sendUno
      exact hsend.bind fun _ _ => .ok
    · rw [Uno.Op.SendsHands, and_iff_right hmay]
  · rw [Uno.dissuspect_refused hmay]
    exact .of_avoids .ok fun h => hmay h.1.1

end Hands

/-! ## Messages -/

/-- The faults of the rooms that an operation of Uno runs into. -/
def UnoFault (r : Room) (unoGame : Option Uno) (e : Fault) (op : Uno.Op) : Prop :=
  (unoGame = none ∧ e = .nullPointer) ∨
    ∃ u, unoGame = some u ∧ e = .endIterator ∧ op.SendsHands u ∧ ¬ r.AllSeated u

/-- The event asks for an operation that runs into the fault. -/
def Blamed (r : Room) (e : Fault) : RoomEvent → Prop
  | .message c messageType payload =>
    match r.game with
    | .uno unoGame => ∃ op, unoRequest c.userId messageType payload = .ok (some op) ∧
      r.UnoFault unoGame e op
    | .splendor game => ∃ op, splendorRequest c.userId messageType payload = .ok (some op) ∧
      game = none ∧ e = .nullPointer
    | .gomoku .. => False
  | _ => False

section Messages

variable {env : Env} {r : Room} {c : Caller} {messageType : String} {payload : Json} {e : Fault}

/-- Without a game a message follows a null pointer, and with one its handler decides. -/
theorem onUno_error_iff {α : Type} {unoGame : Option Uno} {op : Uno.Op} {f : Uno → Except Fault α}
    (he : e.OfRoom) (hf : ∀ u, FailsIff (f u) Fault.OfRoom .endIterator
      (op.SendsHands u ∧ ¬ r.AllSeated u)) :
    onUno unoGame f = .error e ↔ r.UnoFault unoGame e op := by
  unfold UnoFault
  cases unoGame with
  | none =>
    constructor
    · intro h
      exact .inl ⟨rfl, (Except.error.inj h).symm⟩
    · rintro (⟨-, rfl⟩ | ⟨u, h, -⟩)
      · rfl
      · cases h
  | some u =>
    refine (hf u e he).trans ⟨fun h => .inr ⟨u, rfl, h⟩, ?_⟩
    rintro (⟨h, -⟩ | ⟨u', hu, h⟩)
    · cases h
    · obtain rfl := Option.some.inj hu
      exact h

/-- **A message of Uno** runs into a fault of a room iff it asks for an operation that
does. -/
theorem blames_unoMessage (he : e.OfRoom) (unoGame : Option Uno) (messageType : String)
    (payload : Json) :
    Blames e (unoRequest c.userId messageType payload)
      (r.unoMessage env unoGame c messageType payload) (r.UnoFault unoGame e) := by
  have hop {op : Uno.Op} {f : Uno → Except Fault (Outbox × Room)}
      (hf : ∀ u, FailsIff (f u) Fault.OfRoom .endIterator (op.SendsHands u ∧ ¬ r.AllSeated u)) :
      Blames e (.ok (some op)) (onUno unoGame f) (r.UnoFault unoGame e) :=
    .read (onUno_error_iff he hf)
  unfold unoMessage unoRequest
  refine .ite (fun _ => ?_) fun _ => ?_
  · refine .bind ((avoids_get _ _).ne_error he) fun _ => .bind ((avoids_asInt _).ne_error he)
      fun cardHash => ?_
    refine .bind ((avoids_get _ _).ne_error he) fun _ => .bind ((avoids_asInt _).ne_error he)
      fun specifiedColor => ?_
    exact hop fun u => failsIff_unoPlay cardHash specifiedColor
  refine .ite (fun _ => hop fun u => failsIff_unoDrawOne) fun _ => ?_
  refine .ite (fun _ => hop fun u => failsIff_unoSkip) fun _ => ?_
  refine .ite (fun _ => hop fun u => failsIff_unoSayUno) fun _ => ?_
  refine .ite (fun _ => hop fun u => failsIff_unoSuspect) fun _ => ?_
  exact .ite (fun _ => hop fun u => failsIff_unoDissuspect) fun _ => .nothing

/-- A call of a member function of a game of Splendor. -/
theorem splendorCall_error_iff {game : Option Splendor.Game} {op : Splendor.Op} (he : e.OfRoom) :
    r.splendorCall env game op = .error e ↔ game = none ∧ e = .nullPointer := by
  unfold splendorCall
  cases game with
  | none =>
    constructor
    · intro h
      exact ⟨rfl, (Except.error.inj h).symm⟩
    · rintro ⟨-, rfl⟩
      rfl
  | some g =>
    have havoids := (Splendor.avoids_step (g := g) op).bind fun a _ =>
      Avoids.ok (a := (if a.1 then (r.withSplendor a.2).sendSplendorInfo env a.2 else [],
        r.withSplendor a.2))
    exact iff_of_false (havoids.ne_error he) fun h => nomatch h.1

/-- A purchase fails only on the null pointer. -/
theorem splendorPurchase_error_iff {game : Option Splendor.Game} {op : Splendor.Op}
    (he : e.OfRoom) :
    r.splendorPurchase env game op = .error e ↔ game = none ∧ e = .nullPointer := by
  cases game with
  | none =>
    constructor
    · intro h
      exact ⟨rfl, (Except.error.inj h).symm⟩
    · rintro ⟨-, rfl⟩
      rfl
  | some g =>
    have havoids : Avoids (r.splendorPurchase env (some g) op) Fault.OfRoom := by
      unfold splendorPurchase
      refine (Splendor.avoids_step op).bind fun a _ => .ite (fun _ => ?_) fun _ => .ok
      cases a.2.checkWinner with
      | none | some => exact .ok
    exact iff_of_false (havoids.ne_error he) fun h => nomatch h.1

/-- **A message of Splendor** runs into a fault of a room iff it asks for an operation
while there is no game. -/
theorem blames_splendorMessage (he : e.OfRoom) (game : Option Splendor.Game)
    (messageType : String) (payload : Json) :
    Blames e (splendorRequest c.userId messageType payload)
      (r.splendorMessage env game c messageType payload)
      fun _ => game = none ∧ e = .nullPointer := by
  have hint {key : String} {op : Int → Splendor.Op} {f : Int → Except Fault (Outbox × Room)}
      (hf : ∀ i, f i = .error e ↔ game = none ∧ e = .nullPointer) :
      Blames e (intRequest key op payload) (do f (← (← payload.get key).asInt))
        fun _ => game = none ∧ e = .nullPointer :=
    .bind ((avoids_get _ _).ne_error he) fun _ => .bind ((avoids_asInt _).ne_error he) fun i =>
      .read (hf i)
  unfold splendorMessage splendorRequest
  refine .ite (fun _ => hint fun _ => splendorCall_error_iff he) fun _ => ?_
  refine .ite (fun _ => ?_) fun _ => ?_
  · unfold splendorTake3 take3Request
    refine .bind ((avoids_get _ _).ne_error he) fun mines => .ite (fun _ => ?_) fun _ => .nothing
    refine .bind ((avoids_item _ _).ne_error he) fun _ => .bind ((avoids_asInt _).ne_error he)
      fun _ => .bind ((avoids_item _ _).ne_error he) fun _ => ?_
    refine .bind ((avoids_asInt _).ne_error he) fun _ => .bind ((avoids_item _ _).ne_error he)
      fun _ => .bind ((avoids_asInt _).ne_error he) fun _ => ?_
    exact .read (splendorCall_error_iff he)
  refine .ite (fun _ => hint fun _ => splendorPurchase_error_iff he) fun _ => ?_
  refine .ite (fun _ => hint fun _ => splendorCall_error_iff he) fun _ => ?_
  refine .ite (fun _ => hint fun _ => splendorPurchase_error_iff he) fun _ => ?_
  exact .ite (fun _ => hint fun _ => splendorCall_error_iff he) fun _ => .nothing

/-- The base class runs into no fault of a room. -/
theorem avoids_joinRoom (userRooms : UserRooms) :
    Avoids (r.joinRoom env userRooms c payload) Fault.OfRoom := by
  unfold joinRoom
  refine .ite (fun _ => .ok) fun _ => .ite (fun _ => .ok) fun _ => ?_
  refine (avoids_get _ _).bind fun _ _ => (avoids_asBool _).bind fun noPassword _ => ?_
  refine .bind ?_ fun _ _ => .ite (fun _ => .ok) fun _ => .ite (fun _ => .ok) fun _ => .ok
  unfold passwordIncorrect
  refine .ite (fun _ => .ok) fun _ => ?_
  exact (avoids_get _ _).bind fun _ _ => (avoids_asString _).bind fun _ _ => .ok

theorem avoids_chatMessage : Avoids (r.chatMessage env c payload) Fault.OfRoom := by
  unfold chatMessage
  refine (avoids_get _ _).bind fun _ _ => (avoids_set _ _ _).bind fun _ _ => ?_
  refine (avoids_set _ _ _).bind fun _ _ => (avoids_set _ _ _).bind fun _ _ => ?_
  exact (avoids_set _ _ _).bind fun _ _ => .ok

theorem avoids_gamePrepare (info : UserInfo) :
    Avoids (r.gamePrepare env (onEveryonePrepared env) c.connId info payload) Fault.OfRoom := by
  unfold gamePrepare
  refine (avoids_get _ _).bind fun _ _ => (avoids_asBool _).bind fun _ _ => ?_
  refine .ite (fun _ => ?_) fun _ => .ok
  exact (avoids_of_completes completes_onEveryonePrepared).bind fun _ _ => .ok

/-- The other messages raise none of the two faults. -/
theorem avoids_processMessage (userRooms : UserRooms) (messageType : String) :
    Avoids (r.processMessage env (onEveryonePrepared env) userRooms c messageType payload)
      Fault.OfRoom := by
  unfold processMessage
  refine .ite (fun _ => avoids_joinRoom userRooms) fun _ => ?_
  cases r.connections.lookup c.connId with
  | none => exact .ok
  | some info =>
    refine .ite (fun _ => avoids_chatMessage.bind fun _ _ => .ok) fun _ => ?_
    exact .ite (fun _ => (avoids_gamePrepare info).bind fun _ _ => .ok) fun _ => .ok

/-- What runs into a fault asks for an operation. -/
theorem Blamed.asks {event : RoomEvent} (h : r.Blamed e event) : r.Asks event := by
  cases event with
  | message c messageType payload =>
    unfold Blamed at h
    unfold Asks
    cases hgame : r.game with
    | uno unoGame =>
      simp only [hgame] at h
      obtain ⟨op, hop, -⟩ := h
      exact ⟨op, hop⟩
    | splendor game =>
      simp only [hgame] at h
      obtain ⟨op, hop, -⟩ := h
      exact ⟨op, hop⟩
    | gomoku =>
      simp only [hgame] at h
  | close | update | elsewhere => exact h

/-- Which message of a game is to blame for which fault. -/
theorem gameMessage_error_iff (he : e.OfRoom) (hcards : r.PlaysCards) :
    r.gameMessage env c messageType payload = .error e ↔
      r.Blamed e (.message c messageType payload) := by
  unfold gameMessage Blamed
  unfold PlaysCards at hcards
  cases hgame : r.game with
  | uno unoGame => exact blames_unoMessage he unoGame messageType payload
  | splendor game => exact blames_splendorMessage he game messageType payload
  | gomoku =>
    rw [hgame] at hcards
    exact hcards.elim

end Messages

end Room

open Room

namespace RoomState

/-- **A step** of a room of cards runs into a fault of a room iff its event asks for an
operation that does, as long as the state of a running game can be sent. -/
theorem step_error_iff {env : Env} {s : RoomState} {event : RoomEvent} {e : Fault} (he : e.OfRoom)
    (hcards : s.room.PlaysCards)
    (hstate : ∀ s', Change env s event s' → s'.Playing → s'.room.sendState env ≠ .error e) :
    s.step (env, event) = .error e ↔ s.room.Blamed e event := by
  cases event with
  | message c messageType payload =>
    have hok {α β : Type} {x : Except Fault α} {f : α → β} :
        (x >>= fun a => .ok (f a)) = .error e ↔ x = .error e :=
      Avoids.bind_eq_error_iff (E := Fault.OfRoom) he fun _ _ => .ok
    refine hok.trans ?_
    unfold receive
    by_cases hmsg : s.room.isGameMessage messageType = true
    · rw [if_pos hmsg]
      exact hok.trans (gameMessage_error_iff he hcards)
    · rw [if_neg hmsg]
      have hbase : s.room.isGameMessage messageType = false := Bool.eq_false_of_not_eq_true hmsg
      refine iff_of_false (fun h => ?_) fun h => not_asks_of_isGameMessage hbase h.asks
      have hspec : Ensures (s.room.processMessage env (onEveryonePrepared env) s.userRooms c
          messageType payload) fun r =>
            Spec env s (.message c messageType payload) (r.1, ⟨r.2.1, r.2.2⟩) :=
        ensures_processMessage_spec hbase
      have havoids : Avoids (s.room.processMessage env (onEveryonePrepared env) s.userRooms c
          messageType payload) Fault.OfRoom := avoids_processMessage s.userRooms messageType
      cases hbody : s.room.processMessage env (onEveryonePrepared env) s.userRooms c messageType
          payload with
      | error e' =>
        rw [hbody] at h
        obtain rfl : e' = e := Except.error.inj h
        exact havoids.ne_error he hbody
      | ok r =>
        rw [hbody] at h
        change (if r.2.2.sendsState c messageType = true then _ else _) = _ at h
        split at h
        · rename_i hsends
          have hon : r.2.2.isGameOn = true :=
            (Bool.and_eq_true_iff.mp (Bool.and_eq_true_iff.mp hsends).1).2
          exact hstate ⟨r.2.1, r.2.2⟩ (hspec r hbody).change hon (hok.mp h)
        · cases h
  | close | elsewhere => exact iff_of_false (fun h => nomatch h) fun h => h
  | update =>
    refine iff_of_false (fun h => ?_) fun h => h
    unfold step at h
    dsimp only at h
    split at h
    · cases h
    · cases h

end RoomState

end UnoppServer
