import UnoppServer.Json.Fields
import UnoppServer.Room.Requests
import UnoppServer.Uno.Deal

/-!
# Rooms: messages of Uno that are handled to the end

A message to an Uno room is handled to the end iff the members of the payload
that it reads can be converted, a game exists, and the operation that it asks
for has what it needs (`UnoOpOk`): the deck has the cards that are drawn and one
more to show, and every connection of the room belongs to a player. The start of
a game always completes.
-/

namespace UnoppServer

open Assoc FindIf

namespace Room

/-! ## Uno: what is sent -/

/-- Every connection of the room belongs to a player of the game. -/
def AllSeated (r : Room) (u : Uno) : Prop :=
  ∀ k info, r.connections.lookup k = some info → info.userId ∈ u.ids

section Uno

variable {env : Env} {r : Room} {u : Uno} {c : Caller}

theorem allSeated_congr {u' : Uno} (h : u'.ids = u.ids) : r.AllSeated u' ↔ r.AllSeated u := by
  unfold AllSeated
  rw [h]

/-- A hand is found for those who have a seat. -/
theorem completes_getCardsInHand_iff (userId : Int) :
    Completes (getCardsInHand u userId) ↔ userId ∈ u.ids := by
  unfold getCardsInHand
  cases hf : findIf (fun p : Uno.Player => p.userId == userId) u.players with
  | none =>
    refine iff_of_false (not_completes_error _) fun h => ?_
    obtain ⟨p, hp, rfl⟩ := List.mem_map.mp h
    exact absurd (findIf_eq_none.mp hf p hp) (by simp)
  | some q =>
    obtain ⟨i, p⟩ := q
    refine iff_of_true (completes_ok _) ?_
    exact List.mem_map.mpr ⟨p, findIf_mem hf, eq_of_beq (findIf_eq_some hf).2⟩

theorem completes_sendCardsTo_iff (l : List (Nat × UserInfo)) :
    Completes (sendCardsTo u l) ↔ ∀ p ∈ l, p.2.userId ∈ u.ids := by
  induction l with
  | nil => exact iff_of_true (completes_ok _) fun _ h => absurd h List.not_mem_nil
  | cons p rest ih =>
    rw [List.forall_mem_cons, ← ih, ← completes_getCardsInHand_iff]
    exact completes_bind_and Iff.rfl fun _ _ => completes_bind_of fun _ _ => completes_ok _

theorem completes_sendCardsInHand_iff : Completes (r.sendCardsInHand env u) ↔ r.AllSeated u := by
  unfold sendCardsInHand AllSeated
  rw [completes_sendCardsTo_iff]
  exact ⟨fun h k info hk => h (k, info) (mem_ranked.mpr hk),
    fun h p hp => h p.1 p.2 (mem_ranked.mp hp)⟩

/-- There is a last card unless the deck is empty. -/
theorem completes_getLastCard_iff : Completes u.getLastCard ↔ 0 < u.deckSize := by
  unfold Uno.getLastCard Uno.deckSize
  cases hlast : u.deck.getLast? with
  | none =>
    rw [List.getLast?_eq_none_iff.mp hlast]
    exact iff_of_false (not_completes_error _) (Nat.lt_irrefl 0)
  | some card =>
    refine iff_of_true (completes_ok _) (List.length_pos_iff.mpr fun h => ?_)
    rw [h] at hlast
    cases hlast

theorem completes_sendUnoInfo_iff : Completes (r.sendUnoInfo env u) ↔ 0 < u.deckSize := by
  rw [← completes_getLastCard_iff]
  unfold sendUnoInfo unoGameInfo
  refine (completes_bind_of fun _ _ => completes_ok _).trans ?_
  exact completes_bind_of fun _ _ => completes_ok _

theorem completes_sendUno_iff :
    Completes (r.sendUno env u) ↔ r.AllSeated u ∧ 0 < u.deckSize := by
  unfold sendUno
  refine completes_bind_and completes_sendCardsInHand_iff fun _ _ => ?_
  rw [← completes_sendUnoInfo_iff]
  exact completes_bind_of fun _ _ => completes_ok _

/-- The end of a game is announced with the last card. -/
theorem completes_checkUnoOver_iff :
    Completes (r.checkUnoOver env u) ↔ (u.checkWinner ≠ none → 0 < u.deckSize) := by
  rw [← completes_getLastCard_iff]
  unfold checkUnoOver
  cases u.checkWinner with
  | none => exact iff_of_true (completes_ok _) fun h => absurd rfl h
  | some winner =>
    rw [imp_iff_right (Option.some_ne_none winner)]
    refine (completes_bind_of fun _ _ => completes_ok _).trans ?_
    exact completes_bind_of fun _ _ => completes_ok _

/-! ## Uno: the operations -/

/-- The deck has the cards that the call draws and the one that is shown
afterwards, and who gets to see the hands has one. -/
def UnoOpOk (r : Room) (u : Uno) : Uno.Op → Prop
  | .play playerId card _ =>
    (u.Accepts playerId card → r.AllSeated u ∧ u.playTakes card ≤ u.deckSize) ∧
    (¬ u.Accepts playerId card → u.checkWinner ≠ none → 0 < u.deckSize)
  | .drawOne playerId => u.MayDraw playerId → u.said + 1 < u.deckSize
  | .skipAfterDrawingOne playerId => u.MaySkip playerId → r.AllSeated u ∧ 0 < u.deckSize
  | .sayUno playerId => ¬ u.MaySay playerId → r.AllSeated u ∧ 2 < u.deckSize
  | .suspect playerId => u.MayAnswer playerId →
    r.AllSeated u ∧ (if u.isGuilty u.lastPlayer then 4 else 6) < u.deckSize
  | .dissuspect playerId => u.MayAnswer playerId → r.AllSeated u ∧ 4 < u.deckSize

/-- The state is sent after an operation that has taken `k` cards. -/
theorem completes_sendUno_of_drawn {u' : Uno} {k : Nat} (h : Uno.Drawn k u u') {r' : Room}
    (hr : r'.connections = r.connections) :
    Completes (r'.sendUno env u') ↔ r.AllSeated u ∧ k < u.deckSize := by
  have hsize := h.size
  rw [completes_sendUno_iff, allSeated_congr h.kept, AllSeated, hr]
  exact and_congr_right fun _ => by omega

/-- An operation that takes `k` cards and then sends the state. -/
theorem completes_takes_sendUno (env : Env) (r : Room) {α β : Type} {x : Except Fault α}
    {state : α → Uno} {k : Nat} {f : α → Except Fault β} (hx : Uno.Takes u k x state)
    (hf : ∀ a, x = .ok a → ∃ r' : Room, r'.connections = r.connections ∧
      (Completes (f a) ↔ Completes (r'.sendUno env (state a)))) :
    Completes (x >>= f) ↔ r.AllSeated u ∧ k < u.deckSize := by
  refine (completes_bind_and hx.yields fun a ha => ?_).trans
    (and_iff_right_of_imp fun h => Nat.le_of_lt h.2)
  obtain ⟨r', hr', hiff⟩ := hf a ha
  exact hiff.trans (completes_sendUno_of_drawn (hx.spent a ha) hr')

theorem completes_playSucceeded_iff (userName : String) (cardHash : Int) (punish : Bool) :
    Completes (r.playSucceeded env u userName cardHash punish) ↔ Completes (r.sendUno env u) := by
  unfold playSucceeded
  exact completes_bind_of fun _ _ => completes_ok _

/-- When a play is handled to the end. -/
theorem completes_unoPlay_iff (cardHash specifiedColor : Int) :
    Completes (r.unoPlay env u c cardHash specifiedColor) ↔
      r.UnoOpOk u (.play c.userId (int2Card cardHash) specifiedColor) := by
  unfold unoPlay UnoOpOk
  dsimp only
  by_cases hacc : u.Accepts c.userId (int2Card cardHash)
  · rw [imp_iff_right hacc, and_iff_left fun h => absurd hacc h]
    have hok := Uno.ensures_play u c.userId (int2Card cardHash) specifiedColor
    have hput : Uno.ids (u.putCard (int2Card cardHash)) = u.ids := Uno.ids_putCard ..
    refine (completes_takes_sendUno env r (Uno.takes_play hacc specifiedColor)
      fun a ha => ⟨r.withUno a.2, rfl, ?_⟩).trans ?_
    · obtain ⟨⟨success, punish⟩, u'⟩ := a
      obtain rfl : success = true := (hok _ ha).elim (fun h => absurd hacc h.2.2) fun h => h.1
      rw [← completes_playSucceeded_iff c.userName cardHash punish]
      refine completes_bind_of fun out hout => (completes_bind_of fun _ _ => completes_ok _).mpr ?_
      have hsend := (completes_playSucceeded_iff ..).mp ⟨out, hout⟩
      exact completes_checkUnoOver_iff.mpr fun _ => (completes_sendUno_iff.mp hsend).2
    · rw [allSeated_congr hput, Uno.deckSize_putCard, Nat.lt_succ_iff]
  · rw [and_iff_right fun h => absurd h hacc, imp_iff_right hacc,
      Uno.play_refused hacc specifiedColor]
    exact (completes_bind_of fun _ _ => completes_ok _).trans completes_checkUnoOver_iff

/-- When a draw is handled to the end. -/
theorem completes_unoDrawOne_iff :
    Completes (r.unoDrawOne env u c) ↔ r.UnoOpOk u (.drawOne c.userId) := by
  unfold unoDrawOne UnoOpOk
  dsimp only
  by_cases hmay : u.MayDraw c.userId
  · rw [imp_iff_right hmay]
    obtain ⟨htakes, hsome⟩ := Uno.takes_drawOne hmay
    refine (completes_bind_and (Q := u.said + 1 < u.deckSize) htakes.yields fun a ha => ?_).trans
      (and_iff_right_of_imp Nat.le_of_lt)
    have hsize := (htakes.spent a ha).size
    obtain ⟨⟨card, punish⟩, u'⟩ := a
    cases card with
    | none => exact nomatch hsome _ ha
    | some card =>
      change u'.deckSize + (u.said + 1) = u.deckSize at hsize
      refine (completes_bind_of fun _ _ => completes_ok _).trans ?_
      refine completes_sendUnoInfo_iff.trans ?_
      show 0 < u'.deckSize ↔ _
      omega
  · rw [Uno.drawOne_refused hmay]
    exact iff_of_true (completes_ok _) fun h => absurd h hmay

/-- When a skip is handled to the end. -/
theorem completes_unoSkip_iff :
    Completes (r.unoSkip env u c) ↔ r.UnoOpOk u (.skipAfterDrawingOne c.userId) := by
  unfold unoSkip UnoOpOk
  dsimp only
  by_cases hmay : u.MaySkip c.userId
  · rw [imp_iff_right hmay, Uno.skip_accepted hmay]
    have hsize : u.skipped.deckSize = u.deckSize := (Uno.drawn_skipped u).size
    have hseats : (r.withUno u.skipped).AllSeated u.skipped ↔ r.AllSeated u :=
      allSeated_congr (Uno.drawn_skipped u).kept
    rw [← hseats, ← hsize, and_comm]
    change Completes ((r.withUno u.skipped).sendUnoInfo env u.skipped >>= fun info =>
      (r.withUno u.skipped).sendCardsInHand env u.skipped >>= fun cards =>
        .ok (info ++ cards, r.withUno u.skipped)) ↔ _
    refine completes_bind_and completes_sendUnoInfo_iff fun _ _ => ?_
    exact (completes_bind_of fun _ _ => completes_ok _).trans completes_sendCardsInHand_iff
  · rw [Uno.skip_refused hmay]
    exact iff_of_true (completes_ok _) fun h => absurd h hmay

/-- When saying UNO is handled to the end. -/
theorem completes_unoSayUno_iff :
    Completes (r.unoSayUno env u c) ↔ r.UnoOpOk u (.sayUno c.userId) := by
  unfold unoSayUno UnoOpOk
  dsimp only
  by_cases hmay : u.MaySay c.userId
  · rw [Uno.sayUno_accepted hmay]
    exact iff_of_true (completes_ok _) fun h => absurd hmay h
  · rw [imp_iff_right hmay]
    obtain ⟨htakes, hfalse⟩ := Uno.takes_sayUno hmay
    refine completes_takes_sendUno env r htakes fun a ha => ⟨r.withUno a.2, rfl, ?_⟩
    obtain ⟨success, u'⟩ := a
    obtain rfl : success = false := hfalse _ ha
    exact completes_bind_of fun _ _ => completes_ok _

/-- When a challenge is handled to the end. -/
theorem completes_unoSuspect_iff :
    Completes (r.unoSuspect env u c) ↔ r.UnoOpOk u (.suspect c.userId) := by
  unfold unoSuspect UnoOpOk
  dsimp only
  by_cases hmay : u.MayAnswer c.userId
  · rw [imp_iff_right hmay]
    obtain ⟨htakes, hsome⟩ := Uno.takes_suspect hmay
    refine completes_takes_sendUno env r htakes fun a ha => ⟨r.withUno a.2, rfl, ?_⟩
    have hsome := (hsome _ ha).1
    obtain ⟨result, u'⟩ := a
    cases result with
    | none => cases hsome
    | some result => exact completes_bind_of fun _ _ => completes_ok _
  · rw [Uno.suspect_refused hmay]
    exact iff_of_true (completes_ok _) fun h => absurd h hmay

/-- When giving up a challenge is handled to the end. -/
theorem completes_unoDissuspect_iff :
    Completes (r.unoDissuspect env u c) ↔ r.UnoOpOk u (.dissuspect c.userId) := by
  unfold unoDissuspect UnoOpOk
  dsimp only
  by_cases hmay : u.MayAnswer c.userId
  · rw [imp_iff_right hmay]
    obtain ⟨htakes, htrue⟩ := Uno.takes_dissuspect hmay
    refine completes_takes_sendUno env r htakes fun a ha => ⟨r.withUno a.2, rfl, ?_⟩
    have htrue := (htrue _ ha).1
    obtain ⟨success, u'⟩ := a
    obtain rfl : success = true := htrue
    exact completes_bind_of fun _ _ => completes_ok _
  · rw [Uno.dissuspect_refused hmay]
    exact iff_of_true (completes_ok _) fun h => absurd h hmay

/-- A message to an Uno room is handled to the end. -/
structure UnoMessageOk (r : Room) (unoGame : Option Uno) (userId : Int) (messageType : String)
    (payload : Json) : Prop where
  fields : messageType = "UNO_PLAY" →
    payload.Member "card" Json.FitsInt ∧ payload.Member "specified_color" Json.FitsInt
  op : ∀ op, unoRequest userId messageType payload = .ok (some op) →
    ∃ u, unoGame = some u ∧ r.UnoOpOk u op

theorem completes_onUno_iff {unoGame : Option Uno} {α : Type} {f : Uno → Except Fault α} :
    Completes (onUno unoGame f) ↔ ∃ u, unoGame = some u ∧ Completes (f u) := by
  cases unoGame with
  | none => exact iff_of_false (not_completes_error _) fun ⟨_, h, _⟩ => nomatch h
  | some u => exact ⟨fun h => ⟨u, rfl, h⟩, fun ⟨_, hu, h⟩ => Option.some.inj hu ▸ h⟩

/-- The request of a play needs its two numbers, and the others need nothing. -/
theorem completes_unoRequest_iff (userId : Int) (messageType : String) (payload : Json) :
    Completes (unoRequest userId messageType payload) ↔ (messageType = "UNO_PLAY" →
      payload.Member "card" Json.FitsInt ∧ payload.Member "specified_color" Json.FitsInt) := by
  unfold unoRequest
  refine completes_ite_iff.trans ((and_iff_left fun _ => ?_).trans (imp_congr_right fun _ => ?_))
  · simp only [completes_ite_iff, completes_ok, implies_true, and_self]
  · exact Json.completes_member_and Json.completes_asInt_iff fun _ =>
      Json.completes_member_iff Json.completes_asInt_iff fun _ => completes_ok _

/-- **A message of Uno** is handled to the end iff its members can be read, a game
exists and the operation it asks for has what it needs. -/
theorem completes_unoMessage_iff (unoGame : Option Uno) (messageType : String) (payload : Json) :
    Completes (r.unoMessage env unoGame c messageType payload) ↔
      r.UnoMessageOk unoGame c.userId messageType payload := by
  have hop {op : Uno.Op} {f : Uno → Except Fault (Outbox × Room)}
      (hf : ∀ u, Completes (f u) ↔ r.UnoOpOk u op) :
      Serves (.ok (some op)) (onUno unoGame f) fun op => ∃ u, unoGame = some u ∧ r.UnoOpOk u op :=
    .read (completes_onUno_iff.trans (exists_congr fun u => and_congr_right fun _ => hf u))
  have hserves : Serves (unoRequest c.userId messageType payload)
      (r.unoMessage env unoGame c messageType payload)
      fun op => ∃ u, unoGame = some u ∧ r.UnoOpOk u op := by
    unfold unoMessage unoRequest
    refine .ite (fun _ => ?_) fun _ => ?_
    · refine .bind fun _ => .bind fun cardHash => .bind fun _ => .bind fun specifiedColor => ?_
      exact hop fun u => completes_unoPlay_iff cardHash specifiedColor
    refine .ite (fun _ => hop fun u => completes_unoDrawOne_iff) fun _ => ?_
    refine .ite (fun _ => hop fun u => completes_unoSkip_iff) fun _ => ?_
    refine .ite (fun _ => hop fun u => completes_unoSayUno_iff) fun _ => ?_
    refine .ite (fun _ => hop fun u => completes_unoSuspect_iff) fun _ => ?_
    exact .ite (fun _ => hop fun u => completes_unoDissuspect_iff) fun _ => .nothing
  refine hserves.trans ⟨fun ⟨hreq, hq⟩ => ⟨?_, hq⟩, fun h => ⟨?_, h.op⟩⟩
  · exact (completes_unoRequest_iff ..).mp hreq
  · exact (completes_unoRequest_iff ..).mpr h.fields

/-! ## Uno: the start -/

/-- The start of a game always completes. -/
theorem completes_startUno : Completes (r.startUno env) := by
  unfold startUno
  refine completes_ite_iff.mpr ⟨fun _ => completes_ok _, fun hfew => ?_⟩
  refine completes_ite_iff.mpr ⟨fun _ => completes_ok _, fun hmany => ?_⟩
  have hlen : ((r.members env).map fun p => p.2.userId).length = r.connections.entries.length := by
    rw [List.length_map, members, length_ranked]
  dsimp only
  split
  · rename_i hnil
    rw [hnil] at hlen
    exact absurd (hlen ▸ by decide : r.connections.entries.length < 3) hfew
  · rename_i hne
    obtain ⟨u, hu, hids, hdeck⟩ := Uno.exists_new hne (by omega) env.draw
    rw [hu]
    refine (completes_bind_of fun _ _ => completes_ok _).mpr (completes_sendUno_iff.mpr ⟨?_, hdeck⟩)
    intro k info hinfo
    change (mapValues _ r.connections).lookup k = some info at hinfo
    rw [lookup_mapValues] at hinfo
    obtain ⟨info₀, hinfo₀, rfl⟩ := Option.map_eq_some_iff.mp hinfo
    exact hids.mem_iff.mpr (List.mem_map.mpr ⟨(k, info₀), mem_ranked.mpr hinfo₀, rfl⟩)

end Uno

end Room

end UnoppServer
