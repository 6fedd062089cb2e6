import UnoppServer.Lib.Budget
import UnoppServer.Uno.Cards

/-!
# Uno: the supply of cards

`give` takes cards from the front of the deck and does not look whether there
are any. So an operation completes iff the deck holds the cards that it takes
(`Takes`), and how many it takes is known beforehand: an accepted `play` puts a
card on the deck and takes `playTakes` cards, `draw_one` takes one more than the
penalty `said`, and so on.

For each operation there are two facts: what it answers when it refuses a call,
and what it takes when it accepts one.
-/

namespace UnoppServer.Uno

open FindIf

/-- The users of the players, in order. -/
def ids (u : Uno) : List Int := u.players.map Player.userId

/-- The number of cards in the deck. -/
def deckSize (u : Uno) : Nat := u.deck.length

/-- The deck has given `k` cards, and the same users play. -/
abbrev Drawn (k : Nat) (u u' : Uno) : Prop := Spent deckSize ids k u u'

/-- The computation completes iff the deck has `k` cards, and takes them. -/
abbrev Takes {α : Type} (u : Uno) (k : Nat) (r : Except Fault α) (state : α → Uno) : Prop :=
  Spends deckSize ids u k r state

/-- A change of a player leaves the other fields alone. -/
theorem map_modifyPlayer {α : Type} {field : Player → α} {u : Uno} {i : Nat} {f : Player → Player}
    (hf : ∀ p, field (f p) = field p) :
    (u.modifyPlayer i f).players.map field = u.players.map field :=
  map_modify_of_eq hf u.players i

theorem ids_modifyPlayer {u : Uno} {i : Nat} {f : Player → Player}
    (hf : ∀ p, (f p).userId = p.userId) : (u.modifyPlayer i f).ids = u.ids :=
  map_modifyPlayer hf

theorem drawn_modifyPlayer {u : Uno} {i : Nat} {f : Player → Player}
    (hf : ∀ p, (f p).userId = p.userId) : Drawn 0 u (u.modifyPlayer i f) :=
  ⟨rfl, ids_modifyPlayer hf⟩

theorem drawn_next (u : Uno) : Drawn 0 u u.next := ⟨rfl, rfl⟩

/-- The card at the front of the deck goes to a hand. -/
theorem drawn_draw {u : Uno} {i : Nat} {card : Card} {deck : List Card}
    (hdeck : u.deck = card :: deck) :
    Drawn 1 u ({ u with deck := deck }.modifyPlayer i fun p =>
      { p with cardsInHand := p.cardsInHand ++ [card] }) := by
  refine ⟨?_, ?_⟩
  · unfold deckSize
    rw [hdeck]
    rfl
  · rw [ids_modifyPlayer]
    · rfl
    · intro _
      exact rfl

/-- **Giving cards** completes iff the deck has them. -/
theorem takes_giveLoop {i : Nat} (count : Nat) {res : Card} {u : Uno} :
    Takes u count (giveLoop i count res u) Prod.snd := by
  induction count generalizing res u with
  | zero => exact .ok (.refl u)
  | succ count ih =>
    unfold giveLoop
    cases hdeck : u.deck with
    | nil =>
      refine ⟨iff_of_false (not_completes_error _) fun h => ?_, .error⟩
      unfold deckSize at h
      rw [hdeck] at h
      exact absurd h (Nat.not_succ_le_zero count)
    | cons card deck =>
      rw [Nat.add_comm]
      exact ih.pay (drawn_draw hdeck)

theorem takes_give (u : Uno) (i count : Nat) : Takes u count (u.give i count) Prod.snd :=
  takes_giveLoop count

/-! ## Penalties -/

/-- The cards that `punishUnsaid` gives. -/
def unsaid (u : Uno) : Nat :=
  if u.player.cardsInHand.length = 1 ∧ u.player.saidUno = false then 2 else 0

/-- The cards that `punishSaid` gives. -/
def said (u : Uno) : Nat := if u.player.saidUno then 2 else 0

/-- The cards that the next player draws for a card. -/
def draw2Takes (card : Card) : Nat := if card.content = draw2 then 2 else 0

theorem takes_punishUnsaid (u : Uno) : Takes u u.unsaid u.punishUnsaid Prod.snd := by
  unfold punishUnsaid unsaid
  refine .ite (fun _ => ?_) fun _ => .ok (drawn_modifyPlayer fun _ => rfl)
  exact (takes_give u _ 2).bind (j := 0) fun _ _ => .ok (drawn_modifyPlayer fun _ => rfl)

theorem takes_punishSaid (u : Uno) : Takes u u.said u.punishSaid Prod.snd := by
  unfold punishSaid said
  refine .ite (fun _ => ?_) fun _ => .ok (.refl u)
  exact (takes_give u _ 2).bind (j := 0) fun _ _ => .ok (drawn_modifyPlayer fun _ => rfl)

/-- Applying a card takes two cards for a draw two. -/
theorem takes_applyCard (u : Uno) (card : Card) :
    Takes u (draw2Takes card) (u.applyCard card) fun u' => u' := by
  have hturn :
      Drawn 0 u (if card.content = reverse then { u with reversed := !u.reversed } else u) := by
    split <;> exact ⟨rfl, rfl⟩
  unfold applyCard draw2Takes
  generalize (if card.content = reverse then _ else u) = u₁ at hturn ⊢
  refine .after (hturn.trans (drawn_next u₁)) (.ite (fun _ => ?_) fun _ => ?_)
  · exact (takes_give _ _ 2).bind (j := 0) fun r _ => .ok (drawn_next r.2)
  · split
    · exact .ok (drawn_next _)
    · split <;> exact .ok ⟨rfl, rfl⟩

theorem takes_penalise (u : Uno) (success : Bool) :
    Takes u (if success then 4 else 6) (u.penalise success) fun u' => u' := by
  unfold penalise
  exact .ite (fun _ => (takes_give u _ 4).bind (j := 0) fun r _ => .ok (.refl r.2))
    fun _ => (takes_give u _ 6).bind (j := 0) fun r _ => .ok (drawn_next r.2)

/-! ## `play` -/

/-- The cards that an accepted `play` takes, from a deck with one more card. -/
def playTakes (u : Uno) (card : Card) : Nat := (u.putCard card).unsaid + draw2Takes card

theorem play_refused {u : Uno} {playerId : Int} {card : Card} (h : ¬ u.Accepts playerId card)
    (specifiedColor : Int) : u.play playerId card specifiedColor = .ok ((false, false), u) := by
  unfold play
  refine check_eq_ok fun hw => check_eq_ok fun hm => check_eq_ok fun hc => check_eq_ok fun hd => ?_
  exact absurd ⟨Bool.eq_false_iff.mpr hw, not_not.mp hm, not_not.mp hc, hd⟩ h

/-- A play takes cards for its own effect and for the punishment. -/
theorem takes_play {u : Uno} {playerId : Int} {card : Card} (h : u.Accepts playerId card)
    (specifiedColor : Int) :
    Takes (u.putCard card) (u.playTakes card) (u.play playerId card specifiedColor) Prod.snd := by
  unfold play playTakes
  rw [if_neg (by rw [h.noSuspect]; exact Bool.false_ne_true), if_neg (not_not.mpr h.matching),
    if_neg (not_not.mpr h.caller), if_neg h.drawn]
  exact (takes_punishUnsaid _).bind fun r _ =>
    (takes_applyCard r.2 card).bind (j := 0) fun u' _ => .ok ⟨rfl, rfl⟩

theorem deckSize_putCard (u : Uno) (card : Card) : (u.putCard card).deckSize = u.deckSize + 1 :=
  List.length_append

theorem ids_putCard (u : Uno) (card : Card) : (u.putCard card).ids = u.ids := by
  unfold putCard
  rw [ids_modifyPlayer]
  · rfl
  · intro _
    exact rfl

/-! ## `draw_one` -/

/-- The calls of `draw_one` that pass its checks. -/
structure MayDraw (u : Uno) (playerId : Int) : Prop where
  noSuspect : u.waitSuspect = false
  caller : playerId = u.player.userId
  notDrawn : u.player.drawnOne = false

theorem drawOne_refused {u : Uno} {playerId : Int} (h : ¬ u.MayDraw playerId) :
    u.drawOne playerId = .ok ((none, false), u) := by
  unfold drawOne
  refine check_eq_ok fun hw => check_eq_ok fun hc => check_eq_ok fun hd => ?_
  exact absurd ⟨Bool.eq_false_iff.mpr hw, not_not.mp hc, Bool.eq_false_iff.mpr hd⟩ h

/-- A draw takes one card, and two more in spite of an announcement. -/
theorem takes_drawOne {u : Uno} {playerId : Int} (h : u.MayDraw playerId) :
    Takes u (u.said + 1) (u.drawOne playerId) Prod.snd ∧
      Ensures (u.drawOne playerId) fun r => r.1.1.isSome = true := by
  unfold drawOne
  rw [if_neg (by rw [h.noSuspect]; exact Bool.false_ne_true), if_neg (not_not.mpr h.caller),
    if_neg (by rw [h.notDrawn]; exact Bool.false_ne_true)]
  constructor
  · refine (takes_punishSaid u).bind fun r _ => ?_
    refine .after (drawn_modifyPlayer (i := r.2.nextPlayerIdx)
      (f := fun p => { p with drawnOne := true }) fun _ => rfl) ?_
    exact (takes_give _ _ 1).bind (j := 0) fun s _ => .ok (drawn_modifyPlayer fun _ => rfl)
  · exact .bind' fun _ _ => .bind' fun _ _ => .ok rfl

/-! ## `skip_after_drawing_one` -/

/-- The calls of `skip_after_drawing_one` that pass its checks. -/
structure MaySkip (u : Uno) (playerId : Int) : Prop where
  noSuspect : u.waitSuspect = false
  caller : playerId = u.player.userId
  drawn : u.player.drawnOne = true

/-- The next player passes the turn on after drawing. -/
def skipped (u : Uno) : Uno :=
  (u.modifyPlayer u.nextPlayerIdx fun p => { p with drawnOne := false }).next

theorem drawn_skipped (u : Uno) : Drawn 0 u u.skipped :=
  (drawn_modifyPlayer (f := fun p => { p with drawnOne := false }) fun _ => rfl).trans
    (drawn_next _)

theorem skip_refused {u : Uno} {playerId : Int} (h : ¬ u.MaySkip playerId) :
    u.skipAfterDrawingOne playerId = .ok (false, u) := by
  unfold skipAfterDrawingOne
  refine check_eq_ok fun hw => check_eq_ok fun hc => check_eq_ok fun hd => ?_
  exact absurd ⟨Bool.eq_false_iff.mpr hw, not_not.mp hc, not_not.mp hd⟩ h

theorem skip_accepted {u : Uno} {playerId : Int} (h : u.MaySkip playerId) :
    u.skipAfterDrawingOne playerId = .ok (true, u.skipped) := by
  unfold skipAfterDrawingOne
  rw [if_neg (by rw [h.noSuspect]; exact Bool.false_ne_true), if_neg (not_not.mpr h.caller),
    if_neg (not_not.mpr h.drawn)]
  rfl

/-! ## `say_uno` -/

/-- The calls of `say_uno` that succeed. Anybody who is not seated, or whose turn it
is, speaks for the next player. -/
structure MaySay (u : Uno) (playerId : Int) : Prop where
  speaks : u.seatOf playerId = none
  two : u.player.cardsInHand.length = 2

theorem sayUno_accepted {u : Uno} {playerId : Int} (h : u.MaySay playerId) :
    u.sayUno playerId =
      .ok (true, u.modifyPlayer u.nextPlayerIdx fun p => { p with saidUno := true }) := by
  unfold sayUno
  rw [h.speaks]
  exact if_neg (not_not.mpr h.two)

/-- Saying UNO out of place takes two cards. -/
theorem takes_sayUno {u : Uno} {playerId : Int} (h : ¬ u.MaySay playerId) :
    Takes u 2 (u.sayUno playerId) Prod.snd ∧
      Ensures (u.sayUno playerId) fun r => r.1 = false := by
  have hgive (i : Nat) : Takes u 2 (u.give i 2 >>= fun r => .ok (false, r.2)) Prod.snd ∧
      Ensures (u.give i 2 >>= fun r => .ok (false, r.2)) fun r => r.1 = false :=
    ⟨(takes_give u i 2).bind (j := 0) fun r _ => .ok (.refl r.2), .bind' fun _ _ => .ok rfl⟩
  unfold sayUno
  cases hseat : u.seatOf playerId with
  | some r => exact hgive r.1
  | none =>
    dsimp only
    rw [if_pos fun htwo => h ⟨hseat, htwo⟩]
    exact hgive u.nextPlayerIdx

/-! ## `suspect` and `dissuspect` -/

/-- The calls of `suspect` and `dissuspect` that pass their checks. -/
structure MayAnswer (u : Uno) (playerId : Int) : Prop where
  suspect : u.waitSuspect = true
  caller : playerId = u.player.userId

theorem suspect_refused {u : Uno} {playerId : Int} (h : ¬ u.MayAnswer playerId) :
    u.suspect playerId = .ok (none, u) := by
  unfold Uno.suspect
  refine check_eq_ok fun hw => check_eq_ok fun hc => ?_
  exact absurd ⟨not_not.mp hw, not_not.mp hc⟩ h

/-- A challenge takes four cards, or six when it fails. -/
theorem takes_suspect {u : Uno} {playerId : Int} (h : u.MayAnswer playerId) :
    Takes u (if u.isGuilty u.lastPlayer then 4 else 6) (u.suspect playerId) Prod.snd ∧
      Ensures (u.suspect playerId) fun r => r.1.isSome = true ∧ r.2.waitSuspect = false := by
  unfold Uno.suspect
  rw [if_neg (not_not.mpr h.suspect), if_neg (not_not.mpr h.caller)]
  constructor
  · refine (takes_penalise u _).bind (j := 0) fun u' hu' => ?_
    -- the seats are the same, so the suspect is still there to be shown
    have hids := ((takes_penalise u _).spent u' hu').kept
    have hlt : u.lastPlayerIdx < u'.players.length := by
      have hlen := congrArg List.length hids
      unfold ids at hlen
      rw [List.length_map, List.length_map] at hlen
      rw [hlen]
      exact u.lastPlayerIdx_lt
    rw [List.getElem?_eq_getElem hlt]
    exact .ok ⟨rfl, rfl⟩
  · refine .bind' fun u' _ => ?_
    split
    · exact .error
    · exact .ok ⟨rfl, rfl⟩

theorem dissuspect_refused {u : Uno} {playerId : Int} (h : ¬ u.MayAnswer playerId) :
    u.dissuspect playerId = .ok (false, u) := by
  unfold dissuspect
  refine check_eq_ok fun hw => check_eq_ok fun hc => ?_
  exact absurd ⟨not_not.mp hw, not_not.mp hc⟩ h

theorem takes_dissuspect {u : Uno} {playerId : Int} (h : u.MayAnswer playerId) :
    Takes u 4 (u.dissuspect playerId) Prod.snd ∧
      Ensures (u.dissuspect playerId) fun r => r.1 = true ∧ r.2.waitSuspect = false := by
  unfold dissuspect
  rw [if_neg (not_not.mpr h.suspect), if_neg (not_not.mpr h.caller)]
  exact ⟨(takes_give u _ 4).bind (j := 0) fun r _ => .ok ⟨rfl, rfl⟩,
    .bind' fun _ _ => .ok ⟨rfl, rfl⟩⟩

end UnoppServer.Uno
