import UnoppServer.Uno.Flags

/-!
# Uno: what a play does

`play` moves a card from the hand to the back of the deck, and then does what the card does, in
an order that matters: the penalty, the direction, the next player, the cards that this player
draws, the colour. `PlaysOut` says what has become of the whole state after that.

- `hand_putCard`, `hand_punished`, `hand_applied`: the hands after each part;
- `playsOut_played`: an accepted play plays out when the deck has the cards that it takes;
- `play_iff`: so after every run a play is accepted iff it follows the rules, and plays out.
-/

namespace UnoppServer.Uno

open FindIf Runs

/-! ## Hands -/

/-- The hand of the player at a position. -/
def hand (u : Uno) (i : Nat) : Option (List Card) := (u.players.map Player.cardsInHand)[i]?

/-- The hands after one player has changed. -/
theorem hand_modifyPlayer (u : Uno) (i : Nat) (f : Player → Player) (j : Nat) :
    (u.modifyPlayer i f).hand j =
      if i = j then u.players[j]?.map fun p => (f p).cardsInHand else u.hand j := by
  unfold hand modifyPlayer
  rw [List.getElem?_map, List.getElem?_map, List.getElem?_modify]
  split
  · exact Option.map_map ..
  · exact congrArg (Option.map _) (Option.map_id' ..)

/-- Dealing adds to one hand. -/
theorem hand_dealt (u : Uno) (i k j : Nat) :
    (u.dealt i k).hand j = if i = j then (u.hand j).map (· ++ u.deck.take k) else u.hand j := by
  unfold dealt
  rw [hand_modifyPlayer]
  unfold hand
  rw [List.getElem?_map, Option.map_map]
  rfl

theorem hand_unannounced (u : Uno) (j : Nat) : u.unannounced.hand j = u.hand j :=
  congrArg (·[j]?) (map_announcement (fun _ _ => rfl) u false)

/-- The next player has the card no more. -/
theorem hand_putCard (u : Uno) (card : Card) (j : Nat) : (u.putCard card).hand j =
    if u.nextPlayerIdx = j then some (u.player.cardsInHand.erase card) else u.hand j := by
  unfold putCard
  rw [hand_modifyPlayer]
  split
  · rename_i hj
    rw [← hj]
    show (u.players[u.nextPlayerIdx]?).map _ = _
    rw [getElem?_nextPlayerIdx]
    rfl
  · rfl

theorem hand_punished (u : Uno) (j : Nat) : u.punished.hand j =
    if u.nextPlayerIdx = j then (u.hand j).map (· ++ u.deck.take u.unsaid) else u.hand j := by
  rw [punished, hand_unannounced, hand_dealt]

/-! ## The turn -/

/-- The direction after a card. -/
def direction (u : Uno) (card : Card) : Bool :=
  if card.content = reverse then !u.reversed else u.reversed

/-- The card has given the direction. -/
def turned (u : Uno) (card : Card) : Uno := { u with reversed := u.direction card }

/-- `applied`, from the state with the new direction. -/
theorem applied_eq (u : Uno) (card : Card) : u.applied card =
    if card.content = draw2 then
      ((u.turned card).next.dealt (u.turned card).next.nextPlayerIdx 2).next
    else if card.content = skip then (u.turned card).next.next
    else if card.content = wildDraw4 then
      { (u.turned card).next with
        waitSuspect := true
        cardB4WildDraw4 := ⟨u.lastColor, u.lastNumber⟩ }
    else (u.turned card).next := by
  have hturned : (if card.content = reverse then { u with reversed := !u.reversed } else u) =
      u.turned card := by
    unfold turned direction
    split
    · rfl
    · rfl
  unfold applied
  rw [hturned]
  rfl

/-- The seat a number of steps on in a direction, around the table. -/
def seat (u : Uno) (reversed : Bool) (steps : Int) : Int :=
  (u.nextPlayerIdx + if reversed then steps else -steps) % u.players.length

/-- `next` is one step. -/
theorem nextPlayerIdx_next (u : Uno) : (u.next.nextPlayerIdx : Int) = u.seat u.reversed 1 := by
  have hpos := u.length_pos
  show ((if u.reversed then (u.nextPlayerIdx + 1) % u.players.length
    else (u.nextPlayerIdx + u.players.length - 1) % u.players.length : Nat) : Int) =
      (u.nextPlayerIdx + if u.reversed then 1 else -1) % u.players.length
  cases u.reversed with
  | true => exact Int.natCast_emod _ _
  | false =>
    rw [if_neg Bool.false_ne_true, if_neg Bool.false_ne_true, Int.natCast_emod,
      Nat.cast_sub (by omega), Nat.cast_add, add_sub_right_comm, Int.add_emod_right]
    rfl

/-- Two calls of `next` are two steps. -/
theorem nextPlayerIdx_next_next (u : Uno) :
    (u.next.next.nextPlayerIdx : Int) = u.seat u.reversed 2 := by
  rw [nextPlayerIdx_next]
  show ((u.next.nextPlayerIdx : Int) + if u.reversed then 1 else -1) % (u.players.length : Int) = _
  rw [nextPlayerIdx_next, seat, seat, Int.emod_add_emod, add_assoc]
  cases u.reversed with
  | true => rfl
  | false => rfl

/-- The steps to the player who comes next after a card. -/
def steps (card : Card) : Int := if card.content = skip ∨ card.content = draw2 then 2 else 1

/-! ## What a card does -/

section Applied

variable (u : Uno) (card : Card)

/-- A draw two gives two cards to the next player, and the other hands stay. -/
theorem hand_applied (j : Nat) : (u.applied card).hand j =
    if card.content = draw2 ∧ (u.turned card).next.nextPlayerIdx = j then
      (u.hand j).map (· ++ u.deck.take 2)
    else u.hand j := by
  rw [applied_eq]
  split
  · rename_i hdraw
    show ((u.turned card).next.dealt (u.turned card).next.nextPlayerIdx 2).hand j = _
    rw [hand_dealt]
    simp only [hdraw, true_and]
    rfl
  · rename_i hdraw
    have hnone : ¬ (card.content = draw2 ∧ (u.turned card).next.nextPlayerIdx = j) :=
      fun h => hdraw h.1
    rw [if_neg hnone]
    split
    · rfl
    · split
      · rfl
      · rfl

/-- Applying a card takes cards from the deck for a draw two. -/
theorem deck_applied : (u.applied card).deck = u.deck.drop (draw2Takes card) := by
  rw [applied_eq]
  unfold draw2Takes
  split
  · rfl
  · split
    · rfl
    · split
      · rfl
      · rfl

/-- Applying a card sets the direction. -/
theorem reversed_applied : (u.applied card).reversed = u.direction card := by
  rw [applied_eq]
  split
  · rfl
  · split
    · rfl
    · split
      · rfl
      · rfl

/-- Only WILD_DRAW_4 asks for an answer. -/
theorem waits_applied (hwait : u.waitSuspect = false) :
    (u.applied card).waitSuspect = decide (card.content = wildDraw4) := by
  rw [applied_eq]
  split
  · rename_i hdraw
    rw [hdraw]
    exact hwait
  · split
    · rename_i hskip
      rw [hskip]
      exact hwait
    · split
      · rename_i hwild
        exact (decide_eq_true hwild).symm
      · rename_i hwild
        rw [decide_eq_false hwild]
        exact hwait

/-- The turn passes by one seat or two, in the direction. -/
theorem nextPlayerIdx_applied :
    ((u.applied card).nextPlayerIdx : Int) = u.seat (u.direction card) (steps card) := by
  have hone : ((u.turned card).next.nextPlayerIdx : Int) = u.seat (u.direction card) 1 :=
    nextPlayerIdx_next (u.turned card)
  have htwo : ((u.turned card).next.next.nextPlayerIdx : Int) = u.seat (u.direction card) 2 :=
    nextPlayerIdx_next_next (u.turned card)
  rw [applied_eq]
  unfold steps
  split
  · rename_i hdraw
    rw [if_pos (.inr hdraw), ← htwo, nextPlayerIdx_next_dealt]
  · rename_i hdraw
    split
    · rename_i hskip
      rw [if_pos (.inl hskip), ← htwo]
    · rename_i hskip
      rw [if_neg (not_or.mpr ⟨hskip, hdraw⟩), ← hone]
      split
      · rfl
      · rfl

end Applied

/-! ## What a play does -/

/-- A play of a card has been carried out. The player has lost one copy of the card, and it is at
the back of the deck. From the front, the deck has given the penalty of the player and the cards
that the next one draws. No other hand has changed. -/
structure PlaysOut (u : Uno) (card : Card) (specifiedColor : Int) (punish : Bool) (u' : Uno)
    (penalty drawn rest : List Card) : Prop where
  flag : punish = true ↔
    (u.player.cardsInHand.erase card).length = 1 ∧ u.player.saidUno = false
  two : penalty.length = if punish then 2 else 0
  drawnTwo : drawn.length = if card.content = draw2 then 2 else 0
  deck : u.deck = penalty ++ (drawn ++ rest)
  back : u'.deck = rest ++ [card]
  hand : ∃ kept, u.player.cardsInHand.Perm (card :: kept) ∧
    u'.hand u.nextPlayerIdx = some (kept ++ penalty)
  victim : card.content = draw2 → ∃ i cards, i ≠ u.nextPlayerIdx ∧
    (i : Int) = u.seat u'.reversed 1 ∧ u.hand i = some cards ∧ u'.hand i = some (cards ++ drawn)
  others : ∀ i : Nat, i ≠ u.nextPlayerIdx →
    (card.content = draw2 → (i : Int) ≠ u.seat u'.reversed 1) → u'.hand i = u.hand i
  reversed : u'.reversed = if card.content = reverse then !u.reversed else u.reversed
  turn : (u'.nextPlayerIdx : Int) =
    u.seat u'.reversed (if card.content = skip ∨ card.content = draw2 then 2 else 1)
  waits : u'.waitSuspect = true ↔ card.content = wildDraw4
  number : u'.lastNumber = card.content
  color : u'.lastColor = if card.color = black then specifiedColor else card.color

/-- The punishment is for the one card that has not been announced. -/
theorem punishUnsaid_flag (u : Uno) : Ensures u.punishUnsaid fun r =>
    r.1 = true ↔ u.player.cardsInHand.length = 1 ∧ u.player.saidUno = false := by
  unfold punishUnsaid
  split
  · rename_i hone
    exact .bind' fun r _ => .ok (iff_of_true rfl hone)
  · rename_i hnone
    exact .ok (iff_of_false Bool.false_ne_true hnone)

/-- The penalty is reported. -/
theorem play_flag {u : Uno} {playerId : Int} {card : Card} (h : u.Accepts playerId card)
    (specifiedColor : Int) : Ensures (u.play playerId card specifiedColor) fun r =>
      r.1.2 = true ↔ (u.player.cardsInHand.erase card).length = 1 ∧ u.player.saidUno = false := by
  unfold play
  rw [if_neg (by rw [h.noSuspect]; exact Bool.false_ne_true), if_neg (not_not.mpr h.matching),
    if_neg (not_not.mpr h.caller), if_neg h.drawn]
  refine (punishUnsaid_flag _).bind fun r hr => .bind' fun u' _ => .ok ?_
  rw [player_putCard] at hr
  exact hr

/-- **An accepted play**, when the deck has the cards that it takes. -/
theorem playsOut_played {u : Uno} {playerId : Int} {card : Card} (h : u.Accepts playerId card)
    (hseats : 1 < u.players.length) (hheld : card ∈ u.player.cardsInHand)
    (hdeck : u.playTakes card ≤ u.deckSize) (specifiedColor : Int) {punish : Bool}
    (hpunish : punish = true ↔
      (u.player.cardsInHand.erase card).length = 1 ∧ u.player.saidUno = false) :
    ∃ penalty drawn rest, PlaysOut u card specifiedColor punish (u.played card specifiedColor)
      penalty drawn rest := by
  have hunsaid : (u.putCard card).unsaid = if punish then 2 else 0 := by
    unfold unsaid
    rw [player_putCard]
    exact if_congr hpunish.symm rfl rfl
  -- the card is behind the cards that are taken
  have hsize : (u.putCard card).unsaid + draw2Takes card ≤ u.deck.length := hdeck
  have htake : (u.deck ++ [card]).take (u.putCard card).unsaid =
      u.deck.take (u.putCard card).unsaid := List.take_append_of_le_length (by omega)
  have hdrop : (u.putCard card).punished.deck =
      u.deck.drop (u.putCard card).unsaid ++ [card] := List.drop_append_of_le_length (by omega)
  generalize hw : (u.putCard card).punished = w at hdrop
  have hidx : w.nextPlayerIdx = u.nextPlayerIdx := by
    rw [← hw]
    rfl
  have hlen : w.players.length = u.players.length := by
    rw [← hw]
    simp only [punished, unannounced, dealt, putCard, modifyPlayer, List.length_modify]
  have hdirection : w.direction card = u.direction card := by
    rw [← hw]
    rfl
  have hseat (reversed : Bool) (k : Int) : w.seat reversed k = u.seat reversed k := by
    unfold seat
    rw [hidx, hlen]
  have hne : (w.turned card).next.nextPlayerIdx ≠ u.nextPlayerIdx := by
    rw [← hidx]
    exact nextPlayerIdx_next_ne (u := w.turned card) (by rw [← hlen] at hseats; exact hseats)
  have hnext : ((w.turned card).next.nextPlayerIdx : Int) = u.seat (u.direction card) 1 := by
    rw [← hseat, ← hdirection]
    exact nextPlayerIdx_next (w.turned card)
  have hhand (i : Nat) : w.hand i = if u.nextPlayerIdx = i then
      some (u.player.cardsInHand.erase card ++ u.deck.take (u.putCard card).unsaid)
      else u.hand i := by
    have hidx' : (u.putCard card).nextPlayerIdx = u.nextPlayerIdx := rfl
    rw [← hw, hand_punished, hand_putCard, hidx']
    split
    · rw [← htake]
      rfl
    · rfl
  refine ⟨u.deck.take (u.putCard card).unsaid,
    (u.deck.drop (u.putCard card).unsaid).take (draw2Takes card),
    (u.deck.drop (u.putCard card).unsaid).drop (draw2Takes card), ?_⟩
  have hplayed : u.played card specifiedColor = (w.applied card).setLast card specifiedColor := by
    rw [played, hw]
  rw [hplayed]
  have hreversed : ((w.applied card).setLast card specifiedColor).reversed = u.direction card :=
    (reversed_applied w card).trans hdirection
  have hhands (i : Nat) : ((w.applied card).setLast card specifiedColor).hand i =
      (w.applied card).hand i := rfl
  constructor
  case flag => exact hpunish
  case two =>
    rw [List.length_take, ← hunsaid]
    omega
  case drawnTwo =>
    rw [List.length_take, List.length_drop, ← draw2Takes]
    omega
  case deck => rw [List.take_append_drop, List.take_append_drop]
  case back =>
    show (w.applied card).deck = _
    rw [deck_applied, hdrop, List.drop_append_of_le_length]
    rw [List.length_drop]
    omega
  case hand =>
    refine ⟨u.player.cardsInHand.erase card, List.perm_cons_erase hheld, ?_⟩
    rw [hhands, hand_applied, if_neg fun h => hne h.2, hhand, if_pos rfl]
  case victim =>
    intro hdraw
    have hlt : (w.turned card).next.nextPlayerIdx < (u.players.map Player.cardsInHand).length := by
      rw [List.length_map, ← hlen]
      exact (w.turned card).next.nextPlayerIdx_lt
    refine ⟨_, _, hne, by rw [hreversed]; exact hnext, List.getElem?_eq_getElem hlt, ?_⟩
    rw [hhands, hand_applied, if_pos ⟨hdraw, rfl⟩, hhand, if_neg hne.symm, hand,
      List.getElem?_eq_getElem hlt, hdrop, draw2Takes, if_pos hdraw, List.take_append_of_le_length]
    · rfl
    · rw [draw2Takes, if_pos hdraw] at hsize
      rw [List.length_drop]
      omega
  case others =>
    intro i hi hvictim
    rw [hhands, hand_applied, if_neg, hhand, if_neg hi.symm]
    rintro ⟨hdraw, rfl⟩
    refine hvictim hdraw ?_
    rw [hreversed]
    exact hnext
  case reversed => exact hreversed
  case turn =>
    rw [hreversed, ← hseat, ← hdirection]
    exact nextPlayerIdx_applied w card
  case waits =>
    have hwait : w.waitSuspect = false := by
      rw [← hw]
      exact h.noSuspect
    have hwaits := waits_applied w card hwait
    show (w.applied card).waitSuspect = true ↔ _
    rw [hwaits, decide_eq_true_iff]
  case number => rfl
  case color => rfl

/-! ## Runs -/

/-- **A play of a held card**, after every run of a game with two users or more, and when the deck
has the cards that it takes: it is accepted iff it follows the rules. If it is not accepted, nothing
has changed; else the card has been played. -/
theorem play_iff {users : List Int} {hne : users ≠ []} (hlen : 1 < users.length)
    {draw : Nat → Nat} {u₀ u : Uno} {h : List (Entry Uno Op Bool)}
    (hnew : Uno.new users hne draw = .ok u₀) (hr : Run step (fun _ _ => True) u₀ h u)
    {card : Card} (hheld : card ∈ u.player.cardsInHand) (hdeck : u.playTakes card ≤ u.deckSize)
    (playerId specifiedColor : Int) :
    ∃ success punish u', u.play playerId card specifiedColor = .ok ((success, punish), u') ∧
      (success = true ↔ u.waitSuspect = false ∧ playerId = u.player.userId ∧
        (card.color = black ∨ card.color = u.lastColor ∨ card.content = u.lastNumber) ∧
        (u.player.drawnOne = true → card = u.player.lastDrew)) ∧
      (success = false → u' = u ∧ punish = false) ∧
      (success = true → ∃ penalty drawn rest,
        PlaysOut u card specifiedColor punish u' penalty drawn rest) := by
  have hseats : 1 < u.players.length := by
    have hperm := (ids_run hnew hr).length_eq
    unfold ids at hperm
    rw [List.length_map] at hperm
    omega
  have hrules : u.Accepts playerId card ↔ u.waitSuspect = false ∧ playerId = u.player.userId ∧
      (card.color = black ∨ card.color = u.lastColor ∨ card.content = u.lastNumber) ∧
      (u.player.drawnOne = true → card = u.player.lastDrew) := by
    constructor
    · intro hacc
      refine ⟨hacc.noSuspect, hacc.caller, hacc.matching, fun hdrawn => ?_⟩
      by_contra hcard
      exact hacc.drawn ⟨hdrawn, Ne.symm hcard⟩
    · rintro ⟨hwait, hcaller, hmatch, hdrawn⟩
      exact ⟨hwait, hmatch, hcaller, fun hd => hd.2 (hdrawn hd.1).symm⟩
  rw [← hrules]
  by_cases hacc : u.Accepts playerId card
  · obtain ⟨⟨⟨success, punish⟩, u'⟩, hplay⟩ := (takes_play hacc specifiedColor).yields.mpr (by
      rw [deckSize_putCard]
      omega)
    obtain ⟨hsuccess, hu'⟩ := play_played hacc specifiedColor _ hplay
    have hflag := play_flag hacc specifiedColor _ hplay
    dsimp only at hsuccess hu' hflag
    subst hsuccess hu'
    exact ⟨true, punish, _, hplay, iff_of_true rfl hacc, fun hno => (nomatch hno),
      fun _ => playsOut_played hacc hseats hheld hdeck specifiedColor hflag⟩
  · exact ⟨false, false, u, play_refused hacc specifiedColor, iff_of_false Bool.false_ne_true hacc,
      fun _ => ⟨rfl, rfl⟩, fun hno => (nomatch hno)⟩

/-- The first play of a game of three. -/
theorem exec_firstPlay : playsOut [1, 2, 3] (by decide) (fun _ => 0) [] (fun _ u =>
    decide (⟨0, 1⟩ ∈ u.player.cardsInHand ∧ u.playTakes ⟨0, 1⟩ ≤ u.deckSize ∧
      u.waitSuspect = false ∧ 2 = u.player.userId ∧ 0 = u.lastColor ∧
      u.player.drawnOne = false)) = true := by
  decide +kernel

/-- Player 2 of three plays a card that fits. -/
theorem play_iff_three : ∃ u₀ h u punish u' penalty drawn rest,
    Uno.new [1, 2, 3] (by decide) (fun _ => 0) = .ok u₀ ∧ Run step (fun _ _ => True) u₀ h u ∧
      u.play 2 ⟨0, 1⟩ 0 = .ok ((true, punish), u') ∧
      PlaysOut u ⟨0, 1⟩ 0 punish u' penalty drawn rest := by
  obtain ⟨u₀, h, u, hnew, hr, -, hlast⟩ := run_of_playsOut exec_firstPlay
  obtain ⟨hheld, hdeck, hwait, hcaller, hcolor, hdrawn⟩ := of_decide_eq_true hlast
  obtain ⟨success, punish, u', hplay, haccepted, -, hplays⟩ :=
    play_iff (by decide) hnew hr hheld hdeck 2 0
  obtain rfl : success = true := by
    refine haccepted.mpr ⟨hwait, hcaller, .inr (.inl hcolor), fun hd => ?_⟩
    rw [hdrawn] at hd
    cases hd
  obtain ⟨penalty, drawn, rest, hout⟩ := hplays rfl
  exact ⟨u₀, h, u, punish, u', penalty, drawn, rest, hnew, hr, hplay, hout⟩

end UnoppServer.Uno
