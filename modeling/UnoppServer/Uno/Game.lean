import UnoppServer.Fault
import UnoppServer.Lib.FindIf
import UnoppServer.Lib.Shuffle

/-!
# Uno: the game

`Uno` is the class of `Uno.hpp`: the constructor with `init` (`Uno.new`), and
the operations `play`, `drawOne`, `skipAfterDrawingOne`, `sayUno`, `suspect` and
`dissuspect`.

The deck is a queue whose front is the head of the list; the card played last is
its back. `front`, `back` and `pop` on an empty deck are faults.

A card is a pair of integers: the room builds cards from whatever integer a
client sends, so the members of a `Card` need not be enumerators.
-/

namespace UnoppServer

open FindIf

namespace Uno

/-! ## Cards -/

/-- `enum CardContent`, past the numbers `ZERO` to `NINE`. -/
abbrev skip : Int := 10
/-- `DRAW_2`. -/
abbrev draw2 : Int := 11
/-- `REVERSE`. -/
abbrev reverse : Int := 12
/-- `WILD`. -/
abbrev wild : Int := 13
/-- `WILD_DRAW_4`. -/
abbrev wildDraw4 : Int := 14
/-- `BLACK`, past `RED`, `YELLOW`, `GREEN` and `BLUE`, which are 0 to 3. -/
abbrev black : Int := 4

/-- `struct Card`. -/
structure Card where
  color : Int
  content : Int
  deriving DecidableEq, Repr

/-- `is_number_card`. -/
def isNumberCard (card : Card) : Bool := decide (card.content ≤ 10)

/-- The colours of the cards that are not black. -/
def allColors : List Int := [0, 1, 2, 3]

/-- The contents that come twice in each colour. -/
def allContents : List Int := [1, 2, 3, 4, 5, 6, 7, 8, 9, skip, draw2, reverse]

/-- `all_cards`, as the constructor builds it. -/
def allCards : List Card :=
  (allColors.flatMap fun color => allContents.flatMap fun content =>
    [⟨color, content⟩, ⟨color, content⟩]) ++
  (allColors.map fun color => ⟨color, 0⟩) ++
  (List.replicate 4 [Card.mk black wild, Card.mk black wildDraw4]).flatten

/-! ## State -/

/-- `struct Player`. `lastDrew` is read only while `drawnOne` is set. -/
structure Player where
  userId : Int
  cardsInHand : List Card
  cardsWhenWildDraw4 : List Card
  drawnOne : Bool
  lastDrew : Card
  saidUno : Bool
  deriving DecidableEq

/-- `Player{ user_id, {} }`. -/
def Player.new (userId : Int) : Player := ⟨userId, [], [], false, ⟨0, 0⟩, false⟩

end Uno

open Uno

/-- The class `Uno`. The index of the next player is that of a player. -/
structure Uno where
  players : List Player
  deck : List Card
  lastColor : Int
  lastNumber : Int
  cardB4WildDraw4 : Card
  reversed : Bool
  waitSuspect : Bool
  nextPlayerIdx : Nat
  nextPlayerIdx_lt : nextPlayerIdx < players.length

namespace Uno

/-- `players_[next_player_idx]`. -/
def player (u : Uno) : Player := u.players.get ⟨u.nextPlayerIdx, u.nextPlayerIdx_lt⟩

/-- Update the player at a position in place. -/
def modifyPlayer (u : Uno) (i : Nat) (f : Player → Player) : Uno :=
  { u with
    players := u.players.modify i f
    nextPlayerIdx_lt := by rw [List.length_modify]; exact u.nextPlayerIdx_lt }

/-! ## Construction -/

/-- Deal seven cards to each player. -/
def deal : List Player → List Card → Except Fault (List Player × List Card)
  | [], deck => .ok ([], deck)
  | p :: rest, deck =>
    if deck.length < 7 then .error .emptyQueue
    else do
      let (rest, deck') ← deal rest (deck.drop 7)
      return ({ p with cardsInHand := deck.take 7, drawnOne := false, saidUno := false } :: rest,
        deck')

/-- Dealing gives seven cards to the first player and goes on. -/
theorem deal_cons {p : Player} {rest players' : List Player} {deck deck' : List Card}
    (h : deal (p :: rest) deck = .ok (players', deck')) :
    ∃ rest', deal rest (deck.drop 7) = .ok (rest', deck') ∧ players' =
      { p with cardsInHand := deck.take 7, drawnOne := false, saidUno := false } :: rest' := by
  unfold deal at h
  split at h
  · cases h
  · cases hrest : deal rest (deck.drop 7) with
    | error e =>
      rw [hrest] at h
      cases h
    | ok r =>
      rw [hrest] at h
      cases h
      exact ⟨r.1, rfl, rfl⟩

/-- Dealing keeps the number of the players. -/
theorem length_deal {players players' : List Player} {deck deck' : List Card}
    (h : deal players deck = .ok (players', deck')) : players'.length = players.length := by
  induction players generalizing players' deck deck' with
  | nil =>
    cases h
    rfl
  | cons p rest ih =>
    obtain ⟨rest', hrest, rfl⟩ := deal_cons h
    exact congrArg (· + 1) (ih hrest)

/-- Move cards from the front of the deck to its back until a number card is
there. A full round without one means that the loop does not end. -/
def toNumberCard : Nat → List Card → Except Fault (List Card × Card)
  | _, [] => .error .emptyQueue
  | rounds, c :: deck =>
    let last := (c :: deck).getLast (by simp)
    if isNumberCard last then .ok (c :: deck, last)
    else match rounds with
      | 0 => .error .endlessLoop
      | rounds + 1 => toNumberCard rounds (deck ++ [c])

/-- The constructor. `draw k` is the result of the `k`-th call of `rand()`. -/
def new (players : List Int) (hne : players ≠ []) (draw : Nat → Nat) : Except Fault Uno :=
  let n := players.length
  let seats := Shuffle.shuffle draw (players.map Player.new)
  let cards := Shuffle.shuffle (fun k => draw (k + (n - 1))) allCards
  match hdeal : deal seats cards with
  | .error e => .error e
  | .ok (dealt, deck) => do
    let (deck, last) ← toNumberCard deck.length deck
    return {
      players := dealt
      deck := deck
      lastColor := last.color
      lastNumber := last.content
      cardB4WildDraw4 := ⟨0, 0⟩
      reversed := false
      waitSuspect := false
      nextPlayerIdx := draw (n - 1 + 107) % n
      nextPlayerIdx_lt := by
        rw [length_deal hdeal, Shuffle.length_shuffle, List.length_map]
        exact Nat.mod_lt _ (List.length_pos_iff.mpr hne) }

/-! ## Pieces of the operations -/

/-- `give`, on the player at a position: `count` times, the front of the deck goes
to the hand. The result is the last card given. -/
def giveLoop (i : Nat) : (count : Nat) → (res : Card) → Uno → Except Fault (Card × Uno)
  | 0, res, u => .ok (res, u)
  | count + 1, _, u =>
    match u.deck with
    | [] => .error .emptyQueue
    | card :: deck =>
      giveLoop i count card
        ({ u with deck := deck }.modifyPlayer i fun p =>
          { p with cardsInHand := p.cardsInHand ++ [card] })

/-- `give`. -/
def give (u : Uno) (i : Nat) (count : Nat) : Except Fault (Card × Uno) :=
  giveLoop i count ⟨0, 0⟩ u

/-- `get_last_card`. -/
def getLastCard (u : Uno) : Except Fault Card :=
  match u.deck.getLast? with
  | none => .error .emptyQueue
  | some card => .ok card

/-- `get_next_player`. -/
def getNextPlayer (u : Uno) : Int := u.player.userId

theorem length_pos (u : Uno) : 0 < u.players.length :=
  Nat.lt_of_le_of_lt (Nat.zero_le _) u.nextPlayerIdx_lt

/-- `next`. -/
def next (u : Uno) : Uno :=
  let n := u.players.length
  { u with
    nextPlayerIdx := if u.reversed then (u.nextPlayerIdx + 1) % n else (u.nextPlayerIdx + n - 1) % n
    nextPlayerIdx_lt := by split <;> exact Nat.mod_lt _ u.length_pos }

/-- The index of `get_last_player_ref`. -/
def lastPlayerIdx (u : Uno) : Nat :=
  let n := u.players.length
  if u.reversed then (u.nextPlayerIdx + n - 1) % n else (u.nextPlayerIdx + 1) % n

/-- The card goes to the back of the deck, and the first copy in the hand, if
there is one, leaves it. -/
def putCard (u : Uno) (card : Card) : Uno :=
  { u with deck := u.deck ++ [card] }.modifyPlayer u.nextPlayerIdx fun p =>
    { p with
      drawnOne := false
      cardsWhenWildDraw4 :=
        if card.content = wildDraw4 then p.cardsInHand else p.cardsWhenWildDraw4
      cardsInHand := p.cardsInHand.erase card }

/-- The punishment of a player who is left with one card and has not said UNO. -/
def punishUnsaid (u : Uno) : Except Fault (Bool × Uno) :=
  if u.player.cardsInHand.length = 1 ∧ u.player.saidUno = false then do
    let (_, u) ← u.give u.nextPlayerIdx 2
    return (true, u.modifyPlayer u.nextPlayerIdx fun p => { p with saidUno := false })
  else .ok (false, u.modifyPlayer u.nextPlayerIdx fun p => { p with saidUno := false })

/-- The punishment of a player who has said UNO and draws. -/
def punishSaid (u : Uno) : Except Fault (Bool × Uno) :=
  if u.player.saidUno then do
    let (_, u) ← u.give u.nextPlayerIdx 2
    return (true, u.modifyPlayer u.nextPlayerIdx fun p => { p with saidUno := false })
  else .ok (false, u)

/-- What the card played does: the direction, the next player and the cards that
player draws. -/
def applyCard (u : Uno) (card : Card) : Except Fault Uno :=
  let u := if card.content = reverse then { u with reversed := !u.reversed } else u
  -- with the direction the card has given
  let u := u.next
  if card.content = draw2 then do
    let (_, u) ← u.give u.nextPlayerIdx 2
    return u.next
  else if card.content = skip then .ok u.next
  else if card.content = wildDraw4 then
    .ok { u with waitSuspect := true, cardB4WildDraw4 := ⟨u.lastColor, u.lastNumber⟩ }
  else .ok u

/-- The colour and the content in force after a card. -/
def setLast (u : Uno) (card : Card) (specifiedColor : Int) : Uno :=
  { u with
    lastColor := if card.color = black then specifiedColor else card.color
    lastNumber := card.content }

/-! ## The operations -/

/-- `play`, with its result and `punish`. -/
def play (u : Uno) (playerId : Int) (card : Card) (specifiedColor : Int) :
    Except Fault ((Bool × Bool) × Uno) := do
  if u.waitSuspect then return ((false, false), u)
  if ¬ (card.color = black ∨ card.color = u.lastColor ∨ card.content = u.lastNumber) then
    return ((false, false), u)
  if playerId ≠ u.player.userId then return ((false, false), u)
  if u.player.drawnOne ∧ u.player.lastDrew ≠ card then return ((false, false), u)
  -- whether the hand holds the card is not asked
  let (punish, u) ← (u.putCard card).punishUnsaid
  let u ← u.applyCard card
  return ((true, punish), u.setLast card specifiedColor)

/-- `draw_one`, with the card when it succeeds, and `punish`. -/
def drawOne (u : Uno) (playerId : Int) : Except Fault ((Option Card × Bool) × Uno) := do
  if u.waitSuspect then return ((none, false), u)
  if playerId ≠ u.player.userId then return ((none, false), u)
  if u.player.drawnOne then return ((none, false), u)
  let (punish, u) ← u.punishSaid
  let u := u.modifyPlayer u.nextPlayerIdx fun p => { p with drawnOne := true }
  let (card, u) ← u.give u.nextPlayerIdx 1
  return ((some card, punish),
    u.modifyPlayer u.nextPlayerIdx fun p => { p with lastDrew := card })

/-- `skip_after_drawing_one`. -/
def skipAfterDrawingOne (u : Uno) (playerId : Int) : Except Fault (Bool × Uno) := do
  if u.waitSuspect then return (false, u)
  if playerId ≠ u.player.userId then return (false, u)
  if ¬ u.player.drawnOne then return (false, u)
  return (true, (u.modifyPlayer u.nextPlayerIdx fun p => { p with drawnOne := false }).next)

/-- The loop of `say_uno` over the players, for a caller who is not the next
player. -/
def seatOf (u : Uno) (playerId : Int) : Option (Nat × Player) :=
  if playerId ≠ u.player.userId then
    findIf (fun p => decide (p.userId = playerId)) u.players
  else none

/-- `say_uno`. A caller who is not seated falls through the loop over the
players, to the code for the next player. -/
def sayUno (u : Uno) (playerId : Int) : Except Fault (Bool × Uno) :=
  match u.seatOf playerId with
  | some (i, _) => do
    let (_, u) ← u.give i 2
    return (false, u)
  | none =>
    if u.player.cardsInHand.length ≠ 2 then do
      let (_, u) ← u.give u.nextPlayerIdx 2
      return (false, u)
    else .ok (true, u.modifyPlayer u.nextPlayerIdx fun p => { p with saidUno := true })

/-- Whether the suspicion is right: the hand kept when WILD_DRAW_4 was played has
a card that could have been played instead. -/
def isGuilty (u : Uno) (sus : Player) : Bool :=
  sus.cardsWhenWildDraw4.any fun card =>
    decide (card.color = u.cardB4WildDraw4.color ∨
      (u.cardB4WildDraw4.content ≠ wild ∧ u.cardB4WildDraw4.content ≠ wildDraw4 ∧
        card.content = u.cardB4WildDraw4.content))

theorem lastPlayerIdx_lt (u : Uno) : u.lastPlayerIdx < u.players.length := by
  unfold lastPlayerIdx
  split <;> exact Nat.mod_lt _ u.length_pos

/-- `get_last_player_ref`. -/
def lastPlayer (u : Uno) : Player := u.players.get ⟨u.lastPlayerIdx, u.lastPlayerIdx_lt⟩

/-- The penalty of a suspicion: the suspect draws 4, or the player who suspects
draws 6 and is skipped. -/
def penalise (u : Uno) (success : Bool) : Except Fault Uno :=
  if success then do
    let (_, u) ← u.give u.lastPlayerIdx 4
    return u
  else do
    let (_, u) ← u.give u.nextPlayerIdx 6
    return u.next

/-- `suspect`: nothing when it is not valid, else the suspect's cards, the success
and the suspect. -/
def suspect (u : Uno) (playerId : Int) :
    Except Fault (Option (List Card × Bool × Int) × Uno) := do
  if ¬ u.waitSuspect then return (none, u)
  if playerId ≠ u.player.userId then return (none, u)
  let sus := u.lastPlayerIdx
  let success := u.isGuilty u.lastPlayer
  let u ← u.penalise success
  -- the suspect's cards are shown with the penalty among them
  match u.players[sus]? with
  | none => .error .outOfBounds
  | some p => return (some (p.cardsInHand, success, p.userId), { u with waitSuspect := false })

/-- `dissuspect`. -/
def dissuspect (u : Uno) (playerId : Int) : Except Fault (Bool × Uno) := do
  if ¬ u.waitSuspect then return (false, u)
  if playerId ≠ u.player.userId then return (false, u)
  let (_, u) ← u.give u.nextPlayerIdx 4
  return (true, { u.next with waitSuspect := false })

/-- `check_winner`: the first player in order with no cards left. -/
def checkWinner (u : Uno) : Option Int :=
  (findIf (fun p : Player => p.cardsInHand.isEmpty) u.players).map fun r => r.2.userId

/-! ## Requests -/

/-- A call of one of the operations. -/
inductive Op where
  | play (playerId : Int) (card : Card) (specifiedColor : Int)
  | drawOne (playerId : Int)
  | skipAfterDrawingOne (playerId : Int)
  | sayUno (playerId : Int)
  | suspect (playerId : Int)
  | dissuspect (playerId : Int)
  deriving DecidableEq, Repr

/-- Perform a call; the output says whether it was accepted. -/
def step (u : Uno) : Op → Except Fault (Bool × Uno)
  | .play playerId card specifiedColor => do
    let ((success, _), u) ← u.play playerId card specifiedColor
    return (success, u)
  | .drawOne playerId => do
    let ((card, _), u) ← u.drawOne playerId
    return (card.isSome, u)
  | .skipAfterDrawingOne playerId => u.skipAfterDrawingOne playerId
  | .sayUno playerId => u.sayUno playerId
  | .suspect playerId => do
    let (res, u) ← u.suspect playerId
    return (res.isSome, u)
  | .dissuspect playerId => u.dissuspect playerId

end Uno

end UnoppServer
