import UnoppServer.Lib.Rotation
import UnoppServer.Uno.Turn

/-!
# Uno: the challenge of a WILD_DRAW_4

While `wait_suspect` is set, the next player may suspect the player before of having
had a card to play instead. What the verdict needs is kept in four places when the
WILD_DRAW_4 is played: the hand and the card in force before it, and, by the turn and
the direction, the seat. Only `say_uno` can come in between, and it touches none of
them. `Pending e u` says so: `e` is the step that played the card.

- `pending_run`: while an answer is awaited, there is such a step;
- `challenge_settles`: the verdict is about the hand before that step, and who draws and
  whose turn it is then.
-/

namespace UnoppServer.Uno

open Runs

/-! ## The player before -/

/-- After a turn, the last player is the one whose turn it was. -/
theorem lastPlayerIdx_next (u : Uno) : u.next.lastPlayerIdx = u.nextPlayerIdx := by
  have hlt := u.nextPlayerIdx_lt
  unfold lastPlayerIdx next
  dsimp only
  split
  · rw [Rotation.succ_mod hlt]
    split
    · rw [Rotation.pred_mod (by omega)]
      split <;> omega
    · rw [Rotation.pred_mod (by omega)]
      split <;> omega
  · rw [Rotation.pred_mod hlt]
    split
    · rw [Rotation.succ_mod (by omega)]
      split <;> omega
    · rw [Rotation.succ_mod (by omega)]
      split <;> omega

/-- The player before the one who comes next is the one whose turn it was. -/
theorem lastPlayer_next (u : Uno) : u.next.lastPlayer = u.player := by
  have hget := getElem?_lastPlayerIdx u.next
  rw [lastPlayerIdx_next] at hget
  exact Option.some.inj (hget.symm.trans (getElem?_nextPlayerIdx u))

theorem lastPlayerIdx_modify (u : Uno) (i : Nat) (f : Player → Player) :
    (u.modifyPlayer i f).lastPlayerIdx = u.lastPlayerIdx := by
  unfold lastPlayerIdx modifyPlayer
  simp only [List.length_modify]

/-- A field of the player before. -/
theorem field_lastPlayer {α : Type} {field : Player → α} {u u' : Uno}
    (hmap : u'.players.map field = u.players.map field)
    (hidx : u'.lastPlayerIdx = u.lastPlayerIdx) : field u'.lastPlayer = field u.lastPlayer := by
  have hget : (u'.players.map field)[u'.lastPlayerIdx]? =
      (u.players.map field)[u.lastPlayerIdx]? := by rw [hmap, hidx]
  rw [List.getElem?_map, List.getElem?_map, getElem?_lastPlayerIdx, getElem?_lastPlayerIdx] at hget
  exact Option.some.inj hget

/-! ## Playing the card -/

theorem player_dealt (u : Uno) (k : Nat) : (u.dealt u.nextPlayerIdx k).player =
    { u.player with cardsInHand := u.player.cardsInHand ++ u.deck.take k } :=
  player_modifyPlayer { u with deck := u.deck.drop k } _

/-- The punishment gives the player cards. -/
theorem player_punished (u : Uno) : u.punished.player =
    { u.player with
      cardsInHand := u.player.cardsInHand ++ u.deck.take u.unsaid
      saidUno := false } := by
  have hdealt := player_modifyPlayer (u.dealt u.nextPlayerIdx u.unsaid)
    fun p => { p with saidUno := false }
  rw [player_dealt] at hdealt
  exact hdealt

/-- The hand is kept as it was before the card left it. -/
theorem player_putCard_wildDraw4 {u : Uno} {card : Card} (hcard : card.content = wildDraw4) :
    (u.putCard card).player.userId = u.player.userId ∧
      (u.putCard card).player.cardsWhenWildDraw4 = u.player.cardsInHand := by
  rw [player_putCard]
  exact ⟨rfl, if_pos hcard⟩

/-- A wild draw four passes the turn and waits for an answer. -/
theorem applied_wildDraw4 (u : Uno) {card : Card} (hcard : card.content = wildDraw4) :
    u.applied card = { u.next with
      waitSuspect := true, cardB4WildDraw4 := ⟨u.lastColor, u.lastNumber⟩ } := by
  have hreverse : card.content ≠ reverse := by rw [hcard]; decide
  have hdraw2 : card.content ≠ draw2 := by rw [hcard]; decide
  have hskip : card.content ≠ skip := by rw [hcard]; decide
  unfold applied
  rw [if_neg hreverse]
  dsimp only
  rw [if_neg hdraw2, if_neg hskip, if_pos hcard]
  rfl

/-- Only a WILD_DRAW_4 awaits an answer. -/
theorem waitSuspect_applied (u : Uno) {card : Card} (hcard : card.content ≠ wildDraw4) :
    (u.applied card).waitSuspect = u.waitSuspect := by
  have hturn :
      (if card.content = reverse then { u with reversed := !u.reversed } else u).waitSuspect =
        u.waitSuspect := by
    split
    · rfl
    · rfl
  unfold applied
  generalize (if card.content = reverse then _ else u) = u₁ at hturn ⊢
  dsimp only
  rw [← hturn, if_neg hcard]
  split
  · rfl
  · split
    · rfl
    · rfl

/-! ## The card that awaits an answer -/

/-- The step `e` has played the WILD_DRAW_4 that awaits an answer in `u`, and what the
verdict is made of is what there was before it. -/
structure Pending (e : Entry Uno Op Bool) (u : Uno) : Prop where
  act : ∃ card specifiedColor, card.content = wildDraw4 ∧
    e.act = .play e.pre.player.userId card specifiedColor
  accepted : e.out = true
  seat : u.lastPlayerIdx = e.pre.nextPlayerIdx
  player : u.lastPlayer.userId = e.pre.player.userId
  hand : u.lastPlayer.cardsWhenWildDraw4 = e.pre.player.cardsInHand
  rule : u.cardB4WildDraw4 = ⟨e.pre.lastColor, e.pre.lastNumber⟩

/-- A wild draw four that is played is pending. -/
theorem pending_played {u : Uno} {playerId : Int} {card : Card} (hacc : u.Accepts playerId card)
    (hcard : card.content = wildDraw4) (specifiedColor : Int) :
    Pending ⟨u, .play playerId card specifiedColor, true, u.played card specifiedColor⟩
      (u.played card specifiedColor) := by
  have happlied := applied_wildDraw4 (u.putCard card).punished hcard
  have hidx : (u.played card specifiedColor).lastPlayerIdx = u.nextPlayerIdx := by
    unfold played
    rw [happlied]
    exact lastPlayerIdx_next (u.putCard card).punished
  have hlast : (u.played card specifiedColor).lastPlayer = (u.putCard card).punished.player := by
    unfold played
    rw [happlied]
    exact lastPlayer_next (u.putCard card).punished
  obtain ⟨hid, hhand⟩ := player_putCard_wildDraw4 (u := u) hcard
  constructor
  case act =>
    refine ⟨card, specifiedColor, hcard, ?_⟩
    rw [hacc.caller]
  case accepted => rfl
  case seat => exact hidx
  case player =>
    rw [hlast, player_punished]
    exact hid
  case hand =>
    rw [hlast, player_punished]
    exact hhand
  case rule =>
    unfold played
    rw [happlied]
    rfl

/-- The hands and the announcements are no part of it. -/
theorem Pending.of_eq {e : Entry Uno Op Bool} {u u' : Uno} (h : Pending e u)
    (hids : u'.players.map Player.userId = u.players.map Player.userId)
    (hhands : u'.players.map Player.cardsWhenWildDraw4 = u.players.map Player.cardsWhenWildDraw4)
    (hidx : u'.lastPlayerIdx = u.lastPlayerIdx) (hrule : u'.cardB4WildDraw4 = u.cardB4WildDraw4) :
    Pending e u' := by
  constructor
  case act => exact h.act
  case accepted => exact h.accepted
  case seat => exact hidx.trans h.seat
  case player => exact (field_lastPlayer hids hidx).trans h.player
  case hand => exact (field_lastPlayer hhands hidx).trans h.hand
  case rule => exact hrule.trans h.rule

theorem Pending.dealt {e : Entry Uno Op Bool} {u : Uno} (h : Pending e u) (i k : Nat) :
    Pending e (u.dealt i k) :=
  h.of_eq (map_dealt (fun _ _ => rfl) u i k) (map_dealt (fun _ _ => rfl) u i k)
    (lastPlayerIdx_modify { u with deck := u.deck.drop k } i _) rfl

theorem Pending.announced {e : Entry Uno Op Bool} {u : Uno} (h : Pending e u) :
    Pending e u.announced :=
  h.of_eq (map_announcement (fun _ _ => rfl) u true) (map_announcement (fun _ _ => rfl) u true)
    (lastPlayerIdx_modify u _ _) rfl

/-- The step is a `say_uno`, or changes nothing. -/
def Quiet (x : Entry Uno Op Bool) : Prop :=
  (∃ playerId, x.act = .sayUno playerId) ∨ x.post = x.pre

/-- An answer is awaited. -/
def Awaits (u : Uno) : Prop := u.waitSuspect = true

/-- **Step lemma**: an answer is awaited after a call because the call plays the card, or
because one was awaited before it and the call leaves the challenge alone. -/
theorem pending_step {u u' : Uno} {op : Op} {b : Bool} (hs : u.step op = .ok (b, u'))
    (hwait : Awaits u') : Pending ⟨u, op, b, u'⟩ u' ∨
      (Awaits u ∧ Quiet ⟨u, op, b, u'⟩ ∧ ∀ e, Pending e u → Pending e u') := by
  rcases step_cases hs with ⟨-, rfl, -⟩ | he
  · exact .inr ⟨hwait, .inr rfl, fun e h => h⟩
  cases he with
  | @play playerId card hacc specifiedColor =>
    left
    by_cases hcard : card.content = wildDraw4
    · exact pending_played hacc hcard specifiedColor
    · have hsame := waitSuspect_applied (u.putCard card).punished hcard
      exact absurd (hacc.noSuspect.symm.trans (hsame.symm.trans hwait)) Bool.false_ne_true
  | drawOne hmay card => exact absurd (hmay.noSuspect.symm.trans hwait) Bool.false_ne_true
  | skip hmay => exact absurd (hmay.noSuspect.symm.trans hwait) Bool.false_ne_true
  | announce hmay => exact .inr ⟨hwait, .inl ⟨_, rfl⟩, fun e h => h.announced⟩
  | interrupt hseat => exact .inr ⟨hwait, .inl ⟨_, rfl⟩, fun e h => h.dealt _ 2⟩
  | missay hseat hmany => exact .inr ⟨hwait, .inl ⟨_, rfl⟩, fun e h => h.dealt _ 2⟩
  | suspect hmay => exact absurd hwait Bool.false_ne_true
  | dissuspect hmay => exact absurd hwait Bool.false_ne_true

theorem waitSuspect_new {users : List Int} {hne : users ≠ []} {draw : Nat → Nat} :
    Ensures (Uno.new users hne draw) fun u => u.waitSuspect = false := by
  intro u h
  obtain ⟨rest, start, hc⟩ := constructed_new u h
  exact hc.waitSuspect

/-- **Run lemma**: while an answer is awaited, some step of the run has played the card,
and there were only quiet steps since. -/
theorem pending_run {users : List Int} {hne : users ≠ []} {draw : Nat → Nat} {u₀ u : Uno}
    {h : List (Entry Uno Op Bool)} (hnew : Uno.new users hne draw = .ok u₀)
    (hr : Run step (fun _ _ => True) u₀ h u) (hwait : u.waitSuspect = true) :
    ∃ h₁ e h₂, h = h₁ ++ e :: h₂ ∧ Pending e u ∧ ∀ x ∈ h₂, Quiet x := by
  have hnew' : ¬ Awaits u₀ := by
    show ¬ u₀.waitSuspect = true
    rw [waitSuspect_new _ hnew]
    exact Bool.false_ne_true
  exact hr.since hnew' (fun _ _ _ _ _ hs hw => pending_step hs hw) hwait

/-! ## The verdict -/

/-- The hand had a card of the colour in force, or of the content in force unless that is
WILD or WILD_DRAW_4. -/
def HadChoice (e : Entry Uno Op Bool) : Prop :=
  ∃ card ∈ e.pre.player.cardsInHand, card.color = e.pre.lastColor ∨
    (e.pre.lastNumber ≠ wild ∧ e.pre.lastNumber ≠ wildDraw4 ∧ card.content = e.pre.lastNumber)

/-- The check finds guilty who had another card to play. -/
theorem Pending.isGuilty_iff {e : Entry Uno Op Bool} {u : Uno} (h : Pending e u) :
    u.isGuilty u.lastPlayer = true ↔ HadChoice e := by
  unfold isGuilty
  rw [h.hand, h.rule, List.any_eq_true]
  constructor
  · rintro ⟨card, hcard, hchoice⟩
    exact ⟨card, hcard, of_decide_eq_true hchoice⟩
  · rintro ⟨card, hcard, hchoice⟩
    exact ⟨card, hcard, decide_eq_true hchoice⟩

/-- **The challenge of a WILD_DRAW_4**: while an answer is awaited, the last step that was
not quiet has played the card. A suspicion is right iff the hand before that step had
a choice. Then its player draws four cards and the turn is kept. Otherwise the
next player draws six and is skipped, or four without a suspicion. -/
theorem challenge_settles {users : List Int} {hne : users ≠ []} {draw : Nat → Nat} {u₀ u : Uno}
    {h : List (Entry Uno Op Bool)} (hnew : Uno.new users hne draw = .ok u₀)
    (hr : Run step (fun _ _ => True) u₀ h u) (hwait : u.waitSuspect = true) :
    ∃ h₁ e h₂, h = h₁ ++ e :: h₂ ∧ Pending e u ∧ (∀ x ∈ h₂, Quiet x) ∧
      (HadChoice e → 4 ≤ u.deckSize → ∃ cards, u.suspect u.player.userId =
        .ok (some (cards, true, e.pre.player.userId), (u.dealt e.pre.nextPlayerIdx 4).settled)) ∧
      (¬ HadChoice e → 6 ≤ u.deckSize → ∃ cards, u.suspect u.player.userId =
        .ok (some (cards, false, e.pre.player.userId),
          (u.dealt u.nextPlayerIdx 6).next.settled)) ∧
      (4 ≤ u.deckSize → u.dissuspect u.player.userId =
        .ok (true, (u.dealt u.nextPlayerIdx 4).next.settled)) := by
  obtain ⟨h₁, e, h₂, heq, hpending, hquiet⟩ := pending_run hnew hr hwait
  have hmay : u.MayAnswer u.player.userId := ⟨hwait, rfl⟩
  have hsuspect {success : Bool} (hguilty : u.isGuilty u.lastPlayer = success)
      (hdeck : (if success then 4 else 6) ≤ u.deckSize) : ∃ cards, u.suspect u.player.userId =
        .ok (some (cards, success, e.pre.player.userId), (u.penalised success).settled) := by
    have htakes := (takes_suspect hmay).1
    rw [hguilty] at htakes
    obtain ⟨⟨answer, u'⟩, hr⟩ := htakes.yields.mpr hdeck
    obtain ⟨⟨cards, rfl⟩, rfl⟩ := suspect_penalised hmay _ hr
    rw [hguilty, hpending.player] at hr
    exact ⟨cards, hr⟩
  refine ⟨h₁, e, h₂, heq, hpending, hquiet, fun hchoice hdeck => ?_, fun hchoice hdeck => ?_,
    fun hdeck => ?_⟩
  · have hguilty := hpending.isGuilty_iff.mpr hchoice
    obtain ⟨cards, hr⟩ := hsuspect hguilty hdeck
    rw [← hpending.seat]
    exact ⟨cards, hr⟩
  · have hinnocent : u.isGuilty u.lastPlayer = false :=
      Bool.eq_false_iff.mpr fun hguilty => hchoice (hpending.isGuilty_iff.mp hguilty)
    exact hsuspect hinnocent hdeck
  · obtain ⟨⟨answer, u'⟩, hr⟩ := (takes_dissuspect hmay).1.yields.mpr hdeck
    obtain ⟨rfl, rfl⟩ := dissuspect_settled hmay _ hr
    exact hr

/-- User 1 plays a WILD_DRAW_4 of the hand, and user 2 says UNO out of turn. -/
def challenged : List Op := [.play 1 ⟨black, wildDraw4⟩ 2, .sayUno 2]

/-- A wild draw four of three players is challenged. -/
theorem challenge_settles_three : ∃ u₀ h u,
    Uno.new [1, 2, 3] (by decide) (fun k => 7 * k + 4) = .ok u₀ ∧
      Run step (fun _ _ => True) u₀ h u ∧ h.map Entry.act = challenged ∧
      ∃ h₁ e h₂, h = h₁ ++ e :: h₂ ∧ Pending e u ∧ (∀ x ∈ h₂, Quiet x) ∧
        (HadChoice e → ∃ cards, u.suspect u.player.userId =
          .ok (some (cards, true, e.pre.player.userId),
            (u.dealt e.pre.nextPlayerIdx 4).settled)) ∧
        (¬ HadChoice e → ∃ cards, u.suspect u.player.userId =
          .ok (some (cards, false, e.pre.player.userId),
            (u.dealt u.nextPlayerIdx 6).next.settled)) ∧
        u.dissuspect u.player.userId = .ok (true, (u.dealt u.nextPlayerIdx 4).next.settled) := by
  have hcheck : playsOut [1, 2, 3] (by decide) (fun k => 7 * k + 4) challenged
      (fun _ u => decide (u.waitSuspect = true ∧ 6 ≤ u.deckSize)) = true := by
    decide +kernel
  obtain ⟨u₀, h, u, hnew, hr, hacts, hlast⟩ := run_of_playsOut hcheck
  obtain ⟨hwait, hsix⟩ := of_decide_eq_true hlast
  have hfour : 4 ≤ u.deckSize := by omega
  obtain ⟨h₁, e, h₂, heq, hpending, hquiet, hright, hwrong, hdissuspect⟩ :=
    challenge_settles hnew hr hwait
  exact ⟨u₀, h, u, hnew, hr, hacts, h₁, e, h₂, heq, hpending, hquiet,
    fun hchoice => hright hchoice hfour, fun hchoice => hwrong hchoice hsix, hdissuspect hfour⟩

end UnoppServer.Uno
