import UnoppServer.Uno.Supply

/-!
# Uno: calls that change nothing

`Op.Idle u` lists, operation by operation, the calls that leave the game `u` as
it is: those that are turned away, and a second `say_uno` of a next player
with two cards. `step_eq_iff` says that there are no others.

An accepted `play` puts one card on the deck and takes an even number, drawing
and the penalties shorten the deck, and the other operations change a flag.
-/

namespace UnoppServer.Uno

open FindIf

/-- A call is turned away. -/
def Op.Refused (u : Uno) : Op → Prop
  | .play playerId card _ => ¬ u.Accepts playerId card
  | .drawOne playerId => ¬ u.MayDraw playerId
  | .skipAfterDrawingOne playerId => ¬ u.MaySkip playerId
  | .sayUno _ => False
  | .suspect playerId | .dissuspect playerId => ¬ u.MayAnswer playerId

/-- A call that is refused changes nothing. -/
theorem step_refused {u : Uno} {op : Op} (h : op.Refused u) : u.step op = .ok (false, u) := by
  cases op with
  | play playerId card specifiedColor =>
    simp only [step, play_refused h]
    rfl
  | drawOne playerId =>
    simp only [step, drawOne_refused h]
    rfl
  | skipAfterDrawingOne playerId => exact skip_refused h
  | sayUno playerId => exact h.elim
  | suspect playerId =>
    simp only [step, suspect_refused h]
    rfl
  | dissuspect playerId => exact dissuspect_refused h

/-- The calls that change nothing. -/
def Op.Idle (u : Uno) : Op → Prop
  | .play playerId card _ => ¬ u.Accepts playerId card
  | .drawOne playerId => ¬ u.MayDraw playerId
  | .skipAfterDrawingOne playerId => ¬ u.MaySkip playerId
  | .sayUno playerId => u.MaySay playerId ∧ u.player.saidUno = true
  | .suspect playerId | .dissuspect playerId => ¬ u.MayAnswer playerId

theorem Op.idle_of_refused {u : Uno} {op : Op} (h : op.Refused u) : op.Idle u := by
  cases op with
  | sayUno => exact h.elim
  | play | drawOne | skipAfterDrawingOne | suspect | dissuspect => exact h

/-- The players are the same iff the next player is changed to nothing else. -/
theorem modify_eq_self_iff {u : Uno} {f : Player → Player} :
    u.players.modify u.nextPlayerIdx f = u.players ↔ f u.player = u.player := by
  constructor
  · intro h
    have hp := congrArg (fun l : List Player => l[u.nextPlayerIdx]?) h
    rw [List.getElem?_modify_eq, getElem?_nextPlayerIdx] at hp
    exact Option.some.inj hp
  · intro h
    refine List.ext_getElem? fun i => ?_
    by_cases hi : u.nextPlayerIdx = i
    · rw [← hi, List.getElem?_modify_eq, getElem?_nextPlayerIdx]
      exact congrArg some h
    · exact List.getElem?_modify_ne _ _ hi

/-- A change of the player to move changes the game when it changes the player. -/
theorem modifyPlayer_eq_self_iff {u : Uno} {f : Player → Player} :
    u.modifyPlayer u.nextPlayerIdx f = u ↔ f u.player = u.player := by
  rw [← modify_eq_self_iff]
  constructor
  · intro h
    exact congrArg Uno.players h
  · intro hp
    cases u
    unfold modifyPlayer
    congr

/-- Passing the turn on clears a flag. -/
theorem skipped_ne {u : Uno} {playerId : Int} (h : u.MaySkip playerId) : u.skipped ≠ u := by
  intro he
  have hp : (fun p => { p with drawnOne := false }) u.player = u.player :=
    modify_eq_self_iff.mp (congrArg Uno.players he)
  have hflag := congrArg Player.drawnOne hp
  exact Bool.false_ne_true (hflag.trans h.drawn)

theorem even_unsaid (u : Uno) : u.unsaid % 2 = 0 := by
  unfold unsaid
  split <;> rfl

theorem even_draw2Takes (card : Card) : draw2Takes card % 2 = 0 := by
  unfold draw2Takes
  split <;> rfl

/-- An accepted `play` does not keep the number of cards in the deck. -/
theorem deckSize_play_ne {u : Uno} {playerId : Int} {card : Card} (h : u.Accepts playerId card)
    (specifiedColor : Int) :
    Ensures (u.play playerId card specifiedColor) fun r => r.2.deckSize ≠ u.deckSize := by
  refine (takes_play h specifiedColor).spent.mono fun r hr he => ?_
  have hsize := hr.size
  have hunsaid := even_unsaid (u.putCard card)
  have hdraw2 := even_draw2Takes card
  rw [deckSize_putCard, he, playTakes] at hsize
  omega

/-- Giving cards away changes the deck. -/
theorem ne_of_drawn {k : Nat} {u u' : Uno} (h : Drawn (k + 1) u u') : u' ≠ u := by
  rintro rfl
  have := h.size
  omega

/-- **A call changes nothing iff it is idle.** -/
theorem step_eq_iff {u u' : Uno} {op : Op} {b : Bool} (h : u.step op = .ok (b, u')) :
    u' = u ↔ op.Idle u := by
  revert b u'
  suffices hs : Ensures (u.step op) fun r => r.2 = u ↔ op.Idle u from fun u' b h => hs _ h
  by_cases href : op.Refused u
  · rw [step_refused href]
    exact .ok (iff_of_true rfl (Op.idle_of_refused href))
  cases op with
  | play playerId card specifiedColor =>
    refine (deckSize_play_ne (not_not.mp href) specifiedColor).bind fun r hr => .ok ?_
    exact iff_of_false (fun he => hr (congrArg deckSize he)) href
  | drawOne playerId =>
    refine (takes_drawOne (not_not.mp href)).1.spent.bind fun r hr => .ok ?_
    exact iff_of_false (ne_of_drawn hr) href
  | skipAfterDrawingOne playerId =>
    have hmay : u.MaySkip playerId := not_not.mp href
    simp only [step, skip_accepted hmay]
    exact .ok (iff_of_false (skipped_ne hmay) href)
  | sayUno playerId =>
    by_cases hmay : u.MaySay playerId
    · simp only [step, sayUno_accepted hmay]
      refine .ok (modifyPlayer_eq_self_iff.trans ⟨fun h => ⟨hmay, ?_⟩, fun h => ?_⟩)
      · exact congrArg Player.saidUno h.symm
      · rw [← h.2]
    · refine (takes_sayUno hmay).1.spent.mono fun r hr => ?_
      exact iff_of_false (ne_of_drawn hr) fun h => hmay h.1
  | suspect playerId =>
    have hmay : u.MayAnswer playerId := not_not.mp href
    refine (takes_suspect hmay).2.bind fun r hr => .ok (iff_of_false ?_ href)
    -- the suspicion is settled
    intro he
    rw [he, hmay.suspect] at hr
    exact nomatch hr.2
  | dissuspect playerId =>
    have hmay : u.MayAnswer playerId := not_not.mp href
    refine (takes_dissuspect hmay).2.mono fun r hr => iff_of_false ?_ href
    intro he
    rw [he, hmay.suspect] at hr
    exact nomatch hr.2

end UnoppServer.Uno
