import UnoppServer.Uno.Idle

/-!
# Uno: what an operation does

`Effect u op b u'` says once what a call that passes its checks does: it lists,
operation by operation, the checks, the answer and the state that results.
`step_cases` is the inversion of `Uno.step`: a call that completes is turned
away and changes nothing, or has its effect.

The states are written with the pieces of the operations as total functions:
`dealt u i k` is `give` from a deck that has the cards, `punished` and `hushed`
are the two penalties with the flag that they clear, `applied` is what a card
does, and `penalised` is the verdict on a suspicion.
-/

namespace UnoppServer.Uno

open FindIf

/-! ## The pieces -/

/-- The first `k` cards of the deck go to the hand of the player at a position. -/
def dealt (u : Uno) (i k : Nat) : Uno :=
  { u with deck := u.deck.drop k }.modifyPlayer i fun p =>
    { p with cardsInHand := p.cardsInHand ++ u.deck.take k }

/-- No cards are dealt. -/
theorem dealt_zero (u : Uno) (i : Nat) : u.dealt i 0 = u := by
  have hplayers : u.players.modify i
      (fun p => { p with cardsInHand := p.cardsInHand ++ u.deck.take 0 }) = u.players := by
    rw [List.take_zero]
    simp only [List.append_nil]
    exact List.modify_id ..
  cases u
  unfold dealt modifyPlayer
  simp only [hplayers, List.drop_zero]

theorem dealt_succ {u : Uno} {i : Nat} {card : Card} {deck : List Card} (k : Nat)
    (hdeck : u.deck = card :: deck) :
    ({ u with deck := deck }.modifyPlayer i fun p =>
      { p with cardsInHand := p.cardsInHand ++ [card] }).dealt i k = u.dealt i (k + 1) := by
  unfold dealt modifyPlayer
  simp only [hdeck, List.modify_modify_eq, List.take_succ_cons, List.drop_succ_cons,
    Function.comp_def, List.append_assoc, List.singleton_append]

/-- **Giving cards**, when the deck has them. -/
theorem giveLoop_dealt {i : Nat} (count : Nat) {res : Card} {u : Uno} :
    Ensures (giveLoop i count res u) fun r => r.2 = u.dealt i count := by
  induction count generalizing res u with
  | zero => exact .ok (dealt_zero u i).symm
  | succ count ih =>
    unfold giveLoop
    cases hdeck : u.deck with
    | nil => exact .error
    | cons card deck => exact ih.mono fun r hr => hr.trans (dealt_succ count hdeck)

theorem give_dealt (u : Uno) (i count : Nat) :
    Ensures (u.give i count) fun r => r.2 = u.dealt i count :=
  giveLoop_dealt count

/-- The next player has announced the last card but one. -/
def announced (u : Uno) : Uno := u.modifyPlayer u.nextPlayerIdx fun p => { p with saidUno := true }

/-- The next player's announcement is taken back. -/
def unannounced (u : Uno) : Uno :=
  u.modifyPlayer u.nextPlayerIdx fun p => { p with saidUno := false }

/-- After the penalty of a player who has played without an announcement. -/
def punished (u : Uno) : Uno := (u.dealt u.nextPlayerIdx u.unsaid).unannounced

/-- After the penalty of a player who draws in spite of an announcement. -/
def hushed (u : Uno) : Uno := (u.dealt u.nextPlayerIdx u.said).unannounced

/-- A player who plays without an announcement pays for it. -/
theorem punishUnsaid_punished (u : Uno) :
    Ensures u.punishUnsaid fun r => r.2 = u.punished := by
  unfold punishUnsaid punished unsaid
  split
  · refine (give_dealt u _ 2).bind fun r hr => .ok ?_
    rw [← hr]
    rfl
  · rw [dealt_zero]
    exact .ok rfl

/-- A player who draws in spite of an announcement pays for it. -/
theorem punishSaid_hushed (u : Uno) : Ensures u.punishSaid fun r => r.2 = u.hushed := by
  unfold punishSaid hushed said
  cases hsaid : u.player.saidUno with
  | true =>
    rw [if_pos rfl, if_pos rfl]
    refine (give_dealt u _ 2).bind fun r hr => .ok ?_
    rw [← hr]
    rfl
  | false =>
    rw [if_neg Bool.false_ne_true, if_neg Bool.false_ne_true, dealt_zero]
    refine .ok (modifyPlayer_eq_self_iff.mpr ?_).symm
    rw [← hsaid]

/-- What a card does to the turn, to the player it reaches and to the suspicion. -/
def applied (u : Uno) (card : Card) : Uno :=
  let u := (if card.content = reverse then { u with reversed := !u.reversed } else u).next
  if card.content = draw2 then (u.dealt u.nextPlayerIdx 2).next
  else if card.content = skip then u.next
  else if card.content = wildDraw4 then
    { u with waitSuspect := true, cardB4WildDraw4 := ⟨u.lastColor, u.lastNumber⟩ }
  else u

/-- `apply_card` does what `applied` says. -/
theorem applyCard_applied (u : Uno) (card : Card) :
    Ensures (u.applyCard card) fun u' => u' = u.applied card := by
  unfold applyCard applied
  dsimp only
  split
  · refine (give_dealt _ _ 2).bind fun r hr => .ok ?_
    rw [hr]
  · split
    · exact .ok rfl
    · split <;> exact .ok rfl

/-- An accepted `play`. -/
def played (u : Uno) (card : Card) (specifiedColor : Int) : Uno :=
  ((u.putCard card).punished.applied card).setLast card specifiedColor

/-- The player has drawn, after the penalty. -/
def drawing (u : Uno) : Uno :=
  u.hushed.modifyPlayer u.nextPlayerIdx fun p => { p with drawnOne := true }

/-- An accepted `draw_one`, with the card. -/
def drew (u : Uno) (card : Card) : Uno :=
  (u.drawing.dealt u.nextPlayerIdx 1).modifyPlayer u.nextPlayerIdx fun p =>
    { p with lastDrew := card }

/-- The verdict on a suspicion. -/
def penalised (u : Uno) (success : Bool) : Uno :=
  if success then u.dealt u.lastPlayerIdx 4 else (u.dealt u.nextPlayerIdx 6).next

theorem penalise_penalised (u : Uno) (success : Bool) :
    Ensures (u.penalise success) fun u' => u' = u.penalised success := by
  unfold penalise penalised
  split
  · exact (give_dealt u _ 4).bind fun r hr => .ok hr
  · refine (give_dealt u _ 6).bind fun r hr => .ok ?_
    rw [hr]

/-- The suspicion is settled. -/
def settled (u : Uno) : Uno := { u with waitSuspect := false }

/-! ## What new hands and announcements leave alone -/

/-- An announcement, or its end, changes no other field. -/
theorem map_announcement {α : Type} {field : Player → α}
    (hfield : ∀ p said, field { p with saidUno := said } = field p) (u : Uno) (said : Bool) :
    (u.modifyPlayer u.nextPlayerIdx fun p => { p with saidUno := said }).players.map field =
      u.players.map field := by
  refine map_modifyPlayer ?_
  intro p
  exact hfield p said

section Fields

variable {α : Type} {field : Player → α}
  (hfield : ∀ p cards, field { p with cardsInHand := cards } = field p)

include hfield

theorem map_dealt (u : Uno) (i k : Nat) :
    (u.dealt i k).players.map field = u.players.map field :=
  map_modify_of_eq (fun _ => hfield _ _) u.players i

/-- Applying a card keeps what it does not concern. -/
theorem map_applied (u : Uno) (card : Card) :
    (u.applied card).players.map field = u.players.map field := by
  have hturn : (if card.content = reverse then { u with reversed := !u.reversed } else u).players =
      u.players := by
    split
    · rfl
    · rfl
  unfold applied
  generalize (if card.content = reverse then _ else u) = u₁ at hturn ⊢
  dsimp only
  rw [← hturn]
  split
  · exact map_dealt hfield u₁.next _ 2
  · split
    · rfl
    · split
      · rfl
      · rfl

theorem map_penalised (u : Uno) (success : Bool) :
    (u.penalised success).players.map field = u.players.map field := by
  unfold penalised
  split
  · exact map_dealt hfield ..
  · exact map_dealt hfield ..

end Fields

theorem player_modifyPlayer (u : Uno) (f : Player → Player) :
    (u.modifyPlayer u.nextPlayerIdx f).player = f u.player := by
  have hget := getElem?_nextPlayerIdx (u.modifyPlayer u.nextPlayerIdx f)
  have hmodify : (u.players.modify u.nextPlayerIdx f)[u.nextPlayerIdx]? = some (f u.player) := by
    rw [List.getElem?_modify_eq, getElem?_nextPlayerIdx]
    rfl
  exact Option.some.inj (hget.symm.trans hmodify)

/-- The next player, after the card has left the hand. -/
theorem player_putCard (u : Uno) (card : Card) : (u.putCard card).player =
    { u.player with
      drawnOne := false
      cardsWhenWildDraw4 :=
        if card.content = wildDraw4 then u.player.cardsInHand else u.player.cardsWhenWildDraw4
      cardsInHand := u.player.cardsInHand.erase card } :=
  player_modifyPlayer { u with deck := u.deck ++ [card] } _

/-- Dealing reaches one hand. -/
theorem getElem?_dealt_ne {u : Uno} {i j : Nat} (hj : j ≠ i) (k : Nat) :
    (u.dealt i k).players[j]? = u.players[j]? :=
  List.getElem?_modify_ne _ _ hj.symm

theorem player_dealt_ne {u : Uno} {i : Nat} (hi : u.nextPlayerIdx ≠ i) (k : Nat) :
    (u.dealt i k).player = u.player := by
  have hget := getElem?_nextPlayerIdx (u.dealt i k)
  have hother := getElem?_dealt_ne (u := u) hi k
  rw [getElem?_nextPlayerIdx] at hother
  exact Option.some.inj (hget.symm.trans hother)

/-- The announcement is taken back before or after the penalty. -/
theorem unannounced_dealt (u : Uno) (k : Nat) :
    (u.dealt u.nextPlayerIdx k).unannounced = u.unannounced.dealt u.nextPlayerIdx k := by
  unfold unannounced dealt modifyPlayer
  simp only [List.modify_modify_eq]
  rfl

/-! ## The operations -/

/-- The checks a call has passed, its answer and its result. -/
inductive Effect (u : Uno) : Op → Bool → Uno → Prop where
  | play {playerId : Int} {card : Card} (accepts : u.Accepts playerId card) (specifiedColor : Int) :
      Effect u (.play playerId card specifiedColor) true (u.played card specifiedColor)
  | drawOne {playerId : Int} (may : u.MayDraw playerId) (card : Card) :
      Effect u (.drawOne playerId) true (u.drew card)
  | skip {playerId : Int} (may : u.MaySkip playerId) :
      Effect u (.skipAfterDrawingOne playerId) true u.skipped
  | announce {playerId : Int} (may : u.MaySay playerId) :
      Effect u (.sayUno playerId) true u.announced
  | interrupt {playerId : Int} {i : Nat} {p : Player} (seat : u.seatOf playerId = some (i, p)) :
      Effect u (.sayUno playerId) false (u.dealt i 2)
  | missay {playerId : Int} (seat : u.seatOf playerId = none)
      (many : u.player.cardsInHand.length ≠ 2) :
      Effect u (.sayUno playerId) false (u.dealt u.nextPlayerIdx 2)
  | suspect {playerId : Int} (may : u.MayAnswer playerId) :
      Effect u (.suspect playerId) true (u.penalised (u.isGuilty u.lastPlayer)).settled
  | dissuspect {playerId : Int} (may : u.MayAnswer playerId) :
      Effect u (.dissuspect playerId) true (u.dealt u.nextPlayerIdx 4).next.settled

/-- A play that is accepted does what `played` says. -/
theorem play_played {u : Uno} {playerId : Int} {card : Card} (h : u.Accepts playerId card)
    (specifiedColor : Int) :
    Ensures (u.play playerId card specifiedColor) fun r =>
      r.1.1 = true ∧ r.2 = u.played card specifiedColor := by
  unfold play
  rw [if_neg (by rw [h.noSuspect]; exact Bool.false_ne_true), if_neg (not_not.mpr h.matching),
    if_neg (not_not.mpr h.caller), if_neg h.drawn]
  refine (punishUnsaid_punished _).bind fun r hr => (applyCard_applied _ card).bind fun u' hu => ?_
  refine .ok ⟨rfl, ?_⟩
  rw [played, ← hr, ← hu]

/-- A draw that is allowed does what `drew` says. -/
theorem drawOne_drew {u : Uno} {playerId : Int} (h : u.MayDraw playerId) :
    Ensures (u.drawOne playerId) fun r => r.1.1.isSome = true ∧ ∃ card, r.2 = u.drew card := by
  unfold drawOne
  rw [if_neg (by rw [h.noSuspect]; exact Bool.false_ne_true), if_neg (not_not.mpr h.caller),
    if_neg (by rw [h.notDrawn]; exact Bool.false_ne_true)]
  refine (punishSaid_hushed u).bind ?_
  rintro ⟨punish, u'⟩ rfl
  refine (give_dealt _ _ 1).bind fun s hs => .ok ⟨rfl, s.1, ?_⟩
  rw [hs]
  rfl

/-- Saying UNO sets the flag or costs two cards. -/
theorem sayUno_effect (u : Uno) (playerId : Int) :
    Ensures (u.sayUno playerId) fun r => Effect u (.sayUno playerId) r.1 r.2 := by
  unfold sayUno
  cases hseat : u.seatOf playerId with
  | some r =>
    refine (give_dealt u r.1 2).bind fun s hs => .ok ?_
    rw [hs]
    exact .interrupt hseat
  | none =>
    refine .ite (fun hmany => ?_) fun htwo => .ok (.announce ⟨hseat, not_not.mp htwo⟩)
    refine (give_dealt u _ 2).bind fun s hs => .ok ?_
    rw [hs]
    exact .missay hseat hmany

theorem getElem?_lastPlayerIdx (u : Uno) : u.players[u.lastPlayerIdx]? = some u.lastPlayer :=
  List.getElem?_eq_getElem u.lastPlayerIdx_lt

/-- An accepted `suspect` answers with the verdict, the suspect and the hand of the
suspect, which holds the penalty by then. -/
theorem suspect_penalised {u : Uno} {playerId : Int} (h : u.MayAnswer playerId) :
    Ensures (u.suspect playerId) fun r =>
      (∃ cards, r.1 = some (cards, u.isGuilty u.lastPlayer, u.lastPlayer.userId)) ∧
      r.2 = (u.penalised (u.isGuilty u.lastPlayer)).settled := by
  unfold Uno.suspect
  rw [if_neg (not_not.mpr h.suspect), if_neg (not_not.mpr h.caller)]
  refine (penalise_penalised u _).bind ?_
  rintro u' rfl
  split
  · exact .error
  · rename_i p hp
    refine .ok ⟨⟨p.cardsInHand, ?_⟩, rfl⟩
    -- the penalty changes no user
    have hid : (u.penalised (u.isGuilty u.lastPlayer)).ids[u.lastPlayerIdx]? =
        u.ids[u.lastPlayerIdx]? :=
      congrArg (·[u.lastPlayerIdx]?) (map_penalised (fun _ _ => rfl) u _)
    unfold ids at hid
    rw [List.getElem?_map, List.getElem?_map, hp, getElem?_lastPlayerIdx] at hid
    rw [show p.userId = u.lastPlayer.userId from Option.some.inj hid]

/-- Giving up costs four cards and the turn. -/
theorem dissuspect_settled {u : Uno} {playerId : Int} (h : u.MayAnswer playerId) :
    Ensures (u.dissuspect playerId) fun r =>
      r.1 = true ∧ r.2 = (u.dealt u.nextPlayerIdx 4).next.settled := by
  unfold dissuspect
  rw [if_neg (not_not.mpr h.suspect), if_neg (not_not.mpr h.caller)]
  refine (give_dealt u _ 4).bind fun r hr => .ok ⟨rfl, ?_⟩
  rw [← hr]
  rfl

/-- What `step_cases` says of one call. -/
theorem ensures_step_cases (u : Uno) (op : Op) : Ensures (u.step op) fun r =>
    (r.1 = false ∧ r.2 = u ∧ op.Refused u) ∨ Effect u op r.1 r.2 := by
  by_cases href : op.Refused u
  · rw [step_refused href]
    exact .ok (.inl ⟨rfl, rfl, href⟩)
  cases op with
  | play playerId card specifiedColor =>
    have hacc : u.Accepts playerId card := not_not.mp href
    refine (play_played hacc specifiedColor).bind ?_
    rintro ⟨⟨success, punish⟩, u'⟩ ⟨rfl, rfl⟩
    exact .ok (.inr (.play hacc specifiedColor))
  | drawOne playerId =>
    have hmay : u.MayDraw playerId := not_not.mp href
    refine (drawOne_drew hmay).bind ?_
    rintro ⟨⟨card, punish⟩, u'⟩ ⟨hsome, card', rfl⟩
    refine .ok (.inr ?_)
    rw [hsome]
    exact .drawOne hmay card'
  | skipAfterDrawingOne playerId =>
    have hmay : u.MaySkip playerId := not_not.mp href
    simp only [step, skip_accepted hmay]
    exact .ok (.inr (.skip hmay))
  | sayUno playerId => exact (sayUno_effect u playerId).mono fun r hr => .inr hr
  | suspect playerId =>
    have hmay : u.MayAnswer playerId := not_not.mp href
    refine (suspect_penalised hmay).bind ?_
    rintro ⟨res, u'⟩ ⟨⟨cards, rfl⟩, rfl⟩
    exact .ok (.inr (.suspect hmay))
  | dissuspect playerId =>
    have hmay : u.MayAnswer playerId := not_not.mp href
    refine (dissuspect_settled hmay).mono ?_
    rintro ⟨b, u'⟩ ⟨rfl, rfl⟩
    exact .inr (.dissuspect hmay)

/-- **Inversion**: a call that completes is turned away and changes nothing, or it
has its effect. -/
theorem step_cases {u u' : Uno} {op : Op} {b : Bool} (h : u.step op = .ok (b, u')) :
    (b = false ∧ u' = u ∧ op.Refused u) ∨ Effect u op b u' :=
  ensures_step_cases u op _ h

end UnoppServer.Uno
