import UnoppServer.Lib.Runs
import UnoppServer.Uno.Deal
import UnoppServer.Uno.Effect

/-!
# Uno: the card that is shown and the rule that is in force

The deck is the draw pile and the discard pile in one: the card that is shown is
its back. What can be played is decided by `last_color` and `last_number`, which
only `init` and `play` write. Everything but a play takes cards from the front
of the deck (`Trims`), and so leaves the back alone until the deck is empty.

- `shown_iff`: along every run the two agree iff there is a card to show;
- `color_in_force_iff`: the colour in force is one of the four iff every play
  names one;
- `draw_hides_card`, `play_names_black`: runs in which it is not so.
-/

namespace UnoppServer.Uno

open FindIf Runs

/-! ## What the operations leave alone -/

/-- Cards have been taken from the front of the deck, and the rule is as before. -/
structure Trims (u u' : Uno) : Prop where
  deck : u'.deck <:+ u.deck
  color : u'.lastColor = u.lastColor
  number : u'.lastNumber = u.lastNumber

theorem Trims.refl (u : Uno) : Trims u u := ⟨List.suffix_refl _, rfl, rfl⟩

theorem Trims.trans {u u' u'' : Uno} (h : Trims u u') (h' : Trims u' u'') : Trims u u'' :=
  ⟨h'.deck.trans h.deck, h'.color.trans h.color, h'.number.trans h.number⟩

theorem trims_dealt (u : Uno) (i k : Nat) : Trims u (u.dealt i k) :=
  ⟨List.drop_suffix k u.deck, rfl, rfl⟩

theorem trims_modifyPlayer (u : Uno) (i : Nat) (f : Player → Player) :
    Trims u (u.modifyPlayer i f) :=
  ⟨List.suffix_refl _, rfl, rfl⟩

theorem trims_punished (u : Uno) : Trims u u.punished :=
  (trims_dealt u _ _).trans (trims_modifyPlayer _ _ _)

theorem trims_drew (u : Uno) (card : Card) : Trims u (u.drew card) := by
  have hhushed : Trims u u.hushed := (trims_dealt u _ _).trans (trims_modifyPlayer _ _ _)
  have hdrawing : Trims u u.drawing := hhushed.trans (trims_modifyPlayer _ _ _)
  exact (hdrawing.trans (trims_dealt _ _ 1)).trans (trims_modifyPlayer _ _ _)

theorem trims_next (u : Uno) : Trims u u.next := ⟨List.suffix_refl _, rfl, rfl⟩

/-- Applying a card keeps the rule. -/
theorem trims_applied (u : Uno) (card : Card) : Trims u (u.applied card) := by
  have hturn :
      Trims u (if card.content = reverse then { u with reversed := !u.reversed } else u) := by
    split
    · exact ⟨List.suffix_refl _, rfl, rfl⟩
    · exact .refl u
  unfold applied
  generalize (if card.content = reverse then _ else u) = u₁ at hturn ⊢
  dsimp only
  split
  · exact (hturn.trans (trims_next u₁)).trans ((trims_dealt _ _ 2).trans (trims_next _))
  · split
    · exact hturn.trans ((trims_next u₁).trans (trims_next _))
    · split
      · exact hturn.trans ⟨List.suffix_refl _, rfl, rfl⟩
      · exact hturn.trans (trims_next u₁)

theorem trims_penalised (u : Uno) (success : Bool) : Trims u (u.penalised success) := by
  unfold penalised
  split
  · exact trims_dealt ..
  · exact (trims_dealt ..).trans (trims_next _)

theorem trims_settled (u : Uno) : Trims u u.settled := ⟨List.suffix_refl _, rfl, rfl⟩

/-- The colour that a play puts in force. -/
def newColor (card : Card) (specifiedColor : Int) : Int :=
  if card.color = black then specifiedColor else card.color

/-- A play shows its card, unless the penalties reach it, and puts it in force. -/
structure Plays (u : Uno) (card : Card) (specifiedColor : Int) (u' : Uno) : Prop where
  deck : u'.deck <:+ u.deck ++ [card]
  color : u'.lastColor = newColor card specifiedColor
  number : u'.lastNumber = card.content

theorem plays_played (u : Uno) (card : Card) (specifiedColor : Int) :
    Plays u card specifiedColor (u.played card specifiedColor) := by
  have htrims := (trims_punished (u.putCard card)).trans (trims_applied _ card)
  exact ⟨htrims.deck, rfl, rfl⟩

/-- The call is one of `play`. -/
def Op.isPlay : Op → Bool
  | .play _ _ _ => true
  | _ => false

/-- **Step lemma**: only an accepted play changes the rule. -/
theorem effect_trims {u u' : Uno} {op : Op} {b : Bool} (h : Effect u op b u') :
    (op.isPlay = false ∧ Trims u u') ∨
      ∃ playerId card specifiedColor, op = .play playerId card specifiedColor ∧
        u.Accepts playerId card ∧ Plays u card specifiedColor u' := by
  cases h with
  | play hacc specifiedColor => exact .inr ⟨_, _, _, rfl, hacc, plays_played ..⟩
  | drawOne hmay card => exact .inl ⟨rfl, trims_drew u card⟩
  | skip hmay => exact .inl ⟨rfl, (trims_modifyPlayer u _ _).trans (trims_next _)⟩
  | announce hmay => exact .inl ⟨rfl, trims_modifyPlayer u _ _⟩
  | interrupt hseat => exact .inl ⟨rfl, trims_dealt u _ _⟩
  | missay hseat hmany => exact .inl ⟨rfl, trims_dealt u _ _⟩
  | suspect hmay => exact .inl ⟨rfl, (trims_penalised u _).trans (trims_settled _)⟩
  | dissuspect hmay =>
    exact .inl ⟨rfl, ((trims_dealt u _ _).trans (trims_next _)).trans (trims_settled _)⟩

/-! ## The card that is shown -/

/-- A card agrees with the rule: its content is in force, and its colour unless it
is black. -/
structure InForce (u : Uno) (card : Card) : Prop where
  content : card.content = u.lastNumber
  color : card.color ≠ black → u.lastColor = card.color

/-- The card at the back of the deck, if there is one, agrees with the rule. -/
def Agrees (u : Uno) : Prop := ∀ card, u.deck.getLast? = some card → InForce u card

/-- The back of a suffix. -/
theorem getLast?_of_suffix {α : Type} {l l' : List α} {a : α} (h : l <:+ l')
    (ha : l.getLast? = some a) : l'.getLast? = some a := by
  obtain ⟨t, rfl⟩ := h
  rw [List.getLast?_append, ha]
  rfl

theorem Agrees.trims {u u' : Uno} (h : Agrees u) (ht : Trims u u') : Agrees u' := by
  intro card hcard
  obtain ⟨hcontent, hcolor⟩ := h card (getLast?_of_suffix ht.deck hcard)
  constructor
  case content => rw [ht.number]; exact hcontent
  case color => rw [ht.color]; exact hcolor

/-- After a play the card at the back of the deck agrees with the rule. -/
theorem Plays.agrees {u u' : Uno} {card : Card} {specifiedColor : Int}
    (h : Plays u card specifiedColor u') : Agrees u' := by
  intro card' hcard'
  have hlast := getLast?_of_suffix h.deck hcard'
  rw [List.getLast?_concat] at hlast
  obtain rfl := Option.some.inj hlast
  constructor
  case content => exact h.number.symm
  case color =>
    intro hblack
    rw [h.color, newColor, if_neg hblack]

/-- **Step lemma**: every call keeps the agreement. -/
theorem Agrees.step {u u' : Uno} {op : Op} {b : Bool} (h : Agrees u)
    (hs : u.step op = .ok (b, u')) : Agrees u' := by
  rcases step_cases hs with ⟨-, rfl, -⟩ | he
  · exact h
  · rcases effect_trims he with ⟨-, ht⟩ | ⟨_, _, _, -, -, hp⟩
    · exact h.trims ht
    · exact hp.agrees

/-! ## The first state -/

/-- The search ends with a number card at the back of the deck. -/
theorem toNumberCard_eq_ok {rounds : Nat} {deck deck' : List Card} {card : Card}
    (h : toNumberCard rounds deck = .ok (deck', card)) :
    deck'.getLast? = some card ∧ isNumberCard card = true := by
  induction rounds generalizing deck with
  | zero =>
    rcases toNumberCard_cases h with ⟨rfl, hlast, hnumber⟩ | ⟨n, c, rest, hn, -, -⟩
    · exact ⟨hlast, hnumber⟩
    · cases hn
  | succ rounds ih =>
    rcases toNumberCard_cases h with ⟨rfl, hlast, hnumber⟩ | ⟨n, c, rest, hn, -, -, hrest⟩
    · exact ⟨hlast, hnumber⟩
    · cases hn
      exact ih hrest

/-- The constructor shows a number card and puts it in force. -/
theorem new_shows {users : List Int} {hne : users ≠ []} {draw : Nat → Nat} :
    Ensures (Uno.new users hne draw) fun u => ∃ card ∈ allCards, isNumberCard card = true ∧
      u.deck.getLast? = some card ∧ u.lastColor = card.color ∧ u.lastNumber = card.content := by
  intro u h
  obtain ⟨rest, start, hc⟩ := constructed_new u h
  obtain ⟨hlast, hnumber⟩ := toNumberCard_eq_ok hc.turn
  refine ⟨start, ?_, hnumber, hlast, hc.lastColor, hc.lastNumber⟩
  -- the card is one of those that were dealt from
  have hmem : start ∈ rest := (perm_toNumberCard hc.turn).mem_iff.mp (List.mem_of_getLast? hlast)
  have hshuffled := Shuffle.shuffle_perm (fun k => draw (k + (users.length - 1))) allCards
  rw [← Multiset.mem_coe, ← Multiset.coe_eq_coe.mpr hshuffled, ← cards_deal hc.deal]
  exact Multiset.mem_add.mpr (.inl hmem)

/-- The last card is that at the back of the deck. -/
theorem getLastCard_eq_ok {u : Uno} {card : Card} :
    u.getLastCard = .ok card ↔ u.deck.getLast? = some card := by
  unfold getLastCard
  cases u.deck.getLast? with
  | none => exact ⟨fun h => (nomatch h), fun h => (nomatch h)⟩
  | some c =>
    constructor
    · intro h
      rw [Except.ok.inj h]
    · intro h
      rw [Option.some.inj h]

/-- **The card shown and the rule agree** after every run iff there is a card to
show. -/
theorem shown_iff {users : List Int} {hne : users ≠ []} {draw : Nat → Nat} {u₀ u : Uno}
    {h : List (Entry Uno Op Bool)} (hnew : Uno.new users hne draw = .ok u₀)
    (hr : Run step (fun _ _ => True) u₀ h u) :
    (∃ card, u.getLastCard = .ok card ∧ card.content = u.lastNumber ∧
      (card.color ≠ black → u.lastColor = card.color)) ↔ u.deck ≠ [] := by
  have hnew' : Agrees u₀ := by
    obtain ⟨card, -, -, hlast, hcolor, hnumber⟩ := new_shows _ hnew
    intro card' hcard'
    obtain rfl := Option.some.inj (hlast.symm.trans hcard')
    exact ⟨hnumber.symm, fun _ => hcolor⟩
  have hagrees : Agrees u := hr.invariant hnew' fun _ _ _ _ h _ hs => h.step hs
  constructor
  · rintro ⟨card, hcard, -⟩ hnil
    rw [getLastCard_eq_ok, hnil] at hcard
    cases hcard
  · intro hdeck
    have hlast := List.getLast?_eq_some_getLast hdeck
    obtain ⟨hcontent, hcolor⟩ := hagrees _ hlast
    exact ⟨_, getLastCard_eq_ok.mpr hlast, hcontent, hcolor⟩

/-- One user says UNO until one card is left, and the next player draws it. -/
def lastCardDrawn : List Op := List.replicate 43 (.sayUno 1) ++ [.drawOne 2]

theorem run_lastCardDrawn : ∃ u₀ h u, Uno.new [1, 2, 3] (by decide) (fun _ => 0) = .ok u₀ ∧
    Run step (fun _ _ => True) u₀ h u ∧ h.map Entry.act = lastCardDrawn ∧ u.deck = [] := by
  have hcheck : playsOut [1, 2, 3] (by decide) (fun _ => 0) lastCardDrawn
      (fun _ u => u.deck.isEmpty) = true := by
    decide +kernel
  obtain ⟨u₀, h, u, hnew, hr, hacts, hempty⟩ := run_of_playsOut hcheck
  exact ⟨u₀, h, u, hnew, hr, hacts, List.isEmpty_iff.mp hempty⟩

/-- None of these calls draws from an empty deck, and there is no card to show after
them. -/
theorem draw_hides_card : ∃ u₀ h u, Uno.new [1, 2, 3] (by decide) (fun _ => 0) = .ok u₀ ∧
    Run step (fun _ _ => True) u₀ h u ∧ h.map Entry.act = lastCardDrawn ∧
    u.getLastCard = .error .emptyQueue := by
  obtain ⟨u₀, h, u, hnew, hr, hacts, hempty⟩ := run_lastCardDrawn
  refine ⟨u₀, h, u, hnew, hr, hacts, ?_⟩
  unfold getLastCard
  rw [hempty]
  rfl

theorem shown_iff_three : ∃ u₀ h u, Uno.new [1, 2, 3] (by decide) (fun _ => 0) = .ok u₀ ∧
    Run step (fun _ _ => True) u₀ h u ∧ h.map Entry.act = lastCardDrawn ∧
    ((∃ card, u.getLastCard = .ok card ∧ card.content = u.lastNumber ∧
      (card.color ≠ black → u.lastColor = card.color)) ↔ u.deck ≠ []) := by
  obtain ⟨u₀, h, u, hnew, hr, hacts, -⟩ := run_lastCardDrawn
  exact ⟨u₀, h, u, hnew, hr, hacts, shown_iff hnew hr⟩

/-! ## The colour in force -/

/-- The call, if it is an accepted play, names one of the four colours. -/
def Op.NamesColor (u : Uno) : Op → Prop
  | .play playerId card specifiedColor =>
    u.Accepts playerId card → newColor card specifiedColor ∈ allColors
  | _ => True

/-- The colour in force is one of the four. -/
def HasColor (u : Uno) : Prop := u.lastColor ∈ allColors

theorem Op.namesColor_of_not_isPlay {u : Uno} {op : Op} (h : op.isPlay = false) :
    op.NamesColor u := by
  cases op with
  | play => cases h
  | drawOne | skipAfterDrawingOne | sayUno | suspect | dissuspect => trivial

theorem Op.namesColor_of_refused {u : Uno} {op : Op} (h : op.Refused u) : op.NamesColor u := by
  cases op with
  | play => exact fun hacc => absurd hacc h
  | drawOne | skipAfterDrawingOne | sayUno | suspect | dissuspect => trivial

/-- **Step lemma**: a call leaves a colour in force iff it names one. -/
theorem hasColor_step {u u' : Uno} {op : Op} {b : Bool} (h : HasColor u)
    (hs : u.step op = .ok (b, u')) : HasColor u' ↔ op.NamesColor u := by
  have hcolor : HasColor u' ↔ u'.lastColor ∈ allColors := Iff.rfl
  rcases step_cases hs with ⟨-, rfl, href⟩ | he
  · exact iff_of_true h (Op.namesColor_of_refused href)
  · rcases effect_trims he with ⟨hop, ht⟩ | ⟨playerId, card, specifiedColor, rfl, hacc, hp⟩
    · rw [hcolor, ht.color]
      exact iff_of_true h (Op.namesColor_of_not_isPlay hop)
    · rw [hcolor, hp.color]
      exact (imp_iff_right hacc).symm

theorem hasColor_new {users : List Int} {hne : users ≠ []} {draw : Nat → Nat} {u₀ : Uno}
    (hnew : Uno.new users hne draw = .ok u₀) : HasColor u₀ := by
  have hnumbers : ∀ card ∈ allCards, isNumberCard card = true → card.color ∈ allColors := by decide
  obtain ⟨card, hcard, hnumber, -, hcolor, -⟩ := new_shows _ hnew
  unfold HasColor
  rw [hcolor]
  exact hnumbers card hcard hnumber

/-- **The colour in force** is one of the four in all states of a run, and so is the
colour of a card of the game that is not black, iff every accepted play names one
of the four. -/
theorem color_in_force_iff {users : List Int} {hne : users ≠ []} {draw : Nat → Nat} {u₀ u : Uno}
    {h : List (Entry Uno Op Bool)} (hnew : Uno.new users hne draw = .ok u₀)
    (hr : Run step (fun _ _ => True) u₀ h u) :
    (∀ s ∈ u₀ :: h.map Entry.post, s.lastColor ∈ allColors ∧
      ∃ card ∈ allCards, card.color ≠ black ∧ card.color = s.lastColor) ↔
      ∀ e ∈ h, Op.NamesColor e.pre e.act := by
  have hmatch : ∀ color ∈ allColors,
      ∃ card ∈ allCards, card.color ≠ black ∧ card.color = color := by
    decide
  have h₀ := hasColor_new hnew
  rw [← Run.safe_iff (fun _ _ _ _ hu hs => hasColor_step hu hs) h₀ hr]
  constructor
  · intro hall e he
    exact (hall e.post (List.mem_cons_of_mem _ (List.mem_map.mpr ⟨e, he, rfl⟩))).1
  · intro hall s hs
    have hcolor : HasColor s := by
      rcases List.mem_cons.mp hs with rfl | hs
      · exact h₀
      · obtain ⟨e, he, rfl⟩ := List.mem_map.mp hs
        exact hall e he
    exact ⟨hcolor, hmatch _ hcolor⟩

/-- A game in which the next player is user 1 and has a WILD card. -/
theorem run_nameBlack : ∃ u₀ h u,
    Uno.new [1, 2, 3] (by decide) (fun k => 7 * k + 4) = .ok u₀ ∧
      ⟨black, wild⟩ ∈ u₀.player.cardsInHand ∧ Run step (fun _ _ => True) u₀ h u ∧
      h.map Entry.act = [.play 1 ⟨black, wild⟩ 4] ∧ u.lastColor = black := by
  have hcheck : playsOut [1, 2, 3] (by decide) (fun k => 7 * k + 4) [.play 1 ⟨black, wild⟩ 4]
      (fun u₀ u => decide (⟨black, wild⟩ ∈ u₀.player.cardsInHand ∧ u.lastColor = black)) =
        true := by
    decide +kernel
  obtain ⟨u₀, h, u, hnew, hr, hacts, hlast⟩ := run_of_playsOut hcheck
  obtain ⟨hheld, hcolor⟩ := of_decide_eq_true hlast
  exact ⟨u₀, h, u, hnew, hheld, hr, hacts, hcolor⟩

/-- The player names the colour 4 for a WILD card of the hand, and it is in force. -/
theorem play_names_black : ∃ u₀ h u,
    Uno.new [1, 2, 3] (by decide) (fun k => 7 * k + 4) = .ok u₀ ∧
      ⟨black, wild⟩ ∈ u₀.player.cardsInHand ∧ Run step (fun _ _ => True) u₀ h u ∧
      h.map Entry.act = [.play 1 ⟨black, wild⟩ 4] ∧ u.lastColor ∉ allColors := by
  obtain ⟨u₀, h, u, hnew, hheld, hr, hacts, hcolor⟩ := run_nameBlack
  refine ⟨u₀, h, u, hnew, hheld, hr, hacts, ?_⟩
  rw [hcolor]
  decide

/-- User 1 plays a wild card and names black, which is no colour. -/
theorem color_in_force_iff_three : ∃ u₀ h u,
    Uno.new [1, 2, 3] (by decide) (fun k => 7 * k + 4) = .ok u₀ ∧
      Run step (fun _ _ => True) u₀ h u ∧ h.map Entry.act = [.play 1 ⟨black, wild⟩ 4] ∧
      ((∀ s ∈ u₀ :: h.map Entry.post, s.lastColor ∈ allColors ∧
        ∃ card ∈ allCards, card.color ≠ black ∧ card.color = s.lastColor) ↔
        ∀ e ∈ h, Op.NamesColor e.pre e.act) := by
  obtain ⟨u₀, h, u, hnew, -, hr, hacts, -⟩ := run_nameBlack
  exact ⟨u₀, h, u, hnew, hr, hacts, color_in_force_iff hnew hr⟩

end UnoppServer.Uno
