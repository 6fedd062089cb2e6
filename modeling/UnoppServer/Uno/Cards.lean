import Mathlib.Algebra.Order.Group.Multiset
import Mathlib.Data.Multiset.OrderedMonoid
import Mathlib.Algebra.BigOperators.Group.List.Basic
import Mathlib.Tactic.Abel
import UnoppServer.Lib.Ensures
import UnoppServer.Lib.Runs
import UnoppServer.Uno.Game

/-!
# Uno: the hundred and eight cards

Cards move from the deck to a hand when they are drawn, dealt or taken as a
penalty, and from a hand to the back of the deck when they are played. `give`
loses none. `play` does not look into the hand before it puts the requested
card on the deck: it erases a copy from the hand if it finds one. A client can
so play a card that the hand does not hold, and the deck gains it.

- `Ensures (u.give i count)`: the spec of drawing;
- `Op.HoldsCard`: the calls that play a held card or are refused;
- `cards_conserved_iff`: along every run of such calls the cards are the
  original ones, and the next call keeps them iff it is such a call.
-/

namespace UnoppServer.Uno

open FindIf Runs

/-- All cards: those of the deck and those in the hands. -/
def cards (u : Uno) : Multiset Card :=
  ↑u.deck + (u.players.map fun p => (↑p.cardsInHand : Multiset Card)).sum

/-- The state after a piece of an operation has the same cards and seats. -/
structure Keeps (u u' : Uno) : Prop where
  cards : u'.cards = u.cards
  seats : u'.players.length = u.players.length

theorem Keeps.refl (u : Uno) : Keeps u u := ⟨rfl, rfl⟩

theorem Keeps.trans {u u' u'' : Uno} (h : Keeps u u') (h' : Keeps u' u'') : Keeps u u'' :=
  ⟨h'.cards.trans h.cards, h'.seats.trans h.seats⟩

@[simp] theorem length_modifyPlayer (u : Uno) (i : Nat) (f : Player → Player) :
    (u.modifyPlayer i f).players.length = u.players.length :=
  List.length_modify ..

/-- Changing anything of a player but the hand. -/
theorem keeps_modifyPlayer {u : Uno} {i : Nat} {f : Player → Player}
    (hf : ∀ p, (f p).cardsInHand = p.cardsInHand) : Keeps u (u.modifyPlayer i f) := by
  refine ⟨?_, length_modifyPlayer ..⟩
  unfold Uno.cards Uno.modifyPlayer
  simp only
  rw [map_modify_of_eq fun p => by rw [hf p]]

theorem keeps_next (u : Uno) : Keeps u u.next := ⟨rfl, rfl⟩

/-- The card at the front of the deck goes to a hand. -/
theorem keeps_draw {u : Uno} {i : Nat} {card : Card} {deck : List Card}
    (hi : i < u.players.length) (hdeck : u.deck = card :: deck) :
    Keeps u ({ u with deck := deck }.modifyPlayer i fun p =>
      { p with cardsInHand := p.cardsInHand ++ [card] }) := by
  refine ⟨?_, length_modifyPlayer ..⟩
  have hsum := sum_map_modify (f := fun p : Player => (↑p.cardsInHand : Multiset Card))
    (g := fun p => { p with cardsInHand := p.cardsInHand ++ [card] })
    (List.getElem?_eq_getElem hi)
  unfold Uno.cards Uno.modifyPlayer
  rw [hdeck, ← Multiset.cons_coe]
  simp only [← Multiset.coe_add, Multiset.coe_singleton] at hsum ⊢
  refine add_right_cancel (b := (↑u.players[i].cardsInHand : Multiset Card)) ?_
  rw [add_assoc, hsum, ← Multiset.singleton_add]
  abel

/-- **Drawing loses no card.** -/
theorem ensures_giveLoop {i : Nat} (count : Nat) {res : Card} {u : Uno}
    (hi : i < u.players.length) : Ensures (giveLoop i count res u) fun r => Keeps u r.2 := by
  induction count generalizing res u with
  | zero => exact .ok (.refl u)
  | succ count ih =>
    unfold giveLoop
    cases hdeck : u.deck with
    | nil => exact .error
    | cons card deck =>
      have hdraw := keeps_draw hi hdeck
      exact (ih (hdraw.seats ▸ hi)).mono fun r hr => hdraw.trans hr

theorem ensures_give (u : Uno) {i : Nat} (hi : i < u.players.length) (count : Nat) :
    Ensures (u.give i count) fun r => Keeps u r.2 :=
  ensures_giveLoop count hi

/-! ## The operations -/

/-- The player at the position drew some cards, and something else of that player
changed. -/
theorem Keeps.modifyPlayer {u u' : Uno} (h : Keeps u u') {i : Nat} {f : Player → Player}
    (hf : ∀ p, (f p).cardsInHand = p.cardsInHand) : Keeps u (u'.modifyPlayer i f) :=
  h.trans (keeps_modifyPlayer hf)

theorem ensures_punishUnsaid (u : Uno) : Ensures u.punishUnsaid fun r => Keeps u r.2 := by
  unfold punishUnsaid
  refine .ite (fun _ => ?_) fun _ => .ok (keeps_modifyPlayer fun _ => rfl)
  exact (ensures_give u u.nextPlayerIdx_lt 2).bind fun r hr => .ok (hr.modifyPlayer fun _ => rfl)

theorem ensures_punishSaid (u : Uno) : Ensures u.punishSaid fun r => Keeps u r.2 := by
  unfold punishSaid
  refine .ite (fun _ => ?_) fun _ => .ok (.refl u)
  exact (ensures_give u u.nextPlayerIdx_lt 2).bind fun r hr => .ok (hr.modifyPlayer fun _ => rfl)

/-- Applying a card keeps the cards. -/
theorem ensures_applyCard (u : Uno) (card : Card) :
    Ensures (u.applyCard card) fun u' => Keeps u u' := by
  have hturn :
      Keeps u (if card.content = reverse then { u with reversed := !u.reversed } else u) := by
    split <;> exact ⟨rfl, rfl⟩
  unfold applyCard
  refine .ite (fun _ => ?_) fun _ => .ite (fun _ => ?_) fun _ => .ite (fun _ => ?_) fun _ => ?_
  · exact (ensures_give _ (next _).nextPlayerIdx_lt 2).bind fun r hr =>
      .ok ((hturn.trans (keeps_next _)).trans (hr.trans (keeps_next _)))
  · exact .ok ((hturn.trans (keeps_next _)).trans (keeps_next _))
  · exact .ok ((hturn.trans (keeps_next _)).trans ⟨rfl, rfl⟩)
  · exact .ok (hturn.trans (keeps_next _))

/-- The calls of `play` that pass its checks. -/
structure Accepts (u : Uno) (playerId : Int) (card : Card) : Prop where
  noSuspect : u.waitSuspect = false
  matching : card.color = black ∨ card.color = u.lastColor ∨ card.content = u.lastNumber
  caller : playerId = u.player.userId
  drawn : ¬ (u.player.drawnOne = true ∧ u.player.lastDrew ≠ card)

/-- `play` refuses a call and changes nothing, or puts the card on the deck. -/
theorem ensures_play (u : Uno) (playerId : Int) (card : Card) (specifiedColor : Int) :
    Ensures (u.play playerId card specifiedColor) fun r =>
      (r.1.1 = false ∧ r.2 = u ∧ ¬ u.Accepts playerId card) ∨
      (r.1.1 = true ∧ u.Accepts playerId card ∧ Keeps (u.putCard card) r.2) := by
  unfold play
  refine .ite (fun hw => .ok (.inl ⟨rfl, rfl, fun h => ?_⟩)) fun hw => ?_
  · rw [h.noSuspect] at hw
    cases hw
  refine .ite (fun hm => .ok (.inl ⟨rfl, rfl, fun h => hm h.matching⟩)) fun hm => ?_
  refine .ite (fun hc => .ok (.inl ⟨rfl, rfl, fun h => hc h.caller⟩)) fun hc => ?_
  refine .ite (fun hd => .ok (.inl ⟨rfl, rfl, fun h => h.drawn hd⟩)) fun hd => ?_
  refine (ensures_punishUnsaid _).bind fun r hr => (ensures_applyCard _ _).bind fun u' hu => ?_
  refine .ok (.inr ⟨rfl, ⟨?_, not_not.mp hm, not_not.mp hc, hd⟩, ?_⟩)
  · simpa using hw
  · exact (hr.trans hu).trans ⟨rfl, rfl⟩

/-- Drawing keeps the cards. -/
theorem ensures_drawOne (u : Uno) (playerId : Int) :
    Ensures (u.drawOne playerId) fun r => Keeps u r.2 := by
  unfold drawOne
  refine .ite (fun _ => .ok (.refl u)) fun _ => .ite (fun _ => .ok (.refl u)) fun _ =>
    .ite (fun _ => .ok (.refl u)) fun _ => ?_
  refine (ensures_punishSaid u).bind fun r hr => ?_
  have hflag : Keeps u (r.2.modifyPlayer r.2.nextPlayerIdx fun p => { p with drawnOne := true }) :=
    hr.modifyPlayer fun _ => rfl
  exact (ensures_give _ (modifyPlayer ..).nextPlayerIdx_lt 1).bind fun _ hdraw =>
    .ok ((hflag.trans hdraw).modifyPlayer fun _ => rfl)

theorem ensures_skipAfterDrawingOne (u : Uno) (playerId : Int) :
    Ensures (u.skipAfterDrawingOne playerId) fun r => Keeps u r.2 := by
  unfold skipAfterDrawingOne
  refine .ite (fun _ => .ok (.refl u)) fun _ => .ite (fun _ => .ok (.refl u)) fun _ =>
    .ite (fun _ => .ok (.refl u)) fun _ => ?_
  exact .ok ((keeps_modifyPlayer (f := fun p => { p with drawnOne := false }) fun _ => rfl).trans
    (keeps_next _))

theorem seatOf_lt {u : Uno} {playerId : Int} {i : Nat} {p : Player}
    (h : u.seatOf playerId = some (i, p)) : i < u.players.length := by
  unfold seatOf at h
  split at h
  · exact findIf_lt h
  · cases h

/-- Saying UNO keeps the cards, also where it costs two. -/
theorem ensures_sayUno (u : Uno) (playerId : Int) :
    Ensures (u.sayUno playerId) fun r => Keeps u r.2 := by
  unfold sayUno
  cases hseat : u.seatOf playerId with
  | some r => exact (ensures_give u (seatOf_lt hseat) 2).bind fun r hr => .ok hr
  | none =>
    refine .ite (fun _ => ?_) fun _ => .ok (keeps_modifyPlayer fun _ => rfl)
    exact (ensures_give u u.nextPlayerIdx_lt 2).bind fun r hr => .ok hr

theorem ensures_penalise (u : Uno) (success : Bool) :
    Ensures (u.penalise success) fun u' => Keeps u u' := by
  unfold penalise
  refine .ite (fun _ => ?_) fun _ => ?_
  · exact (ensures_give u u.lastPlayerIdx_lt 4).bind fun r hr => .ok hr
  · exact (ensures_give u u.nextPlayerIdx_lt 6).bind fun r hr => .ok (hr.trans (keeps_next _))

/-- A challenge keeps the cards. -/
theorem ensures_suspect (u : Uno) (playerId : Int) :
    Ensures (u.suspect playerId) fun r => Keeps u r.2 := by
  unfold suspect
  refine .ite (fun _ => .ok (.refl u)) fun _ => .ite (fun _ => .ok (.refl u)) fun _ => ?_
  refine (ensures_penalise u _).bind fun u' hu => ?_
  split
  · exact .error
  · exact .ok (hu.trans ⟨rfl, rfl⟩)

theorem ensures_dissuspect (u : Uno) (playerId : Int) :
    Ensures (u.dissuspect playerId) fun r => Keeps u r.2 := by
  unfold dissuspect
  refine .ite (fun _ => .ok (.refl u)) fun _ => .ite (fun _ => .ok (.refl u)) fun _ => ?_
  exact (ensures_give u u.nextPlayerIdx_lt 4).bind fun r hr => .ok (hr.trans ⟨rfl, rfl⟩)

/-! ## Playing a card -/

theorem getElem?_nextPlayerIdx (u : Uno) : u.players[u.nextPlayerIdx]? = some u.player :=
  List.getElem?_eq_getElem u.nextPlayerIdx_lt

/-- The hand of the next player counts for the cards only through what it holds. -/
theorem cards_putCard (u : Uno) (card : Card) :
    (u.putCard card).cards + ↑u.player.cardsInHand =
      card ::ₘ u.cards + ↑(u.player.cardsInHand.erase card) := by
  have hsum := sum_map_modify (f := fun p : Player => (↑p.cardsInHand : Multiset Card))
    (g := fun p => { p with
      drawnOne := false
      cardsWhenWildDraw4 :=
        if card.content = wildDraw4 then p.cardsInHand else p.cardsWhenWildDraw4
      cardsInHand := p.cardsInHand.erase card }) u.getElem?_nextPlayerIdx
  simp only at hsum
  unfold Uno.cards putCard Uno.modifyPlayer
  simp only [← Multiset.coe_add, Multiset.coe_singleton] at hsum ⊢
  rw [add_assoc, hsum, ← Multiset.singleton_add]
  abel

/-- A card that the hand holds moves to the deck. -/
theorem cards_putCard_of_mem {u : Uno} {card : Card} (h : card ∈ u.player.cardsInHand) :
    (u.putCard card).cards = u.cards := by
  have hcards := cards_putCard u card
  rw [Multiset.cons_add, ← Multiset.add_cons, ← Multiset.coe_erase,
    Multiset.cons_erase (Multiset.mem_coe.mpr h)] at hcards
  exact add_right_cancel hcards

/-- A card that the hand does not hold is made. -/
theorem cards_putCard_of_notMem {u : Uno} {card : Card} (h : card ∉ u.player.cardsInHand) :
    (u.putCard card).cards = card ::ₘ u.cards := by
  have hcards := cards_putCard u card
  rw [List.erase_of_not_mem h] at hcards
  exact add_right_cancel hcards

/-- The calls that play a card of the next player's hand, or are refused, or play
no card. -/
def Op.HoldsCard (u : Uno) : Op → Prop
  | .play playerId card _ => u.Accepts playerId card → card ∈ u.player.cardsInHand
  | _ => True

/-- **Step lemma**: a call that completes keeps the cards, or plays a card that the
hand does not hold and adds it. -/
theorem ensures_step (u : Uno) (op : Op) : Ensures (u.step op) fun r =>
    (op.HoldsCard u ∧ r.2.cards = u.cards) ∨
      (¬ op.HoldsCard u ∧ ∃ card, r.2.cards = card ::ₘ u.cards) := by
  cases op with
  | play playerId card specifiedColor =>
    refine (ensures_play u playerId card specifiedColor).bind ?_
    rintro ⟨⟨success, punish⟩, u'⟩ (⟨-, rfl, hn⟩ | ⟨-, ha, hk⟩)
    · exact .ok (.inl ⟨fun h => absurd h hn, rfl⟩)
    · by_cases hmem : card ∈ u.player.cardsInHand
      · exact .ok (.inl ⟨fun _ => hmem, hk.cards.trans (cards_putCard_of_mem hmem)⟩)
      · exact .ok (.inr ⟨fun h => hmem (h ha), card,
          hk.cards.trans (cards_putCard_of_notMem hmem)⟩)
  | drawOne playerId =>
    exact (ensures_drawOne u playerId).bind fun r hr => .ok (.inl ⟨trivial, hr.cards⟩)
  | skipAfterDrawingOne playerId =>
    exact (ensures_skipAfterDrawingOne u playerId).mono fun r hr => .inl ⟨trivial, hr.cards⟩
  | sayUno playerId =>
    exact (ensures_sayUno u playerId).mono fun r hr => .inl ⟨trivial, hr.cards⟩
  | suspect playerId =>
    exact (ensures_suspect u playerId).bind fun r hr => .ok (.inl ⟨trivial, hr.cards⟩)
  | dissuspect playerId =>
    exact (ensures_dissuspect u playerId).mono fun r hr => .inl ⟨trivial, hr.cards⟩

/-- A call keeps the cards iff it holds the card it plays. -/
theorem cards_step_iff {u u' : Uno} {op : Op} {b : Bool} (h : u.step op = .ok (b, u')) :
    u'.cards = u.cards ↔ op.HoldsCard u := by
  rcases ensures_step u op _ h with ⟨hh, hc⟩ | ⟨hn, card, hc⟩
  · exact ⟨fun _ => hh, fun _ => hc⟩
  · constructor
    · intro hsame
      -- there would be one card more
      have hcard := congrArg Multiset.card (hc.symm.trans hsame)
      simp at hcard
    · intro hh
      exact absurd hh hn

/-! ## The first state -/

/-- Dealing moves cards from the deck to the hands. -/
theorem cards_deal {players players' : List Player} {deck deck' : List Card}
    (h : deal players deck = .ok (players', deck')) :
    (↑deck' : Multiset Card) + (players'.map fun p => (↑p.cardsInHand : Multiset Card)).sum =
      ↑deck := by
  induction players generalizing players' deck deck' with
  | nil =>
    cases h
    exact add_zero _
  | cons p rest ih =>
    obtain ⟨rest', hrest, rfl⟩ := deal_cons h
    rw [List.map_cons, List.sum_cons, add_left_comm, ih hrest, Multiset.coe_add,
      List.take_append_drop]

/-- The turning ends, or goes on with the first card at the back. -/
theorem toNumberCard_cases {rounds : Nat} {deck deck' : List Card} {card : Card}
    (h : toNumberCard rounds deck = .ok (deck', card)) :
    (deck' = deck ∧ deck.getLast? = some card ∧ isNumberCard card = true) ∨
      ∃ n c rest, rounds = n + 1 ∧ deck = c :: rest ∧
        (∀ last, deck.getLast? = some last → isNumberCard last = false) ∧
        toNumberCard n (rest ++ [c]) = .ok (deck', card) := by
  cases deck with
  | nil =>
    unfold toNumberCard at h
    cases h
  | cons c rest =>
    unfold toNumberCard at h
    dsimp only at h
    split at h
    · rename_i hnumber
      cases h
      exact .inl ⟨rfl, List.getLast?_eq_some_getLast _, hnumber⟩
    · rename_i hnumber
      have hback : ∀ last, (c :: rest).getLast? = some last → isNumberCard last = false := by
        intro last hlast
        rw [List.getLast?_eq_some_getLast (List.cons_ne_nil c rest)] at hlast
        obtain rfl := Option.some.inj hlast
        exact Bool.eq_false_of_not_eq_true hnumber
      cases rounds with
      | zero => cases h
      | succ n => exact .inr ⟨n, c, rest, rfl, rfl, hback, h⟩

/-- Looking for a number card turns the deck around, and keeps its cards. -/
theorem perm_toNumberCard {rounds : Nat} {deck deck' : List Card} {card : Card}
    (h : toNumberCard rounds deck = .ok (deck', card)) : deck'.Perm deck := by
  induction rounds generalizing deck with
  | zero =>
    rcases toNumberCard_cases h with ⟨rfl, -⟩ | ⟨n, c, rest, hn, -, -⟩
    · exact .refl _
    · cases hn
  | succ rounds ih =>
    rcases toNumberCard_cases h with ⟨rfl, -⟩ | ⟨n, c, rest, hn, rfl, -, hrest⟩
    · exact .refl _
    · cases hn
      exact (ih hrest).trans (List.perm_append_singleton c rest)

/-- What the constructor makes: the shuffled cards are dealt to the shuffled players, and the rest
is turned until there is a card to start with. -/
structure Constructed (users : List Int) (draw : Nat → Nat) (u : Uno) (rest : List Card)
    (start : Card) : Prop where
  deal : deal (Shuffle.shuffle draw (users.map Player.new))
    (Shuffle.shuffle (fun k => draw (k + (users.length - 1))) allCards) = .ok (u.players, rest)
  turn : toNumberCard rest.length rest = .ok (u.deck, start)
  lastColor : u.lastColor = start.color
  lastNumber : u.lastNumber = start.content
  reversed : u.reversed = false
  waitSuspect : u.waitSuspect = false
  first : u.nextPlayerIdx = draw (users.length - 1 + 107) % users.length

/-- How a new game comes about. -/
theorem constructed_new {users : List Int} {hne : users ≠ []} {draw : Nat → Nat} :
    Ensures (Uno.new users hne draw) fun u =>
      ∃ rest start, Constructed users draw u rest start := by
  unfold Uno.new
  dsimp only
  split
  · exact .error
  · rename_i dealt rest hdeal
    exact .bind' fun r hr => .ok ⟨rest, r.2, hdeal, hr, rfl, rfl, rfl, rfl, rfl⟩

/-- The cards are the hundred and eight of the constructor. -/
def Intact (u : Uno) : Prop := u.cards = ↑allCards

/-- The constructor deals the original cards. -/
theorem intact_new {ids : List Int} {hne : ids ≠ []} {draw : Nat → Nat} :
    Ensures (Uno.new ids hne draw) Intact := by
  intro u h
  obtain ⟨rest, start, hc⟩ := constructed_new u h
  unfold Intact Uno.cards
  rw [Multiset.coe_eq_coe.mpr (perm_toNumberCard hc.turn), cards_deal hc.deal, Multiset.coe_eq_coe]
  exact Shuffle.shuffle_perm ..

/-- **Card conservation**: in a game of Uno whose calls all hold the card they
play, the cards are always the original ones; and a further call that draws from
no empty deck leaves them so iff it holds the card it plays. -/
theorem cards_conserved_iff {ids : List Int} {hne : ids ≠ []} {draw : Nat → Nat} {u₀ u : Uno}
    {h : List (Entry Uno Op Bool)} (hnew : Uno.new ids hne draw = .ok u₀)
    (hr : Run step (fun u op => op.HoldsCard u) u₀ h u) :
    u.cards = ↑allCards ∧ ∀ op b u', u.step op = .ok (b, u') →
      (u'.cards = ↑allCards ↔ op.HoldsCard u) := by
  have hintact : Intact u := by
    refine hr.invariant (intact_new _ hnew) fun s op b s' hs hop hstep => ?_
    exact ((cards_step_iff hstep).mpr hop).trans hs
  refine ⟨hintact, fun op b u' hstep => ?_⟩
  rw [← cards_step_iff hstep, hintact]

/-! ## Games played out -/

/-- Deal, make the calls, and check the last state against the first. -/
def playsOut (users : List Int) (hne : users ≠ []) (draw : Nat → Nat) (ops : List Op)
    (check : Uno → Uno → Bool) : Bool :=
  match Uno.new users hne draw with
  | .ok u₀ => (execIf step (fun _ _ => True) u₀ ops).any (check u₀)
  | .error _ => false

/-- The run of a game played out. -/
theorem run_of_playsOut {users : List Int} {hne : users ≠ []} {draw : Nat → Nat} {ops : List Op}
    {check : Uno → Uno → Bool} (hcheck : playsOut users hne draw ops check = true) :
    ∃ u₀ h u, Uno.new users hne draw = .ok u₀ ∧ Run step (fun _ _ => True) u₀ h u ∧
      h.map Entry.act = ops ∧ check u₀ u = true := by
  unfold playsOut at hcheck
  split at hcheck
  · rename_i u₀ hnew
    obtain ⟨u, hu, hlast⟩ := (Option.any_eq_true _ _).mp hcheck
    obtain ⟨h, hr, hacts⟩ := run_of_execIf .nil hu
    exact ⟨u₀, h, u, hnew, hr, hacts, hlast⟩
  · cases hcheck

/-- Player 2 holds card 1 (RED, ONE) and plays it, and player 1 then draws one. -/
def playsHeld (u₀ : Uno) : Bool :=
  decide ((⟨0, 1⟩ : Card) ∈ u₀.player.cardsInHand) &&
    stepTo step u₀ (.play 2 ⟨0, 1⟩ 0) fun success u =>
      success && stepTo step u (.drawOne 1) fun success _ => success

theorem playsHeld_three :
    playsOut [1, 2, 3] (by decide) (fun _ => 0) [] (fun _ u => u.playsHeld) = true := by
  decide +kernel

/-- All cards are there after the play, and after the draw. -/
theorem cards_conserved_three : ∃ u₀ u u', Uno.new [1, 2, 3] (by decide) (fun _ => 0) = .ok u₀ ∧
    (⟨0, 1⟩ : Card) ∈ u₀.player.cardsInHand ∧ u₀.step (.play 2 ⟨0, 1⟩ 0) = .ok (true, u) ∧
    u.cards = ↑allCards ∧ u.step (.drawOne 1) = .ok (true, u') ∧ u'.cards = ↑allCards := by
  obtain ⟨u₀, h, u₁, hnew, hr, hacts, hcheck⟩ := run_of_playsOut playsHeld_three
  obtain rfl := List.map_eq_nil_iff.mp hacts
  obtain rfl : u₀ = u₁ := Run.unique .nil hr
  obtain ⟨hheld, hplay⟩ := Bool.and_eq_true_iff.mp hcheck
  obtain ⟨success, u, hplay, hdraw⟩ := exists_of_stepTo hplay
  obtain ⟨rfl, hdraw⟩ := Bool.and_eq_true_iff.mp hdraw
  obtain ⟨success, u', hdraw, rfl⟩ := exists_of_stepTo hdraw
  have hheld : (⟨0, 1⟩ : Card) ∈ u₀.player.cardsInHand := of_decide_eq_true hheld
  have hr : Run step (fun u op => op.HoldsCard u) u₀ [⟨u₀, .play 2 ⟨0, 1⟩ 0, true, u⟩] u :=
    .snoc .nil (fun _ => hheld) hplay
  obtain ⟨hcards, hiff⟩ := cards_conserved_iff hnew hr
  exact ⟨u₀, u, u', hnew, hheld, hplay, hcards, hdraw, (hiff _ _ _ hdraw).mpr trivial⟩

/-- The number of the cards, by deck and hands. -/
theorem card_cards (u : Uno) : Multiset.card u.cards =
    u.deck.length + (u.players.map fun p => p.cardsInHand.length).sum := by
  have hsum : ∀ players : List Player,
      Multiset.card (players.map fun p => (↑p.cardsInHand : Multiset Card)).sum =
        (players.map fun p => p.cardsInHand.length).sum := by
    intro players
    induction players with
    | nil => rfl
    | cons p rest ih => simp [ih]
  rw [Uno.cards, Multiset.card_add, hsum, Multiset.coe_card]

/-- What a computed first state is checked for: the next player can play card 64
(BLACK, ZERO), and the deck and the hands then hold 109 cards. -/
def forges (u₀ : Uno) : Bool :=
  match u₀.step (.play u₀.player.userId ⟨4, 0⟩ 0) with
  | .ok (true, u) =>
    decide (u.deck.length + (u.players.map fun p => p.cardsInHand.length).sum = 109)
  | _ => false

theorem forges_three : (match Uno.new [1, 2, 3] (by decide) (fun _ => 0) with
    | .ok u₀ => u₀.forges
    | .error _ => false) = true := by
  decide +kernel

/-- The player whose turn it is plays a card that no hand can hold, and there are
109 cards. -/
theorem play_forges_card : ∃ u₀ u, Uno.new [1, 2, 3] (by decide) (fun _ => 0) = .ok u₀ ∧
    u₀.step (.play u₀.player.userId ⟨4, 0⟩ 0) = .ok (true, u) ∧ u.cards ≠ ↑allCards := by
  have hcheck := forges_three
  split at hcheck
  · rename_i u₀ hnew
    unfold forges at hcheck
    split at hcheck
    · rename_i u hplay
      refine ⟨u₀, u, hnew, hplay, fun hsame => ?_⟩
      have hcard := congrArg Multiset.card hsame
      rw [card_cards, of_decide_eq_true hcheck] at hcard
      exact absurd hcard (by decide)
    · cases hcheck
  · cases hcheck

end UnoppServer.Uno
