import UnoppServer.Uno.Display

/-!
# Uno: the deal and the starting card

The constructor deals seven cards to each player and turns cards from the front of the deck
to its back until `is_number_card` holds of the back. The predicate compares with `SKIP`,
not with `NINE`, so the turning also stops at a SKIP.

- `find?_turnOrder`: the starting card is the first one that is a number or a SKIP, in the
  order in which the cards come to the back;
- `wellDealt_iff`: so the constructor does what it is for exactly when a number comes before
  every SKIP in that order;
- `starts_with_skip`: a deal that starts with a SKIP.
-/

namespace UnoppServer.Uno

/-- The cards of the deck in the order in which the turning looks at them. -/
def turnOrder (deck : List Card) : List Card := deck.getLast?.toList ++ deck.dropLast

theorem turnOrder_concat (rest : List Card) (c : Card) :
    turnOrder (rest ++ [c]) = c :: rest := by
  unfold turnOrder
  rw [List.getLast?_concat, List.dropLast_concat]
  rfl

/-- A card at the back that does not stop the turning is looked at no more. -/
theorem find?_turnOrder_of_back {deck : List Card}
    (h : ∀ last, deck.getLast? = some last → isNumberCard last = false) :
    (turnOrder deck).find? isNumberCard = deck.find? isNumberCard := by
  rcases List.eq_nil_or_concat deck with rfl | ⟨rest, last, rfl⟩
  · rfl
  · rw [List.concat_eq_append] at h ⊢
    have hback := h last (List.getLast?_concat ..)
    rw [turnOrder_concat, List.find?_cons_of_neg (by rw [hback]; decide), List.find?_append,
      List.find?_singleton, hback]
    exact (Option.or_none ..).symm

/-- **The starting card** is the first that stops the turning. -/
theorem find?_turnOrder {rounds : Nat} {deck deck' : List Card} {card : Card}
    (h : toNumberCard rounds deck = .ok (deck', card)) :
    (turnOrder deck).find? isNumberCard = some card := by
  have hstop : ∀ {deck : List Card}, deck.getLast? = some card → isNumberCard card = true →
      (turnOrder deck).find? isNumberCard = some card := by
    intro deck hlast hnumber
    unfold turnOrder
    rw [hlast]
    exact List.find?_cons_of_pos hnumber
  induction rounds generalizing deck with
  | zero =>
    rcases toNumberCard_cases h with ⟨-, hlast, hnumber⟩ | ⟨n, c, rest, hn, -, -, -⟩
    · exact hstop hlast hnumber
    · cases hn
  | succ rounds ih =>
    rcases toNumberCard_cases h with ⟨-, hlast, hnumber⟩ | ⟨n, c, rest, hn, rfl, hback, hrest⟩
    · exact hstop hlast hnumber
    · cases hn
      have hfind := ih hrest
      rw [turnOrder_concat] at hfind
      rw [find?_turnOrder_of_back hback]
      exact hfind

/-! ## The deal -/

/-- Dealing takes seven cards for each player, from the front of the deck. -/
theorem deal_eq_ok {players players' : List Player} {deck deck' : List Card}
    (h : deal players deck = .ok (players', deck'))
    (hlen : 7 * players.length ≤ deck.length) :
    deck' = deck.drop (7 * players.length) ∧ ∀ p ∈ players', p.cardsInHand.length = 7 := by
  induction players generalizing players' deck deck' with
  | nil =>
    cases h
    exact ⟨rfl, fun p hp => absurd hp List.not_mem_nil⟩
  | cons p rest ih =>
    rw [List.length_cons] at hlen
    obtain ⟨rest', hrest, rfl⟩ := deal_cons h
    obtain ⟨hdeck, hhands⟩ := ih hrest (by rw [List.length_drop]; omega)
    constructor
    · rw [hdeck, List.drop_drop, List.length_cons, Nat.mul_succ, Nat.add_comm]
    · intro q hq
      rcases List.mem_cons.mp hq with rfl | hq
      · show (deck.take 7).length = 7
        rw [List.length_take]
        omega
      · exact hhands q hq

/-- The deck before the turning: the shuffled cards that are not dealt. -/
def undealt (n : Nat) (draw : Nat → Nat) : List Card :=
  (Shuffle.shuffle (fun k => draw (k + (n - 1))) allCards).drop (7 * n)

/-- In a new game each hand has seven cards, and a number card is at the back of the deck. -/
theorem hands_new {users : List Int} {hne : users ≠ []} {draw : Nat → Nat}
    (hlen : users.length ≤ 10) : Ensures (Uno.new users hne draw) fun u =>
      (∀ p ∈ u.players, p.cardsInHand.length = 7) ∧
        ∃ rounds card, toNumberCard rounds (undealt users.length draw) = .ok (u.deck, card) := by
  intro u h
  obtain ⟨rest, start, hc⟩ := constructed_new u h
  have hcount : (Shuffle.shuffle draw (users.map Player.new)).length = users.length := by
    rw [Shuffle.length_shuffle, List.length_map]
  obtain ⟨hdeck, hhands⟩ := deal_eq_ok hc.deal (by
    rw [hcount, Shuffle.length_shuffle, show allCards.length = 108 from rfl]
    omega)
  rw [hcount] at hdeck
  refine ⟨hhands, rest.length, start, ?_⟩
  rw [undealt, ← hdeck]
  exact hc.turn

/-! ## What the constructor is for -/

/-- The users are seated with seven cards each, no card is lost or added, and the starting card
is one of ZERO to NINE. -/
structure WellDealt (users : List Int) (u : Uno) : Prop where
  seats : u.ids.Perm users
  hands : ∀ p ∈ u.players, p.cardsInHand.length = 7
  cards : u.cards = ↑allCards
  start : ∃ card, u.getLastCard = .ok card ∧ 0 ≤ card.content ∧ card.content ≤ 9

/-- A number card comes before every SKIP. -/
def NumberFirst (l : List Card) : Prop :=
  ∃ pre card post, l = pre ++ card :: post ∧ card.content ≤ 9 ∧ ∀ c ∈ pre, c.content ≠ skip

/-- The first card that is a number or a SKIP decides. -/
theorem numberFirst_iff {l : List Card} {card : Card} (h : l.find? isNumberCard = some card) :
    NumberFirst l ↔ card.content ≤ 9 := by
  constructor
  · rintro ⟨pre, c, post, rfl, hc, hskip⟩
    have hle : isNumberCard c = true := decide_eq_true (by omega)
    rw [List.find?_append, List.find?_cons_of_pos hle] at h
    cases hpre : pre.find? isNumberCard with
    | none =>
      rw [hpre] at h
      obtain rfl := Option.some.inj h
      exact hc
    | some c' =>
      rw [hpre] at h
      obtain rfl := Option.some.inj h
      have hstops : isNumberCard c' = true := List.find?_some hpre
      have hnumber := of_decide_eq_true hstops
      have hne := hskip c' (List.mem_of_find?_eq_some hpre)
      unfold skip at hne
      omega
  · intro hle
    obtain ⟨-, pre, post, hl, hpre⟩ := List.find?_eq_some_iff_append.mp h
    refine ⟨pre, card, post, hl, hle, fun c hc heq => ?_⟩
    have hnot := hpre c hc
    unfold isNumberCard at hnot
    rw [heq] at hnot
    exact absurd hnot (by decide)

/-- **Dealing** with at most ten players ends, and is well done exactly when a number card comes
before every SKIP among the cards that are not dealt, the last of them first. -/
theorem wellDealt_iff {users : List Int} (hne : users ≠ []) (hlen : users.length ≤ 10)
    (draw : Nat → Nat) : (∃ u, Uno.new users hne draw = .ok u ∧ WellDealt users u) ↔
      NumberFirst (turnOrder (undealt users.length draw)) := by
  obtain ⟨u, hnew, hids, -⟩ := exists_new hne hlen draw
  obtain ⟨hhands, rounds, card, hturn⟩ := hands_new hlen _ hnew
  have hback : u.getLastCard = .ok card := getLastCard_eq_ok.mpr (toNumberCard_eq_ok hturn).1
  rw [numberFirst_iff (find?_turnOrder hturn)]
  constructor
  · rintro ⟨u', hnew', hdealt⟩
    obtain rfl := Except.ok.inj (hnew.symm.trans hnew')
    obtain ⟨card', hback', -, hle⟩ := hdealt.start
    obtain rfl := Except.ok.inj (hback.symm.trans hback')
    exact hle
  · intro hle
    have hcards : u.cards = ↑allCards := intact_new _ hnew
    have hmem : card ∈ u.cards :=
      Multiset.mem_add.mpr (.inl (List.mem_of_getLast? (toNumberCard_eq_ok hturn).1))
    rw [hcards] at hmem
    have hpos : ∀ c ∈ allCards, 0 ≤ c.content := by decide
    exact ⟨u, hnew, hids, hhands, hcards, card, hback, hpos card hmem, hle⟩

theorem wellDealt_iff_three :
    (∃ u, Uno.new [1, 2, 3] (by decide) (fun _ => 0) = .ok u ∧ WellDealt [1, 2, 3] u) ↔
      NumberFirst (turnOrder (undealt 3 fun _ => 0)) :=
  wellDealt_iff (show ([1, 2, 3] : List Int) ≠ [] by decide) (by decide) fun _ => 0

/-- When `rand()` always returns 18, the game of three users starts with a SKIP. -/
theorem starts_with_skip : ¬ ∀ (users : List Int) (hne : users ≠ []) (draw : Nat → Nat),
    3 ≤ users.length → users.length ≤ 10 →
      ∃ u, Uno.new users hne draw = .ok u ∧ WellDealt users u := by
  intro h
  have hcheck : playsOut [1, 2, 3] (by decide) (fun _ => 18) []
      (fun _ u => u.deck.getLast?.any fun card => decide (card.content = skip)) = true := by
    decide +kernel
  obtain ⟨u₀, h', u, hnew, hr, hacts, hskip⟩ := run_of_playsOut hcheck
  -- nothing is played
  have hsame := hr.exec_eq
  rw [hacts] at hsame
  obtain rfl := Except.ok.inj hsame
  obtain ⟨u', hnew', hdealt⟩ := h [1, 2, 3] (by decide) (fun _ => 18) (by decide) (by decide)
  obtain rfl := Except.ok.inj (hnew.symm.trans hnew')
  obtain ⟨card, hback, -, hle⟩ := hdealt.start
  rw [getLastCard_eq_ok.mp hback] at hskip
  have hcontent : card.content = skip := of_decide_eq_true hskip
  unfold skip at hcontent
  omega

end UnoppServer.Uno
