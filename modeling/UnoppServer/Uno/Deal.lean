import UnoppServer.Uno.Supply

/-!
# Uno: dealing ends

The constructor deals seven cards to each player and then turns cards until a
number card is at the back of the deck. With at most ten players there are cards
enough to deal, and the thirty-eight or more that remain cannot all be among the
twenty-four that are no number cards, so the turning ends (`exists_new`).
-/

namespace UnoppServer.Uno

/-- Dealing keeps the seats. -/
theorem map_userId_deal {players players' : List Player} {deck deck' : List Card}
    (h : deal players deck = .ok (players', deck')) :
    players'.map Player.userId = players.map Player.userId := by
  induction players generalizing players' deck deck' with
  | nil =>
    cases h
    rfl
  | cons p rest ih =>
    obtain ⟨rest', hrest, rfl⟩ := deal_cons h
    exact congrArg (p.userId :: ·) (ih hrest)

/-- The constructor seats the users in the order of the shuffle. -/
theorem ids_of_new {users : List Int} {hne : users ≠ []} {draw : Nat → Nat} {u : Uno}
    (h : Uno.new users hne draw = .ok u) : u.ids = Shuffle.shuffle draw users := by
  obtain ⟨rest, start, hc⟩ := constructed_new u h
  show u.players.map Player.userId = _
  rw [map_userId_deal hc.deal, Shuffle.map_shuffle, List.map_map,
    show Player.userId ∘ Player.new = id from rfl, List.map_id]

/-- The constructor seats the users in some order. -/
theorem ids_new {users : List Int} {hne : users ≠ []} {draw : Nat → Nat} :
    Ensures (Uno.new users hne draw) fun u => u.ids.Perm users := by
  intro u h
  rw [ids_of_new h]
  exact Shuffle.shuffle_perm draw users

/-- Dealing needs seven cards for each player, from the front of the deck. -/
theorem exists_deal {players : List Player} {deck : List Card}
    (h : 7 * players.length ≤ deck.length) :
    ∃ dealt, deal players deck = .ok (dealt, deck.drop (7 * players.length)) := by
  induction players generalizing deck with
  | nil => exact ⟨[], rfl⟩
  | cons p rest ih =>
    rw [List.length_cons] at h
    have hrest : 7 * rest.length ≤ (deck.drop 7).length := by
      rw [List.length_drop]
      omega
    obtain ⟨dealt, hdeal⟩ := ih hrest
    unfold deal
    rw [if_neg (by omega), hdeal, List.drop_drop]
    refine ⟨_, congrArg Except.ok (Prod.ext rfl ?_)⟩
    rw [List.length_cons, Nat.mul_succ, Nat.add_comm]

/-- The turning ends when a number card is at the back of the deck, or among the
first cards. -/
theorem exists_toNumberCard {rounds : Nat} {deck : List Card} (hne : deck ≠ [])
    (h : isNumberCard (deck.getLast hne) = true ∨ ∃ c ∈ deck.take rounds, isNumberCard c = true) :
    ∃ deck' card, toNumberCard rounds deck = .ok (deck', card) := by
  induction rounds generalizing deck with
  | zero =>
    have hlast : isNumberCard (deck.getLast hne) = true := h.resolve_right fun ⟨_, hc, _⟩ => by
      rw [List.take_zero] at hc
      exact absurd hc List.not_mem_nil
    cases deck with
    | nil => exact absurd rfl hne
    | cons c deck =>
      unfold toNumberCard
      exact ⟨_, _, if_pos hlast⟩
  | succ rounds ih =>
    cases deck with
    | nil => exact absurd rfl hne
    | cons c deck =>
      unfold toNumberCard
      dsimp only
      by_cases hlast : isNumberCard ((c :: deck).getLast hne) = true
      · exact ⟨_, _, if_pos hlast⟩
      · rw [if_neg hlast]
        -- the number card has come one closer to the front, or is at the back now
        obtain ⟨d, hd, hnumber⟩ := h.resolve_left hlast
        have hne' : deck ++ [c] ≠ [] :=
          List.append_ne_nil_of_right_ne_nil deck (List.cons_ne_nil c [])
        refine ih hne' ?_
        rcases List.mem_cons.mp hd with rfl | hd
        · left
          rw [List.getLast_append_singleton]
          exact hnumber
        · right
          refine ⟨d, ?_, hnumber⟩
          rw [List.take_append]
          exact List.mem_append_left _ hd

/-- Twenty-four cards are no number cards. -/
theorem countP_not_number : allCards.countP (fun c => !isNumberCard c) = 24 := by decide

/-- More than twenty-four of the cards have a number card among them. -/
theorem exists_number {deck rest : List Card} (hp : deck.Perm allCards) (hs : rest.Sublist deck)
    (hlen : 24 < rest.length) : ∃ c ∈ rest, isNumberCard c = true := by
  by_contra hno
  have hall : rest.countP (fun c => !isNumberCard c) = rest.length :=
    List.countP_eq_length.mpr fun c hc => by
      have hnot : isNumberCard c ≠ true := fun hnumber => hno ⟨c, hc, hnumber⟩
      simpa using hnot
  have hle := hs.countP_le (p := fun c => !isNumberCard c)
  rw [hp.countP_eq, countP_not_number, hall] at hle
  omega

/-- **Dealing ends** with at most ten players: the players are the given users, and
the deck is not empty. -/
theorem exists_new {users : List Int} (hne : users ≠ []) (hlen : users.length ≤ 10)
    (draw : Nat → Nat) :
    ∃ u, Uno.new users hne draw = .ok u ∧ u.ids.Perm users ∧ 0 < u.deckSize := by
  have hcards := Shuffle.shuffle_perm (fun k => draw (k + (users.length - 1))) allCards
  have hcount : (Shuffle.shuffle draw (users.map Player.new)).length = users.length := by
    rw [Shuffle.length_shuffle, List.length_map]
  have hdeck : (Shuffle.shuffle (fun k => draw (k + (users.length - 1))) allCards).length = 108 :=
    hcards.length_eq
  have henough : 7 * (Shuffle.shuffle draw (users.map Player.new)).length ≤
      (Shuffle.shuffle (fun k => draw (k + (users.length - 1))) allCards).length := by
    rw [hcount, hdeck]
    omega
  obtain ⟨dealt, hdeal⟩ := exists_deal henough
  rw [hcount] at hdeal
  generalize hrest : (Shuffle.shuffle (fun k => draw (k + (users.length - 1))) allCards).drop
    (7 * users.length) = rest at hdeal
  have hlong : 24 < rest.length := by
    rw [← hrest, List.length_drop, hdeck]
    omega
  have hrestne : rest ≠ [] := List.ne_nil_of_length_pos (by omega)
  obtain ⟨c, hc, hnumber⟩ := exists_number hcards (hrest ▸ List.drop_sublist ..) hlong
  obtain ⟨deck, card, hturn⟩ := exists_toNumberCard hrestne
    (.inr ⟨c, by rw [List.take_length]; exact hc, hnumber⟩)
  have hok : ∃ u, Uno.new users hne draw = .ok u ∧ 0 < u.deckSize := by
    unfold Uno.new
    dsimp only
    split
    · rename_i e herr
      rw [hdeal] at herr
      cases herr
    · rename_i dealt' deck' hdeal'
      obtain ⟨rfl, rfl⟩ := Prod.mk.inj (Except.ok.inj (hdeal.symm.trans hdeal'))
      simp only [hturn, bind, Except.bind]
      refine ⟨_, rfl, ?_⟩
      show 0 < deck.length
      rw [(perm_toNumberCard hturn).length_eq]
      omega
  obtain ⟨u, hnew, hpos⟩ := hok
  exact ⟨u, hnew, ids_new _ hnew, hpos⟩

end UnoppServer.Uno
