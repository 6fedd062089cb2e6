import UnoppServer.Gomoku.Board

/-!
# Gomoku: the search on the real board

`search_max` and `search_min` write each trial stone on the board of the game, call
one another and erase the stone again; at depth 0 `search_max` also writes
`ai_drop_pos`. The definitions here do that: they work on the whole object, with the
loops and their early returns. They leave everything but `aiDropPos` as it was and
compute what the search of `Game` computes from a board of its own (`searchMax_eq`,
`searchMin_eq`), so `update` on the real board is `Gomoku.update` (`update_eq`).
-/

namespace UnoppServer.Gomoku.InPlace

/-- `board[i][j] = p`. -/
def put (g : Gomoku) (c : Nat × Nat) (p : Piece) : Gomoku :=
  { g with board := g.board.put c.1 c.2 p }

/-- `ai_drop_pos` is set at depth 0. -/
def note (depth : Nat) (g : Gomoku) (c : Nat × Nat) : Gomoku :=
  if depth = 0 then { g with aiDropPos := c } else g

/-- What a search, or `situation`, does in the loops: a score, the object afterwards, and
the place in the stream of random numbers. -/
abbrev Search := Gomoku → Int → Nat → Int × Gomoku × Nat

/-- The loop of `search_max`, with `child` for the call in its body. -/
def maxLoop (child : Search) (depth : Nat) (piece : Piece) (parentBeta : Int) :
    List (Nat × Nat) → Int → Gomoku → Nat → Int × Gomoku × Nat
  | [], alpha, g, k => (alpha, g, k)
  | c :: rest, alpha, g, k =>
    if isCandidate g.board c then
      let (score, g, k) := child (put g c piece) alpha k
      let g := put g c .none
      if alpha < score then
        let g := note depth g c
        if parentBeta ≤ score then (score, g, k)
        else maxLoop child depth piece parentBeta rest score g k
      else maxLoop child depth piece parentBeta rest alpha g k
    else maxLoop child depth piece parentBeta rest alpha g k

/-- The loop of `search_min`. -/
def minLoop (child : Search) (piece : Piece) (parentAlpha : Int) :
    List (Nat × Nat) → Int → Gomoku → Nat → Int × Gomoku × Nat
  | [], beta, g, k => (beta, g, k)
  | c :: rest, beta, g, k =>
    if isCandidate g.board c then
      let (score, g, k) := child (put g c piece) beta k
      let g := put g c .none
      if score < beta then
        if score ≤ parentAlpha then (score, g, k)
        else minLoop child piece parentAlpha rest score g k
      else minLoop child piece parentAlpha rest beta g k
    else minLoop child piece parentAlpha rest beta g k

/-- The call of `situation` at the last level. -/
def leaf (eval : Evaluator) : Search := fun g _ k =>
  let (score, k) := eval g.board k
  (score, g, k)

mutual

/-- `search_max`. `levels` is `max_search_depth - depth`. -/
def searchMax (eval : Evaluator) : (levels depth : Nat) → (toBlack : Bool) → Search
  | 0, depth, toBlack => fun g parentBeta k =>
    maxLoop (leaf eval) depth (mapPiece toBlack) parentBeta cells intMin g k
  | levels + 1, depth, toBlack => fun g parentBeta k =>
    maxLoop (searchMin eval levels (depth + 1) (!toBlack)) depth (mapPiece toBlack) parentBeta
      cells intMin g k

/-- `search_min`. -/
def searchMin (eval : Evaluator) : (levels depth : Nat) → (toBlack : Bool) → Search
  | 0, _, toBlack => fun g parentAlpha k =>
    minLoop (leaf eval) (mapPiece toBlack) parentAlpha cells intMax g k
  | levels + 1, depth, toBlack => fun g parentAlpha k =>
    minLoop (searchMax eval levels (depth + 1) (!toBlack)) (mapPiece toBlack) parentAlpha
      cells intMax g k

end

/-- `AIDrop` up to its call of `drop`. -/
def think (g : Gomoku) (eval : Evaluator) (k : Nat) : Gomoku :=
  let g := { g with isAiThinking := true }
  let (_, g, _) := searchMax eval g.maxSearchDepth 0 true g intMax k
  g

/-- `AIDrop`. -/
def aiDrop (g : Gomoku) (eval : Evaluator) (k : Nat) : Gomoku :=
  let g := think g eval k
  let (_, g) := g.drop g.aiDropPos.1 g.aiDropPos.2 false
  { g with isAiThinking := false }

/-- `update`. -/
def update (g : Gomoku) (eval : Evaluator) (k : Nat) : Gomoku :=
  if g.status ≠ .notEnd then g
  else
    let g := { g with status := g.scan }
    if g.status = .notEnd ∧ g.currentIsBlack = false ∧ g.useAi = true then aiDrop g eval k else g

/-! ## The trial stones are erased -/

/-- A search that leaves the object as it was, and whose score is that of a search on a
board of its own. -/
def Pure (child : Search) (score : Board → Int → Nat → Int × Nat) : Prop :=
  ∀ g bound k, child g bound k = ((score g.board bound k).1, g, (score g.board bound k).2)

theorem pure_leaf (eval : Evaluator) : Pure (leaf eval) fun b _ k => eval b k := fun _ _ _ => rfl

variable {child : Search} {score : Board → Int → Nat → Int × Nat} {piece : Piece}

/-- A trial stone, the search below it, and the erasure. -/
theorem Pure.trial (h : Pure child score) (piece : Piece) {g : Gomoku} {c : Nat × Nat}
    (hc : isCandidate g.board c = true) (bound : Int) (k : Nat) :
    let r := child (put g c piece) bound k
    let s := score (g.board.put c.1 c.2 piece) bound k
    r.1 = s.1 ∧ put r.2.1 c .none = g ∧ r.2.2 = s.2 := by
  have hnone : g.board.at c.1 c.2 = .none := by
    unfold isCandidate at hc
    rw [Bool.and_eq_true, decide_eq_true_eq] at hc
    exact hc.1
  rw [h]
  refine ⟨rfl, ?_, rfl⟩
  show { g with board := (g.board.put c.1 c.2 piece).put c.1 c.2 .none } = g
  rw [Board.put_put_none hnone]

/-- The loop of `search_min` leaves the object as it was. -/
theorem minLoop_eq (h : Pure child score) (parentAlpha : Int) (l : List (Nat × Nat)) (beta : Int)
    (g : Gomoku) (k : Nat) :
    minLoop child piece parentAlpha l beta g k =
      ((Gomoku.minLoop score g.board piece parentAlpha l beta k).1, g,
        (Gomoku.minLoop score g.board piece parentAlpha l beta k).2) := by
  induction l generalizing beta k with
  | nil => rfl
  | cons c rest ih =>
    by_cases hc : isCandidate g.board c = true
    · obtain ⟨hscore, hboard, hplace⟩ := h.trial piece hc beta k
      simp only [minLoop, Gomoku.minLoop, hc, if_true, hscore, hboard, hplace]
      -- the score is not below beta, or it ends the loop, or it is the new beta
      split
      · split
        · rfl
        · exact ih _ _
      · exact ih _ _
    · simp only [minLoop, Gomoku.minLoop, hc]
      exact ih _ _

/-- The object after `search_max` has noted its best move, which it does at depth 0. -/
def noted (depth : Nat) (g : Gomoku) (best : Option (Nat × Nat)) : Gomoku :=
  if depth = 0 then { g with aiDropPos := best.getD g.aiDropPos } else g

@[simp] theorem noted_board (depth : Nat) (g : Gomoku) (best : Option (Nat × Nat)) :
    (noted depth g best).board = g.board := by
  unfold noted
  split <;> rfl

theorem noted_none (depth : Nat) (g : Gomoku) : noted depth g none = g := by
  unfold noted
  split <;> rfl

theorem note_noted (depth : Nat) (g : Gomoku) (best : Option (Nat × Nat)) (c : Nat × Nat) :
    note depth (noted depth g best) c = noted depth g (some c) := by
  unfold note noted
  split <;> rfl

/-- The loop of `search_max` only notes the best move. -/
theorem maxLoop_eq (h : Pure child score) (depth : Nat) (piece : Piece) (parentBeta : Int)
    (l : List (Nat × Nat)) (alpha : Int) (best : Option (Nat × Nat)) (g : Gomoku) (k : Nat) :
    let r := Gomoku.maxLoop score g.board piece parentBeta l alpha best k
    maxLoop child depth piece parentBeta l alpha (noted depth g best) k =
      (r.1, noted depth g r.2.1, r.2.2) := by
  induction l generalizing alpha best k with
  | nil => rfl
  | cons c rest ih =>
    by_cases hc : isCandidate g.board c = true
    · have hc' : isCandidate (noted depth g best).board c = true := by rwa [noted_board]
      obtain ⟨hscore, hboard, hplace⟩ := h.trial piece hc' alpha k
      rw [noted_board] at hscore hplace
      simp only [maxLoop, Gomoku.maxLoop, hc, hc', if_true, hscore, hboard, hplace, note_noted]
      -- as in the other loop, and a new best move is noted
      split
      · split
        · rfl
        · exact ih _ _ _
      · exact ih _ _ _
    · simp only [maxLoop, Gomoku.maxLoop, noted_board, hc]
      exact ih _ _ _

mutual

/-- **The search for a maximum** notes its best move at depth 0, and leaves the rest as
it was. -/
theorem searchMax_eq (eval : Evaluator) (levels depth : Nat) (toBlack : Bool) (g : Gomoku)
    (parentBeta : Int) (k : Nat) :
    let r := Gomoku.searchMax eval levels g.board toBlack parentBeta k
    searchMax eval levels depth toBlack g parentBeta k = (r.1, noted depth g r.2.1, r.2.2) := by
  cases levels with
  | zero =>
    have h := maxLoop_eq (pure_leaf eval) depth (mapPiece toBlack) parentBeta cells intMin none g k
    rwa [noted_none] at h
  | succ levels =>
    have hchild : Pure (searchMin eval levels (depth + 1) (!toBlack)) fun b alpha k =>
        Gomoku.searchMin eval levels b (!toBlack) alpha k :=
      fun g bound k => searchMin_eq eval levels (depth + 1) (!toBlack) g bound k
    have h := maxLoop_eq hchild depth (mapPiece toBlack) parentBeta cells intMin none g k
    rwa [noted_none] at h

/-- **The search for a minimum** leaves everything as it was. -/
theorem searchMin_eq (eval : Evaluator) (levels depth : Nat) (toBlack : Bool) (g : Gomoku)
    (parentAlpha : Int) (k : Nat) :
    let r := Gomoku.searchMin eval levels g.board toBlack parentAlpha k
    searchMin eval levels depth toBlack g parentAlpha k = (r.1, g, r.2) := by
  cases levels with
  | zero => exact minLoop_eq (pure_leaf eval) parentAlpha cells intMax g k
  | succ levels =>
    have hchild : Pure (searchMax eval levels (depth + 1) (!toBlack)) fun b beta k =>
        let (s, _, k) := Gomoku.searchMax eval levels b (!toBlack) beta k
        (s, k) :=
      fun g bound k => searchMax_eq eval levels (depth + 1) (!toBlack) g bound k
    exact minLoop_eq hchild parentAlpha cells intMax g k

end

/-- Thinking changes nothing but the flag and the cell that the search has noted. -/
theorem think_eq (g : Gomoku) (eval : Evaluator) (k : Nat) :
    think g eval k = { g with
      isAiThinking := true
      aiDropPos := (Gomoku.searchMax eval g.maxSearchDepth g.board true intMax k).2.1.getD
        g.aiDropPos } := by
  show (searchMax eval g.maxSearchDepth 0 true { g with isAiThinking := true } intMax k).2.1 = _
  rw [searchMax_eq]
  rfl

theorem aiDrop_eq (g : Gomoku) (eval : Evaluator) (k : Nat) :
    aiDrop g eval k = g.aiDrop eval k := by
  unfold aiDrop
  rw [think_eq]
  rfl

/-- **`update` on the real board** is `update`. -/
theorem update_eq (g : Gomoku) (eval : Evaluator) (k : Nat) :
    update g eval k = g.update eval k := by
  unfold update Gomoku.update
  simp only [aiDrop_eq]

end UnoppServer.Gomoku.InPlace
