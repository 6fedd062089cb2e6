import UnoppServer.Gomoku.InPlace
import UnoppServer.Lib.AlphaBeta

/-!
# Gomoku: the algorithm plays minimax

The search of the algorithm is alpha-beta pruning of the game `trials`: in a position
(a board, and the flag `to_black`) the moves are the candidate cells in the order of
the loops, and the evaluation is any function of the board with values in `int`. So
`search_max` at the root finds the minimax value and the first best move
(`searchMax_minimax`).
-/

namespace UnoppServer.Gomoku

open AlphaBeta

/-- A function of the board with values in `int`. -/
structure Evaluation where
  score : Board → Int
  mem_int : ∀ b, intMin ≤ score b ∧ score b ≤ intMax

/-- How many more stones white has than black: never more than there are cells. -/
def balance : Evaluation where
  score b := b.count .white - b.count .black
  mem_int b := by
    have hwhite := b.count_le .white
    have hblack := b.count_le .black
    unfold intMin intMax
    omega

/-- The evaluation in place of `situation`; it reads no random numbers. -/
def Evaluation.evaluator (e : Evaluation) : Evaluator := fun b k => (e.score b, k)

/-- The game of trial stones. -/
def trials (e : Evaluation) : Game (Board × Bool) (Nat × Nat) Int where
  moves p := cells.filter (isCandidate p.1)
  play p c := (p.1.put c.1 c.2 (mapPiece p.2), !p.2)
  eval p := e.score p.1
  low := intMin
  high := intMax
  eval_mem p := e.mem_int p.1

section Loops

variable {score : Board → Int → Nat → Int × Nat} {child : Nat × Nat → Int → Int} {b : Board}
  {piece : Piece}

/-- The loop of `search_max` over the cells is the loop over the moves. -/
theorem maxLoop_trials (h : ∀ c a k, score (b.put c.1 c.2 piece) a k = (child c a, k))
    (beta : Int) (l : List (Nat × Nat)) (alpha : Int) (best : Option (Nat × Nat)) (k : Nat) :
    Gomoku.maxLoop score b piece beta l alpha best k =
      ((AlphaBeta.maxLoop child beta (l.filter (isCandidate b)) alpha best).1,
        (AlphaBeta.maxLoop child beta (l.filter (isCandidate b)) alpha best).2, k) := by
  induction l generalizing alpha best with
  | nil => rfl
  | cons c rest ih =>
    by_cases hc : isCandidate b c = true
    · rw [List.filter_cons_of_pos hc]
      simp only [Gomoku.maxLoop, AlphaBeta.maxLoop, hc, if_true, h]
      split
      · split
        · rfl
        · exact ih _ _
      · exact ih _ _
    · rw [List.filter_cons_of_neg hc]
      simp only [Gomoku.maxLoop, hc]
      exact ih _ _

/-- The loop of `search_min` over the cells is the loop over the moves. -/
theorem minLoop_trials (h : ∀ c a k, score (b.put c.1 c.2 piece) a k = (child c a, k))
    (alpha : Int) (l : List (Nat × Nat)) (beta : Int) (k : Nat) :
    Gomoku.minLoop score b piece alpha l beta k =
      (AlphaBeta.minLoop child alpha (l.filter (isCandidate b)) beta, k) := by
  induction l generalizing beta with
  | nil => rfl
  | cons c rest ih =>
    by_cases hc : isCandidate b c = true
    · rw [List.filter_cons_of_pos hc]
      simp only [Gomoku.minLoop, AlphaBeta.minLoop, hc, if_true, h]
      split
      · split
        · rfl
        · exact ih _
      · exact ih _
    · rw [List.filter_cons_of_neg hc]
      simp only [Gomoku.minLoop, hc]
      exact ih _

end Loops

/-- Both searches are alpha-beta of the game of trial stones. -/
theorem search_trials (e : Evaluation) (levels : Nat) (b : Board) (toBlack : Bool) :
    (∀ beta k, searchMax e.evaluator levels b toBlack beta k =
        (((trials e).searchMax levels (b, toBlack) beta).1,
          ((trials e).searchMax levels (b, toBlack) beta).2, k)) ∧
      ∀ alpha k, searchMin e.evaluator levels b toBlack alpha k =
        ((trials e).searchMin levels (b, toBlack) alpha, k) := by
  induction levels generalizing b toBlack with
  | zero =>
    refine ⟨fun beta k => ?_, fun alpha k => ?_⟩
    · exact maxLoop_trials (fun c a k => rfl) beta cells intMin none k
    · exact minLoop_trials (fun c a k => rfl) alpha cells intMax k
  | succ levels ih =>
    refine ⟨fun beta k => ?_, fun alpha k => ?_⟩
    · refine maxLoop_trials (fun c a k => ?_) beta cells intMin none k
      exact (ih (b.put c.1 c.2 (mapPiece toBlack)) (!toBlack)).2 a k
    · refine minLoop_trials (fun c a k => ?_) alpha cells intMax k
      rw [(ih (b.put c.1 c.2 (mapPiece toBlack)) (!toBlack)).1 a k]
      rfl

/-- **The search on the real board is minimax.** -/
theorem searchMax_minimax (e : Evaluation) (g : Gomoku) (k : Nat) :
    let value := (trials e).maxValue g.maxSearchDepth (g.board, true)
    let r := InPlace.searchMax e.evaluator g.maxSearchDepth 0 true g intMax k
    r.1 = value ∧ r.2.1.board = g.board ∧
      ((∃ c ∈ cells.filter (isCandidate g.board),
          intMin < (trials e).moveValue g.maxSearchDepth (g.board, true) c) →
        (cells.filter (isCandidate g.board)).find? (fun c =>
            decide ((trials e).moveValue g.maxSearchDepth (g.board, true) c = value)) =
          some r.2.1.aiDropPos) := by
  intro value r
  have hr : r = (((trials e).searchMax g.maxSearchDepth (g.board, true) intMax).1,
      InPlace.noted 0 g ((trials e).searchMax g.maxSearchDepth (g.board, true) intMax).2, k) := by
    show InPlace.searchMax e.evaluator g.maxSearchDepth 0 true g intMax k = _
    rw [InPlace.searchMax_eq, (search_trials e g.maxSearchDepth g.board true).1]
  rw [hr]
  refine ⟨(trials e).searchMax_eq _ _, InPlace.noted_board _ _ _, ?_⟩
  rintro ⟨c, hc, hlow⟩
  have hle : (trials e).moveValue g.maxSearchDepth (g.board, true) c ≤ value := by
    show _ ≤ (trials e).maxValue g.maxSearchDepth (g.board, true)
    rw [(trials e).maxValue_eq]
    exact le_largest_of_mem (List.mem_map_of_mem hc)
  obtain ⟨best, hmove, hfirst⟩ := (trials e).searchMax_best (hlow.trans_le hle)
  show (cells.filter (isCandidate g.board)).find? _ =
    some (((trials e).searchMax g.maxSearchDepth (g.board, true) (trials e).high).2.getD
      g.aiDropPos)
  rw [hmove]
  exact hfirst

/-- Black has played in the centre, and the search counts stones: no move has the value `INT_MIN`,
so the first best one is noted. -/
theorem searchMax_minimax_balance : ∃ g r, g = (new.drop 7 7 true).2 ∧
    r = InPlace.searchMax balance.evaluator g.maxSearchDepth 0 true g intMax 0 ∧
    r.1 = (trials balance).maxValue 1 (g.board, true) ∧
    (cells.filter (isCandidate g.board)).find? (fun c =>
        decide ((trials balance).moveValue 1 (g.board, true) c = r.1)) =
      some r.2.1.aiDropPos := by
  refine ⟨_, _, rfl, rfl, ?_⟩
  obtain ⟨hvalue, -, hbest⟩ := searchMax_minimax balance (new.drop 7 7 true).2 0
  have hdepth : (new.drop 7 7 true).2.maxSearchDepth = 1 := by decide +kernel
  have hcandidate : (6, 6) ∈ cells.filter (isCandidate (new.drop 7 7 true).2.board) :=
    List.mem_filter.mpr ⟨mem_cells.mpr (by decide), by decide +kernel⟩
  have hlow (b : Board) : intMin < balance.score b := by
    have hblack := b.count_le .black
    show intMin < (b.count .white : Int) - b.count .black
    unfold intMin
    omega
  rw [hvalue]
  rw [hdepth] at hbest ⊢
  refine ⟨rfl, hbest ⟨(6, 6), hcandidate, ?_⟩⟩
  exact (trials balance).low_lt_minValue (by decide) (fun p => hlow p.1) _

end UnoppServer.Gomoku
