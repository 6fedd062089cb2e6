import UnoppServer.Gomoku.Range

/-!
# Gomoku: the algorithm answers

Some empty cell touches a stone, unless the board is empty or full (`exists_candidate`). The scores
of the search are above `INT_MIN`, so the first cell that it tries is noted, and what
is noted at the end is one of the cells that it tries (`maxLoop_noted`). So `drop` accepts it
(`update_answers`).
-/

namespace UnoppServer.Gomoku

open Runs

/-! ## Cells next to a stone -/

section Cells

variable {b : Board} {i j : Nat}

/-- The cells are the same or next to each other, in a row, in a column or diagonally. -/
def Adjacent (i j i' j' : Nat) : Prop := (i' ≤ i + 1 ∧ i ≤ i' + 1) ∧ j' ≤ j + 1 ∧ j ≤ j' + 1

/-- A cell is nearby when one of the eight around it, or itself, is not empty. -/
theorem isNearby_iff :
    isNearby b i j = true ↔ ∃ i' j', Adjacent i j i' j' ∧ b.at i' j' ≠ .none := by
  have hstep {n n' : Nat} (h : n' ≤ n + 1 ∧ n ≤ n' + 1) :
      (n' : Int) - n ∈ ([-1, 0, 1] : List Int) := by
    simp only [List.mem_cons, List.not_mem_nil, or_false]
    omega
  unfold isNearby
  simp only [List.any_eq_true, Bool.and_eq_true, decide_eq_true_eq]
  constructor
  · rintro ⟨di, hdi, dj, hdj, -, hne⟩
    simp only [List.mem_cons, List.not_mem_nil, or_false] at hdi hdj
    exact ⟨_, _, ⟨by omega, by omega⟩, hne⟩
  · rintro ⟨i', j', hnear, hne⟩
    obtain ⟨hi, hj⟩ := Board.lt_of_at hne
    refine ⟨i' - i, hstep hnear.1, j' - j, hstep hnear.2, by omega, ?_⟩
    rwa [add_sub_cancel, add_sub_cancel, Int.toNat_natCast, Int.toNat_natCast]

theorem isCandidate_iff :
    isCandidate b (i, j) = true ↔ b.at i j = .none ∧ isNearby b i j = true := by
  unfold isCandidate
  rw [Bool.and_eq_true, decide_eq_true_eq]

/-- What neighbours agree on holds of all or of none. -/
theorem iff_of_succ {P : Nat → Prop} {n : Nat} (h : ∀ k, k + 1 < n → (P k ↔ P (k + 1)))
    {k k' : Nat} (hk : k < n) (hk' : k' < n) : P k ↔ P k' := by
  have hzero : ∀ m, m < n → (P m ↔ P 0) := by
    intro m
    induction m with
    | zero => exact fun _ => Iff.rfl
    | succ m ih => exact fun hm => (h m hm).symm.trans (ih (by omega))
  exact (hzero k hk).trans (hzero k' hk').symm

/-- On a board with a stone and an empty cell, the search has a cell to try. -/
theorem exists_candidate (hstone : ∃ i j, b.at i j ≠ .none)
    (hfree : ∃ c ∈ cells, b.at c.1 c.2 = .none) : ∃ c ∈ cells, isCandidate b c = true := by
  by_contra hnone
  push Not at hnone
  -- then all cells around an empty cell are empty
  have hspread {i j i' j' : Nat} (hon : i < 15 ∧ j < 15) (hnear : Adjacent i j i' j')
      (hat : b.at i j = .none) : b.at i' j' = .none := by
    by_contra hne
    exact hnone (i, j) (mem_cells.mpr hon)
      (isCandidate_iff.mpr ⟨hat, isNearby_iff.mpr ⟨i', j', hnear, hne⟩⟩)
  have hcolumn {i i' j : Nat} (hi : i < 15) (hi' : i' < 15) (hj : j < 15) :
      b.at i j = .none ↔ b.at i' j = .none :=
    iff_of_succ (P := fun k => b.at k j = .none) (n := 15)
      (fun k hk => ⟨hspread ⟨by omega, hj⟩ ⟨by omega, by omega⟩,
        hspread ⟨by omega, hj⟩ ⟨by omega, by omega⟩⟩) hi hi'
  have hrow {i j j' : Nat} (hi : i < 15) (hj : j < 15) (hj' : j' < 15) :
      b.at i j = .none ↔ b.at i j' = .none :=
    iff_of_succ (P := fun k => b.at i k = .none) (n := 15)
      (fun k hk => ⟨hspread ⟨hi, by omega⟩ ⟨by omega, by omega⟩,
        hspread ⟨hi, by omega⟩ ⟨by omega, by omega⟩⟩) hj hj'
  obtain ⟨i, j, hne⟩ := hstone
  obtain ⟨hi, hj⟩ := Board.lt_of_at hne
  obtain ⟨c, hc, hat⟩ := hfree
  obtain ⟨hci, hcj⟩ := mem_cells.mp hc
  exact hne ((hrow hi hcj hj).mp ((hcolumn hci hi hcj).mp hat))

end Cells

/-! ## The loops of the search -/

section Loops

variable {score : Board → Int → Nat → Int × Nat} {b : Board} {piece : Piece}

/-- The result of `search_min` is above a bound that all scores are above. -/
theorem lt_minLoop {low : Int}
    (h : ∀ (c : Nat × Nat) beta k, low < (score (b.put c.1 c.2 piece) beta k).1) (alpha : Int)
    (l : List (Nat × Nat)) {beta : Int} (hbeta : low < beta) (k : Nat) :
    low < (minLoop score b piece alpha l beta k).1 := by
  induction l generalizing beta k with
  | nil => exact hbeta
  | cons c rest ih =>
    by_cases hc : isCandidate b c = true
    · simp only [minLoop, hc, if_true]
      split
      · split
        · exact h c beta k
        · exact ih (h c beta k) _
      · exact ih hbeta _
    · simp only [minLoop, hc]
      exact ih hbeta k

/-- What `search_max` has noted stays, or is replaced by a cell that it tries. -/
theorem maxLoop_best (beta : Int) (l : List (Nat × Nat)) (alpha : Int)
    (best : Option (Nat × Nat)) (k : Nat) :
    (maxLoop score b piece beta l alpha best k).2.1 = best ∨
      ∃ c ∈ l, isCandidate b c = true ∧
        (maxLoop score b piece beta l alpha best k).2.1 = some c := by
  induction l generalizing alpha best k with
  | nil => exact .inl rfl
  | cons c rest ih =>
    have hlater (alpha : Int) (best : Option (Nat × Nat)) (k : Nat) :
        (maxLoop score b piece beta rest alpha best k).2.1 = best ∨
          ∃ c' ∈ c :: rest, isCandidate b c' = true ∧
            (maxLoop score b piece beta rest alpha best k).2.1 = some c' := by
      refine (ih alpha best k).imp_right ?_
      rintro ⟨c', hc', hcand, hbest⟩
      exact ⟨c', List.mem_cons_of_mem c hc', hcand, hbest⟩
    by_cases hc : isCandidate b c = true
    · simp only [maxLoop, hc, if_true]
      split
      · refine .inr ?_
        split
        · exact ⟨c, List.mem_cons_self, hc, rfl⟩
        · rcases hlater _ (some c) _ with hbest | hother
          · exact ⟨c, List.mem_cons_self, hc, hbest⟩
          · exact hother
      · exact hlater _ _ _
    · simp only [maxLoop, hc]
      exact hlater _ _ _

/-- When all scores are above `alpha`, `search_max` notes a cell that it tries. -/
theorem maxLoop_noted {alpha : Int}
    (h : ∀ (c : Nat × Nat) bound k, alpha < (score (b.put c.1 c.2 piece) bound k).1) (beta : Int)
    {l : List (Nat × Nat)} (hl : ∃ c ∈ l, isCandidate b c = true) (best : Option (Nat × Nat))
    (k : Nat) : ∃ c ∈ l, isCandidate b c = true ∧
      (maxLoop score b piece beta l alpha best k).2.1 = some c := by
  induction l generalizing k with
  | nil =>
    obtain ⟨c, hc, -⟩ := hl
    exact absurd hc List.not_mem_nil
  | cons c rest ih =>
    by_cases hc : isCandidate b c = true
    · simp only [maxLoop, hc, if_true, if_pos (h c alpha k)]
      split
      · exact ⟨c, List.mem_cons_self, hc, rfl⟩
      · rcases maxLoop_best beta rest (score (b.put c.1 c.2 piece) alpha k).1 (some c)
          (score (b.put c.1 c.2 piece) alpha k).2 with hbest | ⟨c', hc', hcand, hbest⟩
        · exact ⟨c, List.mem_cons_self, hc, hbest⟩
        · exact ⟨c', List.mem_cons_of_mem c hc', hcand, hbest⟩
    · obtain ⟨c', hc', hcand⟩ := hl
      have hrest : c' ∈ rest := (List.mem_cons.mp hc').resolve_left fun he => hc (he ▸ hcand)
      obtain ⟨c'', hc'', hcand'', hbest⟩ := ih ⟨c', hrest, hcand⟩ k
      simp only [maxLoop, hc]
      exact ⟨c'', List.mem_cons_of_mem c hc'', hcand'', hbest⟩

end Loops

/-- On a board without a five, the search of the game notes a cell that it tries. -/
theorem searchMax_noted {b : Board} (hno : NoFive b) (hc : ∃ c ∈ cells, isCandidate b c = true)
    (noise : Nat → Nat) (k : Nat) : ∃ c ∈ cells, isCandidate b c = true ∧
      (searchMax (noisy noise) 1 b true intMax k).2.1 = some c := by
  -- the leaves have one stone of each colour more
  have hleaf (c c' : Nat × Nat) (k : Nat) : intMin <
      (noisy noise ((b.put c.1 c.2 .white).put c'.1 c'.2 .black) k).1 :=
    (inside_of_mem ((quiet_extend hno (some c) (some c')).noisy_mem noise k)).1
  refine maxLoop_noted (fun c alpha k => ?_) intMax hc none k
  exact lt_minLoop (fun c' _ k => hleaf c c' k) alpha cells (by decide) k

/-! ## Runs -/

theorem drop_depth (g : Gomoku) (i j : Int) (isBlack : Bool) :
    (g.drop i j isBlack).2.maxSearchDepth = g.maxSearchDepth := by
  unfold drop
  split <;> rfl

/-- The depth of the search is never changed. -/
theorem update_depth (g : Gomoku) (eval : Evaluator) (k : Nat) :
    (g.update eval k).maxSearchDepth = g.maxSearchDepth := by
  unfold update
  split
  · rfl
  · dsimp only
    split
    · exact drop_depth _ _ _ false
    · rfl

/-- `max_search_depth` is never written. -/
theorem depth_of_run {h : List (Entry Gomoku Event (Option (Nat × Nat)))} {g : Gomoku}
    (hr : BoardRun h g) : g.maxSearchDepth = 1 := by
  let Inv : Gomoku → Prop := fun g => g.maxSearchDepth = 1
  have hnew : Inv new := rfl
  refine Run.invariant hnew (fun s e o s' hinv _ hs => ?_) hr
  cases e <;> cases hs
  case drop i j isBlack => exact (drop_depth s i j isBlack).trans hinv
  case update eval k =>
    rw [InPlace.update_eq]
    exact (update_depth s eval k).trans hinv
  case enableAi enable => exact hinv
  case clear => exact hinv

/-- The drop for the algorithm goes to the cell that its search notes. -/
theorem aiDropped_eq {g : Gomoku} (hai : g.useAi = true) (hopen : g.status = .notEnd)
    (hno : NoFive g.board) (hturn : g.currentIsBlack = false) {eval : Evaluator} {k : Nat}
    {c : Nat × Nat} (hc : c ∈ cells) (hfree : g.board.at c.1 c.2 = .none)
    (hnoted : (searchMax eval g.maxSearchDepth g.board true intMax k).2.1 = some c) :
    g.aiDropped eval k = some c := by
  obtain ⟨hi, hj⟩ := mem_cells.mp hc
  have hscan : g.scan = .notEnd := (scan_eq_notEnd_iff hopen).mpr hno
  unfold aiDropped dropped
  rw [if_pos ⟨hopen, hscan, hturn, hai⟩, InPlace.think_eq]
  dsimp only
  rw [hnoted, Option.getD_some, drop_fst, if_pos]
  · rfl
  · refine canDrop_iff.mpr ⟨rfl, hturn.symm, by omega, hfree, hscan⟩

/-- **The algorithm always answers with a legal move.** -/
theorem update_answers {h : List (Entry Gomoku Event (Option (Nat × Nat)))} {g : Gomoku}
    (hr : BoardRun h g) (hai : g.useAi = true) (hopen : g.status = .notEnd)
    (hno : NoFive g.board) (hturn : g.currentIsBlack = false)
    (hstone : ∃ i j, g.board.at i j ≠ .none) (hfree : ∃ c ∈ cells, g.board.at c.1 c.2 = .none)
    (noise : Nat → Nat) (k : Nat) :
    let g' := InPlace.update g (noisy noise) k
    ∃ c ∈ cells, g.board.at c.1 c.2 = .none ∧
      (∃ i j, Adjacent c.1 c.2 i j ∧ g.board.at i j ≠ .none) ∧
      g'.board.at c.1 c.2 = .white ∧
      (∀ i j, (i, j) ≠ c → g'.board.at i j = g.board.at i j) ∧ g'.currentIsBlack = true := by
  intro g'
  obtain ⟨c, hc, hcand, hnoted⟩ :=
    searchMax_noted hno (exists_candidate hstone hfree) noise k
  rw [← depth_of_run hr] at hnoted
  obtain ⟨hempty, hnear⟩ := isCandidate_iff.mp hcand
  obtain ⟨hi, hj⟩ := mem_cells.mp hc
  have heff : Effect g g' (some c) := by
    rw [← aiDropped_eq hai hopen hno hturn hc hempty hnoted]
    exact update_effect g (noisy noise) k
  cases heff with
  | placed _ _ _ _ hboard hnext _ =>
    have hwhite : g.toMove = .white := by
      unfold toMove
      rw [hturn]
      rfl
    refine ⟨c, hc, hempty, isNearby_iff.mp hnear, ?_, fun i j hne => ?_, ?_⟩
    · rw [hboard, Board.at_put_self _ hi hj, hwhite]
    · rw [hboard, Board.at_put_of_ne _ hne]
    · rw [hnext, hturn]
      rfl

/-- Black plays in the centre, against the algorithm. -/
def challenge : List Event := [.enableAi true, .drop 7 7 true]

/-- Whatever the random numbers are, white has a stone after the reply. -/
theorem update_answers_challenge : ∃ h g, BoardRun h g ∧
    ∀ noise, (InPlace.update g (noisy noise) 0).currentIsBlack = true ∧
      ∃ c ∈ cells, (InPlace.update g (noisy noise) 0).board.at c.1 c.2 = .white := by
  have hstate : execTo step new challenge (fun g => g.useAi && decide (g.status = .notEnd) &&
      decide (g.scan = .notEnd) && !g.currentIsBlack && decide (g.board.at 7 7 ≠ .none) &&
      decide (g.board.at 0 0 = .none)) = true := by decide +kernel
  obtain ⟨h, g, hr, -, hg⟩ := exists_run_of_execTo hstate
  simp only [Bool.and_eq_true, Bool.not_eq_true', decide_eq_true_eq] at hg
  obtain ⟨⟨⟨⟨⟨hai, hopen⟩, hscan⟩, hturn⟩, hstone⟩, hfree⟩ := hg
  refine ⟨h, g, hr, fun noise => ?_⟩
  obtain ⟨c, hc, -, -, hwhite, -, hnext⟩ := update_answers hr hai hopen
    ((scan_eq_notEnd_iff hopen).mp hscan) hturn ⟨7, 7, hstone⟩
    ⟨(0, 0), mem_cells.mpr (by decide), hfree⟩ noise 0
  exact ⟨hnext, c, hc, hwhite⟩

end UnoppServer.Gomoku
