import Mathlib.Algebra.Order.BigOperators.Group.List
import Mathlib.Data.List.Infix
import UnoppServer.Gomoku.Draws

/-!
# Gomoku: the evaluation stays in the range of `int`

A line of `point_score` that contains a five brings five million, and there are four lines for each
of 225 cells, which is more than an `int` holds. But the search evaluates only boards that have
one stone of each colour more than one without a five. A five in the window around a cell goes
through the cell (`exists_five`), and it goes through the new stone. So at most nine cells of a
direction have one (`Grown.countP_le`), and that bounds what the stones of a colour bring
(`Grown.sideScore_mem`).
-/

namespace UnoppServer.Gomoku

/-! ## The loops of the evaluation -/

/-- The rounds of `point_score`: the groups of patterns, for each line. -/
def rounds : List ((Int × Int) × (Int × List String)) :=
  lines.flatMap fun line => patterns.map fun g => (line, g)

/-- What a round adds to the score. -/
def added (b : Board) (i j : Nat) (side : Piece) (r : (Int × Int) × (Int × List String)) : Int :=
  if r.2.2.any fun p => contains (lineStr b i j side r.1) p.toList then r.2.1 else 0

/-- `score` after the first `n` rounds of `point_score`. -/
def scoreAfter (b : Board) (i j : Nat) (side : Piece) (n : Nat) : Int :=
  (rounds.take n).foldl (fun score r => score + added b i j side r) 1

/-- The round of `situation` for a cell, on `self` and `oppo`. -/
def tally (b : Board) (s : Int × Int) (c : Nat × Nat) : Int × Int :=
  match b.at c.1 c.2 with
  | .white => (s.1 + pointScore b c.1 c.2 .white, s.2)
  | .black => (s.1, s.2 + pointScore b c.1 c.2 .black)
  | .none => s

/-- `self` and `oppo` after the first `n` cells of `situation`. -/
def tallyAfter (b : Board) (n : Nat) : Int × Int := (cells.take n).foldl (tally b) (0, 0)

theorem foldl_added (b : Board) (i j : Nat) (side : Piece)
    (l : List ((Int × Int) × (Int × List String))) (score : Int) :
    l.foldl (fun score r => score + added b i j side r) score =
      score + (l.map (added b i j side)).sum := by
  induction l generalizing score with
  | nil => exact (add_zero _).symm
  | cons r rest ih => rw [List.foldl_cons, ih, List.map_cons, List.sum_cons, add_assoc]

/-- The last value of `score` is what `point_score` returns. -/
theorem scoreAfter_rounds (b : Board) (i j : Nat) (side : Piece) :
    scoreAfter b i j side rounds.length = pointScore b i j side := by
  unfold scoreAfter pointScore
  rw [List.take_length, foldl_added, rounds, List.map_flatMap, List.flatMap_def, List.sum_flatten,
    List.map_map]
  rfl

/-- The scores of the stones of one colour on some cells. -/
def sideScore (b : Board) (side : Piece) (l : List (Nat × Nat)) : Int :=
  (l.map fun c => if b.at c.1 c.2 = side then pointScore b c.1 c.2 side else 0).sum

/-- The two accumulators are the scores of the two sides. -/
theorem foldl_tally (b : Board) (l : List (Nat × Nat)) (s : Int × Int) :
    l.foldl (tally b) s = (s.1 + sideScore b .white l, s.2 + sideScore b .black l) := by
  induction l generalizing s with
  | nil => exact Prod.ext (add_zero _).symm (add_zero _).symm
  | cons c rest ih =>
    rw [List.foldl_cons, ih]
    unfold tally sideScore
    rw [List.map_cons, List.map_cons, List.sum_cons, List.sum_cons]
    cases hat : b.at c.1 c.2 with
    | none => simp
    | black => simp [add_assoc]
    | white => simp [add_assoc]

theorem tallyAfter_eq (b : Board) (n : Nat) : tallyAfter b n =
    (sideScore b .white (cells.take n), sideScore b .black (cells.take n)) := by
  unfold tallyAfter
  rw [foldl_tally, zero_add, zero_add]

/-- The difference of the last values is what `situation` returns, but for the noise. -/
theorem situation_eq (b : Board) :
    situation b = (tallyAfter b cells.length).1 - (tallyAfter b cells.length).2 := by
  rw [tallyAfter_eq, List.take_length]
  unfold situation
  induction cells with
  | nil => rfl
  | cons c rest ih =>
    dsimp only at ih ⊢
    unfold sideScore at ih ⊢
    simp only [List.map_cons, List.sum_cons]
    rw [ih]
    cases b.at c.1 c.2 with
    | none => simp
    | black =>
      simp only [reduceCtorEq, if_false, if_true]
      ring
    | white =>
      simp only [reduceCtorEq, if_false, if_true]
      ring

/-! ## Windows -/

/-- `line_str.find(pattern)` finds a pattern that is somewhere in the line. -/
theorem contains_iff {line pattern : List Char} :
    contains line pattern = true ↔ pattern <:+: line := by
  unfold contains
  rw [List.any_eq_true]
  simp only [List.mem_tails, List.isPrefixOf_iff_prefix]
  rw [List.infix_iff_prefix_suffix]
  exact exists_congr fun t => And.comm

/-- Five stones of the side in a line. -/
def five : List Char := "sssss".toList

/-- A line with the pattern of a five has five stones of the side in a row. -/
theorem getElem?_of_five {text : List Char} (h : contains text five = true) :
    ∃ t, ∀ k, k < 5 → text[t + k]? = some 's' := by
  obtain ⟨pre, post, rfl⟩ := contains_iff.mp h
  refine ⟨pre.length, fun k hk => ?_⟩
  have hfive : ∀ k, k < 5 → five[k]? = some 's' := by decide
  rw [List.append_assoc, List.getElem?_append_right (Nat.le_add_right ..), Nat.add_sub_cancel_left,
    List.getElem?_append_left hk]
  exact hfive k hk

/-- A stone of the side in a line. -/
theorem holds_of_lineStr {b : Board} {i j : Nat} {side : Piece} {line : Int × Int} {n : Nat}
    (h : (lineStr b i j side line)[n]? = some 's') :
    n < 9 ∧ b.Holds side (i + line.2 * (4 - n)) (j + line.1 * (4 - n)) := by
  unfold lineStr at h
  rw [List.getElem?_map, Option.map_eq_some_iff] at h
  obtain ⟨k, hk, hchar⟩ := h
  have hn : n < 9 := (List.getElem?_eq_some_iff.mp hk).1
  have hoffset : ∀ n : Nat, n < 9 →
      ([-4, -3, -2, -1, 0, 1, 2, 3, 4] : List Int)[n]? = some ((n : Int) - 4) := by
    decide
  obtain rfl : (n : Int) - 4 = k := Option.some.inj ((hoffset n hn).symm.trans hk)
  have hx : (j : Int) - (n - 4) * line.1 = j + line.1 * (4 - n) := by ring
  have hy : (i : Int) - (n - 4) * line.2 = i + line.2 * (4 - n) := by ring
  rw [hx, hy] at hchar
  dsimp only at hchar
  split at hchar
  · exact absurd hchar (by decide)
  · rename_i hin
    split at hchar
    · rename_i hside
      exact ⟨hn, by omega, hside⟩
    · split at hchar
      · exact absurd hchar (by decide)
      · exact absurd hchar (by decide)

/-- A five in the window of a cell goes through the cell. -/
theorem exists_five {b : Board} {i j : Nat} {side : Piece} {line : Int × Int}
    (h : contains (lineStr b i j side line) five = true) :
    ∃ y x : Int, ∃ t : Nat, t < 5 ∧ (i : Int) = y + line.2 * t ∧ (j : Int) = x + line.1 * t ∧
      ∀ k : Nat, k < 5 → b.Holds side (y + line.2 * k) (x + line.1 * k) := by
  obtain ⟨t, ht⟩ := getElem?_of_five h
  obtain ⟨hlast, -⟩ := holds_of_lineStr (ht 4 (by omega))
  refine ⟨i - line.2 * t, j - line.1 * t, t, by omega, by omega, by omega, fun k hk => ?_⟩
  -- the window goes the other way
  obtain ⟨-, hholds⟩ := holds_of_lineStr (ht (4 - k) (by omega))
  have hback : (4 : Int) - (t + (4 - k) : Nat) = k - t := by omega
  rw [hback] at hholds
  have hy : (i : Int) - line.2 * t + line.2 * k = i + line.2 * (k - t) := by ring
  have hx : (j : Int) - line.1 * t + line.1 * k = j + line.1 * (k - t) := by ring
  rwa [hy, hx]

/-- The lines of `point_score` run along the directions of a five. -/
theorem mem_directions {line : Int × Int} (hline : line ∈ lines) :
    (line.2, line.1) ∈ directions := by
  revert line
  decide

/-! ## One more stone of a colour -/

/-- The stones of the side on `b` were there on `b₀`, but for the one on `a`. -/
def Grown (b₀ b : Board) (side : Piece) (a : Nat × Nat) : Prop :=
  ∀ i j, b.at i j = side → b₀.at i j = side ∨ (i, j) = a

/-- The cells from which the window of a line reaches a cell. -/
def around (line : Int × Int) (a : Nat × Nat) : List (Nat × Nat) :=
  ([-4, -3, -2, -1, 0, 1, 2, 3, 4] : List Int).map fun k =>
    ((a.1 + line.2 * k).toNat, (a.2 + line.1 * k).toNat)

section Stone

variable {b₀ b : Board} {side : Piece} {a : Nat × Nat}

/-- A new five has the new stone. -/
theorem Grown.exists_new (h : Grown b₀ b side a) (hno : ¬ HasFive b₀ side) {line : Int × Int}
    (hline : line ∈ lines) {y x : Int}
    (hfive : ∀ k : Nat, k < 5 → b.Holds side (y + line.2 * k) (x + line.1 * k)) :
    ∃ k : Nat, k < 5 ∧ ((y + line.2 * k).toNat, (x + line.1 * k).toNat) = a := by
  by_contra hnone
  push Not at hnone
  have hstart := (hfive 0 (by omega)).1
  simp only [Nat.cast_zero, mul_zero, add_zero] at hstart
  refine hno ⟨(y.toNat, x.toNat), mem_cells.mpr (by omega), _, mem_directions hline,
    fun k hk => ?_⟩
  obtain ⟨hon, hat⟩ := hfive k hk
  rw [Int.toNat_of_nonneg hstart.1, Int.toNat_of_nonneg hstart.2.2.1]
  exact ⟨hon, (h _ _ hat).resolve_right (hnone k hk)⟩

/-- A cell that has a new five in its window is not far from the new stone. -/
theorem Grown.mem_around (h : Grown b₀ b side a) (hno : ¬ HasFive b₀ side) {line : Int × Int}
    (hline : line ∈ lines) {c : Nat × Nat}
    (hc : contains (lineStr b c.1 c.2 side line) five = true) : c ∈ around line a := by
  obtain ⟨y, x, t, ht, hi, hj, hfive⟩ := exists_five hc
  obtain ⟨k, hk, hnew⟩ := h.exists_new hno hline hfive
  obtain ⟨hon, -⟩ := hfive k hk
  have hstep : (t : Int) - k ∈ ([-4, -3, -2, -1, 0, 1, 2, 3, 4] : List Int) := by
    simp only [List.mem_cons, List.not_mem_nil, or_false]
    omega
  refine List.mem_map.mpr ⟨t - k, hstep, ?_⟩
  obtain ⟨i, j⟩ := c
  obtain rfl := hnew
  rw [Int.toNat_of_nonneg hon.1, Int.toNat_of_nonneg hon.2.2.1]
  have hy : y + line.2 * k + line.2 * (t - k) = i := by
    rw [hi]
    ring
  have hx : x + line.1 * k + line.1 * (t - k) = j := by
    rw [hj]
    ring
  rw [hy, hx]
  rfl

/-- In one direction at most nine cells have a five in their window. -/
theorem Grown.countP_le (h : Grown b₀ b side a) (hno : ¬ HasFive b₀ side) {line : Int × Int}
    (hline : line ∈ lines) {l : List (Nat × Nat)} (hl : l.Nodup) :
    l.countP (fun c => contains (lineStr b c.1 c.2 side line) five) ≤ 9 := by
  rw [List.countP_eq_length_filter]
  have hsub : l.filter (fun c => contains (lineStr b c.1 c.2 side line) five) ⊆ around line a :=
    fun c hc => h.mem_around hno hline (List.mem_filter.mp hc).2
  exact (List.subperm_of_subset (hl.filter _) hsub).length_le

end Stone

/-! ## Bounds -/

/-- What a line brings for a group of patterns. -/
def groupScore (line : List Char) (g : Int × List String) : Int :=
  if g.2.any fun p => contains line p.toList then g.1 else 0

theorem groupScore_mem (line : List Char) {g : Int × List String} (hg : 0 ≤ g.1) :
    0 ≤ groupScore line g ∧ groupScore line g ≤ g.1 := by
  unfold groupScore
  split
  · exact ⟨hg, le_rfl⟩
  · exact ⟨le_rfl, hg⟩

theorem points_nonneg : ∀ g ∈ patterns, 0 ≤ g.1 := by decide

/-- A line brings five million for a five, and not much besides. -/
theorem lineScore_mem (line : List Char) : 0 ≤ lineScore line ∧
    lineScore line ≤ 126322 + if contains line five then 5000000 else 0 := by
  have hrest : ∀ g ∈ patterns.tail, 0 ≤ g.1 := fun g hg => points_nonneg g (List.mem_of_mem_tail hg)
  have hlower : 0 ≤ (patterns.tail.map (groupScore line)).sum := by
    refine List.sum_nonneg fun n hn => ?_
    obtain ⟨g, hg, rfl⟩ := List.mem_map.mp hn
    exact (groupScore_mem line (hrest g hg)).1
  have hupper : (patterns.tail.map (groupScore line)).sum ≤ (patterns.tail.map Prod.fst).sum :=
    List.sum_le_sum fun g hg => (groupScore_mem line (hrest g hg)).2
  have hpoints : (patterns.tail.map Prod.fst).sum = 126322 := by decide
  have hscore : lineScore line = (if contains line five then 5000000 else 0) +
      (patterns.tail.map (groupScore line)).sum := by
    show groupScore line (5000000, ["sssss"]) + (patterns.tail.map (groupScore line)).sum = _
    unfold groupScore
    rw [show (["sssss"].any fun p => contains line p.toList) = contains line five from
      Bool.or_false _]
  rw [hscore]
  split <;> omega

/-- The score of one stone, when nothing is known of the board. -/
theorem pointScore_mem (b : Board) (i j : Nat) (side : Piece) :
    0 ≤ pointScore b i j side ∧ pointScore b i j side ≤ 20505289 := by
  have hline (line : Int × Int) : 0 ≤ lineScore (lineStr b i j side line) ∧
      lineScore (lineStr b i j side line) ≤ 5126322 := by
    obtain ⟨hlower, hupper⟩ := lineScore_mem (lineStr b i j side line)
    refine ⟨hlower, hupper.trans ?_⟩
    split <;> omega
  unfold pointScore lines
  simp only [List.map_cons, List.map_nil, List.sum_cons, List.sum_nil]
  have h₁ := hline (1, 0)
  have h₂ := hline (0, 1)
  have h₃ := hline (1, 1)
  have h₄ := hline (1, -1)
  omega

theorem added_nonneg (b : Board) (i j : Nat) (side : Piece) :
    ∀ r ∈ rounds, 0 ≤ added b i j side r := by
  intro r hr
  obtain ⟨line, -, hr⟩ := List.mem_flatMap.mp hr
  obtain ⟨g, hg, rfl⟩ := List.mem_map.mp hr
  exact (groupScore_mem _ (points_nonneg g hg)).1

/-- The values of `score` in `point_score`. -/
theorem scoreAfter_mem (b : Board) (i j : Nat) (side : Piece) (n : Nat) :
    0 < scoreAfter b i j side n ∧ scoreAfter b i j side n ≤ 20505289 := by
  have hnonneg : ∀ x ∈ rounds.map (added b i j side), 0 ≤ x := by
    intro x hx
    obtain ⟨r, hr, rfl⟩ := List.mem_map.mp hx
    exact added_nonneg b i j side r hr
  have hsub : ((rounds.take n).map (added b i j side)).Sublist (rounds.map (added b i j side)) :=
    (List.take_sublist n rounds).map _
  have hlower : 0 ≤ ((rounds.take n).map (added b i j side)).sum :=
    List.sum_nonneg fun x hx => hnonneg x (hsub.subset hx)
  have hupper : ((rounds.take n).map (added b i j side)).sum ≤
      (rounds.map (added b i j side)).sum := hsub.sum_le_sum hnonneg
  have htotal := (pointScore_mem b i j side).2
  rw [← scoreAfter_rounds, scoreAfter, List.take_length, foldl_added] at htotal
  rw [scoreAfter, foldl_added]
  omega

/-- What a five brings, over some cells. -/
theorem sum_ite (p : Nat × Nat → Bool) (n : Int) (l : List (Nat × Nat)) :
    (l.map fun c => if p c then n else 0).sum = n * l.countP p := by
  induction l with
  | nil => simp
  | cons c rest ih =>
    rw [List.map_cons, List.sum_cons, ih, List.countP_cons]
    split
    · push_cast
      ring
    · simp

section Stone

variable {b₀ b : Board} {side : Piece} {a : Nat × Nat} {l : List (Nat × Nat)}

/-- What the lines of some directions bring together, on at most 225 cells. -/
theorem Grown.sum_lines_le (h : Grown b₀ b side a) (hno : ¬ HasFive b₀ side) (hl : l.Nodup)
    (hlen : l.length ≤ 225) {ds : List (Int × Int)} (hds : ∀ line ∈ ds, line ∈ lines) :
    (l.map fun c => (ds.map fun line => lineScore (lineStr b c.1 c.2 side line)).sum).sum ≤
      73422450 * ds.length := by
  induction ds with
  | nil => simp
  | cons line rest ih =>
    obtain ⟨hline, hrest⟩ := List.forall_mem_cons.mp hds
    have hcount := h.countP_le hno hline hl
    have hfirst : (l.map fun c => lineScore (lineStr b c.1 c.2 side line)).sum ≤
        (l.map fun c => (126322 : Int) +
          if contains (lineStr b c.1 c.2 side line) five then 5000000 else 0).sum :=
      List.sum_le_sum fun c _ => (lineScore_mem _).2
    rw [List.sum_map_add, sum_ite, List.map_const', List.sum_replicate, nsmul_eq_mul] at hfirst
    have hall := ih hrest
    simp only [List.map_cons, List.sum_cons]
    rw [List.sum_map_add, List.length_cons]
    push_cast
    omega

/-- The sum of the scores of one colour, on at most 225 cells. -/
theorem Grown.sideScore_mem (h : Grown b₀ b side a) (hno : ¬ HasFive b₀ side) (hl : l.Nodup)
    (hlen : l.length ≤ 225) : 0 ≤ sideScore b side l ∧ sideScore b side l ≤ 293690025 := by
  unfold sideScore
  refine ⟨List.sum_nonneg fun x hx => ?_, ?_⟩
  · obtain ⟨c, -, rfl⟩ := List.mem_map.mp hx
    split
    · exact (pointScore_mem ..).1
    · exact le_rfl
  · have hall : (l.map fun c => if b.at c.1 c.2 = side then pointScore b c.1 c.2 side else 0).sum ≤
        (l.map fun c => 1 + (lines.map fun line =>
          lineScore (lineStr b c.1 c.2 side line)).sum).sum := by
      refine List.sum_le_sum fun c _ => ?_
      split
      · exact le_rfl
      · exact (pointScore_mem b c.1 c.2 side).1
    rw [List.sum_map_add, List.map_const', List.sum_replicate, nsmul_eq_mul] at hall
    have hlines := h.sum_lines_le hno hl hlen fun line hline => hline
    rw [show lines.length = 4 from rfl] at hlines
    omega

end Stone

/-! ## The boards that the search evaluates -/

/-- Every colour has at most one stone more than on some board where it has no five. -/
structure Quiet (b : Board) : Prop where
  white : ∃ b₀ a, ¬ HasFive b₀ .white ∧ Grown b₀ b .white a
  black : ∃ b₀ a, ¬ HasFive b₀ .black ∧ Grown b₀ b .black a

/-- The board with a stone more, or as it is. -/
def Board.extend (b : Board) (p : Piece) : Option (Nat × Nat) → Board
  | some c => b.put c.1 c.2 p
  | none => b

/-- What is on the board was there, or is the new stone. -/
theorem Board.of_at_extend {b : Board} {p : Piece} {c : Option (Nat × Nat)} {i j : Nat} {q : Piece}
    (h : (b.extend p c).at i j = q) : b.at i j = q ∨ (c = some (i, j) ∧ q = p) := by
  cases c with
  | none => exact .inl h
  | some a =>
    by_cases ha : (i, j) = a
    · obtain rfl := ha
      by_cases hlt : i < 15 ∧ j < 15
      · exact .inr ⟨rfl, h.symm.trans (Board.at_put_self b hlt.1 hlt.2)⟩
      · have hput : b.extend p (some (i, j)) = b := dif_neg hlt
        exact .inl (hput ▸ h)
    · exact .inl ((Board.at_put_of_ne b ha).symm.trans h)

/-- A board without a five, and at most one stone more of each colour. -/
theorem quiet_extend {b₀ : Board} (hno : NoFive b₀) (white black : Option (Nat × Nat)) :
    Quiet ((b₀.extend .white white).extend .black black) := by
  have hsome {c : Option (Nat × Nat)} {i j : Nat} (hc : c = some (i, j)) :
      (i, j) = c.getD (0, 0) := by
    rw [hc]
    rfl
  refine ⟨⟨b₀, white.getD (0, 0), hno _ (by decide), fun i j hat => ?_⟩,
    ⟨b₀, black.getD (0, 0), hno _ (by decide), fun i j hat => ?_⟩⟩
  · rcases Board.of_at_extend hat with hat | ⟨-, hcolour⟩
    · exact (Board.of_at_extend hat).imp_right fun hnew => hsome hnew.1
    · exact absurd hcolour (by decide)
  · rcases Board.of_at_extend hat with hat | ⟨hnew, -⟩
    · rcases Board.of_at_extend hat with hat | ⟨-, hcolour⟩
      · exact .inl hat
      · exact absurd hcolour (by decide)
    · exact .inr (hsome hnew)

/-- `self` and `oppo` after any number of rounds. -/
theorem Quiet.tallyAfter_mem {b : Board} (h : Quiet b) (n : Nat) :
    (0 ≤ (tallyAfter b n).1 ∧ (tallyAfter b n).1 ≤ 293690025) ∧
      0 ≤ (tallyAfter b n).2 ∧ (tallyAfter b n).2 ≤ 293690025 := by
  obtain ⟨⟨_, _, hnoWhite, hwhite⟩, ⟨_, _, hnoBlack, hblack⟩⟩ := h
  have hnodup : (cells.take n).Nodup := nodup_cells.sublist (List.take_sublist n cells)
  have hlen : (cells.take n).length ≤ 225 := (List.take_sublist n cells).length_le
  rw [tallyAfter_eq]
  exact ⟨hwhite.sideScore_mem hnoWhite hnodup hlen, hblack.sideScore_mem hnoBlack hnodup hlen⟩

/-- What the search gets for a board. -/
theorem Quiet.noisy_mem {b : Board} (h : Quiet b) (noise : Nat → Nat) (k : Nat) :
    -293690025 ≤ (noisy noise b k).1 ∧ (noisy noise b k).1 ≤ 293690032 := by
  obtain ⟨hself, hoppo⟩ := h.tallyAfter_mem cells.length
  have hnoise : noise k % 8 < 8 := Nat.mod_lt _ (by omega)
  show -293690025 ≤ situation b + (noise k % 8 : Nat) ∧
    situation b + (noise k % 8 : Nat) ≤ 293690032
  rw [situation_eq]
  omega

/-- Strictly inside the range of `int`. -/
def Inside (n : Int) : Prop := intMin < n ∧ n < intMax

theorem inside_of_mem {n : Int} (h : -293690025 ≤ n ∧ n ≤ 293690032) : Inside n := by
  unfold Inside intMin intMax
  omega

/-- **The evaluation does not overflow** on a board without a five and at most one stone more of
each colour: all values of `score`, `self` and `oppo` and the result are inside the range. -/
theorem evaluation_inside {b₀ : Board} (hno : NoFive b₀) (white black : Option (Nat × Nat)) :
    let b := (b₀.extend .white white).extend .black black
    (∀ i j side n, Inside (scoreAfter b i j side n)) ∧
      (∀ n, Inside (tallyAfter b n).1 ∧ Inside (tallyAfter b n).2) ∧
      Inside (situation b) ∧ ∀ noise k, Inside (noisy noise b k).1 := by
  intro b
  have hquiet : Quiet b := quiet_extend hno white black
  refine ⟨fun i j side n => inside_of_mem ?_, fun n => ⟨inside_of_mem ?_, inside_of_mem ?_⟩,
    inside_of_mem ?_, fun noise k => inside_of_mem (hquiet.noisy_mem noise k)⟩
  · have h := scoreAfter_mem b i j side n
    omega
  · have h := (hquiet.tallyAfter_mem n).1
    omega
  · have h := (hquiet.tallyAfter_mem n).2
    omega
  · have h := hquiet.noisy_mem (fun _ => 0) 0
    have hzero : (noisy (fun _ => 0) b 0).1 = situation b := add_zero _
    rw [hzero] at h
    exact h

/-- Two stones in the corner. -/
theorem evaluation_inside_corner : Inside (situation
    ((Board.empty.extend .white (some (0, 0))).extend .black (some (1, 1)))) :=
  (evaluation_inside noFive_empty (some (0, 0)) (some (1, 1))).2.2.1

end UnoppServer.Gomoku
