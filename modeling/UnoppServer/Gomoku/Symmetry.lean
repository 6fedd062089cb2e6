import UnoppServer.Gomoku.Range
import Mathlib.Algebra.BigOperators.Group.List.Basic
import Mathlib.Data.Fintype.Prod

/-!
# Gomoku: the evaluation is the same from all sides

A symmetry of the board moves the window of a line onto the window of another line, as it
is or reversed (`lineStr_board`, `lineStr_neg`). Each group of patterns has with a pattern also
the reversed one (`patterns_reverse`), so the score of the line stays (`lineScore_reverse`), and
with it `point_score` and `situation` (`evaluation_symmetric`).
-/

namespace UnoppServer.Gomoku

/-! ## Reversed windows -/

/-- The patterns of a group can be read from both ends. -/
theorem patterns_reverse :
    ∀ g ∈ patterns, ∀ p ∈ g.2, ∃ q ∈ g.2, q.toList = p.toList.reverse := by decide

theorem contains_reverse (line pattern : List Char) :
    contains line.reverse pattern.reverse = contains line pattern := by
  rw [Bool.eq_iff_iff, contains_iff, contains_iff, List.reverse_infix]

/-- Each group of patterns holds the mirror image of each of its patterns. -/
theorem groupScore_reverse (line : List Char) {g : Int × List String} (hg : g ∈ patterns) :
    groupScore line.reverse g = groupScore line g := by
  have hany {line line' : List Char} (hline : line' = line.reverse)
      (h : (g.2.any fun p => contains line p.toList) = true) :
      (g.2.any fun p => contains line' p.toList) = true := by
    obtain ⟨p, hp, hc⟩ := List.any_eq_true.mp h
    obtain ⟨q, hq, hrev⟩ := patterns_reverse g hg p hp
    refine List.any_eq_true.mpr ⟨q, hq, ?_⟩
    rwa [hline, hrev, contains_reverse]
  unfold groupScore
  rw [Bool.eq_iff_iff.mpr ⟨hany line.reverse_reverse.symm, hany rfl⟩]

/-- A line brings as much when it is read from the other end. -/
theorem lineScore_reverse (line : List Char) : lineScore line.reverse = lineScore line :=
  congrArg List.sum (List.map_congr_left fun _ hg => groupScore_reverse line hg)

/-! ## The symmetries -/

/-- A symmetry of the square: the board is transposed or not, and then its rows and its columns
are reversed or not. -/
structure Symmetry where
  transpose : Bool
  flipRows : Bool
  flipColumns : Bool
  deriving DecidableEq

namespace Symmetry

variable (σ : Symmetry)

/-- An index, from the other end. -/
def mirror (flip : Bool) (n : Int) : Int := if flip then 14 - n else n

/-- A step, in the other direction. -/
def turn (flip : Bool) (n : Int) : Int := if flip then -n else n

/-- Where a point goes, on the board or not. -/
def point (p : Int × Int) : Int × Int :=
  let p := if σ.transpose then p.swap else p
  (mirror σ.flipRows p.1, mirror σ.flipColumns p.2)

/-- Where a point comes from. -/
def source (p : Int × Int) : Int × Int :=
  let p := (mirror σ.flipRows p.1, mirror σ.flipColumns p.2)
  if σ.transpose then p.swap else p

/-- Where a cell goes. -/
def cell (c : Nat × Nat) : Nat × Nat :=
  ((σ.point (c.1, c.2)).1.toNat, (σ.point (c.1, c.2)).2.toNat)

/-- Where a line in the coordinates `(x, y)` goes. -/
def line (l : Int × Int) : Int × Int :=
  let l := if σ.transpose then l.swap else l
  (turn σ.flipColumns l.1, turn σ.flipRows l.2)

/-- The board with its stones moved. -/
def board (b : Board) : Board :=
  .ofFn fun i => .ofFn fun j =>
    b.at (σ.source (i, j)).1.toNat (σ.source (i, j)).2.toNat

/-- The point is on the board. -/
def On (p : Int × Int) : Prop := (0 ≤ p.1 ∧ p.1 < 15) ∧ 0 ≤ p.2 ∧ p.2 < 15

theorem source_point (p : Int × Int) : σ.source (σ.point p) = p := by
  have hmirror (flip : Bool) (n : Int) : mirror flip (mirror flip n) = n := by
    unfold mirror
    cases flip <;> simp
  obtain ⟨t, f, f'⟩ := σ
  cases t <;> simp [source, point, hmirror]

/-- A symmetry keeps the points of the board on the board. -/
theorem on_point_iff {p : Int × Int} : On (σ.point p) ↔ On p := by
  have hmirror (flip : Bool) (n : Int) : (0 ≤ mirror flip n ∧ mirror flip n < 15) ↔
      0 ≤ n ∧ n < 15 := by
    unfold mirror
    cases flip
    · exact Iff.rfl
    · simp only [if_true]
      omega
  obtain ⟨t, f, f'⟩ := σ
  unfold On point
  cases t
  · exact and_congr (hmirror ..) (hmirror ..)
  · exact (and_congr (hmirror ..) (hmirror ..)).trans and_comm

/-- The symmetry keeps steps along a line. -/
theorem point_sub (i j k : Int) (l : Int × Int) : σ.point (i - k * l.2, j - k * l.1) =
    ((σ.point (i, j)).1 - k * (σ.line l).2, (σ.point (i, j)).2 - k * (σ.line l).1) := by
  have hmirror (flip : Bool) (n d : Int) :
      mirror flip (n - k * d) = mirror flip n - k * turn flip d := by
    unfold mirror turn
    cases flip
    · rfl
    · simp only [if_true]
      ring
  obtain ⟨t, f, f'⟩ := σ
  cases t <;> exact Prod.ext (hmirror ..) (hmirror ..)

theorem on_cell {c : Nat × Nat} (hc : c ∈ cells) : On (c.1, c.2) := by
  have hlt := mem_cells.mp hc
  exact ⟨by omega, by omega⟩

theorem cast_cell {c : Nat × Nat} (hc : c ∈ cells) :
    (((σ.cell c).1 : Int), ((σ.cell c).2 : Int)) = σ.point (c.1, c.2) := by
  have hon : On (σ.point (c.1, c.2)) := σ.on_point_iff.mpr (on_cell hc)
  exact Prod.ext (Int.toNat_of_nonneg hon.1.1) (Int.toNat_of_nonneg hon.2.1)

theorem cell_mem {c : Nat × Nat} (hc : c ∈ cells) : σ.cell c ∈ cells := by
  have hon : On (σ.point (c.1, c.2)) := σ.on_point_iff.mpr (on_cell hc)
  rw [← σ.cast_cell hc] at hon
  unfold On at hon
  exact mem_cells.mpr (by omega)

/-- What the moved board holds where a point goes. -/
theorem at_board (b : Board) {p : Int × Int} (hp : On p) :
    (σ.board b).at (σ.point p).1.toNat (σ.point p).2.toNat = b.at p.1.toNat p.2.toNat := by
  obtain ⟨⟨hi, hi'⟩, hj, hj'⟩ := σ.on_point_iff.mpr hp
  have hsource : σ.source (((σ.point p).1.toNat : Int), ((σ.point p).2.toNat : Int)) = p := by
    rw [Int.toNat_of_nonneg hi, Int.toNat_of_nonneg hj]
    exact σ.source_point p
  rw [Board.at_of_lt _ (by omega) (by omega), board, Vector.getElem_ofFn, Vector.getElem_ofFn]
  dsimp only
  rw [hsource]

end Symmetry

/-! ## Windows of the moved board -/

/-- The character for a point in a line of `point_score`. -/
def charAt (b : Board) (side : Piece) (p : Int × Int) : Char :=
  if p.2 < 0 ∨ 15 ≤ p.2 ∨ p.1 < 0 ∨ 15 ≤ p.1 then 'n'
  else if b.at p.1.toNat p.2.toNat = side then 's'
  else if b.at p.1.toNat p.2.toNat = .none then ' '
  else 'o'

/-- The places of a window. -/
def offsets : List Int := [-4, -3, -2, -1, 0, 1, 2, 3, 4]

theorem lineStr_eq (b : Board) (i j : Nat) (side : Piece) (l : Int × Int) :
    lineStr b i j side l = offsets.map fun k => charAt b side (i - k * l.2, j - k * l.1) := rfl

/-- The moved board reads at a moved point as the board did. -/
theorem charAt_board (σ : Symmetry) (b : Board) (side : Piece) (p : Int × Int) :
    charAt (σ.board b) side (σ.point p) = charAt b side p := by
  have hoff {p : Int × Int} : (p.2 < 0 ∨ 15 ≤ p.2 ∨ p.1 < 0 ∨ 15 ≤ p.1) ↔ ¬ Symmetry.On p := by
    unfold Symmetry.On
    omega
  unfold charAt
  by_cases hp : Symmetry.On p
  · rw [if_neg fun h => hoff.mp h (σ.on_point_iff.mpr hp), if_neg fun h => hoff.mp h hp,
      σ.at_board b hp]
  · rw [if_pos (hoff.mpr fun h => hp (σ.on_point_iff.mp h)), if_pos (hoff.mpr hp)]

/-- The window around a moved cell. -/
theorem lineStr_board (σ : Symmetry) (b : Board) {c : Nat × Nat} (hc : c ∈ cells) (side : Piece)
    (l : Int × Int) :
    lineStr (σ.board b) (σ.cell c).1 (σ.cell c).2 side (σ.line l) = lineStr b c.1 c.2 side l := by
  have hi : ((σ.cell c).1 : Int) = (σ.point (c.1, c.2)).1 := congrArg Prod.fst (σ.cast_cell hc)
  have hj : ((σ.cell c).2 : Int) = (σ.point (c.1, c.2)).2 := congrArg Prod.snd (σ.cast_cell hc)
  rw [lineStr_eq, lineStr_eq, hi, hj]
  refine List.map_congr_left fun k _ => ?_
  rw [← σ.point_sub, charAt_board]

/-- A line in the other direction. -/
theorem lineStr_neg (b : Board) (i j : Nat) (side : Piece) (l : Int × Int) :
    lineStr b i j side (-l) = (lineStr b i j side l).reverse := by
  have hreverse : offsets.reverse = offsets.map fun k => -k := by decide
  rw [lineStr_eq, lineStr_eq, ← List.map_reverse, hreverse, List.map_map]
  refine List.map_congr_left fun k _ => ?_
  show charAt b side (i - k * -l.2, j - k * -l.1) = charAt b side (i - -k * l.2, j - -k * l.1)
  rw [mul_neg, mul_neg, neg_mul, neg_mul]

/-- Directions are equal when their coordinates are. -/
local instance lawfulDirections : LawfulBEq (Int × Int) := inferInstance

/-- The line of the table that goes along a direction. -/
def upright (l : Int × Int) : Int × Int := if l ∈ lines then l else -l

/-- The symmetries permute the table. -/
theorem perm_lines : ∀ t f f', (lines.map fun l => upright (Symmetry.line ⟨t, f, f'⟩ l)).Perm
    lines := by
  decide

theorem lineScore_upright (b : Board) (i j : Nat) (side : Piece) (l : Int × Int) :
    lineScore (lineStr b i j side (upright l)) = lineScore (lineStr b i j side l) := by
  unfold upright
  split
  · rfl
  · rw [lineStr_neg, lineScore_reverse]

/-- The score of a cell moves with the board. -/
theorem pointScore_board (σ : Symmetry) (b : Board) {c : Nat × Nat} (hc : c ∈ cells)
    (side : Piece) :
    pointScore (σ.board b) (σ.cell c).1 (σ.cell c).2 side = pointScore b c.1 c.2 side := by
  have hlines := (perm_lines σ.transpose σ.flipRows σ.flipColumns).map fun l =>
    lineScore (lineStr (σ.board b) (σ.cell c).1 (σ.cell c).2 side l)
  rw [List.map_map] at hlines
  unfold pointScore
  rw [← hlines.sum_eq]
  refine congrArg (fun l : List Int => 1 + l.sum) (List.map_congr_left fun l _ => ?_)
  show lineScore (lineStr _ _ _ side (upright (σ.line l))) = _
  rw [lineScore_upright, lineStr_board σ b hc]

/-- The symmetries permute the cells. -/
theorem perm_cells (σ : Symmetry) : (cells.map σ.cell).Perm cells := by
  have hinj : ∀ c ∈ cells, ∀ c' ∈ cells, σ.cell c = σ.cell c' → c = c' := by
    intro c hc c' hc' heq
    have hpoint : σ.point (c.1, c.2) = σ.point (c'.1, c'.2) := by
      rw [← σ.cast_cell hc, ← σ.cast_cell hc', heq]
    have hsource := congrArg σ.source hpoint
    rw [σ.source_point, σ.source_point, Prod.mk.injEq] at hsource
    exact Prod.ext (Int.ofNat_inj.mp hsource.1) (Int.ofNat_inj.mp hsource.2)
  have hsub : cells.map σ.cell ⊆ cells := by
    intro c hc
    obtain ⟨c', hc', rfl⟩ := List.mem_map.mp hc
    exact σ.cell_mem hc'
  have hnodup : (cells.map σ.cell).Nodup := nodup_cells.map_on hinj
  exact (List.subperm_of_subset hnodup hsub).perm_of_length_le (List.length_map _).ge

theorem situation_board (σ : Symmetry) (b : Board) : situation (σ.board b) = situation b := by
  unfold situation
  rw [← ((perm_cells σ).map _).sum_eq, List.map_map]
  refine congrArg List.sum (List.map_congr_left fun c hc => ?_)
  have hat : (σ.board b).at (σ.cell c).1 (σ.cell c).2 = b.at c.1 c.2 :=
    σ.at_board b (Symmetry.on_cell hc)
  simp only [Function.comp_apply, hat, pointScore_board σ b hc]

/-- There are eight symmetries. -/
theorem Symmetry.cell_injective {σ τ : Symmetry} (h : ∀ c ∈ cells, σ.cell c = τ.cell c) :
    σ = τ := by
  have hcorner := h (0, 1) (mem_cells.mpr (by decide))
  clear h
  obtain ⟨t, f, f'⟩ := σ
  obtain ⟨u, e, e'⟩ := τ
  revert t f f' u e e'
  decide

/-- **The evaluation is the same from all sides.** -/
theorem evaluation_symmetric (σ : Symmetry) (b : Board) :
    (∀ c ∈ cells, (σ.board b).at (σ.cell c).1 (σ.cell c).2 = b.at c.1 c.2) ∧
      (∀ c ∈ cells, ∀ side,
        pointScore (σ.board b) (σ.cell c).1 (σ.cell c).2 side = pointScore b c.1 c.2 side) ∧
      situation (σ.board b) = situation b :=
  ⟨fun _ hc => σ.at_board b (Symmetry.on_cell hc), fun _ hc side => pointScore_board σ b hc side,
    situation_board σ b⟩

/-- A stone in the corner, seen from the other side. -/
theorem evaluation_symmetric_corner :
    pointScore (Symmetry.board ⟨true, false, true⟩ (Board.empty.put 0 1 .black)) 1 14 .black =
      pointScore (Board.empty.put 0 1 .black) 0 1 .black :=
  (evaluation_symmetric ⟨true, false, true⟩ (Board.empty.put 0 1 .black)).2.1 (0, 1)
    (mem_cells.mpr (by decide)) .black

end UnoppServer.Gomoku
