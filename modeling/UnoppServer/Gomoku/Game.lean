import UnoppServer.Json.Value

/-!
# Gomoku: the game

`Gomoku` is the class of `Gomoku.hpp`: the board with `drop`, `clear` and
`enableAi`; `update`, which looks for five in a row and lets the algorithm move;
and the algorithm (`situation`, `pointScore`, and the search of `searchMax` and
`searchMin`).

The loops of the source run over rows and columns inside the board, so the board
is read with `Board.at`, which is total. The numbers `mt() & 7` that `situation`
adds are a stream; a search starts at some place in it and ends at a later one.
-/

namespace UnoppServer

namespace Gomoku

/-- A cell: `NONE`, `BLACK_PIECE` or `WHITE_PIECE`. -/
inductive Piece where
  | none | black | white
  deriving DecidableEq, Repr

/-- The character of a piece. -/
def Piece.text : Piece → String
  | .none => "n"
  | .black => "b"
  | .white => "w"

/-- The board, by rows. -/
abbrev Board := Vector (Vector Piece 15) 15

/-- `board[i][j]`. -/
def Board.at (b : Board) (i j : Nat) : Piece :=
  match b[i]? with
  | some row => row[j]?.getD .none
  | none => .none

/-- `board[i][j] = p`. -/
def Board.put (b : Board) (i j : Nat) (p : Piece) : Board :=
  if h : i < 15 ∧ j < 15 then b.set i ((b.get ⟨i, h.1⟩).set j p h.2) h.1 else b

/-- The empty board. -/
def Board.empty : Board := Vector.replicate 15 (Vector.replicate 15 .none)

/-- The cells in the order of the loops, row by row. -/
def cells : List (Nat × Nat) :=
  (List.range 15).flatMap fun i => (List.range 15).map fun j => (i, j)

/-- `enum Status`. -/
inductive Status where
  | blackWin | whiteWin | tied | notEnd
  deriving DecidableEq, Repr

end Gomoku

open Gomoku

/-- The class `Gomoku`. `lastDrop` is `last_drop.x` and `last_drop.y`, a column and
a row; `aiDropPos` is a row and a column. -/
structure Gomoku where
  board : Board
  currentIsBlack : Bool
  lastDrop : Int × Int
  useAi : Bool
  isAiThinking : Bool
  status : Status
  maxSearchDepth : Nat
  aiDropPos : Nat × Nat
  deriving DecidableEq

namespace Gomoku

/-- The constructor. -/
def new : Gomoku := ⟨.empty, true, (-1, -1), false, false, .notEnd, 1, (0, 0)⟩

/-- The checks of `drop`. -/
def canDrop (g : Gomoku) (i j : Int) (isBlack : Bool) : Bool :=
  !(isBlack && g.isAiThinking) && decide (isBlack = g.currentIsBlack) &&
    decide (0 ≤ i ∧ i < 15 ∧ 0 ≤ j ∧ j < 15) &&
    decide (g.board.at i.toNat j.toNat = .none) && decide (g.status = .notEnd)

/-- `drop`. -/
def drop (g : Gomoku) (i j : Int) (isBlack : Bool) : Bool × Gomoku :=
  if g.canDrop i j isBlack then
    (true, { g with
      board := g.board.put i.toNat j.toNat (if g.currentIsBlack then .black else .white)
      currentIsBlack := !g.currentIsBlack
      lastDrop := (j, i) })
  else (false, g)

theorem drop_fst (g : Gomoku) (i j : Int) (isBlack : Bool) :
    (g.drop i j isBlack).1 = g.canDrop i j isBlack := by
  unfold drop
  split
  · exact ‹_ = true›.symm
  · exact (Bool.eq_false_of_not_eq_true ‹_›).symm

@[simp] theorem drop_status (g : Gomoku) (i j : Int) (isBlack : Bool) :
    (g.drop i j isBlack).2.status = g.status := by
  unfold drop
  split <;> rfl

@[simp] theorem drop_useAi (g : Gomoku) (i j : Int) (isBlack : Bool) :
    (g.drop i j isBlack).2.useAi = g.useAi := by
  unfold drop
  split <;> rfl

/-- `clear`. -/
def clear (g : Gomoku) : Gomoku :=
  { g with board := .empty, currentIsBlack := true, status := .notEnd, isAiThinking := false,
           lastDrop := (-1, -1) }

/-- `enable_ai`. -/
def enableAi (g : Gomoku) (enable : Bool) : Gomoku := { g with useAi := enable }

/-- `get_game_info`. -/
def getGameInfo (g : Gomoku) : List (String × Json) :=
  [("board", .arr ((List.range 15).map fun i =>
      .arr ((List.range 15).map fun j => .str (g.board.at i j).text))),
    ("last_drop", .obj [("x", .int g.lastDrop.1), ("y", .int g.lastDrop.2)]),
    ("current_is_black", .bool g.currentIsBlack)]

/-! ## Five in a row -/

/-- `equal` on the five cells from `(i, j)` in the direction `(di, dj)`, of which
the first is not empty. -/
def isFive (b : Board) (i j : Nat) (di dj : Int) : Bool :=
  let piece (k : Nat) : Piece := b.at (i + di * k).toNat (j + dj * k).toNat
  decide (piece 0 ≠ .none) &&
    (decide (piece 0 = piece 1) && decide (piece 1 = piece 2) && decide (piece 2 = piece 3) &&
      decide (piece 3 = piece 4))

/-- The status that a five of a piece sets. -/
def wins (p : Piece) : Status := if p = .white then .whiteWin else .blackWin

/-- The first loop of `update`, along the rows. -/
def scanRows (b : Board) (s : Status) : Status :=
  (List.range 15).foldl (fun s i => (List.range 11).foldl (fun s j =>
    if isFive b i j 0 1 then wins (b.at i j) else s) s) s

/-- The second loop, along the columns. -/
def scanColumns (b : Board) (s : Status) : Status :=
  (List.range 15).foldl (fun s i => (List.range 11).foldl (fun s j =>
    if isFive b j i 1 0 then wins (b.at j i) else s) s) s

/-- The third loop, along both diagonals of every five by five square. -/
def scanDiagonals (b : Board) (s : Status) : Status :=
  (List.range 11).foldl (fun s i => (List.range 11).foldl (fun s j =>
    if isFive b i j 1 1 || isFive b (i + 4) j (-1) 1 then wins (b.at (i + 2) (j + 2)) else s) s) s

/-! ## The algorithm -/

/-- The directions of `lines`, in the coordinates `(x, y)`. -/
def lines : List (Int × Int) := [(1, 0), (0, 1), (1, 1), (1, -1)]

/-- One line of `point_score` as text: `s` for the side, `o` for the other one, a
blank for an empty cell, `n` outside the board. -/
def lineStr (b : Board) (i j : Nat) (side : Piece) (line : Int × Int) : List Char :=
  ([-4, -3, -2, -1, 0, 1, 2, 3, 4] : List Int).map fun k =>
    -- `k = -4` is the far end: the points are subtracted
    let x : Int := j - k * line.1
    let y : Int := i - k * line.2
    if x < 0 ∨ 15 ≤ x ∨ y < 0 ∨ 15 ≤ y then 'n'
    else if b.at y.toNat x.toNat = side then 's'
    else if b.at y.toNat x.toNat = .none then ' '
    else 'o'

/-- `line_str.find(pattern) != npos`. -/
def contains (line pattern : List Char) : Bool := line.tails.any fun t => pattern.isPrefixOf t

/-- The groups of patterns with the score that each adds once. -/
def patterns : List (Int × List String) := [
    (5000000, ["sssss"]),
    (100000, [" ssss "]),
    (16000, [" sssso", "s sss", "ss ss", "sss s", "ossss "]),
    (8000, [" sss  ", "  sss "]),
    (2000, [" s ss ", " ss s "]),
    (300, ["  ssso", " s sso", " ss so", "osss  ", "oss s ", "os ss ", "ss  s", "s  ss", "s s s",
      "o sss o"]),
    (20, ["   ss ", "  ss  ", " ss   ", "  s s ", " s s  "]),
    (2, ["   sso", "  s so", " s  so", "s   s", "oss   ", "os s  ", "os  s ", "o  ss o", "o ss  o",
      "o s s o"])]

/-- The score of one line. -/
def lineScore (line : List Char) : Int :=
  (patterns.map fun g => if g.2.any fun p => contains line p.toList then g.1 else 0).sum

/-- `point_score`. -/
def pointScore (b : Board) (i j : Nat) (side : Piece) : Int :=
  1 + (lines.map fun line => lineScore (lineStr b i j side line)).sum

/-- `situation` without the random number it adds. The source calls it with the
character of the white piece, which is true. -/
def situation (b : Board) : Int :=
  (cells.map fun c =>
    match b.at c.1 c.2 with
    | .white => pointScore b c.1 c.2 .white
    | .black => - pointScore b c.1 c.2 .black
    | .none => 0).sum

/-- `is_nearby`. -/
def isNearby (b : Board) (i j : Nat) : Bool :=
  ([-1, 0, 1] : List Int).any fun di => ([-1, 0, 1] : List Int).any fun dj =>
    decide (0 ≤ i + di ∧ i + di < 15 ∧ 0 ≤ j + dj ∧ j + dj < 15) &&
      decide (b.at (i + di).toNat (j + dj).toNat ≠ .none)

/-- The cells that the search tries. -/
def isCandidate (b : Board) (c : Nat × Nat) : Bool :=
  decide (b.at c.1 c.2 = .none) && isNearby b c.1 c.2

/-- `INT_MIN` and `INT_MAX`. -/
def intMin : Int := -2147483648
def intMax : Int := 2147483647

/-- Evaluation of a board from a place in the stream of random numbers: the score
and the place after it. -/
abbrev Evaluator := Board → Nat → Int × Nat

/-- `situation` with its random number. -/
def noisy (noise : Nat → Nat) : Evaluator := fun b k => (situation b + (noise k % 8 : Nat), k + 1)

/-- The loop of `search_max`: the best score so far, the first cell that reached
it, and the place in the stream. -/
def maxLoop (score : Board → Int → Nat → Int × Nat) (b : Board) (piece : Piece) (beta : Int) :
    List (Nat × Nat) → Int → Option (Nat × Nat) → Nat → Int × Option (Nat × Nat) × Nat
  | [], alpha, best, k => (alpha, best, k)
  | c :: rest, alpha, best, k =>
    if isCandidate b c then
      let (s, k) := score (b.put c.1 c.2 piece) alpha k
      if alpha < s then
        if beta ≤ s then (s, some c, k) else maxLoop score b piece beta rest s (some c) k
      else maxLoop score b piece beta rest alpha best k
    else maxLoop score b piece beta rest alpha best k

/-- The loop of `search_min`. -/
def minLoop (score : Board → Int → Nat → Int × Nat) (b : Board) (piece : Piece) (alpha : Int) :
    List (Nat × Nat) → Int → Nat → Int × Nat
  | [], beta, k => (beta, k)
  | c :: rest, beta, k =>
    if isCandidate b c then
      let (s, k) := score (b.put c.1 c.2 piece) beta k
      if s < beta then
        if s ≤ alpha then (s, k) else minLoop score b piece alpha rest s k
      else minLoop score b piece alpha rest beta k
    else minLoop score b piece alpha rest beta k

/-- `map[to_black]`, which is the piece of the other colour. -/
def mapPiece (toBlack : Bool) : Piece := if toBlack then .white else .black

mutual

/-- `search_max`, with the number of levels below it. -/
def searchMax (eval : Evaluator) : (levels : Nat) → Board → (toBlack : Bool) →
    (parentBeta : Int) → Nat → Int × Option (Nat × Nat) × Nat
  | 0, b, toBlack, parentBeta, k =>
    maxLoop (fun b _ k => eval b k) b (mapPiece toBlack) parentBeta cells intMin none k
  | levels + 1, b, toBlack, parentBeta, k =>
    maxLoop (fun b alpha k => searchMin eval levels b (!toBlack) alpha k) b (mapPiece toBlack)
      parentBeta cells intMin none k

/-- `search_min`, with the number of levels below it. -/
def searchMin (eval : Evaluator) : (levels : Nat) → Board → (toBlack : Bool) →
    (parentAlpha : Int) → Nat → Int × Nat
  | 0, b, toBlack, parentAlpha, k =>
    minLoop (fun b _ k => eval b k) b (mapPiece toBlack) parentAlpha cells intMax k
  | levels + 1, b, toBlack, parentAlpha, k =>
    minLoop (fun b beta k =>
      let (s, _, k) := searchMax eval levels b (!toBlack) beta k
      (s, k)) b (mapPiece toBlack) parentAlpha cells intMax k

end

/-- `AIDrop`. -/
def aiDrop (g : Gomoku) (eval : Evaluator) (k : Nat) : Gomoku :=
  let g := { g with isAiThinking := true }
  let (_, best, _) := searchMax eval g.maxSearchDepth g.board true intMax k
  let g := { g with aiDropPos := best.getD g.aiDropPos }
  let (_, g) := g.drop g.aiDropPos.1 g.aiDropPos.2 false
  { g with isAiThinking := false }

/-- The search for five in a row at the beginning of `update`. -/
def scan (g : Gomoku) : Status :=
  scanDiagonals g.board (scanColumns g.board (scanRows g.board g.status))

/-- `update`. -/
def update (g : Gomoku) (eval : Evaluator) (k : Nat) : Gomoku :=
  if g.status ≠ .notEnd then g
  else
    let g := { g with status := g.scan }
    if g.status = .notEnd ∧ g.currentIsBlack = false ∧ g.useAi = true then g.aiDrop eval k else g

end Gomoku

end UnoppServer
