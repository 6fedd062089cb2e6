import UnoppServer.Gomoku.Board
import UnoppServer.Lib.Marks

/-!
# Gomoku: five in a row

`HasFive b p` says that somewhere on the board five consecutive cells of a row, a
column or a diagonal hold the piece `p`. The three loops of `update` go over other
index ranges each, and read the winner from the first cell or from the centre; `marks_scan`
says that together they find what `HasFive` says.
-/

namespace UnoppServer.Gomoku

/-- Along a row, along a column, and along both diagonals. -/
def directions : List (Int × Int) := [(0, 1), (1, 0), (1, 1), (-1, 1)]

/-- The cell in row `i` and column `j` is on the board, and holds the piece. -/
def Board.Holds (b : Board) (p : Piece) (i j : Int) : Prop :=
  (0 ≤ i ∧ i < 15 ∧ 0 ≤ j ∧ j < 15) ∧ b.at i.toNat j.toNat = p

instance (b : Board) (p : Piece) (i j : Int) : Decidable (b.Holds p i j) :=
  inferInstanceAs (Decidable (_ ∧ _))

/-- Five consecutive cells hold the piece. -/
def HasFive (b : Board) (p : Piece) : Prop :=
  ∃ c ∈ cells, ∃ d ∈ directions, ∀ k : Nat, k < 5 → b.Holds p (c.1 + d.1 * k) (c.2 + d.2 * k)

instance (b : Board) (p : Piece) : Decidable (HasFive b p) :=
  inferInstanceAs (Decidable (∃ c ∈ cells, ∃ d ∈ directions, ∀ k : Nat, k < 5 → _))

/-- A board with more stones has the fives of the one with fewer. -/
theorem HasFive.mono {b b' : Board} {p : Piece} (hp : p ≠ .none)
    (hsub : ∀ i j, b.at i j ≠ .none → b'.at i j = b.at i j) (h : HasFive b p) : HasFive b' p := by
  obtain ⟨c, hc, d, hd, h⟩ := h
  refine ⟨c, hc, d, hd, fun k hk => ?_⟩
  obtain ⟨hon, hat⟩ := h k hk
  have hne : b.at (c.1 + d.1 * k).toNat (c.2 + d.2 * k).toNat ≠ .none := hat ▸ hp
  exact ⟨hon, (hsub _ _ hne).trans hat⟩

theorem HasFive.exists_at {b : Board} {p : Piece} (h : HasFive b p) :
    ∃ c ∈ cells, b.at c.1 c.2 = p := by
  obtain ⟨c, hc, d, -, h⟩ := h
  refine ⟨c, hc, ?_⟩
  have hat := (h 0 (by omega)).2
  simpa using hat

/-! ## What the loops look at -/

variable {b : Board} {p : Piece} {i j : Nat}

/-- The five cells from `(i, j)` in a direction hold the piece. -/
def FiveAt (b : Board) (p : Piece) (i j : Nat) (di dj : Int) : Prop :=
  ∀ k : Nat, k < 5 → b.at (i + di * k).toNat (j + dj * k).toNat = p

/-- The five cells of a line, one by one. -/
theorem forall_lt_five {P : Nat → Prop} :
    (∀ k : Nat, k < 5 → P k) ↔ P 0 ∧ P 1 ∧ P 2 ∧ P 3 ∧ P 4 := by
  constructor
  · intro h
    exact ⟨h 0 (by omega), h 1 (by omega), h 2 (by omega), h 3 (by omega), h 4 (by omega)⟩
  · rintro ⟨h0, h1, h2, h3, h4⟩ k hk
    match k, hk with
    | 0, _ => exact h0
    | 1, _ => exact h1
    | 2, _ => exact h2
    | 3, _ => exact h3
    | 4, _ => exact h4

/-- `equal` on the five cells. -/
theorem isFive_iff {di dj : Int} :
    isFive b i j di dj = true ↔ ∃ p, p ≠ .none ∧ FiveAt b p i j di dj := by
  unfold FiveAt isFive
  simp only [forall_lt_five, Bool.and_eq_true, decide_eq_true_eq]
  constructor
  · rintro ⟨hne, ⟨⟨h01, h12⟩, h23⟩, h34⟩
    exact ⟨_, hne, rfl, h01.symm, (h01.trans h12).symm, ((h01.trans h12).trans h23).symm,
      (((h01.trans h12).trans h23).trans h34).symm⟩
  · rintro ⟨p, hne, h0, h1, h2, h3, h4⟩
    rw [h0, h1, h2, h3, h4]
    exact ⟨hne, ⟨⟨rfl, rfl⟩, rfl⟩, rfl⟩

/-- One test of a loop, which reads the winner from the `k`-th of the five cells. -/
theorem marks_ite {di dj : Int} {k : Nat} (hk : k < 5) {i' j' : Nat}
    (hi : (i + di * k).toNat = i') (hj : (j + dj * k).toNat = j') (s : Status) :
    Marked wins {p | p ≠ .none ∧ FiveAt b p i j di dj} s
      (if isFive b i j di dj then wins (b.at i' j') else s) := by
  obtain rfl := hi
  obtain rfl := hj
  split
  case isTrue h =>
    obtain ⟨p, hne, hfive⟩ := isFive_iff.mp h
    rw [hfive k hk]
    exact .inl ⟨p, ⟨hne, hfive⟩, rfl⟩
  case isFalse h =>
    refine (Marked.none wins s).congr (Set.eq_empty_of_forall_notMem ?_).symm
    exact fun p hp => h (isFive_iff.mpr ⟨p, hp⟩)

/-! ## The three loops -/

/-- A pair of nested loops. -/
theorem marks_loops {F : Nat → Nat → Set Piece} {round : Status → Nat → Nat → Status} (m n : Nat)
    (h : ∀ s i j, Marked wins (F i j) s (round s i j)) (s : Status) :
    Marked wins {p | ∃ i < m, ∃ j < n, p ∈ F i j} s
      ((List.range m).foldl (fun s i => (List.range n).foldl (fun s j => round s i j) s) s) := by
  refine (Marked.foldl (fun s i => Marked.foldl (fun s j => h s i j) (List.range n) s)
    (List.range m) s).congr ?_
  ext p
  simp

theorem marks_scanRows (b : Board) (s : Status) :
    Marked wins {p | ∃ i < 15, ∃ j < 11, p ≠ .none ∧ FiveAt b p i j 0 1} s (scanRows b s) :=
  marks_loops 15 11 (fun s i j => marks_ite (k := 0) (by omega) (by omega) (by omega) s) s

theorem marks_scanColumns (b : Board) (s : Status) :
    Marked wins {p | ∃ i < 15, ∃ j < 11, p ≠ .none ∧ FiveAt b p j i 1 0} s (scanColumns b s) :=
  marks_loops 15 11 (fun s i j => marks_ite (k := 0) (by omega) (by omega) (by omega) s) s

/-- The third loop sets the status of the last five on a diagonal. -/
theorem marks_scanDiagonals (b : Board) (s : Status) :
    Marked wins {p | ∃ i < 11, ∃ j < 11,
        p ≠ .none ∧ (FiveAt b p i j 1 1 ∨ FiveAt b p (i + 4) j (-1) 1)} s (scanDiagonals b s) := by
  refine marks_loops (F := fun i j => {p | p ≠ .none ∧ (FiveAt b p i j 1 1 ∨
    FiveAt b p (i + 4) j (-1) 1)}) 11 11 (fun s i j => ?_) s
  -- both diagonals of a square go through its centre
  have hup : Marked wins {p | p ≠ .none ∧ FiveAt b p (i + 4) j (-1) 1} s
      (if isFive b (i + 4) j (-1) 1 then wins (b.at (i + 2) (j + 2)) else s) :=
    marks_ite (k := 2) (by omega) (by omega) (by omega) s
  have hdown (s : Status) : Marked wins {p | p ≠ .none ∧ FiveAt b p i j 1 1} s
      (if isFive b i j 1 1 then wins (b.at (i + 2) (j + 2)) else s) :=
    marks_ite (k := 2) (by omega) (by omega) (by omega) s
  have hor : (if isFive b i j 1 1 || isFive b (i + 4) j (-1) 1 then wins (b.at (i + 2) (j + 2))
      else s) = if isFive b i j 1 1 then wins (b.at (i + 2) (j + 2))
      else if isFive b (i + 4) j (-1) 1 then wins (b.at (i + 2) (j + 2)) else s := by
    cases isFive b i j 1 1 <;> rfl
  rw [hor]
  refine (hup.trans (hdown _)).congr ?_
  ext p
  show (_ ∧ _) ∨ (_ ∧ _) ↔ _ ∧ (_ ∨ _)
  rw [or_comm, and_or_left]

/-- A five is one that the loops look at. -/
theorem hasFive_iff : HasFive b p ↔
    (∃ i < 15, ∃ j < 11, FiveAt b p i j 0 1) ∨ (∃ i < 15, ∃ j < 11, FiveAt b p j i 1 0) ∨
      ∃ i < 11, ∃ j < 11, FiveAt b p i j 1 1 ∨ FiveAt b p (i + 4) j (-1) 1 := by
  constructor
  · rintro ⟨⟨i, j⟩, -, d, hd, h⟩
    obtain ⟨h0, -⟩ := h 0 (by omega)
    obtain ⟨h4, -⟩ := h 4 (by omega)
    have hall : ∀ k : Nat, k < 5 → b.at (i + d.1 * k).toNat (j + d.2 * k).toNat = p :=
      fun k hk => (h k hk).2
    simp only [directions, List.mem_cons, List.not_mem_nil, or_false] at hd
    rcases hd with rfl | rfl | rfl | rfl
    · exact .inl ⟨i, by omega, j, by omega, hall⟩
    · exact .inr (.inl ⟨j, by omega, i, by omega, hall⟩)
    · exact .inr (.inr ⟨i, by omega, j, by omega, .inl hall⟩)
    · refine .inr (.inr ⟨i - 4, by omega, j, by omega, .inr ?_⟩)
      rwa [Nat.sub_add_cancel (by omega)]
  · rintro (⟨i, hi, j, hj, h⟩ | ⟨j, hj, i, hi, h⟩ | ⟨i, hi, j, hj, h | h⟩)
    · refine ⟨(i, j), mem_cells.mpr (by omega), (0, 1), by decide, fun k hk => ⟨?_, h k hk⟩⟩
      omega
    · refine ⟨(i, j), mem_cells.mpr (by omega), (1, 0), by decide, fun k hk => ⟨?_, h k hk⟩⟩
      omega
    · refine ⟨(i, j), mem_cells.mpr (by omega), (1, 1), by decide, fun k hk => ⟨?_, h k hk⟩⟩
      omega
    · refine ⟨(i + 4, j), mem_cells.mpr (by omega), (-1, 1), by decide, fun k hk => ⟨?_, h k hk⟩⟩
      omega

/-- **The loops of `update`** find the colours that have five in a row. -/
theorem marks_scan (g : Gomoku) :
    Marked wins {p | p ≠ .none ∧ HasFive g.board p} g.status g.scan := by
  refine (((marks_scanRows g.board g.status).trans (marks_scanColumns g.board _)).trans
    (marks_scanDiagonals g.board _)).congr ?_
  ext p
  show (_ ∨ _) ∨ _ ↔ _ ∧ _
  rw [hasFive_iff]
  by_cases hp : p = .none
  · simp [hp]
  · simp [hp, or_assoc]

theorem wins_ne_notEnd (p : Piece) : wins p ≠ .notEnd := by
  cases p <;> decide

theorem wins_inj {q : Piece} (hp : p ≠ .none) (hq : q ≠ .none) (h : wins p = wins q) : p = q := by
  cases p <;> cases q <;> simp_all [wins]

/-- The status after the loops, on a board on which at most one colour has five. -/
theorem scan_eq_wins_iff {g : Gomoku} (hs : g.status = .notEnd) (hp : p ≠ .none)
    (hone : ¬ (HasFive g.board .black ∧ HasFive g.board .white)) :
    g.scan = wins p ↔ HasFive g.board p := by
  have hunique : ∀ q, q ≠ .none → HasFive g.board p → HasFive g.board q → q = p := by
    intro q hq hfive hfive'
    cases p <;> cases q
    case none.none | none.black | none.white => exact absurd rfl hp
    case black.none | white.none => exact absurd rfl hq
    case black.black | white.white => rfl
    case black.white => exact absurd ⟨hfive, hfive'⟩ hone
    case white.black => exact absurd ⟨hfive', hfive⟩ hone
  rw [(marks_scan g).eq_mark_iff (hs ▸ wins_ne_notEnd p) (fun q hq => wins_inj hq.1 hp)
    fun hmem q hq => hunique q hq.1 hmem.2 hq.2]
  exact and_iff_right hp

/-- Without a five the status stays. -/
theorem scan_eq_self {g : Gomoku} (hno : ∀ p, p ≠ .none → ¬ HasFive g.board p) :
    g.scan = g.status :=
  (marks_scan g).eq_of_empty fun p hp => hno p hp.1 hp.2

/-- **Win detection is exact.** -/
theorem update_status {g : Gomoku} (eval : Evaluator) (k : Nat) (hs : g.status = .notEnd)
    (hai : g.useAi = false) (hone : ¬ (HasFive g.board .black ∧ HasFive g.board .white)) :
    ((g.update eval k).status = .blackWin ↔ HasFive g.board .black) ∧
      ((g.update eval k).status = .whiteWin ↔ HasFive g.board .white) ∧
      (¬ HasFive g.board .black ∧ ¬ HasFive g.board .white →
        (g.update eval k).status = .notEnd) := by
  have hupdate : (g.update eval k).status = g.scan := by
    simp [update, hs, hai]
  rw [hupdate]
  refine ⟨scan_eq_wins_iff hs (p := .black) (by decide) hone,
    scan_eq_wins_iff hs (p := .white) (by decide) hone, fun hno => ?_⟩
  rw [scan_eq_self, hs]
  intro p hp
  cases p with
  | none => exact absurd rfl hp
  | black => exact hno.1
  | white => exact hno.2

/-- Five black stones down the last column, in the corner. -/
def corner : Gomoku :=
  { new with
    board := [10, 11, 12, 13, 14].foldl (fun b i => b.put i 14 .black) .empty
    currentIsBlack := false }

/-- Black has won there, and white has not. -/
theorem update_status_corner : (corner.update (noisy fun _ => 0) 0).status = .blackWin ∧
    (corner.update (noisy fun _ => 0) 0).status ≠ .whiteWin := by
  have hblack : HasFive corner.board .black :=
    ⟨(10, 14), mem_cells.mpr (by decide), (1, 0), by decide, by decide⟩
  have hwhite : ¬ HasFive corner.board .white :=
    fun h => absurd h.exists_at (by decide +kernel)
  have h := update_status (g := corner) (noisy fun _ => 0) 0 rfl rfl fun hboth => hwhite hboth.2
  exact ⟨h.1.mpr hblack, by simp [h.1.mpr hblack]⟩

end UnoppServer.Gomoku
