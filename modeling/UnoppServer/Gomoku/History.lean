import UnoppServer.Gomoku.InPlace
import UnoppServer.Lib.Since

/-!
# Gomoku: the history of a board

A run of the object is any sequence of `drop`, `update`, `enable_ai` and `clear`, with
any arguments and any evaluation, and `update` searches on the real board. The output
of a step is the cell of the drop that succeeded in it: the call itself, or the one
that `AIDrop` makes.

A step other than `clear` either leaves the stones alone or puts one stone of the side
to move on an empty cell (`Effect`), and from that follows what a run since the last
`clear` does to the board (`history_wellFormed`).
-/

namespace UnoppServer.Gomoku

open Runs

/-- The calls of the class. -/
inductive Event where
  | drop (i j : Int) (isBlack : Bool)
  | update (eval : Evaluator) (k : Nat)
  | enableAi (enable : Bool)
  | clear

/-- The cell of a drop, when it succeeds. -/
def dropped (g : Gomoku) (i j : Int) (isBlack : Bool) : Option (Nat × Nat) :=
  if (g.drop i j isBlack).1 then some (i.toNat, j.toNat) else none

/-- The cell of the drop that `update` makes for the algorithm, when it succeeds. -/
def aiDropped (g : Gomoku) (eval : Evaluator) (k : Nat) : Option (Nat × Nat) :=
  if g.status = .notEnd ∧ g.scan = .notEnd ∧ g.currentIsBlack = false ∧ g.useAi = true then
    let g := InPlace.think { g with status := g.scan } eval k
    g.dropped g.aiDropPos.1 g.aiDropPos.2 false
  else none

/-- One call, with the cell of the drop that succeeds in it. -/
def step (g : Gomoku) : Event → Except Empty (Option (Nat × Nat) × Gomoku)
  | .drop i j isBlack => .ok (g.dropped i j isBlack, (g.drop i j isBlack).2)
  | .update eval k => .ok (g.aiDropped eval k, InPlace.update g eval k)
  | .enableAi enable => .ok (none, g.enableAi enable)
  | .clear => .ok (none, g.clear)

/-- The piece of the side to move. -/
def toMove (g : Gomoku) : Piece := if g.currentIsBlack then .black else .white

/-- What a call other than `clear` does: the stones stay, or there is a new one. -/
inductive Effect (g g' : Gomoku) : Option (Nat × Nat) → Prop where
  | quiet (hboard : g'.board = g.board) (hturn : g'.currentIsBlack = g.currentIsBlack)
      (hlast : g'.lastDrop = g.lastDrop) (hover : g.status ≠ .notEnd → g'.status = g.status) :
      Effect g g' none
  | placed (c : Nat × Nat) (hcell : c ∈ cells) (hopen : g.status = .notEnd)
      (hfree : g.board.at c.1 c.2 = .none) (hboard : g'.board = g.board.put c.1 c.2 g.toMove)
      (hturn : g'.currentIsBlack = !g.currentIsBlack) (hlast : g'.lastDrop = (↑c.2, ↑c.1)) :
      Effect g g' (some c)

theorem canDrop_iff {g : Gomoku} {i j : Int} {isBlack : Bool} :
    g.canDrop i j isBlack = true ↔ (isBlack && g.isAiThinking) = false ∧
      isBlack = g.currentIsBlack ∧ (0 ≤ i ∧ i < 15 ∧ 0 ≤ j ∧ j < 15) ∧
      g.board.at i.toNat j.toNat = .none ∧ g.status = .notEnd := by
  simp only [canDrop, Bool.and_eq_true, Bool.not_eq_true', decide_eq_true_eq, and_assoc]

/-- A drop puts a stone of the side to move, or is refused. -/
theorem drop_effect (g : Gomoku) (i j : Int) (isBlack : Bool) :
    Effect g (g.drop i j isBlack).2 (g.dropped i j isBlack) := by
  unfold dropped drop
  by_cases hcan : g.canDrop i j isBlack = true
  · simp only [hcan, if_true]
    obtain ⟨-, -, hin, hfree, hopen⟩ := canDrop_iff.mp hcan
    refine .placed (i.toNat, j.toNat) (mem_cells.mpr ⟨by omega, by omega⟩) hopen hfree rfl rfl ?_
    show (j, i) = ((j.toNat : Int), (i.toNat : Int))
    rw [Int.toNat_of_nonneg hin.2.2.1, Int.toNat_of_nonneg hin.1]
  · simp only [hcan]
    exact .quiet rfl rfl rfl fun _ => rfl

/-- The same stones, turn and status. -/
structure SameStones (g g' : Gomoku) : Prop where
  board : g'.board = g.board
  turn : g'.currentIsBlack = g.currentIsBlack
  last : g'.lastDrop = g.lastDrop
  status : g'.status = g.status

/-- Only the stones, the turn and the status matter to an effect. -/
theorem Effect.congr {g₁ g₂ g g' : Gomoku} {o : Option (Nat × Nat)} (h : Effect g₁ g₂ o)
    (h₁ : SameStones g g₁) (h₂ : SameStones g₂ g') : Effect g g' o := by
  cases h with
  | quiet hboard hturn hlast hover =>
    refine .quiet ?_ ?_ ?_ fun hended => ?_
    · rw [h₂.board, hboard, h₁.board]
    · rw [h₂.turn, hturn, h₁.turn]
    · rw [h₂.last, hlast, h₁.last]
    · rw [h₂.status, hover (h₁.status ▸ hended), h₁.status]
  | placed c hcell hopen hfree hboard hturn hlast =>
    refine .placed c hcell (h₁.status ▸ hopen) (h₁.board ▸ hfree) ?_ ?_ ?_
    · rw [h₂.board, hboard, h₁.board, toMove, toMove, h₁.turn]
    · rw [h₂.turn, hturn, h₁.turn]
    · rw [h₂.last, hlast]

theorem sameStones_think (g : Gomoku) (eval : Evaluator) (k : Nat) :
    SameStones g (InPlace.think g eval k) := by
  rw [InPlace.think_eq]
  exact ⟨rfl, rfl, rfl, rfl⟩

/-- `AIDrop` puts at most one stone: the trial stones are gone when it drops. -/
theorem aiDrop_effect (g : Gomoku) (eval : Evaluator) (k : Nat) :
    Effect g (InPlace.aiDrop g eval k) ((InPlace.think g eval k).dropped
      (InPlace.think g eval k).aiDropPos.1 (InPlace.think g eval k).aiDropPos.2 false) :=
  (drop_effect (InPlace.think g eval k) _ _ false).congr (sameStones_think g eval k)
    ⟨rfl, rfl, rfl, rfl⟩

/-- `update` leaves the stones alone, or `AIDrop` has put one. -/
theorem update_effect (g : Gomoku) (eval : Evaluator) (k : Nat) :
    Effect g (InPlace.update g eval k) (g.aiDropped eval k) := by
  by_cases hopen : g.status = .notEnd
  · by_cases hai : g.scan = .notEnd ∧ g.currentIsBlack = false ∧ g.useAi = true
    · have hupdate : InPlace.update g eval k = InPlace.aiDrop { g with status := g.scan } eval k :=
        (if_neg (not_not.mpr hopen)).trans (if_pos hai)
      rw [hupdate, aiDropped, if_pos ⟨hopen, hai⟩]
      exact (aiDrop_effect { g with status := g.scan } eval k).congr
        ⟨rfl, rfl, rfl, hai.1.trans hopen.symm⟩ ⟨rfl, rfl, rfl, rfl⟩
    · have hupdate : InPlace.update g eval k = { g with status := g.scan } :=
        (if_neg (not_not.mpr hopen)).trans (if_neg hai)
      rw [hupdate, aiDropped, if_neg fun h => hai h.2]
      exact .quiet rfl rfl rfl fun hended => absurd hopen hended
  · have hupdate : InPlace.update g eval k = g := if_pos hopen
    rw [hupdate, aiDropped, if_neg fun h => hopen h.1]
    exact .quiet rfl rfl rfl fun _ => rfl

/-- Each call other than `clear` has an effect. -/
theorem step_effect {g g' : Gomoku} {e : Event} {o : Option (Nat × Nat)}
    (hs : g.step e = .ok (o, g')) (he : e ≠ .clear) : Effect g g' o := by
  cases e with
  | drop i j isBlack =>
    cases hs
    exact drop_effect g i j isBlack
  | update eval k =>
    cases hs
    exact update_effect g eval k
  | enableAi enable =>
    cases hs
    exact .quiet rfl rfl rfl fun _ => rfl
  | clear => exact absurd rfl he

/-! ## Runs -/

/-- The runs of a new object. -/
abbrev BoardRun (h : List (Entry Gomoku Event (Option (Nat × Nat)))) (g : Gomoku) : Prop :=
  Run step (fun _ _ => True) new h g

/-- The number of successful drops. -/
def drops (h : List (Entry Gomoku Event (Option (Nat × Nat)))) : Nat :=
  h.countP fun e => e.out.isSome

/-- Black has as many stones as white when it is to move, and else one more. -/
def Balanced (g : Gomoku) : Prop :=
  g.board.count .black = g.board.count .white + if g.currentIsBlack then 0 else 1

/-- The piece of the side that is not to move. -/
def moved (g : Gomoku) : Piece := if g.currentIsBlack then .white else .black

/-- `last_drop` names the cell of the most recent stone since the board was empty. -/
def LastDrop (h : List (Entry Gomoku Event (Option (Nat × Nat)))) (g : Gomoku) : Prop :=
  (g.board = .empty → g.lastDrop = (-1, -1)) ∧
    (g.board ≠ .empty → ∃ c : Nat × Nat,
      Since (fun e => e.out = some c) (fun e => e.out = none ∧ e.act ≠ .clear) h ∧
        g.lastDrop = (↑c.2, ↑c.1) ∧ g.board.at c.1 c.2 = g.moved)

/-- From `g` to `g'` the stones of `g` stay, there are `n` more, and none when the game is
over. -/
structure Kept (g g' : Gomoku) (n : Nat) : Prop where
  stay : ∀ i j, g.board.at i j ≠ .none → g'.board.at i j = g.board.at i j
  more : g'.board.count .black + g'.board.count .white =
    g.board.count .black + g.board.count .white + n
  frozen : g.status ≠ .notEnd → g'.board = g.board ∧ g'.status = g.status

theorem Kept.refl (g : Gomoku) : Kept g g 0 := ⟨fun _ _ _ => rfl, rfl, fun _ => ⟨rfl, rfl⟩⟩

/-- A stone on an empty cell is one more of one colour. -/
theorem count_placed {g g' : Gomoku} {c : Nat × Nat} (hcell : c ∈ cells)
    (hfree : g.board.at c.1 c.2 = .none) (hboard : g'.board = g.board.put c.1 c.2 g.toMove) :
    g'.board.count .black = g.board.count .black + (if g.currentIsBlack then 1 else 0) ∧
      g'.board.count .white = g.board.count .white + (if g.currentIsBlack then 0 else 1) := by
  obtain ⟨hi, hj⟩ := mem_cells.mp hcell
  rw [hboard, toMove]
  cases g.currentIsBlack with
  | true =>
    exact ⟨Board.count_put_self hi hj hfree (by decide),
      Board.count_put_of_ne hi hj hfree (by decide) (by decide)⟩
  | false =>
    exact ⟨Board.count_put_of_ne hi hj hfree (by decide) (by decide),
      Board.count_put_self hi hj hfree (by decide)⟩

/-- One more call keeps the stones, and adds at most one. -/
theorem Kept.of_effect {g₁ g g' : Gomoku} {o : Option (Nat × Nat)} {n : Nat} (h : Kept g₁ g n)
    (heff : Effect g g' o) : Kept g₁ g' (n + if o.isSome then 1 else 0) := by
  cases heff with
  | quiet hboard _ _ hover =>
    refine ⟨?_, ?_, fun hended => ?_⟩
    · rw [hboard]
      exact h.stay
    · rw [hboard]
      exact h.more
    · obtain ⟨hsame, hstatus⟩ := h.frozen hended
      exact ⟨hboard.trans hsame, (hover (hstatus ▸ hended)).trans hstatus⟩
  | placed c hcell hopen hfree hboard _ _ =>
    obtain ⟨hblack, hwhite⟩ := count_placed hcell hfree hboard
    refine ⟨fun i j hne => ?_, ?_, fun hended => ?_⟩
    · have hold := h.stay i j hne
      have hother : (i, j) ≠ (c.1, c.2) := by
        rintro ⟨⟩
        exact hne (hold.symm.trans hfree)
      rw [hboard, Board.at_put_of_ne _ hother, hold]
    · have hmore := h.more
      rw [hblack, hwhite]
      cases g.currentIsBlack <;> simp <;> omega
    · exact absurd hopen ((h.frozen hended).2 ▸ hended)

/-- An effect keeps the balance: the colour to move gets the stone, and the turn passes. -/
theorem Effect.balanced {g g' : Gomoku} {o : Option (Nat × Nat)} (h : Balanced g)
    (heff : Effect g g' o) : Balanced g' := by
  cases heff with
  | quiet hboard hturn _ _ =>
    unfold Balanced
    rw [hboard, hturn]
    exact h
  | placed c hcell _ hfree hboard hturn _ =>
    obtain ⟨hblack, hwhite⟩ := count_placed hcell hfree hboard
    unfold Balanced at h ⊢
    rw [hblack, hwhite, hturn, h]
    cases g.currentIsBlack <;> simp

theorem balanced_empty {g : Gomoku} (hboard : g.board = .empty) (hturn : g.currentIsBlack = true) :
    Balanced g := by
  unfold Balanced
  rw [hboard, hturn, Board.count_empty (by decide), Board.count_empty (by decide)]
  rfl

/-- The colours are balanced after every run. -/
theorem balanced_of_run {h : List (Entry Gomoku Event (Option (Nat × Nat)))} {g : Gomoku}
    (hr : BoardRun h g) : Balanced g := by
  refine Run.invariant (balanced_empty rfl rfl) (fun s e o s' hinv _ hs => ?_) hr
  by_cases he : e = .clear
  · subst he
    cases hs
    exact balanced_empty rfl rfl
  · exact (step_effect hs he).balanced hinv

/-- What a run without `clear` does to the board. -/
theorem kept_of_run {h : List (Entry Gomoku Event (Option (Nat × Nat)))} {g₁ g : Gomoku}
    (hr : Run step (fun _ _ => True) g₁ h g) (hno : ∀ e ∈ h, e.act ≠ .clear) :
    Kept g₁ g (drops h) := by
  induction hr with
  | nil => exact .refl g₁
  | @snoc l s s' a b _ _ hs ih =>
    rw [List.forall_mem_append, List.forall_mem_singleton] at hno
    have hkept := (ih hno.1).of_effect (step_effect hs hno.2)
    unfold drops
    rwa [List.countP_append, List.countP_singleton]

theorem moved_ne_none (g : Gomoku) : g.moved ≠ .none := by
  unfold moved
  split <;> decide

/-- After every run `last_drop` is the cell of the latest stone. -/
theorem lastDrop_of_run {h : List (Entry Gomoku Event (Option (Nat × Nat)))} {g : Gomoku}
    (hr : BoardRun h g) : LastDrop h g := by
  induction hr with
  | nil => exact ⟨fun _ => rfl, fun hne => absurd rfl hne⟩
  | @snoc l s s' e o _ _ hs ih =>
    by_cases he : e = .clear
    · subst he
      cases hs
      exact ⟨fun _ => rfl, fun hne => absurd rfl hne⟩
    · cases step_effect hs he with
      | quiet hboard hturn hlast _ =>
        unfold LastDrop
        rw [hboard, hlast]
        refine ⟨ih.1, fun hne => ?_⟩
        obtain ⟨c, hsince, hpos, hat⟩ := ih.2 hne
        refine ⟨c, since_concat_iff.mpr (.inr ⟨⟨rfl, he⟩, hsince⟩), hpos, ?_⟩
        rw [hat, moved, moved, hturn]
      | placed c hcell _ _ hboard hturn hlast =>
        obtain ⟨hi, hj⟩ := mem_cells.mp hcell
        have hat : s'.board.at c.1 c.2 = s'.moved := by
          rw [hboard, Board.at_put_self _ hi hj, toMove, moved, hturn]
          cases s.currentIsBlack <;> rfl
        refine ⟨fun hempty => ?_, fun _ => ⟨c, since_concat_iff.mpr (.inl rfl), hlast, hat⟩⟩
        rw [hempty, Board.at_empty] at hat
        exact absurd hat.symm (moved_ne_none s')

/-- **The history of a board is well formed**, after every run, and since any moment of
it after which there was no `clear`. -/
theorem history_wellFormed {h : List (Entry Gomoku Event (Option (Nat × Nat)))} {g : Gomoku}
    (hr : BoardRun h g) :
    Balanced g ∧ LastDrop h g ∧
      ∀ h₁ h₂ g₁, h = h₁ ++ h₂ → BoardRun h₁ g₁ → (∀ e ∈ h₂, e.act ≠ .clear) →
        Kept g₁ g (drops h₂) := by
  refine ⟨balanced_of_run hr, lastDrop_of_run hr, ?_⟩
  rintro h₁ h₂ g₁ rfl hr₁ hno
  obtain ⟨g₁', hr₁', hr₂⟩ := hr.split
  obtain rfl := hr₁.unique hr₁'
  exact kept_of_run hr₂ hno

/-- Black plays in the corner, and white tries the same cell. The algorithm, to which every
board is worth the same, replies, and black plays again. -/
def opening : List Event :=
  [.enableAi true, .drop 0 0 true, .drop 0 0 false, .update (fun _ k => (0, k)) 0,
    .drop 6 8 true]

/-- The reply is the only white stone, and the stone in the corner stays. -/
theorem history_wellFormed_opening : ∃ h₁ h₂ g₁ g, BoardRun h₁ g₁ ∧ BoardRun (h₁ ++ h₂) g ∧
    (h₁ ++ h₂).map Entry.act = opening ∧ g.board.count .black = 2 ∧ g.board.count .white = 1 ∧
    LastDrop (h₁ ++ h₂) g ∧ Kept g₁ g (drops h₂) := by
  have hcounts : execTo step new opening (fun g => decide (g.board.count .black = 2) &&
      decide (g.board.count .white = 1)) = true := by decide +kernel
  obtain ⟨h, g, hr, hacts, hg⟩ := exists_run_of_execTo hcounts
  rw [Bool.and_eq_true, decide_eq_true_eq, decide_eq_true_eq] at hg
  -- the calls from the refused drop on, of which the reply is one
  obtain ⟨h₁, h₂, rfl, hrest⟩ : ∃ h₁ h₂, h = h₁ ++ h₂ ∧ h₂.map Entry.act = opening.drop 2 :=
    ⟨h.take 2, h.drop 2, (h.take_append_drop 2).symm, by rw [List.map_drop, hacts]⟩
  obtain ⟨g₁, hr₁, -⟩ := hr.split
  have hno : ∀ e ∈ h₂, e.act ≠ .clear := by
    intro e he hclear
    have hmem : Event.clear ∈ opening.drop 2 := hrest ▸ List.mem_map.mpr ⟨e, he, hclear⟩
    simp [opening] at hmem
  obtain ⟨-, hlast, hkept⟩ := history_wellFormed hr
  exact ⟨h₁, h₂, g₁, g, hr₁, hr, hacts, hg.1, hg.2, hlast, hkept h₁ h₂ g₁ rfl hr₁ hno⟩

end UnoppServer.Gomoku
