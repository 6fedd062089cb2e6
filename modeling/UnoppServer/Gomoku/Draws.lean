import UnoppServer.Gomoku.Five
import UnoppServer.Gomoku.History

/-!
# Gomoku: full boards

`update` sets the status only where it finds five in a row (`told_of_run`), and so it
says nothing about a full board without a five (`update_full`): `TIED` is never set.
Such boards do occur: `stripes` shades the cells so that no five fits in, and
`exec_plays` plays any list of moves of alternating shades.
-/

namespace UnoppServer.Gomoku

open Runs

/-- All cells are occupied. -/
def Full (b : Board) : Prop := ∀ c ∈ cells, b.at c.1 c.2 ≠ .none

instance (b : Board) : Decidable (Full b) := inferInstanceAs (Decidable (∀ c ∈ cells, _))

/-- Neither colour has five in a row. -/
def NoFive (b : Board) : Prop := ∀ p, p ≠ .none → ¬ HasFive b p

/-- The status is `NOT_END`, or a colour has won with the five that it has. -/
def Told (g : Gomoku) : Prop :=
  g.status = .notEnd ∨ ∃ p, p ≠ .none ∧ g.status = wins p ∧ HasFive g.board p

@[simp] theorem aiDrop_status (g : Gomoku) (eval : Evaluator) (k : Nat) :
    (InPlace.aiDrop g eval k).status = g.status := by
  show ((InPlace.think g eval k).drop _ _ false).2.status = g.status
  rw [drop_status]
  exact (sameStones_think g eval k).status

/-- `update` sets the status to what the loops find. -/
theorem update_status_eq {g : Gomoku} (hs : g.status = .notEnd) (eval : Evaluator) (k : Nat) :
    (InPlace.update g eval k).status = g.scan := by
  unfold InPlace.update
  rw [if_neg (not_not.mpr hs)]
  dsimp only
  split
  · exact aiDrop_status _ eval k
  · rfl

/-- The stones that were there are there after `update`. -/
theorem update_stay (g : Gomoku) (eval : Evaluator) (k : Nat) :
    ∀ i j, g.board.at i j ≠ .none → (InPlace.update g eval k).board.at i j = g.board.at i j :=
  ((Kept.refl g).of_effect (update_effect g eval k)).stay

theorem Told.drop {g : Gomoku} (h : Told g) (i j : Int) (isBlack : Bool) :
    Told (g.drop i j isBlack).2 := by
  by_cases hcan : g.canDrop i j isBlack = true
  · obtain ⟨-, -, -, -, hopen⟩ := canDrop_iff.mp hcan
    exact .inl ((drop_status g i j isBlack).trans hopen)
  · have hsame : (g.drop i j isBlack).2 = g := by simp [Gomoku.drop, hcan]
    rwa [hsame]

/-- What the players have been told stays true when `update` has looked at the board. -/
theorem Told.update {g : Gomoku} (h : Told g) (eval : Evaluator) (k : Nat) :
    Told (InPlace.update g eval k) := by
  by_cases hs : g.status = .notEnd
  · rcases marks_scan g with ⟨p, ⟨hp, hfive⟩, hscan⟩ | ⟨-, hscan⟩
    · exact .inr ⟨p, hp, (update_status_eq hs eval k).trans hscan,
        hfive.mono hp (update_stay g eval k)⟩
    · exact .inl ((update_status_eq hs eval k).trans (hscan.trans hs))
  · have hsame : InPlace.update g eval k = g := if_pos hs
    rwa [hsame]

/-- In every run the status is `NOT_END` or tells of a five. -/
theorem told_of_run {h : List (Entry Gomoku Event (Option (Nat × Nat)))} {g : Gomoku}
    (hr : BoardRun h g) : Told g := by
  refine Run.invariant (.inl rfl) (fun s e o s' hinv _ hs => ?_) hr
  cases e <;> cases hs
  case drop i j isBlack => exact hinv.drop i j isBlack
  case update eval k => exact hinv.update eval k
  case enableAi enable => exact hinv
  case clear => exact .inl rfl

theorem Told.notEnd {g : Gomoku} (h : Told g) (hno : NoFive g.board) : g.status = .notEnd := by
  rcases h with hs | ⟨p, hp, -, hfive⟩
  · exact hs
  · exact absurd hfive (hno p hp)

/-- The scan leaves a game open when there is no five. -/
theorem scan_eq_notEnd_iff {g : Gomoku} (hs : g.status = .notEnd) :
    g.scan = .notEnd ↔ NoFive g.board := by
  constructor
  · intro hscan p hp hfive
    rcases marks_scan g with ⟨q, -, hq⟩ | ⟨hempty, -⟩
    · exact wins_ne_notEnd q (hq.symm.trans hscan)
    · have hmem : p ∈ {p | p ≠ .none ∧ HasFive g.board p} := ⟨hp, hfive⟩
      rw [hempty] at hmem
      exact hmem
  · intro hno
    rw [scan_eq_self hno, hs]

/-- What `update` does without the algorithm. -/
def judged (g : Gomoku) : Gomoku :=
  { g with status := if g.status = .notEnd then g.scan else g.status }

theorem judged_of_ne {g : Gomoku} (hs : g.status ≠ .notEnd) : g.judged = g := by
  unfold judged
  rw [if_neg hs]

theorem judged_status {g : Gomoku} (hs : g.status = .notEnd) : g.judged.status = g.scan :=
  if_pos hs

/-- Without the algorithm, `update` only sets the status. -/
theorem update_eq_judged {g : Gomoku} (hai : g.useAi = false) (eval : Evaluator) (k : Nat) :
    g.update eval k = g.judged := by
  by_cases hs : g.status = .notEnd
  · have hask : ¬ (g.scan = .notEnd ∧ g.currentIsBlack = false ∧ g.useAi = true) := by
      rw [hai]
      exact fun h => absurd h.2.2 Bool.false_ne_true
    have hupdate : g.update eval k = { g with status := g.scan } :=
      (if_neg (not_not.mpr hs)).trans (if_neg hask)
    rw [hupdate, judged, if_pos hs]
  · have hupdate : g.update eval k = g := if_pos hs
    rw [hupdate, judged_of_ne hs]

/-- A second `update` finds nothing new. -/
theorem judged_judged (g : Gomoku) : g.judged.judged = g.judged := by
  by_cases hs : g.judged.status = .notEnd
  · by_cases hopen : g.status = .notEnd
    · have hsame : g.judged = g := by
        rw [judged_status hopen] at hs
        unfold judged
        rw [if_pos hopen, hs, ← hopen]
      rw [hsame, hsame]
    · rw [judged_of_ne hopen, judged_of_ne hopen]
  · exact judged_of_ne hs

/-- A full board without a five stays as it is, and the game goes on. -/
theorem update_full {g : Gomoku} (hs : g.status = .notEnd) (hfull : Full g.board)
    (hno : NoFive g.board) (eval : Evaluator) (k : Nat) :
    (InPlace.update g eval k).status = .notEnd ∧
      (InPlace.update g eval k).board = g.board := by
  refine ⟨?_, ?_⟩
  · rw [update_status_eq hs, scan_eq_self hno, hs]
  · refine Board.ext_at fun c hc => ?_
    exact update_stay g eval k c.1 c.2 (hfull c hc)

/-! ## A board that fills up without a five -/

/-- Shades of which no two that are two steps apart in any direction are the same. -/
def stripes (i j : Nat) : Piece := if (i + 2 * j) % 4 < 2 then .black else .white

/-- The stones on the board have their shades. -/
def Striped (b : Board) : Prop := ∀ i j, b.at i j ≠ .none → b.at i j = stripes i j

theorem stripes_ne {i j i' j' : Nat} (h : (i + 2 * j) % 4 = (i' + 2 * j' + 2) % 4) :
    stripes i j ≠ stripes i' j' := by
  unfold stripes
  split <;> split <;> first | decide | omega

/-- A striped board has no five in any direction. -/
theorem Striped.noFive {b : Board} (h : Striped b) : NoFive b := by
  rintro p hp ⟨⟨i, j⟩, -, d, hd, hfive⟩
  have hshade (k : Nat) (hk : k < 5) :
      stripes (i + d.1 * k).toNat (j + d.2 * k).toNat = p := by
    have hat := (hfive k hk).2
    exact (h _ _ (hat ▸ hp)).symm.trans hat
  have hdiffer {k : Nat} (hk : k < 5)
      (hne : ((i + d.1 * k).toNat + 2 * (j + d.2 * k).toNat) % 4 = (i + 2 * j + 2) % 4) :
      False := by
    refine stripes_ne hne ?_
    rw [hshade k hk, ← hshade 0 (by omega)]
    simp
  obtain ⟨h1, -⟩ := hfive 1 (by omega)
  obtain ⟨h2, -⟩ := hfive 2 (by omega)
  simp only [directions, List.mem_cons, List.not_mem_nil, or_false] at hd
  rcases hd with rfl | rfl | rfl | rfl
  · exact hdiffer (k := 1) (by omega) (by dsimp only at h1 ⊢; omega)
  · exact hdiffer (k := 2) (by omega) (by dsimp only at h2 ⊢; omega)
  · exact hdiffer (k := 2) (by omega) (by dsimp only at h2 ⊢; omega)
  · exact hdiffer (k := 2) (by omega) (by dsimp only at h2 ⊢; omega)

theorem noFive_empty : NoFive .empty := by
  intro p hp hfive
  obtain ⟨c, -, hat⟩ := hfive.exists_at
  exact hp (hat.symm.trans (Board.at_empty c.1 c.2))

/-- Two players take turns on the cells, and each drop is followed by an `update`. -/
def plays : Bool → List (Nat × Nat) → List Event
  | _, [] => []
  | isBlack, c :: rest =>
    .drop c.1 c.2 isBlack :: .update (fun _ k => (0, k)) 0 :: plays (!isBlack) rest

/-- The cells have the shades of the players. -/
def Alternates : Bool → List (Nat × Nat) → Prop
  | _, [] => True
  | isBlack, c :: rest =>
    stripes c.1 c.2 = (if isBlack then .black else .white) ∧ Alternates (!isBlack) rest

/-- A game between two players that is going on. -/
structure Open (g : Gomoku) : Prop where
  status : g.status = .notEnd
  useAi : g.useAi = false
  thinking : g.isAiThinking = false
  striped : Striped g.board

/-- Without a five and without the algorithm, `update` does nothing. -/
theorem Open.update_eq {g : Gomoku} (h : Open g) (eval : Evaluator) (k : Nat) :
    InPlace.update g eval k = g := by
  have hscan : g.scan = g.status := scan_eq_self h.striped.noFive
  have hai : ¬ (g.scan = .notEnd ∧ g.currentIsBlack = false ∧ g.useAi = true) := by
    rw [h.useAi]
    exact fun hask => absurd hask.2.2 Bool.false_ne_true
  have hupdate : InPlace.update g eval k = { g with status := g.scan } :=
    (if_neg (not_not.mpr h.status)).trans (if_neg hai)
  rw [hupdate, hscan]

/-- One turn puts one stone. -/
theorem Open.turn {g : Gomoku} (h : Open g) {c : Nat × Nat} (hc : c ∈ cells)
    (hfree : g.board.at c.1 c.2 = .none)
    (hshade : stripes c.1 c.2 = if g.currentIsBlack then .black else .white) :
    ∃ g', exec step g [.drop c.1 c.2 g.currentIsBlack, .update (fun _ k => (0, k)) 0] = .ok g' ∧
      Open g' ∧ g'.currentIsBlack = !g.currentIsBlack ∧
      g'.board = g.board.put c.1 c.2 (stripes c.1 c.2) := by
  obtain ⟨hi, hj⟩ := mem_cells.mp hc
  have hcan : g.canDrop c.1 c.2 g.currentIsBlack = true := by
    refine canDrop_iff.mpr ⟨by rw [h.thinking, Bool.and_false], rfl, by omega, hfree, h.status⟩
  have hdrop : (g.drop c.1 c.2 g.currentIsBlack).2 = { g with
      board := g.board.put c.1 c.2 (stripes c.1 c.2)
      currentIsBlack := !g.currentIsBlack
      lastDrop := (↑c.2, ↑c.1) } := by
    rw [Gomoku.drop, if_pos hcan, hshade]
    rfl
  have hopen : Open (g.drop c.1 c.2 g.currentIsBlack).2 := by
    rw [hdrop]
    refine ⟨h.status, h.useAi, h.thinking, fun i j hne => ?_⟩
    dsimp only at hne ⊢
    rw [Board.at_put _ hi hj] at hne ⊢
    split
    case isTrue heq =>
      obtain ⟨rfl, rfl⟩ := Prod.mk.inj heq
      rfl
    case isFalse hother =>
      rw [if_neg hother] at hne
      exact h.striped i j hne
  refine ⟨_, rfl, ?_, ?_⟩
  · rwa [hopen.update_eq]
  · rw [hopen.update_eq, hdrop]
    exact ⟨rfl, rfl⟩

/-- Any cells in the shades of the players can be filled, one after the other. -/
theorem exec_plays {l : List (Nat × Nat)} {g : Gomoku} (h : Open g) (hl : l.Nodup)
    (hcells : ∀ c ∈ l, c ∈ cells ∧ g.board.at c.1 c.2 = .none)
    (halt : Alternates g.currentIsBlack l) :
    ∃ g', exec step g (plays g.currentIsBlack l) = .ok g' ∧ Open g' ∧
      ∀ c, g.board.at c.1 c.2 ≠ .none ∨ c ∈ l → g'.board.at c.1 c.2 ≠ .none := by
  induction l generalizing g with
  | nil => exact ⟨g, rfl, h, fun c hc => hc.resolve_right List.not_mem_nil⟩
  | cons c rest ih =>
    obtain ⟨hnot, hrest⟩ := List.nodup_cons.mp hl
    obtain ⟨hc, hfree⟩ := hcells c List.mem_cons_self
    obtain ⟨hi, hj⟩ := mem_cells.mp hc
    obtain ⟨g₁, hexec, hopen, hturn, hboard⟩ := h.turn hc hfree halt.1
    have hfree₁ : ∀ x ∈ rest, x ∈ cells ∧ g₁.board.at x.1 x.2 = .none := by
      intro x hx
      have hne : (x.1, x.2) ≠ (c.1, c.2) := fun he => hnot ((show x = c from he) ▸ hx)
      rw [hboard, Board.at_put_of_ne _ hne]
      exact hcells x (List.mem_cons_of_mem c hx)
    obtain ⟨g', hexec', hopen', hfilled⟩ := ih hopen hrest hfree₁ (hturn ▸ halt.2)
    refine ⟨g', ?_, hopen', fun x hx => hfilled x ?_⟩
    · rw [hturn] at hexec'
      show exec step g ([.drop c.1 c.2 g.currentIsBlack, .update (fun _ k => (0, k)) 0] ++
        plays (!g.currentIsBlack) rest) = .ok g'
      rw [exec_append, hexec]
      exact hexec'
    · rw [hboard, Board.at_put _ hi hj]
      by_cases hxc : (x.1, x.2) = (c.1, c.2)
      · rw [if_pos hxc]
        refine .inl ?_
        unfold stripes
        split <;> decide
      · rw [if_neg hxc]
        rcases hx with hx | hx
        · exact .inl hx
        · exact .inr ((List.mem_cons.mp hx).resolve_left hxc)

/-- All cells, in the shades of the players: there is one more of black. -/
def turns : List (Nat × Nat) :=
  let blacks := cells.filter fun c => decide (stripes c.1 c.2 = .black)
  let whites := cells.filter fun c => decide (stripes c.1 c.2 = .white)
  ((blacks.zip whites).flatMap fun p => [p.1, p.2]) ++ blacks.drop 112

instance decidableAlternates :
    (isBlack : Bool) → (l : List (Nat × Nat)) → Decidable (Alternates isBlack l)
  | _, [] => .isTrue trivial
  | isBlack, _ :: rest =>
    have := decidableAlternates (!isBlack) rest
    inferInstanceAs (Decidable (_ ∧ Alternates (!isBlack) rest))

/-- A game of 225 turns fills the board, and neither colour has five in a row. -/
theorem exists_full : ∃ h g, BoardRun h g ∧ h.map Entry.act = plays true turns ∧
    Full g.board ∧ NoFive g.board := by
  have hopen : Open new := ⟨rfl, rfl, rfl, fun i j hne => absurd (Board.at_empty i j) hne⟩
  have hperm : turns.Perm cells := by decide +kernel
  have halt : Alternates true turns := by decide +kernel
  obtain ⟨g, hexec, hopen', hfilled⟩ := exec_plays hopen
    (hperm.nodup_iff.mpr nodup_cells) (fun c hc => ⟨hperm.mem_iff.mp hc, Board.at_empty c.1 c.2⟩)
    halt
  obtain ⟨h, hr, hacts⟩ := exists_run_of_exec (fun _ _ _ => trivial) hexec
  refine ⟨h, g, hr, hacts, fun c hc => ?_, hopen'.striped.noFive⟩
  exact hfilled c (.inr (hperm.mem_iff.mpr hc))

end UnoppServer.Gomoku
