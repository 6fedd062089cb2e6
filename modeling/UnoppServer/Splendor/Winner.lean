import UnoppServer.Splendor.Allies

/-!
# Splendor: the winner

`check_winner` reports the first player in iteration order with more than 14
points. The room asks it after every operation, and the answer depends on the
iteration order unless no two players pass 14 points at the same time. They do
not: a call changes the reputation of nobody but a player who buys, since
`check_ally` credits nobody else (`reputation_effect`).
-/

namespace UnoppServer.Splendor

open FindIf Runs

namespace Game

/-- More than 14 points. -/
def hasWon (e : Int × Player) : Bool := decide (14 < e.2.reputation)

theorem checkWinner_eq_none {g : Game} :
    g.checkWinner = none ↔ ∀ e ∈ g.players, hasWon e = false := by
  show (findIf hasWon g.players).map _ = none ↔ _
  rw [Option.map_eq_none_iff, findIf_eq_none]

theorem checkWinner_eq_some {g : Game} {w : Int} (h : g.checkWinner = some w) :
    ∃ e ∈ g.players, hasWon e = true ∧ e.1 = w := by
  have h' : (findIf hasWon g.players).map (fun r => r.2.1) = some w := h
  obtain ⟨⟨i, e⟩, hfind, heq⟩ := Option.map_eq_some_iff.mp h'
  exact ⟨e, findIf_mem hfind, (findIf_eq_some hfind).2, heq⟩

/-- When one player's points alone can pass 14, every iteration order gives the
same answer. -/
theorem checkWinner_of_perm {g g' : Game} {w : Int} (hperm : g'.players.Perm g.players)
    (hone : ∀ e ∈ g.players, hasWon e = true → e.1 = w) (h : g.checkWinner = some w) :
    g'.checkWinner = some w := by
  obtain ⟨e, he, hwon, -⟩ := checkWinner_eq_some h
  cases h' : g'.checkWinner with
  | none =>
    have hno := checkWinner_eq_none.mp h' e (hperm.mem_iff.mpr he)
    rw [hwon] at hno
    cases hno
  | some w' =>
    obtain ⟨e', he', hwon', rfl⟩ := checkWinner_eq_some h'
    rw [hone e' (hperm.mem_iff.mp he') hwon']

/-- One player at most has won when all who have are one. -/
theorem countP_hasWon_le_one {g : Game} {w : Int} (hnd : g.ids.Nodup)
    (hone : ∀ e ∈ g.players, hasWon e = true → e.1 = w) : g.players.countP hasWon ≤ 1 :=
  calc g.players.countP hasWon
      ≤ g.players.countP (fun e => e.1 == w) :=
        List.countP_mono_left fun e he hwon => beq_iff_eq.mpr (hone e he hwon)
    _ = g.ids.count w := by
        rw [List.count, ids, List.countP_map]
        rfl
    _ ≤ 1 := List.nodup_iff_count_le_one.mp hnd w

/-- The same reputation under the same key. -/
def KeptIn (g : Game) (e : Int × Player) : Prop :=
  ∃ e₀ ∈ g.players, e₀.1 = e.1 ∧ e₀.2.reputation = e.2.reputation

theorem KeptIn.hasWon {g : Game} {e : Int × Player} (h : KeptIn g e) (hg : g.checkWinner = none) :
    hasWon e = false := by
  obtain ⟨e₀, he₀, -, hrep⟩ := h
  have hno := checkWinner_eq_none.mp hg e₀ he₀
  unfold Game.hasWon at hno ⊢
  rwa [← hrep]

theorem keptIn_of_ledger {g g' : Game} (h : g'.ledger = g.ledger) {e : Int × Player}
    (he : e ∈ g'.players) : KeptIn g e := by
  obtain ⟨e₀, he₀, hid, hs⟩ := exists_mem_of_ledger h he
  exact ⟨e₀, he₀, hid, (Prod.mk.inj (Prod.mk.inj hs).2).2.symm⟩

/-- **Step lemma**: a successful call changes nobody's reputation but that of a
player who buys. -/
theorem reputation_effect {g g' : Game} {op : Op} (h : Books g) (hs : Settled g)
    (he : Effect g op g') {e : Int × Player} (hmem : e ∈ g'.players) :
    KeptIn g e ∨ op.isPurchase = true ∧ e.1 = op.player := by
  cases hop : op.isPurchase with
  | false => exact .inl (keptIn_of_ledger (ledger_effect he hop).1 hmem)
  | true =>
    obtain ⟨g₁, rfl, hb⟩ := purchase_effect he hop
    obtain ⟨hbooks, hbut, it, p, hp⟩ := h.bought hs hb
    rcases mem_checkAlly hbooks.nodup hbut hp hmem with rfl | ⟨hmem, hne⟩
    · exact .inr ⟨rfl, rfl⟩
    · -- `check_ally` left this player alone, and so did the purchase
      obtain ⟨it, p, c, t, f, hp, -, -, hledger⟩ := hb.buyer
      obtain ⟨e₁, he₁, hid, hrep⟩ := keptIn_of_ledger hledger hmem
      rcases mem_modifyPlayer h.nodup hp he₁ with rfl | ⟨he₁, -⟩
      · exact absurd hid.symm hne
      · exact .inl ⟨e₁, he₁, hid, hrep⟩

/-- A call that gives the first winner is a purchase of the winner's. -/
theorem hasWon_step {g g' : Game} {op : Op} {b : Bool} (h : Books g) (hs : Settled g)
    (hg : g.checkWinner = none) (hstep : g.step op = .ok (b, g')) :
    ∀ e ∈ g'.players, hasWon e = true → b = true ∧ op.isPurchase = true ∧ e.1 = op.player := by
  intro e he hwon
  have hnot : ¬ KeptIn g e := by
    intro hkept
    rw [hkept.hasWon hg] at hwon
    cases hwon
  rcases step_cases hstep with ⟨rfl, rfl⟩ | ⟨rfl, heff⟩
  · exact absurd ⟨e, he, rfl, rfl⟩ hnot
  · exact ⟨rfl, (reputation_effect h hs heff he).resolve_left hnot⟩

/-- **One winner**: up to and including the first operation that gives one, at
most one player has more than 14 points, and it is the one who made the last
purchase, for every iteration order of the players. -/
theorem winner_unique (ids : List Int) (draw : Nat → Nat) (rank : Int → Nat)
    {h : List (Entry Game Op Bool)} {g : Game}
    (hr : Run Game.step (fun s _ => s.checkWinner = none) (new ids draw rank) h g) :
    g.players.countP (fun e => decide (14 < e.2.reputation)) ≤ 1 ∧
    ∀ w, g.checkWinner = some w →
      (∃ h' e, h = h' ++ [e] ∧ e.out = true ∧ e.act.isPurchase = true ∧ e.act.player = w) ∧
      ∀ players, players.Perm g.players → { g with players := players }.checkWinner = some w := by
  obtain ⟨hbooks, -, -⟩ := run_books hr
  cases hr with
  | nil =>
    have hno : ∀ e ∈ (new ids draw rank).players, hasWon e = false := by
      intro e he
      have hrep : e.2.reputation = 0 := (Prod.mk.inj (Prod.mk.inj (standing_new he)).2).2
      unfold hasWon
      rw [hrep]
      rfl
    constructor
    · refine countP_hasWon_le_one (w := 0) hbooks.nodup fun e he hwe => ?_
      rw [hno e he] at hwe
      cases hwe
    · intro w hw
      rw [checkWinner_eq_none.mpr hno] at hw
      cases hw
  | @snoc l g₀ g op b hl hok hstep =>
    obtain ⟨hbooks₀, hs₀, -⟩ := run_books hl
    have hwon := hasWon_step hbooks₀ hs₀ hok hstep
    have hone : ∀ e ∈ g.players, hasWon e = true → e.1 = op.player :=
      fun e he hw => (hwon e he hw).2.2
    refine ⟨countP_hasWon_le_one hbooks.nodup hone, ?_⟩
    intro w hw
    obtain ⟨e, he, hwe, rfl⟩ := checkWinner_eq_some hw
    obtain ⟨hout, hbuys, hbuyer⟩ := hwon e he hwe
    refine ⟨⟨l, _, rfl, hout, hbuys, hbuyer.symm⟩, ?_⟩
    intro players hperm
    exact checkWinner_of_perm hperm (fun e' he' hw' => (hone e' he' hw').trans hbuyer.symm) hw

/-- Player 1 wins, alone. -/
theorem winner_unique_two : ∃ h g,
    Run Game.step (fun s _ => s.checkWinner = none) (new [1, 2] (fun _ => 0) Int.toNat) h g ∧
      h.map Entry.act = winningGame ∧
      g.players.countP (fun e => decide (14 < e.2.reputation)) ≤ 1 ∧ g.checkWinner = some 1 := by
  have hcheck : ((execIf Game.step (fun s _ => s.checkWinner = none)
      (new [1, 2] (fun _ => 0) Int.toNat) winningGame).bind checkWinner) = some 1 := by
    decide +kernel
  obtain ⟨g, hg, hwinner⟩ := Option.bind_eq_some_iff.mp hcheck
  obtain ⟨h, hr, hacts⟩ := run_of_execIf .nil hg
  exact ⟨h, g, hr, hacts, (winner_unique [1, 2] (fun _ => 0) Int.toNat hr).1, hwinner⟩

end Game

end UnoppServer.Splendor
