import UnoppServer.Splendor.Cards

/-!
# Splendor: the mines

Mines move between the bank and the players. `MinesInv` says that none is lost
or made, and that nobody owes any. The taking and returning of mines and the
gold of a reservation are plain; the purchase is not: the payment loop drives a
player's count below zero and makes up for it in gold, and only the running
budget of `check_affordabillity` keeps the gold from going below zero as well.

- `Moves`: what an exchange between one player and the bank preserves;
- `payMine_spec`, `pay_moves`: the payment loop, against the affordability loop;
- `MinesInv.effect`: the step lemma;
- `mines_conserved`: the invariant over all sequences of calls.
-/

namespace UnoppServer.Splendor

open FindIf Runs

namespace Game

/-! ## Exchanges -/

/-- An exchange of mines between a player and the bank: nothing is lost, and
nobody owes any afterwards. -/
structure Moves (s s' : Vector Int 6 × Vector Int 6) : Prop where
  total : ∀ m : Fin 6, s'.1.get m + s'.2.get m = s.1.get m + s.2.get m
  held : ∀ m : Fin 6, 0 ≤ s'.1.get m
  bank : ∀ m : Fin 6, 0 ≤ s'.2.get m

/-- The mines of a kind that a coupon still costs a player. -/
def due (c : Coupon) (couponCount : Vector Int 5) (mine : Fin 5) : Int :=
  max 0 (c.costs.get mine - couponCount.get mine)

/-- The gold a player who holds `v` adds for one kind of mine. -/
def short (c : Coupon) (couponCount : Vector Int 5) (v : Vector Int 6) (mine : Fin 5) : Int :=
  max 0 (due c couponCount mine - v.get mine.castSucc)

theorem castSucc_ne_gold (mine : Fin 5) : mine.castSucc ≠ goldIdx := Fin.castSucc_ne_last mine

/-- What one round of the payment loop takes from the player's `k`-th count. -/
def charge (c : Coupon) (couponCount : Vector Int 5) (v : Vector Int 6) (mine : Fin 5)
    (k : Fin 6) : Int :=
  if k = mine.castSucc then due c couponCount mine - short c couponCount v mine
  else if k = goldIdx then short c couponCount v mine
  else 0

/-- **The round of the payment loop**: the player pays `charge`, the bank
receives it. -/
theorem payMine_spec (c : Coupon) (couponCount : Vector Int 5) {v : Vector Int 6}
    (b : Vector Int 6) (mine : Fin 5) (hv : 0 ≤ v.get mine.castSucc) (k : Fin 6) :
    (payMine c couponCount (v, b) mine).1.get k = v.get k - charge c couponCount v mine k ∧
      (payMine c couponCount (v, b) mine).2.get k = b.get k + charge c couponCount v mine k := by
  have hne := castSucc_ne_gold mine
  unfold charge short due payMine
  simp only
  -- the coupons cover the cost, the mines do, or gold makes up for the rest
  by_cases hcost : 0 < c.costs.get mine - couponCount.get mine
  · simp only [if_pos hcost]
    by_cases hdef : (bump v mine.castSucc
        (-(c.costs.get mine - couponCount.get mine))).get mine.castSucc < 0
    · simp only [if_pos hdef]
      simp only [get_bump, get_setAt, if_true] at hdef ⊢
      by_cases hk : k = mine.castSucc
      · subst hk
        simp only [if_true, if_neg hne]
        omega
      · by_cases hk5 : k = goldIdx
        · subst hk5
          simp only [if_true, if_neg hk]
          omega
        · simp only [if_neg hk, if_neg hk5]
          omega
    · simp only [if_neg hdef]
      simp only [get_bump, if_true] at hdef ⊢
      by_cases hk : k = mine.castSucc
      · subst hk
        simp only [if_true]
        omega
      · simp only [if_neg hk]
        split <;> omega
  · simp only [if_neg hcost]
    split
    · omega
    · split <;> omega

theorem Moves.refl {s : Vector Int 6 × Vector Int 6} (hv : ∀ m : Fin 6, 0 ≤ s.1.get m)
    (hb : ∀ m : Fin 6, 0 ≤ s.2.get m) : Moves s s :=
  ⟨fun _ => rfl, hv, hb⟩

theorem Moves.trans {s s' s'' : Vector Int 6 × Vector Int 6} (h : Moves s s')
    (h' : Moves s' s'') : Moves s s'' :=
  ⟨fun m => (h'.total m).trans (h.total m), h'.held, h'.bank⟩

theorem charge_nonneg (c : Coupon) (couponCount : Vector Int 5) {v : Vector Int 6} {mine : Fin 5}
    (hv : 0 ≤ v.get mine.castSucc) (k : Fin 6) : 0 ≤ charge c couponCount v mine k := by
  unfold charge short due
  split
  · omega
  · split <;> omega

/-- The player has what is charged, when the gold covers it. -/
theorem charge_le {c : Coupon} {couponCount : Vector Int 5} {v : Vector Int 6} {mine : Fin 5}
    (hv : ∀ m : Fin 6, 0 ≤ v.get m) (hgold : short c couponCount v mine ≤ v.get goldIdx)
    (k : Fin 6) : charge c couponCount v mine k ≤ v.get k := by
  unfold charge
  by_cases hk : k = mine.castSucc
  · have hvk := hv k
    subst hk
    rw [if_pos rfl]
    unfold short due
    omega
  · rw [if_neg hk]
    by_cases hk5 : k = goldIdx
    · subst hk5
      rw [if_pos rfl]
      exact hgold
    · rw [if_neg hk5]
      exact hv k

/-- A round of the payment loop, when the gold covers it. -/
theorem payMine_moves {c : Coupon} {couponCount : Vector Int 5} {v b : Vector Int 6}
    {mine : Fin 5} (hv : ∀ m : Fin 6, 0 ≤ v.get m) (hb : ∀ m : Fin 6, 0 ≤ b.get m)
    (hgold : short c couponCount v mine ≤ v.get goldIdx) :
    Moves (v, b) (payMine c couponCount (v, b) mine) := by
  have hspec := payMine_spec c couponCount b mine (hv mine.castSucc)
  constructor
  case total =>
    intro m
    obtain ⟨h₁, h₂⟩ := hspec m
    rw [h₁, h₂]
    exact sub_add_add_cancel ..
  case held =>
    intro m
    rw [(hspec m).1]
    have := charge_le hv hgold m
    omega
  case bank =>
    intro m
    rw [(hspec m).2]
    have := charge_nonneg c couponCount (hv mine.castSucc) m
    have := hb m
    omega

/-- **The payment loop against the affordability loop**: the budget of gold
that `affordLoop` has left when it reaches a kind of mine is the gold the player
has left when `payMine` does, so the gold covers every round. -/
theorem foldl_payMine_moves {p : Player} {c : Coupon} {mines : List (Fin 5)}
    {v b : Vector Int 6} (hnd : mines.Nodup)
    (heq : ∀ m ∈ mines, v.get m.castSucc = p.mineCount.get m.castSucc)
    (hv : ∀ m : Fin 6, 0 ≤ v.get m) (hb : ∀ m : Fin 6, 0 ≤ b.get m)
    (hafford : affordLoop p c mines (v.get goldIdx) = true) :
    Moves (v, b) (mines.foldl (payMine c p.couponCount) (v, b)) := by
  induction mines generalizing v b with
  | nil => exact .refl hv hb
  | cons mine mines ih =>
    obtain ⟨hmine, hnd⟩ := List.nodup_cons.mp hnd
    have hm := heq mine List.mem_cons_self
    have hvm := hv mine.castSucc
    have hv5 := hv goldIdx
    unfold affordLoop at hafford
    rw [← hm] at hafford
    by_cases hlt : v.get mine.castSucc + p.couponCount.get mine + v.get goldIdx < c.costs.get mine
    · rw [if_pos hlt] at hafford
      cases hafford
    · rw [if_neg hlt] at hafford
      have hshort : short c p.couponCount v mine =
          if 0 < c.costs.get mine - v.get mine.castSucc - p.couponCount.get mine then
            c.costs.get mine - v.get mine.castSucc - p.couponCount.get mine else 0 := by
        unfold short due
        split <;> omega
      have hgold : short c p.couponCount v mine ≤ v.get goldIdx := by
        rw [hshort]
        split <;> omega
      have hmove := payMine_moves hv hb hgold
      have hspec := payMine_spec c p.couponCount b mine hvm
      rw [List.foldl_cons]
      generalize payMine c p.couponCount (v, b) mine = s at hmove hspec
      obtain ⟨v', b'⟩ := s
      refine hmove.trans (ih hnd (fun m hmem => ?_) hmove.held hmove.bank ?_)
      · -- the other kinds have not been charged yet
        have hne : ¬ m.castSucc = mine.castSucc := fun h => hmine (Fin.castSucc_inj.mp h ▸ hmem)
        rw [(hspec m.castSucc).1, charge, if_neg hne, if_neg (castSucc_ne_gold m), sub_zero]
        exact heq m (List.mem_cons_of_mem _ hmem)
      · -- and the gold that is left is the budget of the other loop
        rw [(hspec goldIdx).1, charge, if_neg (castSucc_ne_gold mine).symm, if_pos rfl, hshort]
        exact hafford

/-- A purchase that passes `check_affordabillity` is an exchange. -/
theorem pay_moves {p : Player} {c : Coupon} {bank : Vector Int 6}
    (hv : ∀ m : Fin 6, 0 ≤ p.mineCount.get m) (hb : ∀ m : Fin 6, 0 ≤ bank.get m)
    (hafford : checkAffordabillity p c = true) :
    Moves (p.mineCount, bank) (pay p c bank) :=
  foldl_payMine_moves (by decide) (fun _ _ => rfl) hv hb hafford

/-- Moving `d` mines of one kind from the bank to the player. -/
theorem Moves.bump {v b : Vector Int 6} {k : Fin 6} {d : Int} (hv : ∀ m : Fin 6, 0 ≤ v.get m)
    (hb : ∀ m : Fin 6, 0 ≤ b.get m) (hvk : 0 ≤ v.get k + d) (hbk : 0 ≤ b.get k + -d) :
    Moves (v, b) (bump v k d, bump b k (-d)) := by
  constructor
  case total =>
    intro m
    simp only [get_bump]
    split <;> omega
  case held =>
    intro m
    have hvm := hv m
    show 0 ≤ (UnoppServer.bump v k d).get m
    rw [get_bump]
    by_cases hm : m = k
    · rwa [if_pos hm, hm]
    · rwa [if_neg hm, add_zero]
  case bank =>
    intro m
    have hbm := hb m
    show 0 ≤ (UnoppServer.bump b k (-d)).get m
    rw [get_bump]
    by_cases hm : m = k
    · rwa [if_pos hm, hm]
    · rwa [if_neg hm, add_zero]

/-- The exchange of `take_3_mines`. -/
theorem take3_moves {v b : Vector Int 6} {k₀ k₁ k₂ : Fin 6} (hv : ∀ m : Fin 6, 0 ≤ v.get m)
    (hb : ∀ m : Fin 6, 0 ≤ b.get m) (hd : k₀ ≠ k₁ ∧ k₁ ≠ k₂ ∧ k₂ ≠ k₀)
    (hstock : b.get k₀ ≠ 0 ∧ b.get k₁ ≠ 0 ∧ b.get k₂ ≠ 0) :
    Moves (v, b) (bump (bump (bump v k₀ 1) k₁ 1) k₂ 1,
      bump (bump (bump b k₀ (-1)) k₁ (-1)) k₂ (-1)) := by
  obtain ⟨h₀₁, h₁₂, h₂₀⟩ := hd
  obtain ⟨h₀, h₁, h₂⟩ := hstock
  have hb₀ := hb k₀
  have hb₁ := hb k₁
  have hb₂ := hb k₂
  have hm₀ : Moves (v, b) (bump v k₀ 1, bump b k₀ (-1)) :=
    .bump hv hb (by have := hv k₀; omega) (by omega)
  have hm₁ : Moves (bump v k₀ 1, bump b k₀ (-1))
      (bump (bump v k₀ 1) k₁ 1, bump (bump b k₀ (-1)) k₁ (-1)) := by
    refine .bump hm₀.held hm₀.bank ?_ ?_
    · have := hm₀.held k₁
      simp only at this
      omega
    · simp only [get_bump, if_neg h₀₁.symm]
      omega
  refine hm₀.trans (hm₁.trans (.bump hm₁.held hm₁.bank ?_ ?_))
  · have := hm₁.held k₂
    simp only at this
    omega
  · simp only [get_bump, if_neg h₁₂.symm, if_neg h₂₀]
    omega

/-! ## The invariant -/

/-- The invariant of the mines of a game whose bank held `bank₀` at first. -/
structure MinesInv (bank₀ : Vector Int 6) (g : Game) : Prop where
  total : ∀ m : Fin 6,
    g.bank.get m + ((g.view Player.mineCount).map fun v => v.get m).sum = bank₀.get m
  bank : ∀ m : Fin 6, 0 ≤ g.bank.get m
  held : ∀ v ∈ g.view Player.mineCount, ∀ m : Fin 6, 0 ≤ v.get m

theorem MinesInv.congr {bank₀ : Vector Int 6} {g g' : Game} (h : MinesInv bank₀ g)
    (hb : g'.bank = g.bank) (hv : g'.view Player.mineCount = g.view Player.mineCount) :
    MinesInv bank₀ g' := by
  constructor
  case total => rw [hb, hv]; exact h.total
  case bank => rw [hb]; exact h.bank
  case held => rw [hv]; exact h.held

/-- An exchange between the bank and the player at a position. -/
theorem MinesInv.exchange {bank₀ : Vector Int 6} {g g' : Game} {it : Nat} {id : Int} {p : Player}
    {s : Vector Int 6 × Vector Int 6} (h : MinesInv bank₀ g) (hp : g.At it id p)
    (hm : Moves (p.mineCount, g.bank) s) (hb : g'.bank = s.2)
    (hv : g'.view Player.mineCount =
      (g.modifyPlayer it fun q => { q with mineCount := s.1 }).view Player.mineCount) :
    MinesInv bank₀ g' := by
  constructor
  case total =>
    intro m
    have hsum := sum_map_modify (f := fun e : Int × Player => e.2.mineCount.get m)
      (g := fun e => (e.1, { e.2 with mineCount := s.1 })) hp
    have htotal := h.total m
    have hmove := hm.total m
    rw [hb, hv]
    simp only [view, Game.modifyPlayer, List.map_map, Function.comp_def] at htotal hsum hmove ⊢
    omega
  case bank => rw [hb]; exact hm.bank
  case held =>
    intro v hmem m
    rw [hv] at hmem
    rcases mem_view_modify hp hmem with hmem | rfl
    · exact h.held v hmem m
    · exact hm.held m

theorem MinesInv.held_at {bank₀ : Vector Int 6} {g : Game} {it : Nat} {id : Int} {p : Player}
    (h : MinesInv bank₀ g) (hp : g.At it id p) (m : Fin 6) : 0 ≤ p.mineCount.get m :=
  h.held _ (List.mem_map.mpr ⟨_, hp.mem, rfl⟩) m

/-- **Step lemma**: every successful call exchanges mines with the bank. -/
theorem MinesInv.effect {bank₀ : Vector Int 6} {g g' : Game} {op : Op} (h : MinesInv bank₀ g)
    (he : Effect g op g') : MinesInv bank₀ g' := by
  have hstatus : ∀ (p : Player) (s : Status),
      Player.mineCount { p with status := s } = p.mineCount := fun _ _ => rfl
  have hrep : ∀ (p : Player) (r : Int),
      Player.mineCount { p with reputation := r } = p.mineCount := fun _ _ => rfl
  cases he with
  | take3 hf hs hd hstock hgold =>
    have hp := find_at hf
    refine h.exchange hp (take3_moves (h.held_at hp) h.bank hd hstock) ?_ ?_
    · rw [bank_record, bank_handOverUnlessFull]
      rfl
    · rw [view_record, view_handOverUnlessFull hstatus]
      rfl
  | @take2 it p k player hf hs hstock hgold =>
    have hp := find_at hf
    have hv := h.held_at hp k
    refine h.exchange hp (.bump (h.held_at hp) h.bank (k := k) (d := 2) (by omega) (by omega)) ?_ ?_
    · rw [bank_record, bank_handOverUnlessFull]
      rfl
    · rw [view_record, view_handOverUnlessFull hstatus]
      rfl
  | @reserve it p slot c couponIdx player hf hs hroom hslot =>
    have hp := find_at hf
    have hres : ∀ q : Player, Player.mineCount
        { q with reservedCoupons := q.reservedCoupons ++ [c] } = q.mineCount := fun _ => rfl
    unfold afterReserve
    simp only [bank_moveToReserve]
    split
    · have hv := h.held_at hp goldIdx
      refine h.exchange hp
        (.bump (h.held_at hp) h.bank (k := goldIdx) (d := 1) (by omega) (by omega)) ?_ ?_
      · rw [bank_handOverUnlessFull]
        rfl
      · rw [view_handOverUnlessFull hstatus, view_of_players (players_moveToReserve_setMines ..)]
        exact view_modifyPlayer_congr fun _ => rfl
    · refine h.congr ?_ ?_
      · rw [bank_handOverUnlessFull, bank_moveToReserve]
      · rw [view_handOverUnlessFull hstatus, view_of_players (players_moveToReserve ..),
          view_modifyPlayer hres]
  | @buy it p slot c t couponIdx player hf hs hslot hafford ht =>
    have hp := find_at hf
    refine h.exchange hp (pay_moves (h.held_at hp) h.bank hafford) ?_ ?_
    · simp [afterBuy]
      rfl
    · rw [view_buy hstatus hrep]
      exact view_modifyPlayer_congr fun _ => rfl
  | @buyReserved it p slot c t couponIdx player hf hs hslot hafford ht =>
    have hp := find_at hf
    refine h.exchange hp (pay_moves (h.held_at hp) h.bank hafford) ?_ ?_
    · rfl
    · rw [view_buyReserved hstatus hrep]
      exact view_modifyPlayer_congr fun _ => rfl
  | @returnMine it p k player hf hs hheld =>
    have hp := find_at hf
    have hb := h.bank k
    refine h.exchange hp
      (.bump (h.held_at hp) h.bank (k := k) (d := -1) (by omega) (by omega)) ?_ ?_
    · simp only
      split <;> rfl
    · simp only
      split
      · rw [view_handOver hstatus]
        rfl
      · rfl

/-! ## Runs -/

theorem initialBank_nonneg {n : Nat} (hn : 2 ≤ n ∧ n ≤ 4) (m : Fin 6) :
    0 ≤ (setAt (initialBank n) goldIdx 5).get m := by
  have hcases : n = 2 ∨ n = 3 ∨ n = 4 := by omega
  rcases hcases with rfl | rfl | rfl <;> revert m <;> decide

theorem Player.mineCount_new (m : Fin 6) : Player.new.mineCount.get m = 0 := by
  revert m
  decide

/-- The bank of a new game has all the mines. -/
theorem minesInv_new {ids : List Int} (hids : 2 ≤ ids.length ∧ ids.length ≤ 4)
    (draw : Nat → Nat) (rank : Int → Nat) :
    MinesInv (new ids draw rank).bank (new ids draw rank) := by
  have hview : (new ids draw rank).view Player.mineCount =
      (hashOrder rank id ids.dedup).map fun _ => Player.new.mineCount :=
    view_new ids draw rank fun _ _ => rfl
  constructor
  case total =>
    intro m
    rw [hview, List.map_map, List.sum_eq_zero, add_zero]
    intro x hx
    obtain ⟨_, _, rfl⟩ := List.mem_map.mp hx
    exact Player.mineCount_new m
  case bank => exact initialBank_nonneg hids
  case held =>
    intro v hv m
    rw [hview] at hv
    obtain ⟨_, _, rfl⟩ := List.mem_map.mp hv
    exact (Player.mineCount_new m).ge

/-- **Mine conservation**: whatever well-behaved calls the players make, none
faults, the mines of a kind stay as many as they were, and neither the bank nor
a player ever has less than none. -/
theorem mines_conserved (ids : List Int) (hids : 2 ≤ ids.length ∧ ids.length ≤ 4)
    (draw : Nat → Nat) (rank : Int → Nat) (ops : List Op) (hops : ∀ op ∈ ops, op.InRange) :
    ∃ g, exec Game.step (new ids draw rank) ops = .ok g ∧
      ∀ m : Fin 6,
        g.bank.get m + (g.players.map fun e => e.2.mineCount.get m).sum =
          (new ids draw rank).bank.get m ∧
        0 ≤ g.bank.get m ∧ ∀ e ∈ g.players, 0 ≤ e.2.mineCount.get m := by
  have hstep : ∀ g op, CardsInv g ∧ MinesInv (new ids draw rank).bank g → op.InRange →
      ∃ b g', g.step op = .ok (b, g') ∧ CardsInv g' ∧ MinesInv (new ids draw rank).bank g' := by
    rintro g op ⟨hc, hm⟩ hop
    obtain ⟨b, g', hg, hc'⟩ := hc.step hop.namesMines hop.namesCoupon
    refine ⟨b, g', hg, hc', ?_⟩
    rcases step_cases hg with ⟨-, rfl⟩ | ⟨-, he⟩
    · exact hm
    · exact hm.effect he
  obtain ⟨g, hg, -, h⟩ := exec_invariant hstep
    ⟨cardsInv_new ids draw rank, minesInv_new hids draw rank⟩ hops
  refine ⟨g, hg, fun m => ⟨?_, h.bank m, fun e he => ?_⟩⟩
  · have htotal := h.total m
    rwa [view, List.map_map] at htotal
  · exact h.held _ (List.mem_map.mpr ⟨e, he, rfl⟩) m

/-- Two players take mines, and the bank has the rest. -/
theorem mines_conserved_two :
    ∃ g, exec Game.step (new [1, 2] (fun _ => 0) Int.toNat)
        [.take2Mines 0 1, .take3Mines 1 2 3 2] = .ok g ∧
      ∀ m : Fin 6, 0 ≤ g.bank.get m := by
  obtain ⟨g, hg, h⟩ := mines_conserved [1, 2] (by decide) (fun _ => 0) Int.toNat
    [.take2Mines 0 1, .take3Mines 1 2 3 2]
    (List.forall_mem_cons.mpr ⟨⟨.copper, rfl⟩,
      List.forall_mem_singleton.mpr ⟨⟨.diamond, rfl⟩, ⟨.emerald, rfl⟩, .iron, rfl⟩⟩)
  exact ⟨g, hg, fun m => (h m).2.1⟩

end Game

end UnoppServer.Splendor
