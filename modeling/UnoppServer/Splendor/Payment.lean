import Mathlib.Algebra.BigOperators.Fin
import UnoppServer.Splendor.Mines

/-!
# Splendor: what is charged for a coupon

`check_affordabillity` goes through the mines with a budget of gold and gives up at the first
one that it does not cover. The payment loop charges every mine, lets the count go below zero and
makes up for it in gold. Both come to the same sums.

- `affordLoop_iff`: the budget suffices iff it covers the sum of what is lacking;
- `foldl_payMine_spec`: the loop charges every mine by what the player had at first;
- `payment_exact`: so a coupon is affordable iff the gold covers what is lacking, and a purchase
  charges exactly that.
-/

namespace UnoppServer.Splendor

open FindIf Runs

namespace Game

/-- What a player lacks of one kind of mine. -/
def lack (p : Player) (c : Coupon) (mine : Fin 5) : Int :=
  max 0 (c.costs.get mine - p.couponCount.get mine - p.mineCount.get mine.castSucc)

/-- What a player pays of one kind of mine. -/
def paid (p : Player) (c : Coupon) (mine : Fin 5) : Int :=
  min (p.mineCount.get mine.castSucc) (max 0 (c.costs.get mine - p.couponCount.get mine))

/-! ## The affordability loop -/

theorem sum_lack_nonneg (p : Player) (c : Coupon) (mines : List (Fin 5)) :
    0 ≤ (mines.map (lack p c)).sum :=
  List.sum_nonneg (List.forall_mem_map.mpr fun _ _ => le_max_left ..)

/-- **The budget** suffices iff it covers the sum. -/
theorem affordLoop_iff {p : Player} {c : Coupon} {mines : List (Fin 5)} {goldCnt : Int}
    (hgold : 0 ≤ goldCnt) :
    affordLoop p c mines goldCnt = true ↔ (mines.map (lack p c)).sum ≤ goldCnt := by
  induction mines generalizing goldCnt with
  | nil => exact iff_of_true rfl hgold
  | cons mine mines ih =>
    have hrest := sum_lack_nonneg p c mines
    rw [List.map_cons, List.sum_cons]
    unfold affordLoop
    by_cases hlt : p.mineCount.get mine.castSucc + p.couponCount.get mine + goldCnt <
        c.costs.get mine
    · have hlack : goldCnt < lack p c mine := by
        unfold lack
        omega
      rw [if_pos hlt]
      exact iff_of_false Bool.false_ne_true (by omega)
    · -- the budget goes down by what is lacking
      have hlack : (if 0 < c.costs.get mine - p.mineCount.get mine.castSucc -
          p.couponCount.get mine then c.costs.get mine - p.mineCount.get mine.castSucc -
          p.couponCount.get mine else 0) = lack p c mine := by
        unfold lack
        split <;> omega
      have hle : lack p c mine ≤ goldCnt := by
        unfold lack
        omega
      rw [if_neg hlt]
      dsimp only
      rw [hlack, ih (by omega)]
      omega

/-! ## The payment loop -/

theorem charge_congr {c : Coupon} {couponCount : Vector Int 5} {v v' : Vector Int 6} {mine : Fin 5}
    (h : v'.get mine.castSucc = v.get mine.castSucc) (k : Fin 6) :
    charge c couponCount v' mine k = charge c couponCount v mine k := by
  unfold charge short
  rw [h]

/-- **The payment loop** charges each kind of mine by the player's first count. -/
theorem foldl_payMine_spec (c : Coupon) (couponCount : Vector Int 5) {mines : List (Fin 5)}
    {v : Vector Int 6} (b : Vector Int 6) (hnd : mines.Nodup)
    (hv : ∀ m ∈ mines, 0 ≤ v.get m.castSucc) (k : Fin 6) :
    (mines.foldl (payMine c couponCount) (v, b)).1.get k =
        v.get k - (mines.map fun m => charge c couponCount v m k).sum ∧
      (mines.foldl (payMine c couponCount) (v, b)).2.get k =
        b.get k + (mines.map fun m => charge c couponCount v m k).sum := by
  induction mines generalizing v b with
  | nil => exact ⟨(sub_zero _).symm, (add_zero _).symm⟩
  | cons mine mines ih =>
    obtain ⟨hmine, hnd⟩ := List.nodup_cons.mp hnd
    obtain ⟨hvm, hv⟩ := List.forall_mem_cons.mp hv
    have hspec := payMine_spec c couponCount b mine hvm
    rw [List.foldl_cons, List.map_cons, List.sum_cons]
    generalize payMine c couponCount (v, b) mine = s at hspec
    obtain ⟨v', b'⟩ := s
    -- the other kinds have not been charged
    have hsame : ∀ m ∈ mines, v'.get m.castSucc = v.get m.castSucc := by
      intro m hm
      have hne : ¬ m.castSucc = mine.castSucc := fun h => hmine (Fin.castSucc_inj.mp h ▸ hm)
      rw [(hspec m.castSucc).1, charge, if_neg hne, if_neg (castSucc_ne_gold m), sub_zero]
    have hcharges : (mines.map fun m => charge c couponCount v' m k) =
        mines.map fun m => charge c couponCount v m k :=
      List.map_congr_left fun m hm => charge_congr (hsame m hm) k
    obtain ⟨hmines, hbank⟩ := ih b' hnd fun m hm => (hsame m hm).symm ▸ hv m hm
    rw [hcharges, (hspec k).1] at hmines
    rw [hcharges, (hspec k).2] at hbank
    exact ⟨by rw [hmines, sub_sub], by rw [hbank, add_assoc]⟩

theorem sum_fiveMines (f : Fin 5 → Int) : (fiveMines.map f).sum = ∑ m, f m :=
  (Fin.sum_univ_def f).symm

/-- Only its own round charges a kind of mine. -/
theorem sum_charge_mine (c : Coupon) (couponCount : Vector Int 5) (v : Vector Int 6)
    (mine : Fin 5) : ∑ m, charge c couponCount v m mine.castSucc =
      due c couponCount mine - short c couponCount v mine := by
  have hcharge (m : Fin 5) : charge c couponCount v m mine.castSucc =
      if m = mine then due c couponCount m - short c couponCount v m else 0 := by
    unfold charge
    rw [if_neg (castSucc_ne_gold mine)]
    exact if_congr (by rw [Fin.castSucc_inj, eq_comm]) rfl rfl
  rw [Finset.sum_congr rfl fun m _ => hcharge m, Finset.sum_ite_eq' Finset.univ mine]
  exact if_pos (Finset.mem_univ mine)

/-- Every round can charge gold. -/
theorem sum_charge_gold (c : Coupon) (couponCount : Vector Int 5) (v : Vector Int 6) :
    ∑ m, charge c couponCount v m goldIdx = ∑ m, short c couponCount v m := by
  refine Finset.sum_congr rfl fun m _ => ?_
  unfold charge
  rw [if_neg (castSucc_ne_gold m).symm, if_pos rfl]

/-! ## The charge -/

/-- The player has paid for the coupon and the bank has received it: of each kind of mine what
there is, and in gold what is lacking. -/
structure Charged (p : Player) (c : Coupon) (bank mineCount' bank' : Vector Int 6) : Prop where
  mines : ∀ m : Fin 5, mineCount'.get m.castSucc = p.mineCount.get m.castSucc - paid p c m
  gold : mineCount'.get goldIdx = p.mineCount.get goldIdx - ∑ m, lack p c m
  bankMines : ∀ m : Fin 5, bank'.get m.castSucc = bank.get m.castSucc + paid p c m
  bankGold : bank'.get goldIdx = bank.get goldIdx + ∑ m, lack p c m

/-- A payment takes the price less the discount, and gold for what is missing. -/
theorem pay_charged {p : Player} (hp : ∀ m : Fin 5, 0 ≤ p.mineCount.get m.castSucc) (c : Coupon)
    (bank : Vector Int 6) : Charged p c bank (pay p c bank).1 (pay p c bank).2 := by
  have hnodup : fiveMines.Nodup := by decide
  have hspec (k : Fin 6) := foldl_payMine_spec c p.couponCount bank hnodup (fun m _ => hp m) k
  have hmine (m : Fin 5) : (fiveMines.map fun i =>
      charge c p.couponCount p.mineCount i m.castSucc).sum = paid p c m := by
    have hm := hp m
    rw [sum_fiveMines, sum_charge_mine]
    unfold due short paid due
    omega
  have hgold : (fiveMines.map fun i => charge c p.couponCount p.mineCount i goldIdx).sum =
      ∑ m, lack p c m := by
    rw [sum_fiveMines, sum_charge_gold]
    refine Finset.sum_congr rfl fun m _ => ?_
    have hm := hp m
    unfold short due lack
    omega
  constructor
  case mines => exact fun m => (hspec m.castSucc).1.trans (by rw [hmine])
  case gold => exact (hspec goldIdx).1.trans (by rw [hgold])
  case bankMines => exact fun m => (hspec m.castSucc).2.trans (by rw [hmine])
  case bankGold => exact (hspec goldIdx).2.trans (by rw [hgold])

/-! ## The purchases -/

/-- A purchase by the player at a position charges the player. It completes unless the coupon is
a placeholder, whose type has no place among those of coupons. -/
structure Purchases (g : Game) (it : Nat) (player : Int) (p : Player) (c : Coupon)
    (r : Except Fault (Bool × Game)) : Prop where
  completes : (∃ a, r = .ok a) ↔ c.type ≠ .gold
  charges : ∀ b g', r = .ok (b, g') →
    b = true ∧ ∃ p', g'.At it player p' ∧ Charged p c g.bank p'.mineCount g'.bank

/-- A component of the player at a position. -/
theorem exists_at_of_view {β : Type} {π : Player → β} {g g' : Game} (hi : g'.ids = g.ids)
    (hv : g'.view π = g.view π) {it : Nat} {id : Int} {p : Player} (hp : g.At it id p) :
    ∃ p', g'.At it id p' ∧ π p' = π p := by
  have hid : g'.ids[it]? = some id := by
    rw [hi]
    exact hp.id_at
  have hπ : (g'.view π)[it]? = some (π p) := by
    rw [hv, view, List.getElem?_map, hp]
    rfl
  unfold ids at hid
  unfold view at hπ
  rw [List.getElem?_map] at hid hπ
  obtain ⟨e, he, rfl⟩ := Option.map_eq_some_iff.mp hid
  rw [he] at hπ
  exact ⟨e.2, he, Option.some.inj hπ⟩

/-- A purchase that completes for the coupons of the five types, and then has the effect `f` on
the buyer. -/
theorem purchases_of_effect {g : Game} {it : Nat} {player : Int} {p : Player} {c : Coupon} (op : Op)
    (hat : g.At it player p) (hp : ∀ m : Fin 5, 0 ≤ p.mineCount.get m.castSucc)
    (hcompletes : Completes (g.step op) ↔ c.type ≠ .gold)
    (heff : ∀ t : Fin 5, c.type.toInt = (t : Nat) → ∃ g' f, Effect g op g' ∧
      (f p).mineCount = (pay p c g.bank).1 ∧ g'.bank = (pay p c g.bank).2 ∧
      g'.view Player.mineCount = (g.modifyPlayer it f).view Player.mineCount) :
    Purchases g it player p c (g.step op) := by
  refine ⟨hcompletes, fun b g' hb => ?_⟩
  obtain ⟨t, ht⟩ := (exists_fin5_iff c.type).mpr (hcompletes.mp ⟨_, hb⟩)
  obtain ⟨g₁, f, he, hf, hbank, hv⟩ := heff t ht
  obtain ⟨rfl, rfl⟩ := Prod.mk.inj (Except.ok.inj (hb.symm.trans (step_of_effect he)))
  obtain ⟨p', hat', hmines⟩ := exists_at_of_view ((ids_effect he).trans (ids_modifyPlayer f).symm)
    hv (hat.modifyPlayer f)
  refine ⟨rfl, p', hat', ?_⟩
  rw [hmines, hf, hbank]
  exact pay_charged hp c g.bank

/-- **Payment is exact**: a coupon is affordable iff the gold covers what the player lacks of all
kinds of mines, and then both purchases charge what there is of each kind, and in gold what is
lacking. -/
theorem payment_exact {p : Player} (hp : ∀ m : Fin 6, 0 ≤ p.mineCount.get m) (c : Coupon) :
    (checkAffordabillity p c = true ↔
      ∑ m : Fin 5, max 0 (c.costs.get m - p.couponCount.get m - p.mineCount.get m.castSucc) ≤
        p.mineCount.get goldIdx) ∧
    (checkAffordabillity p c = true → ∀ (g : Game) (it : Nat) (player couponIdx : Int) (slot : Nat),
      g.find player = some (it, p) → p.status = .action →
      (findIf (fun c => c.hasIdx couponIdx) g.coupons = some (slot, c) →
        Purchases g it player p c (g.buyCoupon couponIdx player)) ∧
      (findIf (fun c => c.hasIdx couponIdx) p.reservedCoupons = some (slot, c) →
        Purchases g it player p c (g.buyReservedCoupon couponIdx player))) := by
  have hstatus : ∀ (p : Player) (s : Status),
      Player.mineCount { p with status := s } = p.mineCount := fun _ _ => rfl
  have hrep : ∀ (p : Player) (r : Int),
      Player.mineCount { p with reputation := r } = p.mineCount := fun _ _ => rfl
  have hmines (m : Fin 5) : 0 ≤ p.mineCount.get m.castSucc := hp m.castSucc
  constructor
  · rw [checkAffordabillity, affordLoop_iff (hp goldIdx), sum_fiveMines]
    rfl
  intro hafford g it player couponIdx slot hf hs
  have hat := find_at hf
  constructor
  · intro hslot
    refine purchases_of_effect (.buyCoupon couponIdx player) hat hmines ?_ fun t ht =>
      ⟨_, bought p c t g.bank, .buy hf hs hslot hafford ht, rfl, ?_, view_buy hstatus hrep ..⟩
    · refine (completes_buyCoupon_iff couponIdx player).trans ⟨fun h => ?_, fun h => ?_⟩
      · exact h it p hf hs slot c hslot hafford
      · intro it' p' hf' _ slot' c' hslot' _
        obtain ⟨-, rfl⟩ := Prod.mk.inj (Option.some.inj (hslot.symm.trans hslot'))
        exact h
    · rw [bank_checkAlly, bank_handOver, bank_fillCoupon]
      rfl
  · intro hslot
    refine purchases_of_effect (.buyReservedCoupon couponIdx player) hat hmines ?_
      fun t ht => ⟨_, fun q => dropReserved slot (bought p c t g.bank q),
        .buyReserved hf hs hslot hafford ht, rfl, rfl, view_buyReserved hstatus hrep ..⟩
    refine (completes_buyReservedCoupon_iff couponIdx player).trans ⟨fun h => ?_, fun h => ?_⟩
    · exact h it p hf hs slot c hslot hafford
    · intro it' p' hf' _ slot' c' hslot' _
      obtain ⟨-, rfl⟩ := Prod.mk.inj (Option.some.inj (hf.symm.trans hf'))
      obtain ⟨-, rfl⟩ := Prod.mk.inj (Option.some.inj (hslot.symm.trans hslot'))
      exact h

/-- Five rounds of a game of two, after which the second player can afford a coupon. -/
def fiveRounds : List Op :=
  [.take3Mines 2 3 4 1, .take3Mines 1 3 4 2, .take3Mines 1 2 3 1, .take3Mines 0 1 2 2,
    .reserveCoupon 90 1]

/-- A coupon that the player whose turn it is can afford. -/
def canBuy (player couponIdx : Int) (g : Game) : Bool :=
  match g.find player, findIf (fun c : Coupon => c.hasIdx couponIdx) g.coupons with
  | some (_, p), some (_, c) =>
    decide (p.status = .action ∧ ∀ m : Fin 6, 0 ≤ p.mineCount.get m) && checkAffordabillity p c
  | _, _ => false

/-- Player 2 buys a coupon after five rounds. -/
theorem payment_exact_two : ∃ g it p slot c,
    exec Game.step (new [1, 2] (fun _ => 0) Int.toNat) fiveRounds = .ok g ∧
      g.find 2 = some (it, p) ∧
      findIf (fun c => c.hasIdx 38) g.coupons = some (slot, c) ∧
      Purchases g it 2 p c (g.buyCoupon 38 2) := by
  have hcheck : execTo Game.step (new [1, 2] (fun _ => 0) Int.toNat) fiveRounds
      (canBuy 2 38) = true := by
    decide +kernel
  obtain ⟨g, hg, hbuy⟩ := exists_of_execTo hcheck
  unfold canBuy at hbuy
  split at hbuy
  · rename_i it p slot c hf hslot
    obtain ⟨hplayer, hafford⟩ := Bool.and_eq_true_iff.mp hbuy
    obtain ⟨hs, hp⟩ := of_decide_eq_true hplayer
    exact ⟨g, it, p, slot, c, hg, hf, hslot,
      ((payment_exact hp c).2 hafford g it 2 38 slot hf hs).1 hslot⟩
  · cases hbuy

end Game

end UnoppServer.Splendor
