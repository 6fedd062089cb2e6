import Mathlib.Algebra.BigOperators.Fin
import Mathlib.Algebra.Order.BigOperators.Group.Finset
import UnoppServer.Splendor.Turns
import UnoppServer.Splendor.Mines

/-!
# Splendor: the limits of a hand

Four operations bring mines, in three different amounts, and each of them has
its own copy of the check that a player with more than ten has to return some.
For what is limited they all do one thing: change the caller, then hand over
unless the caller is full (`limits_effect`). From this come the invariant
`Within` of every player and the count-down of `return_mine`.

- `total_pay_le`: a purchase brings no mines;
- `Within`, `Limits.effect`: the limits and the step lemma;
- `Returning.run`: from a full hand to ten mines;
- `limits_hold`: both, after every run.
-/

namespace UnoppServer.Splendor

open FindIf Runs

namespace Game

/-! ## Counting mines -/

/-- All mines of a hand. -/
def total (v : Vector Int 6) : Int := ∑ k : Fin 6, v.get k

theorem totalMineCount_eq (p : Player) : p.totalMineCount = total p.mineCount := by
  unfold total Player.totalMineCount
  rw [Fin.sum_univ_six]
  simp only [List.foldl_cons, List.foldl_nil, zero_add]

theorem total_bump (v : Vector Int 6) (k : Fin 6) (d : Int) : total (bump v k d) = total v + d := by
  unfold total
  simp only [get_bump, Finset.sum_add_distrib, Finset.sum_ite_eq', Finset.mem_univ, if_true]

theorem total_le_total {v v' : Vector Int 6} (h : ∀ k : Fin 6, v'.get k ≤ v.get k) :
    total v' ≤ total v :=
  Finset.sum_le_sum fun k _ => h k

/-- A hand that is not empty has a mine to return. -/
theorem exists_held {v : Vector Int 6} (h : 0 < total v) : ∃ k : Fin 6, 1 ≤ v.get k := by
  by_contra hno
  have hle : total v ≤ 0 := Finset.sum_nonpos fun k _ => by
    have hk : ¬ 1 ≤ v.get k := fun hk => hno ⟨k, hk⟩
    omega
  omega

/-- A purchase takes mines and brings none. -/
theorem foldl_payMine_le {c : Coupon} {couponCount : Vector Int 5} {mines : List (Fin 5)}
    {v b : Vector Int 6} (hv : ∀ m : Fin 5, 0 ≤ v.get m.castSucc) (k : Fin 6) :
    (mines.foldl (payMine c couponCount) (v, b)).1.get k ≤ v.get k := by
  induction mines generalizing v b with
  | nil => exact le_refl _
  | cons mine mines ih =>
    have hspec := payMine_spec c couponCount b mine (hv mine)
    rw [List.foldl_cons]
    generalize payMine c couponCount (v, b) mine = s at hspec
    obtain ⟨v', b'⟩ := s
    -- the loop leaves no debt in any kind but gold
    have hv' : ∀ m : Fin 5, 0 ≤ v'.get m.castSucc := by
      intro m
      have hm := hv m
      rw [(hspec m.castSucc).1]
      unfold charge short due
      by_cases hmm : m.castSucc = mine.castSucc
      · rw [if_pos hmm, ← hmm]
        omega
      · rw [if_neg hmm, if_neg (castSucc_ne_gold m)]
        omega
    have hle : v'.get k ≤ v.get k := by
      rw [(hspec k).1]
      have := charge_nonneg c couponCount (hv mine) k
      omega
    exact (ih hv').trans hle

theorem total_pay_le {p : Player} (c : Coupon) (bank : Vector Int 6)
    (hv : ∀ m : Fin 6, 0 ≤ p.mineCount.get m) : total (pay p c bank).1 ≤ total p.mineCount :=
  total_le_total (foldl_payMine_le fun m => hv m.castSucc)

/-! ## What is limited -/

/-- What the limits are about. -/
def limits (p : Player) : Nat × Int × Status :=
  (p.reservedCoupons.length, p.totalMineCount, p.status)

/-- The limits of one player. -/
structure Within (p : Player) : Prop where
  reserved : p.reservedCoupons.length ≤ 3
  mines : p.totalMineCount ≤ 13
  full : p.status = .needReturnMine ↔ 10 < p.totalMineCount

theorem Within.congr {p p' : Player} (h : Within p) (hl : limits p' = limits p) : Within p' := by
  obtain ⟨hr, hrest⟩ := Prod.mk.inj hl
  obtain ⟨hm, hs⟩ := Prod.mk.inj hrest
  exact ⟨by rw [hr]; exact h.reserved, by rw [hm]; exact h.mines, by rw [hm, hs]; exact h.full⟩

theorem limits_reputation (p : Player) (r : Int) : limits { p with reputation := r } = limits p :=
  rfl

section Handing

variable {g g' : Game} {it : Nat} {id : Int} {p : Player}

theorem At.isFull (h : g.At it id p) : g.isFull it = decide (10 < p.totalMineCount) := by
  unfold Game.isFull
  rw [h]

/-- A player over the limit keeps the token. -/
theorem handOverUnlessFull_of_lt (h : g.At it id p) (hp : 10 < p.totalMineCount) :
    g.handOverUnlessFull it = g.modifyPlayer it fun p => { p with status := .needReturnMine } := by
  unfold handOverUnlessFull
  rw [h.isFull, if_pos (decide_eq_true hp)]

theorem handOverUnlessFull_of_le (h : g.At it id p) (hp : p.totalMineCount ≤ 10) :
    g.handOverUnlessFull it = g.handOver it := by
  unfold handOverUnlessFull
  rw [h.isFull, if_neg (by simpa using hp)]

theorem players_handOver_congr (h : g'.players = g.players) :
    (g'.handOver it).players = (g.handOver it).players := by
  unfold handOver next modifyPlayer
  rw [h]

/-- What the turn does to the players depends on the players only. -/
theorem players_handOverUnlessFull_congr (h : g'.players = g.players) :
    (g'.handOverUnlessFull it).players = (g.handOverUnlessFull it).players := by
  have hfull : g'.isFull it = g.isFull it := by
    unfold Game.isFull
    rw [h]
  unfold handOverUnlessFull
  rw [hfull]
  split
  · exact players_modifyPlayer_congr h _
  · exact players_handOver_congr h

end Handing

/-! ## One call -/

/-- What a call leaves, as far as the limits go: the caller is changed by `f`
and hands over unless full. -/
structure Handed (g : Game) (player : Int) (f : Player → Player) (g' : Game) : Prop where
  ids : g'.ids = g.ids
  view : ∃ it p, g.At it player p ∧ p.status ≠ .waiting ∧ (f p).status = p.status ∧
    (f p).reservedCoupons.length ≤ 3 ∧ (f p).totalMineCount ≤ 13 ∧
    g'.view limits = ((g.modifyPlayer it f).handOverUnlessFull it).view limits

section Handed

variable {g g₁ : Game} {it : Nat} {p : Player} {player : Int} {f : Player → Player}

theorem Handed.congr {g' : Game} (h : Handed g player f g₁) (hids : g'.ids = g₁.ids)
    (hview : g'.view limits = g₁.view limits) : Handed g player f g' := by
  obtain ⟨hids₁, it, p, hp, hs, hfs, hr, hm, hview₁⟩ := h
  exact ⟨hids.trans hids₁, it, p, hp, hs, hfs, hr, hm, hview.trans hview₁⟩

/-- The caller takes mines or reserves, and hands over unless full. -/
theorem Handed.unlessFull (hp : g.At it player p) (hs : p.status ≠ .waiting)
    (hfs : (f p).status = p.status) (hr : (f p).reservedCoupons.length ≤ 3)
    (hm : (f p).totalMineCount ≤ 13) (h : g₁.players = (g.modifyPlayer it f).players) :
    Handed g player f (g₁.handOverUnlessFull it) := by
  refine ⟨?_, it, p, hp, hs, hfs, hr, hm, view_of_players (players_handOverUnlessFull_congr h)⟩
  rw [ids_handOverUnlessFull, ids_of_players h, ids_modifyPlayer]

/-- The caller is not full, and hands over. -/
theorem Handed.over (hp : g.At it player p) (hs : p.status ≠ .waiting)
    (hfs : (f p).status = p.status) (hr : (f p).reservedCoupons.length ≤ 3)
    (hm : (f p).totalMineCount ≤ 10) (h : g₁.players = (g.modifyPlayer it f).players) :
    Handed g player f (g₁.handOver it) := by
  refine ⟨?_, it, p, hp, hs, hfs, hr, hm.trans (by decide), ?_⟩
  · rw [ids_handOver, ids_of_players h, ids_modifyPlayer]
  · rw [handOverUnlessFull_of_le (hp.modifyPlayer f) hm]
    exact view_of_players (players_handOver_congr h)

/-- The caller is full, and keeps the token as before. -/
theorem Handed.keep (hp : g.At it player p) (hs : p.status = .needReturnMine)
    (hfs : (f p).status = p.status) (hr : (f p).reservedCoupons.length ≤ 3)
    (hm : (f p).totalMineCount ≤ 13) (hfull : 10 < (f p).totalMineCount)
    (h : g₁.players = (g.modifyPlayer it f).players) : Handed g player f g₁ := by
  have hsame : limits { f p with status := .needReturnMine } = limits (f p) := by
    simp only [limits]
    rw [hfs, hs]
    rfl
  refine ⟨?_, it, p, hp, by rw [hs]; decide, hfs, hr, hm, ?_⟩
  · rw [ids_of_players h, ids_modifyPlayer]
  · rw [handOverUnlessFull_of_lt (hp.modifyPlayer f) hfull,
      (hp.modifyPlayer f).view_modifyPlayer hsame]
    exact view_of_players h

end Handed

/-- Who acts has ten mines at most. -/
theorem Within.total_le {p : Player} (h : Within p) (hs : p.status = .action) :
    total p.mineCount ≤ 10 := by
  by_contra hlt
  have hneed := h.full.mpr (by rw [totalMineCount_eq]; exact Int.not_le.mp hlt)
  rw [hs] at hneed
  cases hneed

/-- **Spec lemma**: for what is limited, all operations do one thing. -/
theorem limits_effect {g g' : Game} {op : Op} (hm : ∀ v ∈ g.view Player.mineCount, ∀ m : Fin 6,
      0 ≤ v.get m) (hw : ∀ e ∈ g.players, Within e.2) (he : Effect g op g') :
    ∃ f, Handed g op.player f g' := by
  -- who acts holds ten mines at most, and a purchase does not fill the hand
  have hacts {it : Nat} {p : Player} {player : Int} (hf : g.find player = some (it, p))
      (hs : p.status = .action) : p.status ≠ .waiting ∧ p.reservedCoupons.length ≤ 3 ∧
        total p.mineCount ≤ 10 := by
    have hwithin := hw _ (find_at hf).mem
    exact ⟨by rw [hs]; decide, hwithin.reserved, hwithin.total_le hs⟩
  have hbuys {it : Nat} {p : Player} {player : Int} (c : Coupon)
      (hf : g.find player = some (it, p)) (hs : p.status = .action) :
      total (pay p c g.bank).1 ≤ 10 := by
    have hle := total_pay_le c g.bank
      fun m => hm _ (List.mem_map.mpr ⟨_, (find_at hf).mem, rfl⟩) m
    exact hle.trans (hacts hf hs).2.2
  cases he with
  | @take3 it p k₀ k₁ k₂ player hf hs hd hstock hgold =>
    obtain ⟨hturn, hr, ht⟩ := hacts hf hs
    refine ⟨fun q => { q with mineCount := bump (bump (bump p.mineCount k₀ 1) k₁ 1) k₂ 1 }, ?_⟩
    refine Handed.congr (.unlessFull (find_at hf) hturn rfl hr ?_ (players_setMines ..)) rfl rfl
    rw [totalMineCount_eq, total_bump, total_bump, total_bump]
    omega
  | @take2 it p k player hf hs hstock hgold =>
    obtain ⟨hturn, hr, ht⟩ := hacts hf hs
    refine ⟨fun q => { q with mineCount := bump p.mineCount k 2 }, ?_⟩
    refine Handed.congr (.unlessFull (find_at hf) hturn rfl hr ?_ (players_setMines ..)) rfl rfl
    rw [totalMineCount_eq, total_bump]
    omega
  | @reserve it p slot c couponIdx player hf hs hroom hslot =>
    obtain ⟨hturn, -, ht⟩ := hacts hf hs
    have hlen : (p.reservedCoupons ++ [c]).length ≤ 3 := by
      rw [List.length_append]
      exact Nat.succ_le_succ hroom
    unfold afterReserve
    dsimp only
    split
    · refine ⟨reserved c (bump p.mineCount goldIdx 1),
        .unlessFull (find_at hf) hturn rfl hlen ?_ (players_moveToReserve_setMines ..)⟩
      rw [totalMineCount_eq, reserved, total_bump]
      omega
    · refine ⟨fun q => { q with reservedCoupons := q.reservedCoupons ++ [c] },
        .unlessFull (find_at hf) hturn rfl hlen ?_ (players_moveToReserve ..)⟩
      rw [totalMineCount_eq]
      exact ht.trans (by decide)
  | @buy it p slot c t couponIdx player hf hs hslot hafford ht =>
    obtain ⟨hturn, hr, -⟩ := hacts hf hs
    have hle : (bought p c t g.bank p).totalMineCount ≤ 10 := by
      rw [totalMineCount_eq]
      exact hbuys c hf hs
    have hplayers : ((g.afterBuy it p c t "BUY_COUPON" player).fillCoupon c.level slot).players =
        (g.modifyPlayer it (bought p c t g.bank)).players :=
      (players_fillCoupon c.level slot).trans (players_afterBuy ..)
    exact ⟨bought p c t g.bank, Handed.congr (.over (find_at hf) hturn rfl hr hle hplayers)
      ids_checkAlly (view_checkAlly limits_reputation)⟩
  | @buyReserved it p slot c t couponIdx player hf hs hslot hafford ht =>
    obtain ⟨hturn, hr, -⟩ := hacts hf hs
    have hle : (dropReserved slot (bought p c t g.bank p)).totalMineCount ≤ 10 := by
      rw [totalMineCount_eq]
      exact hbuys c hf hs
    exact ⟨fun q => dropReserved slot (bought p c t g.bank q),
      Handed.congr (.over (find_at hf) hturn rfl ((List.length_eraseIdx_le ..).trans hr) hle
        (players_afterBuy_dropReserved ..)) ids_checkAlly (view_checkAlly limits_reputation)⟩
  | @returnMine it p k player hf hs hheld =>
    obtain ⟨hr, ht, -⟩ := hw _ (find_at hf).mem
    have htotal : Player.totalMineCount { p with mineCount := bump p.mineCount k (-1) } =
        p.totalMineCount + -1 := by
      rw [totalMineCount_eq, total_bump, totalMineCount_eq]
    refine ⟨fun q => { q with mineCount := bump p.mineCount k (-1) }, ?_⟩
    dsimp only at ht ⊢
    split
    · exact .over (find_at hf) (by rw [hs]; decide) rfl hr (by omega)
        (players_setMines ..)
    · exact .keep (find_at hf) hs rfl hr (by omega) (by omega)
        (players_setMines ..)

/-! ## The invariant -/

/-- All players are within their limits. -/
def AllWithin (g : Game) : Prop := ∀ e ∈ g.players, Within e.2

theorem AllWithin.congr {g g' : Game} (h : AllWithin g) (hv : g'.view limits = g.view limits) :
    AllWithin g' := by
  intro e' he'
  have hmem : limits e'.2 ∈ g.view limits := hv ▸ List.mem_map.mpr ⟨e', he', rfl⟩
  obtain ⟨e, he, heq⟩ := List.mem_map.mp hmem
  exact (h e he).congr heq.symm

/-- A player within the limits may be put in place of another. -/
theorem AllWithin.modify {g : Game} {it : Nat} {id : Int} {p : Player} {f : Player → Player}
    (h : AllWithin g) (hp : g.At it id p) (hf : Within (f p)) :
    AllWithin (g.modifyPlayer it f) := by
  intro e he
  rcases mem_players_modify he with he | ⟨q, hq, heq⟩
  · exact h e he
  · obtain ⟨-, rfl⟩ := Prod.mk.inj (Option.some.inj (hp.symm.trans hq))
    rwa [heq]

/-- The hand-over gives the turn to a player who waits, and so has ten mines at
most. -/
theorem AllWithin.handOver {g : Game} {it : Nat} (htok : TokenAt g it)
    (h : AllWithin (g.modifyPlayer it fun p => { p with status := .waiting })) :
    AllWithin (g.handOver it) := by
  have hwait : ∀ e ∈ (g.modifyPlayer it fun p => { p with status := .waiting }).players,
      e.2.status = .waiting := by
    intro e he
    have hmem : e.2.status ∈ view Player.status
        (g.modifyPlayer it fun p => { p with status := .waiting }) := List.mem_map.mpr ⟨e, he, rfl⟩
    obtain ⟨-, s, -, hview⟩ := htok
    rw [view_status_modify, hview, List.set_set, List.set_replicate_self] at hmem
    exact List.eq_of_mem_replicate hmem
  intro e he
  rcases mem_players_modify he with he | ⟨q, hq, heq⟩
  · exact h e he
  · obtain ⟨hr, hm, hfull⟩ := h _ hq.mem
    have hnot : ¬ 10 < q.totalMineCount := by
      intro hlt
      rw [hwait _ hq.mem] at hfull
      exact nomatch hfull.mpr hlt
    rw [heq]
    exact ⟨hr, hm, iff_of_false (fun hs => nomatch hs) hnot⟩

/-- **Step lemma**: what a call leaves is within the limits. -/
theorem AllWithin.handed {g g' : Game} {player : Int} {f : Player → Player} (h : AllWithin g)
    (htok : HasToken g) (hg : Handed g player f g') : AllWithin g' := by
  obtain ⟨-, it, p, hp, hs, hfs, hr, hm, hview⟩ := hg
  have hp' := hp.modifyPlayer f
  refine AllWithin.congr ?_ hview
  by_cases hfull : 10 < (f p).totalMineCount
  · rw [handOverUnlessFull_of_lt hp' hfull]
    exact (h.modify hp (f := fun q => { f q with status := .needReturnMine })
      ⟨hr, hm, iff_of_true rfl hfull⟩).congr
      (view_of_players (players_modifyPlayer_modifyPlayer ..))
  · rw [handOverUnlessFull_of_le hp' (Int.not_lt.mp hfull)]
    obtain ⟨it₀, htok⟩ := htok
    obtain rfl := htok.eq_of_at hp hs
    refine AllWithin.handOver (htok.congr (hp.view_modifyPlayer hfs)) ?_
    exact (h.modify hp (f := fun q => { f q with status := .waiting })
      ⟨hr, hm, iff_of_false (fun hs => nomatch hs) hfull⟩).congr
      (view_of_players (players_modifyPlayer_modifyPlayer ..))

/-- The limits, with what they rest on. -/
structure Limits (bank₀ : Vector Int 6) (g : Game) : Prop where
  within : AllWithin g
  token : HasToken g
  mines : MinesInv bank₀ g

theorem Limits.step {bank₀ : Vector Int 6} {g g' : Game} {op : Op} {b : Bool} (h : Limits bank₀ g)
    (hstep : g.step op = .ok (b, g')) : Limits bank₀ g' := by
  have htoken := h.token.step hstep
  rcases step_cases hstep with ⟨rfl, rfl⟩ | ⟨rfl, he⟩
  · exact h
  · obtain ⟨f, hg⟩ := limits_effect h.mines.held h.within he
    exact ⟨h.within.handed h.token hg, htoken, h.mines.effect he⟩

/-- A new player is within the limits. -/
theorem within_new (s : Status) (h : s ≠ .needReturnMine) :
    Within { Player.new with status := s } := by
  have htotal : Player.totalMineCount { Player.new with status := s } = 0 := by
    show Player.new.totalMineCount = 0
    decide
  refine ⟨Nat.zero_le 3, ?_, iff_of_false h ?_⟩
  · rw [htotal]
    decide
  · rw [htotal]
    decide

/-- A new game is within the limits. -/
theorem limits_new {ids : List Int} (hids : 2 ≤ ids.length ∧ ids.length ≤ 4) (hnd : ids.Nodup)
    (draw : Nat → Nat) (rank : Int → Nat) :
    Limits (new ids draw rank).bank (new ids draw rank) := by
  have hne : ids ≠ [] := fun h => by simp [h] at hids
  refine ⟨?_, hasToken_new hne hnd draw rank, minesInv_new hids draw rank⟩
  have hseated : AllWithin (seated ids draw rank) := by
    intro e he
    obtain ⟨_, -, rfl⟩ := List.mem_map.mp he
    exact within_new .waiting (by decide)
  intro e he
  rw [new_eq] at he
  rcases mem_players_modify he with he | ⟨q, hq, heq⟩
  · exact hseated e he
  · obtain ⟨_, -, hnew⟩ := List.mem_map.mp hq.mem
    obtain ⟨-, rfl⟩ := Prod.mk.inj hnew
    rw [heq]
    exact within_new .action (by decide)

/-! ## Returning mines -/

/-- The player at a position has ten mines left and waits, and the next one
acts. -/
structure TurnPassed (it : Nat) (id : Int) (g : Game) : Prop where
  kept : ∃ p, g.At it id p ∧ p.totalMineCount = 10 ∧ p.status = .waiting
  next : ∃ id' q, g.At ((it + 1) % g.ids.length) id' q ∧ q.status = .action ∧ g.holder = some id'

/-- The player at a position has `n` mines to return before the turn passes. -/
inductive Returning (it : Nat) (id : Int) : Nat → Game → Prop where
  | more {n : Nat} {g : Game} {p : Player} (token : TokenAt g it) (player : g.At it id p)
      (status : p.status = .needReturnMine) (total : p.totalMineCount = 10 + (n + 1)) :
      Returning it id (n + 1) g
  | done {g : Game} (passed : TurnPassed it id g) : Returning it id 0 g

/-- Handing over makes one player wait and lets the next one act. -/
theorem handOver_eq {g : Game} {it : Nat} (h : it < g.players.length) :
    g.handOver it = (g.modifyPlayer it fun p => { p with status := .waiting }).modifyPlayer
      ((it + 1) % g.players.length) fun p => { p with status := .action } := by
  have hnext : (g.modifyPlayer it fun p => { p with status := .waiting }).next it =
      (it + 1) % g.players.length := by
    rw [next_eq (by rwa [length_modifyPlayer]), length_modifyPlayer]
  unfold Game.handOver
  simp only [hnext]

/-- The hand-over between two different players. -/
theorem At.handOver {g : Game} {it : Nat} {id : Int} {p : Player} (hp : g.At it id p)
    (htok : TokenAt g it) (hn : 2 ≤ g.players.length) :
    (g.handOver it).At it id { p with status := .waiting } ∧
      ∃ id' q, (g.handOver it).At ((it + 1) % (g.handOver it).ids.length) id' q ∧
        q.status = .action ∧ (g.handOver it).holder = some id' := by
  have hlt : it < g.players.length := htok.lt
  have hlt' : (it + 1) % g.players.length < g.players.length := Nat.mod_lt _ (by omega)
  have hne : (it + 1) % g.players.length ≠ it := by
    rcases Nat.lt_or_ge (it + 1) g.players.length with hsmall | hwrap
    · rw [Nat.mod_eq_of_lt hsmall]
      omega
    · rw [show it + 1 = g.players.length by omega, Nat.mod_self]
      omega
  have hids : (g.handOver it).ids = g.ids := ids_handOver
  have hholder := htok.handOver.holder
  rw [hids] at hholder ⊢
  rw [length_ids]
  rw [handOver_eq hlt] at hholder ⊢
  constructor
  · exact (hp.modifyPlayer fun p => { p with status := .waiting }).modifyPlayer_ne hne _
  · -- the next player waited
    have hat : g.At ((it + 1) % g.players.length)
        g.players[(it + 1) % g.players.length].1 g.players[(it + 1) % g.players.length].2 :=
      List.getElem?_eq_getElem hlt'
    refine ⟨_, _, (hat.modifyPlayer_ne hne.symm _).modifyPlayer _, rfl, ?_⟩
    · rw [ids, List.getElem?_map, hat] at hholder
      exact hholder

/-- While mines are to be returned, only that succeeds. -/
theorem returnMine_of_effect {g g' : Game} {op : Op} {it : Nat} {id : Int} {p : Player}
    (htok : TokenAt g it) (hp : g.At it id p) (hs : p.status = .needReturnMine)
    (he : Effect g op g') : ∃ k : Fin 6, op = .returnMine (k : Nat) id := by
  have hcaller {j : Nat} {q : Player} {player : Int} (hf : g.find player = some (j, q))
      (hq : q.status ≠ .waiting) : player = id ∧ q = p := by
    have hat := find_at hf
    obtain rfl := htok.eq_of_at hat hq
    exact Prod.mk.inj (Option.some.inj (hat.symm.trans hp))
  have hacts {j : Nat} {q : Player} {player : Int} (hf : g.find player = some (j, q))
      (hq : q.status = .action) : False := by
    obtain ⟨-, rfl⟩ := hcaller hf (by rw [hq]; decide)
    rw [hq] at hs
    cases hs
  cases he with
  | take3 hf hact => exact (hacts hf hact).elim
  | take2 hf hact => exact (hacts hf hact).elim
  | reserve hf hact => exact (hacts hf hact).elim
  | buy hf hact => exact (hacts hf hact).elim
  | buyReserved hf hact => exact (hacts hf hact).elim
  | returnMine hf hret =>
    obtain ⟨rfl, -⟩ := hcaller hf (by rw [hret]; decide)
    exact ⟨_, rfl⟩

/-- **Step lemma**: one successful call returns one mine. -/
theorem Returning.effect {g g' : Game} {op : Op} {it n : Nat} {id : Int}
    (h : Returning it id (n + 1) g) (hn : 2 ≤ g.players.length) (he : Effect g op g') :
    (∃ mine, op = .returnMine mine id) ∧ Returning it id n g' := by
  obtain ⟨htok, hp, hs, htotal⟩ := h
  rename_i p
  obtain ⟨k, rfl⟩ := returnMine_of_effect htok hp hs he
  refine ⟨⟨_, rfl⟩, ?_⟩
  generalize hop : Op.returnMine (k : Nat) id = op at he
  cases he with
  | take3 => cases hop
  | take2 => cases hop
  | reserve => cases hop
  | buy => cases hop
  | buyReserved => cases hop
  | @returnMine j q k' player hf hs' hheld =>
    obtain ⟨hk, rfl⟩ := Op.returnMine.inj hop
    have hat := find_at hf
    obtain rfl := htok.eq_of_at hat (by rw [hs']; decide)
    obtain ⟨-, rfl⟩ := Prod.mk.inj (Option.some.inj (hat.symm.trans hp))
    have htok' : TokenAt (g.setMines j (bump q.mineCount k' (-1)) (bump g.bank k' 1)) j :=
      htok.congr (view_setMines (fun _ _ => rfl) _ _)
    have hp' := hat.setMines (bump q.mineCount k' (-1)) (bump g.bank k' 1)
    have htotal' : Player.totalMineCount { q with mineCount := bump q.mineCount k' (-1) } =
        10 + n := by
      rw [totalMineCount_eq, total_bump, ← totalMineCount_eq, htotal]
      omega
    dsimp only
    cases n with
    | zero =>
      rw [if_pos (by rw [htotal']; decide)]
      obtain ⟨hkept, hnext⟩ := hp'.handOver htok' (by rwa [players_setMines, length_modifyPlayer])
      exact .done ⟨⟨_, hkept, htotal', rfl⟩, hnext⟩
    | succ n =>
      rw [if_neg (by rw [htotal']; omega)]
      exact .more htok' hp' hs' (by rw [htotal']; rfl)

/-- **Run lemma**: as many successful calls as there are mines to return. -/
theorem Returning.run {g g' : Game} {it n : Nat} {id : Int} {ok : Game → Op → Prop}
    {h : List (Entry Game Op Bool)} (hg : Returning it id n g) (hn : 2 ≤ g.ids.length)
    (hr : Run Game.step ok g h g') (hle : h.countP Entry.out ≤ n) :
    g'.ids = g.ids ∧ Returning it id (n - h.countP Entry.out) g' ∧
      ∀ e ∈ h, e.out = true → ∃ mine, e.act = .returnMine mine id := by
  induction hr with
  | nil => exact ⟨rfl, hg, fun e he => absurd he List.not_mem_nil⟩
  | @snoc l g₁ g₂ op b hl hok hstep ih =>
    rw [List.countP_append, List.countP_singleton] at hle ⊢
    rcases step_cases hstep with ⟨rfl, rfl⟩ | ⟨rfl, he⟩
    · rw [if_neg Bool.false_ne_true, Nat.add_zero] at hle ⊢
      obtain ⟨hids, hret, hacts⟩ := ih hle
      refine ⟨hids, hret, ?_⟩
      intro e he hout
      rcases List.mem_append.mp he with he | he
      · exact hacts e he hout
      · obtain rfl := List.mem_singleton.mp he
        cases hout
    · rw [if_pos rfl] at hle ⊢
      obtain ⟨hids, hret, hacts⟩ := ih (Nat.le_of_succ_le hle)
      rw [show n - l.countP Entry.out = n - (l.countP Entry.out + 1) + 1 by omega] at hret
      obtain ⟨hop, hret'⟩ := hret.effect (by rwa [← length_ids, hids]) he
      refine ⟨(ids_effect he).trans hids, hret', ?_⟩
      intro e he hout
      rcases List.mem_append.mp he with he | he
      · exact hacts e he hout
      · obtain rfl := List.mem_singleton.mp he
        exact hop

/-- The players of a run are those it started with. -/
theorem run_ids {g₀ g : Game} {ok : Game → Op → Prop} {h : List (Entry Game Op Bool)}
    (hr : Run Game.step ok g₀ h g) : g.ids = g₀.ids := by
  induction hr with
  | nil => rfl
  | snoc hl hok hstep ih =>
    rcases step_cases hstep with ⟨-, rfl⟩ | ⟨-, he⟩
    · exact ih
    · exact (ids_effect he).trans ih

/-- **Hand limits and return progress**, in every state that a run reaches: at
most three reserved coupons; at most ten mines unless some have to be returned;
then 11, 12 or 13, some can be returned, and when as many calls have succeeded
as there are mines above ten, they were the player's `return_mine`, whichever
mines were chosen, and the player has ten mines and waits while the next one
acts. -/
theorem limits_hold (ids : List Int) (hids : 2 ≤ ids.length ∧ ids.length ≤ 4) (hnd : ids.Nodup)
    (draw : Nat → Nat) (rank : Int → Nat) {h : List (Entry Game Op Bool)} {g : Game}
    (hr : Run Game.step (fun _ _ => True) (new ids draw rank) h g) :
    ∀ e ∈ g.players,
      e.2.reservedCoupons.length ≤ 3 ∧
      (e.2.status = .waiting ∨ e.2.status = .action → e.2.totalMineCount ≤ 10) ∧
      (e.2.status = .needReturnMine →
        (11 ≤ e.2.totalMineCount ∧ e.2.totalMineCount ≤ 13) ∧
        (∃ mine g', g.step (.returnMine mine e.1) = .ok (true, g')) ∧
        ∃ it, g.ids[it]? = some e.1 ∧
          ∀ h' g', Run Game.step (fun _ _ => True) g h' g' →
            (h'.countP Entry.out : Int) = e.2.totalMineCount - 10 →
            (∀ x ∈ h', x.out = true → ∃ mine, x.act = .returnMine mine e.1) ∧
            TurnPassed it e.1 g') := by
  have hg : Limits (new ids draw rank).bank g :=
    hr.invariant (limits_new hids hnd draw rank) fun _ _ _ _ h _ hs => h.step hs
  have hperm := ids_new_perm draw rank hnd
  have hids' := run_ids hr
  have hnd' : g.ids.Nodup := by
    rw [hids']
    exact hperm.nodup_iff.mpr hnd
  have hlen : 2 ≤ g.ids.length := by
    rw [hids', hperm.length_eq]
    exact hids.1
  intro e he
  obtain ⟨hreserved, hmines, hfull⟩ := hg.within e he
  refine ⟨hreserved, ?_, ?_⟩
  · intro hs
    by_contra hlt
    have hneed := hfull.mpr (Int.not_le.mp hlt)
    rw [hneed] at hs
    rcases hs with hs | hs <;> cases hs
  · intro hs
    have hlt : 10 < e.2.totalMineCount := hfull.mp hs
    obtain ⟨it, htok⟩ := hg.token
    obtain ⟨j, hj⟩ := List.getElem?_of_mem he
    have hat : g.At j e.1 e.2 := hj
    obtain rfl := htok.eq_of_at hat (by rw [hs]; decide)
    refine ⟨⟨hlt, hmines⟩, ?_, j, hat.id_at, ?_⟩
    · obtain ⟨k, hk⟩ := exists_held (v := e.2.mineCount) (by rw [← totalMineCount_eq]; omega)
      exact ⟨_, _, step_of_effect (.returnMine (hat.find hnd') hs hk)⟩
    · intro h' g' hr' hcount
      obtain ⟨n, hn⟩ : ∃ n : Nat, e.2.totalMineCount = 10 + (n + 1) :=
        ⟨(e.2.totalMineCount - 11).toNat, by omega⟩
      have hret : Returning j e.1 (n + 1) g := .more htok hat hs hn
      have hcount' : h'.countP Entry.out = n + 1 := by omega
      obtain ⟨-, hdone, hacts⟩ := hret.run hlen hr' hcount'.le
      rw [hcount', Nat.sub_self] at hdone
      cases hdone with
      | done hpassed => exact ⟨hacts, hpassed⟩

/-- Player 1 takes a twelfth mine, and can return one. -/
theorem limits_hold_two : ∃ h g p,
    Run Game.step (fun _ _ => True) (new [1, 2] (fun _ => 0) Int.toNat) h g ∧
      h.map Entry.act = [.take3Mines 0 1 2 1, .reserveCoupon 90 2, .take3Mines 3 4 0 1,
        .reserveCoupon 38 2, .take3Mines 1 2 3 1, .reserveCoupon 1 2, .take3Mines 4 0 1 1] ∧
      (1, p) ∈ g.players ∧ p.totalMineCount = 12 ∧
      ∃ mine g', g.step (.returnMine mine 1) = .ok (true, g') := by
  have hcheck : ((execIf Game.step (fun _ _ => True) (new [1, 2] (fun _ => 0) Int.toNat)
      [.take3Mines 0 1 2 1, .reserveCoupon 90 2, .take3Mines 3 4 0 1, .reserveCoupon 38 2,
        .take3Mines 1 2 3 1, .reserveCoupon 1 2, .take3Mines 4 0 1 1]).bind fun g =>
      (g.find 1).map fun r => (r.2.status, r.2.totalMineCount)) = some (.needReturnMine, 12) := by
    decide +kernel
  obtain ⟨g, hg, hfind⟩ := Option.bind_eq_some_iff.mp hcheck
  obtain ⟨⟨it, p⟩, hf, heq⟩ := Option.map_eq_some_iff.mp hfind
  obtain ⟨hs, htotal⟩ := Prod.mk.inj heq
  obtain ⟨h, hr, hacts⟩ := run_of_execIf .nil hg
  have hlimits := limits_hold [1, 2] (by decide) (by decide) (fun _ => 0) Int.toNat hr (1, p)
    (find_at hf).mem
  exact ⟨h, g, p, hr, hacts, (find_at hf).mem, htotal, (hlimits.2.2 hs).2.1⟩

end Game

end UnoppServer.Splendor
