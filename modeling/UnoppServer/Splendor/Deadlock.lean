import UnoppServer.Splendor.Idle
import UnoppServer.Splendor.Limits

/-!
# Splendor: positions without a move

There is no operation that passes, so the player whose turn it is has to take,
reserve, buy or return something. `Stuck` lists when none of these is possible:
the player acts, three coupons are reserved, less than three piles of the five
kinds of mines are left and none of four, and no coupon on the board or in the
reserve can be paid.

- `InPlay`, `InPlay.effect`: all coupons are from the table or placeholders,
  also after placeholders have been reserved;
- `stuck_iff`: who is stuck has no successful call, and the converse;
- `moves_unless_stuck`: both for every run;
- `deadlock_three`: a game of three players in which somebody is stuck.
-/

namespace UnoppServer.Splendor

open FindIf Runs

/-- A coupon of the table, or a placeholder. -/
def Coupon.Known (c : Coupon) : Prop := c ∈ allCoupons ∨ c = Coupon.empty c.level

/-- What is known, under the index of a coupon of the table, is that coupon. -/
theorem Coupon.Known.eq_of_idx {c d : Coupon} (hc : c ∈ allCoupons) (hd : d.Known)
    (hidx : d.idx = c.idx) : d = c := by
  rcases hd with hd | hd
  · have hnd : (allCoupons.map Coupon.idx).Nodup := by
      rw [allCoupons_idx]
      exact List.nodup_range' 1
    exact List.inj_on_of_nodup_map hnd hd hc hidx
  · rw [hd] at hidx
    have hpos := (allCoupons_genuine c hc).idx.1
    rw [← hidx] at hpos
    cases hpos

theorem Coupon.Known.mem_of_type {c : Coupon} (h : c.Known) (ht : c.type ≠ .gold) :
    c ∈ allCoupons := by
  rcases h with h | h
  · exact h
  · rw [h] at ht
    exact absurd rfl ht

/-- A known coupon is found under its own index. -/
theorem Coupon.Known.hasIdx {c : Coupon} (h : c.Known) : c.hasIdx (c.idx : Nat) = true := by
  have hle : c.idx ≤ 90 := by
    rcases h with h | h
    · exact (allCoupons_genuine c h).idx.2
    · rw [h]
      exact Nat.zero_le 90
  unfold Coupon.hasIdx
  rw [decide_eq_true_eq]
  omega

namespace Game

/-! ## The coupons in play -/

/-- A board with coupons, all of them and those of the deck known. -/
structure Stock (b : List Coupon × List Coupon) : Prop where
  nonempty : b.1 ≠ []
  slots : ∀ c ∈ b.1, c.Known
  deck : ∀ c ∈ b.2, c.Known

/-- All coupons on the board, in the deck and in the reserves are known. -/
structure InPlay (g : Game) : Prop where
  stock : Stock g.board
  reserved : ∀ l ∈ g.view Player.reservedCoupons, ∀ c ∈ l, c.Known

theorem InPlay.congr {g g' : Game} (h : InPlay g) (hb : g'.board = g.board)
    (hv : g'.view Player.reservedCoupons = g.view Player.reservedCoupons) : InPlay g' := by
  constructor
  case stock => rw [hb]; exact h.stock
  case reserved => rw [hv]; exact h.reserved

/-- Refilling a slot. -/
theorem Stock.fillCoupon {g : Game} (h : Stock g.board) (level : Int) (slot : Nat) :
    Stock (g.fillCoupon level slot).board := by
  obtain ⟨hne, hslots, hdeck⟩ := h
  have hset (d : Coupon) : g.coupons.set slot d ≠ [] := by
    intro hnil
    have hlen := congrArg List.length hnil
    rw [List.length_set] at hlen
    exact hne (List.eq_nil_of_length_eq_zero hlen)
  rcases fillCoupon_cases g level slot with ⟨k, d, hk, -, hboard⟩ | ⟨-, hboard⟩
  · rw [hboard]
    refine ⟨hset d, ?_, fun c hc => hdeck c (List.mem_of_mem_eraseIdx hc)⟩
    intro c hc
    rcases List.mem_or_eq_of_mem_set hc with hc | rfl
    · exact hslots c hc
    · exact hdeck c (List.mem_of_getElem? hk)
  · rw [hboard]
    refine ⟨hset _, ?_, hdeck⟩
    intro c hc
    rcases List.mem_or_eq_of_mem_set hc with hc | rfl
    · exact hslots c hc
    · exact .inr rfl

/-- **Step lemma**: no call brings an unknown coupon into play. -/
theorem InPlay.effect {g g' : Game} {op : Op} (h : InPlay g) (he : Effect g op g') : InPlay g' := by
  have hstatus : ∀ (p : Player) (s : Status),
      Player.reservedCoupons { p with status := s } = p.reservedCoupons := fun _ _ => rfl
  have hmines : ∀ (p : Player) (v : Vector Int 6),
      Player.reservedCoupons { p with mineCount := v } = p.reservedCoupons := fun _ _ => rfl
  have hrep : ∀ (p : Player) (r : Int),
      Player.reservedCoupons { p with reputation := r } = p.reservedCoupons := fun _ _ => rfl
  cases he with
  | take3 hf hs hd hstock hgold =>
    refine h.congr (by simp [after3]) ?_
    rw [view_record, view_handOverUnlessFull hstatus]
    exact view_setMines hmines _ _
  | take2 hf hs hstock hgold =>
    refine h.congr (by simp) ?_
    rw [view_record, view_handOverUnlessFull hstatus]
    exact view_setMines hmines _ _
  | @reserve it p slot c couponIdx player hf hs hroom hslot =>
    constructor
    case stock =>
      rw [board_handOverUnlessFull, board_afterReserve]
      exact Stock.fillCoupon (g := (g.modifyPlayer it _).record _) h.stock c.level slot
    case reserved =>
      intro l hl d hd
      rw [view_handOverUnlessFull hstatus, view_afterReserve hmines] at hl
      rcases mem_view_modify (find_at hf) hl with hl | rfl
      · exact h.reserved l hl d hd
      · rcases List.mem_append.mp hd with hd | hd
        · exact h.reserved _ (List.mem_map.mpr ⟨_, (find_at hf).mem, rfl⟩) d hd
        · rw [List.mem_singleton.mp hd]
          exact h.stock.slots c (findIf_mem hslot)
  | @buy it p slot c t couponIdx player hf hs hslot hafford ht =>
    constructor
    case stock =>
      rw [board_checkAlly, board_handOver]
      exact Stock.fillCoupon (g := g.afterBuy it p c t "BUY_COUPON" player) h.stock c.level slot
    case reserved =>
      have hview : (g.modifyPlayer it (bought p c t g.bank)).view Player.reservedCoupons =
          g.view Player.reservedCoupons := view_modifyPlayer fun _ => rfl
      rw [view_buy hstatus hrep, hview]
      exact h.reserved
  | @buyReserved it p slot c t couponIdx player hf hs hslot hafford ht =>
    refine ⟨h.stock, ?_⟩
    intro l hl d hd
    rw [view_buyReserved hstatus hrep] at hl
    rcases mem_view_modify (find_at hf) hl with hl | rfl
    · exact h.reserved l hl d hd
    · exact h.reserved _ (List.mem_map.mpr ⟨_, (find_at hf).mem, rfl⟩) d
        (List.mem_of_mem_eraseIdx hd)
  | returnMine hf hs hheld =>
    refine h.congr ?_ ?_
    · simp only
      split <;> rfl
    · simp only
      split
      · rw [view_handOver hstatus]
        exact view_setMines hmines _ _
      · exact view_setMines hmines _ _

theorem InPlay.step {g g' : Game} {op : Op} {b : Bool} (h : InPlay g)
    (hs : g.step op = .ok (b, g')) : InPlay g' := by
  rcases step_cases hs with ⟨-, rfl⟩ | ⟨-, he⟩
  · exact h
  · exact h.effect he

/-- All coupons of a game are known. -/
theorem CardsInv.inPlay {g : Game} (h : CardsInv g) : InPlay g := by
  have hreal {c : Coupon} (hc : c ∈ g.cards) (hr : c.IsReal) : c.Known := by
    have hmem : c ∈ g.cards.filter Coupon.IsReal := Multiset.mem_filter.mpr ⟨hc, hr⟩
    rw [h.cards] at hmem
    exact .inl hmem
  refine ⟨⟨?_, ?_, ?_⟩, ?_⟩
  · intro hnil
    have hlevels := h.levels
    rw [show g.coupons = [] from hnil] at hlevels
    cases hlevels
  · intro c hc
    by_cases hr : c.IsReal
    · exact hreal (mem_cards_of_board hc) hr
    · exact .inr (h.empty c hc hr).1
  · intro c hc
    refine hreal ?_ (h.rest c hc)
    exact Multiset.mem_add.mpr (.inl (Multiset.mem_add.mpr (.inr hc)))
  · intro l hl c hc
    obtain ⟨e, he, rfl⟩ := List.mem_map.mp hl
    have hhand : hand e.2 ∈ g.view hand := List.mem_map.mpr ⟨e, he, rfl⟩
    have hmem : c ∈ hand e.2 := Multiset.mem_add.mpr (.inr hc)
    exact hreal (mem_cards_of_hand hhand hmem) (h.hands _ hhand c hmem)

/-! ## Stuck players -/

/-- The player acts and no operation is possible. -/
structure Stuck (g : Game) (p : Player) : Prop where
  status : p.status = .action
  full : 3 ≤ p.reservedCoupons.length
  piles : fiveMines.countP (fun k => decide (g.bank.get k.castSucc ≠ 0)) < 3
  low : ∀ k : Fin 5, g.bank.get k.castSucc < 4
  poor : ∀ c ∈ g.coupons ++ p.reservedCoupons, c.type ≠ .gold → checkAffordabillity p c = false

theorem Stuck.iff_and {g : Game} {p : Player} : Stuck g p ↔
    p.status = .action ∧ 3 ≤ p.reservedCoupons.length ∧
      fiveMines.countP (fun k => decide (g.bank.get k.castSucc ≠ 0)) < 3 ∧
      (∀ k : Fin 5, g.bank.get k.castSucc < 4) ∧
      ∀ c ∈ g.coupons ++ p.reservedCoupons, c.type ≠ .gold → checkAffordabillity p c = false :=
  ⟨fun h => ⟨h.status, h.full, h.piles, h.low, h.poor⟩,
    fun ⟨h₁, h₂, h₃, h₄, h₅⟩ => ⟨h₁, h₂, h₃, h₄, h₅⟩⟩

instance (g : Game) (p : Player) : Decidable (Stuck g p) := decidable_of_iff _ Stuck.iff_and.symm

/-- Three different piles that are not empty. -/
theorem three_piles_iff {g : Game} :
    3 ≤ fiveMines.countP (fun k => decide (g.bank.get k.castSucc ≠ 0)) ↔
      ∃ k₀ k₁ k₂ : Fin 5, (k₀ ≠ k₁ ∧ k₁ ≠ k₂ ∧ k₂ ≠ k₀) ∧ g.bank.get k₀.castSucc ≠ 0 ∧
        g.bank.get k₁.castSucc ≠ 0 ∧ g.bank.get k₂.castSucc ≠ 0 := by
  have hmem {k : Fin 5} :
      k ∈ fiveMines.filter (fun k => decide (g.bank.get k.castSucc ≠ 0)) ↔
        g.bank.get k.castSucc ≠ 0 := by
    rw [List.mem_filter, decide_eq_true_eq]
    refine and_iff_right ?_
    revert k
    decide
  have hnd : (fiveMines.filter fun k => decide (g.bank.get k.castSucc ≠ 0)).Nodup :=
    List.Nodup.filter _ (by decide)
  rw [List.countP_eq_length_filter]
  generalize fiveMines.filter (fun k => decide (g.bank.get k.castSucc ≠ 0)) = l at hmem hnd
  constructor
  · intro hlen
    match l with
    | [] | [_] | [_, _] => simp at hlen
    | k₀ :: k₁ :: k₂ :: rest =>
      simp only [List.nodup_cons, List.mem_cons, not_or] at hnd
      obtain ⟨⟨h₀₁, h₀₂, -⟩, ⟨h₁₂, -⟩, -⟩ := hnd
      exact ⟨k₀, k₁, k₂, ⟨h₀₁, h₁₂, Ne.symm h₀₂⟩, hmem.mp (by simp), hmem.mp (by simp),
        hmem.mp (by simp)⟩
  · rintro ⟨k₀, k₁, k₂, ⟨h₀₁, h₁₂, h₂₀⟩, h₀, h₁, h₂⟩
    have hthree : [k₀, k₁, k₂].Nodup := by simp [h₀₁, h₁₂, Ne.symm h₂₀]
    have hsub : [k₀, k₁, k₂] ⊆ l := by
      intro k hk
      simp only [List.mem_cons, List.not_mem_nil, or_false] at hk
      rcases hk with rfl | rfl | rfl
      · exact hmem.mpr h₀
      · exact hmem.mpr h₁
      · exact hmem.mpr h₂
    exact (List.subperm_of_subset hthree hsub).length_le

/-- Who is stuck has no successful call. -/
theorem Stuck.not_passes {g : Game} {it : Nat} {id : Int} {p : Player} (h : Stuck g p)
    (hf : g.find id = some (it, p)) {op : Op} (hop : op.player = id) : ¬ op.Passes g := by
  obtain ⟨hs, hfull, hpiles, hlow, hpoor⟩ := h
  subst hop
  -- the player that a check speaks about is this one
  have hself {j : Nat} {q : Player} (hq : g.find op.player = some (j, q)) : q = p :=
    (Prod.mk.inj (Option.some.inj (hq.symm.trans hf))).2
  have hpile {k : Fin 6} (hk : k ≠ goldIdx) : ∃ j : Fin 5, j.castSucc = k :=
    Fin.exists_castSucc_eq.mpr hk
  intro hpass
  cases op with
  | take3Mines m₀ m₁ m₂ player =>
    obtain ⟨j, q, hq, -, hd, ⟨⟨k₀, rfl, h₀⟩, ⟨k₁, rfl, h₁⟩, k₂, rfl, h₂⟩, hgold⟩ := hpass
    simp only [not_or] at hd hgold
    obtain ⟨j₀, rfl⟩ := hpile (natCast_ne (j := goldIdx) hgold.1)
    obtain ⟨j₁, rfl⟩ := hpile (natCast_ne (j := goldIdx) hgold.2.1)
    obtain ⟨j₂, rfl⟩ := hpile (natCast_ne (j := goldIdx) hgold.2.2)
    refine absurd (three_piles_iff.mpr ⟨j₀, j₁, j₂, ?_, h₀, h₁, h₂⟩) (Nat.not_le.mpr hpiles)
    refine ⟨?_, ?_, ?_⟩
    · rintro rfl
      exact hd.1 rfl
    · rintro rfl
      exact hd.2.1 rfl
    · rintro rfl
      exact hd.2.2 rfl
  | take2Mines mine player =>
    obtain ⟨j, q, hq, -, ⟨k, rfl, hstock⟩, hgold⟩ := hpass
    obtain ⟨i, rfl⟩ := hpile (natCast_ne (j := goldIdx) hgold)
    exact absurd (hlow i) (Int.not_lt.mpr hstock)
  | reserveCoupon couponIdx player =>
    obtain ⟨j, q, hq, -, hroom, -⟩ := hpass
    rw [hself hq] at hroom
    omega
  | buyCoupon couponIdx player =>
    obtain ⟨j, q, hq, -, slot, c, hslot, hafford, htype⟩ := hpass
    rw [hself hq, hpoor c (List.mem_append_left _ (findIf_mem hslot)) htype] at hafford
    cases hafford
  | buyReservedCoupon couponIdx player =>
    obtain ⟨j, q, hq, -, slot, c, hslot, hafford, htype⟩ := hpass
    rw [hself hq] at hslot hafford
    rw [hpoor c (List.mem_append_right _ (findIf_mem hslot)) htype] at hafford
    cases hafford
  | returnMine mine player =>
    obtain ⟨j, q, hq, hret, -⟩ := hpass
    rw [hself hq, hs] at hret
    cases hret

/-- A coupon of the table is found under its index. -/
theorem exists_findIf_hasIdx {c : Coupon} {l : List Coupon} (hc : c ∈ l) (hl : ∀ d ∈ l, d.Known)
    (htype : c.type ≠ .gold) :
    ∃ slot, findIf (fun d => d.hasIdx (c.idx : Nat)) l = some (slot, c) := by
  have hknown := hl c hc
  obtain ⟨slot, d, hslot⟩ := exists_findIf (p := fun d => d.hasIdx (c.idx : Nat)) hc hknown.hasIdx
  have hidx : d.idx = c.idx :=
    (of_decide_eq_true (findIf_eq_some hslot).2).trans (of_decide_eq_true hknown.hasIdx).symm
  have heq := Coupon.Known.eq_of_idx (hknown.mem_of_type htype) (hl d (findIf_mem hslot)) hidx
  exact ⟨slot, by rw [hslot, heq]⟩

/-- The five piles are not that of gold. -/
theorem natCast_castSucc_ne_gold (k : Fin 5) : ¬ ((k.castSucc : Nat) : Int) = gold :=
  natCast_ne_of_ne (j := goldIdx) (castSucc_ne_gold k)

/-- Three different piles that are not empty can be taken from. -/
theorem passes_take3Mines {g : Game} {it : Nat} {id : Int} {p : Player}
    (hf : g.find id = some (it, p)) (hact : p.status = .action) {k₀ k₁ k₂ : Fin 5}
    (hd : k₀ ≠ k₁ ∧ k₁ ≠ k₂ ∧ k₂ ≠ k₀) (h₀ : g.bank.get k₀.castSucc ≠ 0)
    (h₁ : g.bank.get k₁.castSucc ≠ 0) (h₂ : g.bank.get k₂.castSucc ≠ 0) :
    Op.Passes g (.take3Mines (k₀.castSucc : Nat) (k₁.castSucc : Nat) (k₂.castSucc : Nat) id) := by
  have hne {j k : Fin 5} (h : j ≠ k) : ¬ ((j.castSucc : Nat) : Int) = (k.castSucc : Nat) :=
    natCast_ne_of_ne fun hjk => h (Fin.castSucc_inj.mp hjk)
  refine ⟨it, p, hf, hact, ?_, ⟨⟨_, rfl, h₀⟩, ⟨_, rfl, h₁⟩, _, rfl, h₂⟩, ?_⟩
  · rintro (h | h | h)
    · exact hne hd.1 h
    · exact hne hd.2.1 h
    · exact hne hd.2.2 h
  · rintro (h | h | h)
    · exact natCast_castSucc_ne_gold k₀ h
    · exact natCast_castSucc_ne_gold k₁ h
    · exact natCast_castSucc_ne_gold k₂ h

/-- **Who is stuck has no successful call, and the converse.** -/
theorem stuck_iff {g : Game} {it : Nat} {id : Int} {p : Player} (hin : InPlay g)
    (hw : Within p) (hf : g.find id = some (it, p))
    (hs : p.status = .action ∨ p.status = .needReturnMine) :
    Stuck g p ↔ ∀ op : Op, op.player = id → ¬ op.Passes g := by
  constructor
  · intro h op hop
    exact h.not_passes hf hop
  · intro hno
    have hact : p.status = .action := by
      refine hs.resolve_right fun hret => ?_
      have htotal : 0 < total p.mineCount := by
        rw [← totalMineCount_eq]
        have := hw.full.mp hret
        omega
      obtain ⟨k, hk⟩ := exists_held htotal
      exact hno (.returnMine (k : Nat) id) rfl ⟨it, p, hf, hret, k, rfl, hk⟩
    constructor
    case status => exact hact
    case full =>
      by_contra hroom
      obtain ⟨hne, hslots, -⟩ := hin.stock
      obtain ⟨c, hc⟩ := List.exists_mem_of_ne_nil _ hne
      obtain ⟨slot, d, hslot⟩ := exists_findIf (p := fun d => d.hasIdx (c.idx : Nat)) hc
        (hslots c hc).hasIdx
      exact hno (.reserveCoupon (c.idx : Nat) id) rfl
        ⟨it, p, hf, hact, by omega, slot, d, hslot⟩
    case piles =>
      by_contra hpiles
      obtain ⟨k₀, k₁, k₂, hd, h₀, h₁, h₂⟩ := three_piles_iff.mp (Nat.not_lt.mp hpiles)
      exact hno (.take3Mines (k₀.castSucc : Nat) (k₁.castSucc : Nat) (k₂.castSucc : Nat) id) rfl
        (passes_take3Mines hf hact hd h₀ h₁ h₂)
    case low =>
      intro k
      by_contra hstock
      exact hno (.take2Mines (k.castSucc : Nat) id) rfl
        ⟨it, p, hf, hact, ⟨_, rfl, Int.not_lt.mp hstock⟩, natCast_castSucc_ne_gold k⟩
    case poor =>
      intro c hc htype
      by_contra hafford
      have hpays : checkAffordabillity p c = true := Bool.eq_true_of_not_eq_false hafford
      rcases List.mem_append.mp hc with hc | hc
      · obtain ⟨slot, hslot⟩ := exists_findIf_hasIdx hc hin.stock.slots htype
        exact hno (.buyCoupon (c.idx : Nat) id) rfl ⟨it, p, hf, hact, slot, c, hslot, hpays, htype⟩
      · have hview : p.reservedCoupons ∈ g.view Player.reservedCoupons :=
          List.mem_map.mpr ⟨_, (find_at hf).mem, rfl⟩
        obtain ⟨slot, hslot⟩ := exists_findIf_hasIdx hc (hin.reserved _ hview) htype
        exact hno (.buyReservedCoupon (c.idx : Nat) id) rfl
          ⟨it, p, hf, hact, slot, c, hslot, hpays, htype⟩

/-- **Progress**: in every state that a run reaches, exactly one player does not
wait, and some call of that player succeeds unless the player is stuck. -/
theorem moves_unless_stuck (ids : List Int) (hids : 2 ≤ ids.length ∧ ids.length ≤ 4)
    (hnd : ids.Nodup) (draw : Nat → Nat) (rank : Int → Nat) {h : List (Entry Game Op Bool)}
    {g : Game} (hr : Run Game.step (fun _ _ => True) (new ids draw rank) h g) :
    OneToken g ∧ ∀ e ∈ g.players, e.2.status ≠ .waiting →
      ((∃ op g', Op.player op = e.1 ∧ g.step op = .ok (true, g')) ↔ ¬ Stuck g e.2) := by
  have hlimits : Limits (new ids draw rank).bank g :=
    hr.invariant (limits_new hids hnd draw rank) fun _ _ _ _ h _ hs => h.step hs
  have hin : InPlay g :=
    hr.invariant (cardsInv_new ids draw rank).inPlay fun _ _ _ _ h _ hs => h.step hs
  have hnd' : g.ids.Nodup := by
    rw [run_ids hr]
    exact (ids_new_perm draw rank hnd).nodup_iff.mpr hnd
  have hone := hlimits.token.oneToken
  refine ⟨hone, ?_⟩
  intro e he hs
  obtain ⟨it, hit⟩ := List.getElem?_of_mem he
  have hat : g.At it e.1 e.2 := hit
  rw [stuck_iff hin (hlimits.within e he) (hat.find hnd') ((hone.kind e he).resolve_left hs)]
  constructor
  · rintro ⟨op, g', hop, hstep⟩ hno
    rcases step_cases hstep with ⟨hfalse, -⟩ | ⟨-, heff⟩
    · cases hfalse
    · exact hno op hop (exists_effect_iff.mp ⟨g', heff⟩)
  · intro hsome
    by_contra hno
    refine hsome fun op hop hpass => hno ?_
    obtain ⟨g', heff⟩ := exists_effect_iff.mpr hpass
    exact ⟨op, g', hop, step_of_effect heff⟩

/-! ## A game in which somebody is stuck -/

/-- Two players take mines while the third reserves coupons. -/
def deadlockGame : List Op :=
  [.take3Mines 0 2 3 1, .take3Mines 0 1 3 2, .reserveCoupon 90 3, .take3Mines 0 2 3 1,
    .take3Mines 0 2 3 2, .reserveCoupon 72 3, .take3Mines 0 2 3 1, .take3Mines 1 2 4 2,
    .reserveCoupon 69 3, .take2Mines 4 1, .returnMine 4 1, .reserveCoupon 1 2]

/-- Player 3 of three gets stuck. -/
theorem run_deadlockGame : ∃ h g it p,
    Run Game.step (fun _ _ => True) (new [1, 2, 3] (fun _ => 0) Int.toNat) h g ∧
      h.map Entry.act = deadlockGame ∧ g.find 3 = some (it, p) ∧ Stuck g p := by
  have hcheck : ((execIf Game.step (fun _ _ => True) (new [1, 2, 3] (fun _ => 0) Int.toNat)
      deadlockGame).any fun g => (g.find 3).any fun r => decide (Stuck g r.2)) = true := by
    decide +kernel
  obtain ⟨g, hg, hplayer⟩ := (Option.any_eq_true _ _).mp hcheck
  obtain ⟨⟨it, p⟩, hf, hstuck⟩ := (Option.any_eq_true _ _).mp hplayer
  obtain ⟨h, hr, hacts⟩ := run_of_execIf .nil hg
  exact ⟨h, g, it, p, hr, hacts, hf, of_decide_eq_true hstuck⟩

/-- After these calls it is the turn of player 3, none of whose calls succeeds. -/
theorem deadlock_three : ∃ h g p,
    Run Game.step (fun _ _ => True) (new [1, 2, 3] (fun _ => 0) Int.toNat) h g ∧
      h.map Entry.act = deadlockGame ∧ (3, p) ∈ g.players ∧ p.status = .action ∧
      ∀ op g', Op.player op = 3 → g.step op ≠ .ok (true, g') := by
  obtain ⟨h, g, it, p, hr, hacts, hf, hstuck⟩ := run_deadlockGame
  refine ⟨h, g, p, hr, hacts, (find_at hf).mem, hstuck.status, ?_⟩
  intro op g' hop hstep
  rcases step_cases hstep with ⟨hfalse, -⟩ | ⟨-, heff⟩
  · cases hfalse
  · exact hstuck.not_passes hf hop (exists_effect_iff.mp ⟨g', heff⟩)

/-- The stuck player has the token and no move. -/
theorem moves_unless_stuck_three : ∃ h g p,
    Run Game.step (fun _ _ => True) (new [1, 2, 3] (fun _ => 0) Int.toNat) h g ∧
      h.map Entry.act = deadlockGame ∧ (3, p) ∈ g.players ∧ OneToken g ∧
      ((∃ op g', Op.player op = 3 ∧ g.step op = .ok (true, g')) ↔ ¬ Stuck g p) := by
  obtain ⟨h, g, it, p, hr, hacts, hf, hstuck⟩ := run_deadlockGame
  obtain ⟨hone, hmoves⟩ := moves_unless_stuck [1, 2, 3] (by decide) (by decide) (fun _ => 0)
    Int.toNat hr
  exact ⟨h, g, p, hr, hacts, (find_at hf).mem, hone,
    hmoves _ (find_at hf).mem (by rw [hstuck.status]; decide)⟩
end Game

end UnoppServer.Splendor
