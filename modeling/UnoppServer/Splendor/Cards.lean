import Mathlib.Algebra.Order.Group.Multiset
import Mathlib.Data.Multiset.OrderedMonoid
import Mathlib.Algebra.Order.BigOperators.Group.List
import UnoppServer.Lib.Runs
import UnoppServer.Splendor.Completion
import UnoppServer.Splendor.Frame

/-!
# Splendor: the ninety coupons and the board

Coupons move from the deck to the board, from the board to a player's hand or
reserve, and from the reserve to the hand. `CardsInv` is the invariant of these
moves: the real coupons in play are the ninety of the table, only the board has
placeholders, every slot keeps its level, and a placeholder stands in a slot
only when the deck has run out of its level.

A placeholder has index 0, since `Coupon::empty` does not set one. The moves
keep the invariant as long as no request names index 0 (`Op.NamesCoupon`); what
happens otherwise is the subject of `UnoppServer.Splendor.Placeholder`.
-/

namespace UnoppServer.Splendor

open FindIf Runs

/-- The requests of a well-behaved client: the mines are enumerators and the
coupons have an index of the table. -/
def Op.InRange : Op → Prop
  | .take3Mines m₀ m₁ m₂ _ =>
    (∃ a : Mine, m₀ = a.toInt) ∧ (∃ b : Mine, m₁ = b.toInt) ∧ ∃ c : Mine, m₂ = c.toInt
  | .take2Mines mine _ | .returnMine mine _ => ∃ a : Mine, mine = a.toInt
  | .reserveCoupon couponIdx _ | .buyCoupon couponIdx _ | .buyReservedCoupon couponIdx _ =>
    1 ≤ couponIdx ∧ couponIdx ≤ 90

/-- A request whose mines are enumerators. -/
def Op.NamesMines : Op → Prop
  | .take3Mines m₀ m₁ m₂ _ => IsMine m₀ ∧ IsMine m₁ ∧ IsMine m₂
  | .take2Mines mine _ | .returnMine mine _ => IsMine mine
  | _ => True

/-- A request for a coupon whose index is not the one placeholders have. -/
def Op.NamesCoupon : Op → Prop
  | .reserveCoupon couponIdx _ | .buyCoupon couponIdx _ | .buyReservedCoupon couponIdx _ =>
    (couponIdx % 4294967296).toNat ≠ 0
  | _ => True

/-- A call in range names mines. -/
theorem Op.InRange.namesMines {op : Op} (h : op.InRange) : op.NamesMines := by
  have hm : ∀ {i : Int}, (∃ a : Mine, i = a.toInt) → IsMine i := by
    rintro i ⟨a, rfl⟩
    exact isMine_toInt a
  cases op with
  | take3Mines m₀ m₁ m₂ player => exact ⟨hm h.1, hm h.2.1, hm h.2.2⟩
  | take2Mines mine player => exact hm h
  | returnMine mine player => exact hm h
  | reserveCoupon | buyCoupon | buyReservedCoupon => trivial

/-- A call in range names a coupon. -/
theorem Op.InRange.namesCoupon {op : Op} (h : op.InRange) : op.NamesCoupon := by
  have hidx : ∀ {i : Int}, 1 ≤ i ∧ i ≤ 90 → (i % 4294967296).toNat ≠ 0 := by
    intro i hi
    omega
  cases op with
  | take3Mines | take2Mines | returnMine => trivial
  | reserveCoupon couponIdx player => exact hidx h
  | buyCoupon couponIdx player => exact hidx h
  | buyReservedCoupon couponIdx player => exact hidx h

namespace Game

/-- The coupons a player has bought or reserved. -/
def hand (p : Player) : Multiset Coupon := ↑p.coupons + ↑p.reservedCoupons

/-- All coupons in play: board, deck and hands. -/
def cards (g : Game) : Multiset Coupon :=
  ↑g.coupons + ↑g.couponsRest + (g.view hand).sum

/-- The levels of the twelve slots. -/
def slotLevels : List Int := [1, 1, 1, 1, 2, 2, 2, 2, 3, 3, 3, 3]

/-- The invariant of the coupons. -/
structure CardsInv (g : Game) : Prop where
  cards : g.cards.filter Coupon.IsReal = ↑allCoupons
  rest : ∀ c ∈ g.couponsRest, c.IsReal
  hands : ∀ h ∈ g.view hand, ∀ c ∈ h, c.IsReal
  levels : g.coupons.map Coupon.level = slotLevels
  empty : ∀ c ∈ g.coupons, ¬ c.IsReal →
    c = Coupon.empty c.level ∧ ∀ d ∈ g.couponsRest, d.level ≠ c.level

/-- The invariant depends on the board, the deck and the hands. -/
theorem CardsInv.congr {g g' : Game} (h : CardsInv g) (hb : g'.board = g.board)
    (hv : g'.view hand = g.view hand) : CardsInv g' := by
  obtain ⟨hb, hr⟩ := Prod.mk.inj hb
  constructor
  case cards =>
    have := h.cards
    unfold Game.cards at this ⊢
    rwa [hb, hr, hv]
  case rest => rw [hr]; exact h.rest
  case hands => rw [hv]; exact h.hands
  case levels => rw [hb]; exact h.levels
  case empty => rw [hb, hr]; exact h.empty

theorem CardsInv.genuine {g : Game} (h : CardsInv g) {c : Coupon} (hc : c ∈ g.cards)
    (hr : c.IsReal) : c.Genuine := by
  have : c ∈ g.cards.filter Coupon.IsReal := Multiset.mem_filter.mpr ⟨hc, hr⟩
  rw [h.cards] at this
  exact allCoupons_genuine c this

theorem mem_cards_of_board {g : Game} {c : Coupon} (h : c ∈ g.coupons) : c ∈ g.cards := by
  simp [cards, h]

theorem mem_cards_of_hand {g : Game} {h : Multiset Coupon} {c : Coupon} (hh : h ∈ g.view hand)
    (hc : c ∈ h) : c ∈ g.cards := by
  refine Multiset.mem_add.mpr (.inr ?_)
  exact Multiset.mem_of_le (List.le_sum_of_mem hh) hc

/-- The index of a coupon that a search finds. -/
theorem idx_of_search {l : List Coupon} {couponIdx : Int} {slot : Nat} {c : Coupon}
    (hs : findIf (fun c => c.hasIdx couponIdx) l = some (slot, c)) :
    c.idx = (couponIdx % 4294967296).toNat := by
  simpa [Coupon.hasIdx] using (findIf_eq_some hs).2

/-- A slot found under an index other than zero holds a real coupon. -/
theorem CardsInv.real_of_idx {g : Game} (h : CardsInv g) {couponIdx : Int} {slot : Nat}
    {c : Coupon} (hn : (couponIdx % 4294967296).toNat ≠ 0)
    (hs : findIf (fun c => c.hasIdx couponIdx) g.coupons = some (slot, c)) : c.IsReal := by
  by_contra hreal
  have hidx := idx_of_search hs
  rw [(h.empty c (findIf_mem hs) hreal).1] at hidx
  exact hn hidx.symm

/-- The converse: what is found under index 0 is not real. -/
theorem CardsInv.not_isReal_of_idx {g : Game} (h : CardsInv g) {couponIdx : Int} {slot : Nat}
    {c : Coupon} (hzero : (couponIdx % 4294967296).toNat = 0)
    (hs : findIf (fun c => c.hasIdx couponIdx) g.coupons = some (slot, c)) : ¬ c.IsReal := by
  intro hc
  have hidx := idx_of_search hs
  have hpos := (h.genuine (mem_cards_of_board (findIf_mem hs)) hc).idx
  omega

/-- Reserved coupons are genuine. -/
theorem CardsInv.genuine_reserved {g : Game} (h : CardsInv g) {it : Nat} {player : Int}
    {p : Player} (hf : g.find player = some (it, p)) {c : Coupon} (hc : c ∈ p.reservedCoupons) :
    c.Genuine := by
  have hh : hand p ∈ g.view hand := List.mem_map.mpr ⟨_, (find_at hf).mem, rfl⟩
  have hch : c ∈ hand p := by simp [hand, hc]
  exact h.genuine (mem_cards_of_hand hh hch) (h.hands _ hh c hch)

/-! ## The moves -/

/-- Giving a coupon to the player at `it`. -/
theorem sum_view_hand_modify {g : Game} {it : Nat} {id : Int} {p : Player} {c : Coupon}
    {f : Player → Player} (hp : g.At it id p) (hf : hand (f p) = c ::ₘ hand p) :
    ((g.modifyPlayer it f).view hand).sum = c ::ₘ (g.view hand).sum := by
  have h := sum_map_modify (f := fun e : Int × Player => hand e.2)
    (g := fun e => (e.1, f e.2)) hp
  simp only [hf] at h
  refine add_right_cancel (b := hand p) ?_
  rw [Multiset.cons_add, ← Multiset.add_cons]
  exact h

/-- The slot gets a coupon of its level from the deck, or a placeholder if there is
none. -/
theorem fillCoupon_cases (g : Game) (level : Int) (slot : Nat) :
    (∃ k d, g.couponsRest[k]? = some d ∧ d.level = level ∧
      (g.fillCoupon level slot).board = (g.coupons.set slot d, g.couponsRest.eraseIdx k)) ∨
    ((∀ d ∈ g.couponsRest, d.level ≠ level) ∧
      (g.fillCoupon level slot).board =
        (g.coupons.set slot (Coupon.empty level), g.couponsRest)) := by
  unfold fillCoupon
  cases hk : findIf (fun c : Coupon => decide (c.level = level)) g.couponsRest with
  | none => exact .inr ⟨fun d hd => by simpa using findIf_eq_none.mp hk d hd, rfl⟩
  | some r =>
    obtain ⟨hget, hlevel⟩ := findIf_eq_some (i := r.1) (a := r.2) hk
    exact .inl ⟨r.1, r.2, hget, by simpa using hlevel, rfl⟩

/-- Refilling slot `slot` after its coupon `c` has been given away. -/
theorem cards_fillCoupon {g : Game} {slot : Nat} {c : Coupon} (hs : g.coupons[slot]? = some c) :
    ∃ l : Multiset Coupon, (∀ d ∈ l, ¬ d.IsReal) ∧
      c ::ₘ (g.fillCoupon c.level slot).cards = l + g.cards := by
  unfold cards
  rw [view_fillCoupon]
  rcases fillCoupon_cases g c.level slot with ⟨k, d, hk, -, hboard⟩ | ⟨-, hboard⟩
  · obtain ⟨hb, hr⟩ := Prod.mk.inj hboard
    refine ⟨0, by simp, ?_⟩
    rw [hb, hr, ← cons_coe_eraseIdx hk, ← Multiset.cons_add, ← Multiset.cons_add,
      cons_coe_set hs d]
    simp only [Multiset.cons_add, Multiset.add_cons, zero_add]
  · obtain ⟨hb, hr⟩ := Prod.mk.inj hboard
    refine ⟨{Coupon.empty c.level}, ?_, ?_⟩
    · intro d hd
      rw [Multiset.mem_singleton.mp hd]
      exact Coupon.not_isReal_empty _
    · rw [hb, hr, ← Multiset.cons_add, ← Multiset.cons_add, cons_coe_set hs]
      simp only [Multiset.cons_add, Multiset.singleton_add]

/-- **Taking a coupon off the board**: a player is given the real coupon of a
slot and the slot is refilled. -/
theorem CardsInv.take {g : Game} (h : CardsInv g) (g₁ : Game) {it slot : Nat} {id : Int}
    {p : Player} {c : Coupon} {f : Player → Player} (hs : g.coupons[slot]? = some c) (hc : c.IsReal)
    (hp : g.At it id p) (hf : hand (f p) = c ::ₘ hand p) (hb : g₁.board = g.board)
    (hv : g₁.view hand = (g.modifyPlayer it f).view hand) :
    CardsInv (g₁.fillCoupon c.level slot) := by
  obtain ⟨hb, hr⟩ := Prod.mk.inj hb
  have hfill := fillCoupon_cases g₁ c.level slot
  rw [hb, hr] at hfill
  constructor
  case cards =>
    obtain ⟨l, hl, hcards⟩ := cards_fillCoupon (g := g₁) (hb ▸ hs)
    have hg₁ : g₁.cards = c ::ₘ g.cards := by
      unfold Game.cards
      rw [hb, hr, hv, sum_view_hand_modify hp hf, Multiset.add_cons]
    have hfil := congrArg (Multiset.filter Coupon.IsReal) hcards
    rw [hg₁, Multiset.filter_add, Multiset.filter_eq_nil.mpr hl, zero_add,
      Multiset.filter_cons_of_pos _ hc, Multiset.filter_cons_of_pos _ hc, h.cards] at hfil
    exact (Multiset.cons_inj_right c).mp hfil
  case rest =>
    intro d hd
    refine h.rest d ?_
    rcases hfill with ⟨k, e, -, -, hboard⟩ | ⟨-, hboard⟩
    · rw [(Prod.mk.inj hboard).2] at hd
      exact List.mem_of_mem_eraseIdx hd
    · rwa [(Prod.mk.inj hboard).2] at hd
  case hands =>
    intro l hl d hd
    rw [view_fillCoupon, hv] at hl
    rcases mem_view_modify hp hl with hl | rfl
    · exact h.hands l hl d hd
    · rw [hf] at hd
      rcases Multiset.mem_cons.mp hd with rfl | hd
      · exact hc
      · exact h.hands _ (List.mem_map.mpr ⟨_, hp.mem, rfl⟩) d hd
  case levels =>
    rcases hfill with ⟨k, e, -, hlevel, hboard⟩ | ⟨-, hboard⟩
    · rw [(Prod.mk.inj hboard).1, map_set_of_eq hs hlevel, h.levels]
    · rw [(Prod.mk.inj hboard).1, map_set_of_eq hs (b := Coupon.empty c.level) rfl, h.levels]
  case empty =>
    intro d hd hreal
    rcases hfill with ⟨k, e, hk, -, hboard⟩ | ⟨hnone, hboard⟩
    · rw [(Prod.mk.inj hboard).1] at hd
      rw [(Prod.mk.inj hboard).2]
      rcases List.mem_or_eq_of_mem_set hd with hd | rfl
      · obtain ⟨he, hne⟩ := h.empty d hd hreal
        exact ⟨he, fun x hx => hne x (List.mem_of_mem_eraseIdx hx)⟩
      · exact absurd (h.rest d (List.mem_of_getElem? hk)) hreal
    · rw [(Prod.mk.inj hboard).1] at hd
      rw [(Prod.mk.inj hboard).2]
      rcases List.mem_or_eq_of_mem_set hd with hd | rfl
      · exact h.empty d hd hreal
      · exact ⟨rfl, hnone⟩

theorem hand_status (p : Player) (s : Status) : hand { p with status := s } = hand p := rfl

theorem hand_mineCount (p : Player) (v : Vector Int 6) : hand { p with mineCount := v } = hand p :=
  rfl

theorem hand_reputation (p : Player) (r : Int) : hand { p with reputation := r } = hand p := rfl

theorem hand_buy (p : Player) (c : Coupon) :
    hand { p with coupons := p.coupons ++ [c] } = c ::ₘ hand p := by
  simp only [hand, ← Multiset.coe_add, Multiset.coe_singleton]
  rw [add_right_comm, add_comm, Multiset.singleton_add]

theorem hand_reserve (p : Player) (c : Coupon) :
    hand { p with reservedCoupons := p.reservedCoupons ++ [c] } = c ::ₘ hand p := by
  simp only [hand, ← Multiset.coe_add, Multiset.coe_singleton]
  rw [← add_assoc, add_comm, Multiset.singleton_add]

/-- Buying a reserved coupon moves it within the hand. -/
theorem hand_buyReserved {p : Player} {slot : Nat} {c : Coupon}
    (h : p.reservedCoupons[slot]? = some c) :
    hand { p with coupons := p.coupons ++ [c],
                  reservedCoupons := p.reservedCoupons.eraseIdx slot } = hand p := by
  simp only [hand, ← Multiset.coe_add, Multiset.coe_singleton]
  rw [add_assoc, Multiset.singleton_add, cons_coe_eraseIdx h]

/-- **Step lemma**: a successful call for a coupon with a real index, or for
mines, keeps the invariant. -/
theorem CardsInv.effect {g g' : Game} {op : Op} (h : CardsInv g) (hn : op.NamesCoupon)
    (he : Effect g op g') : CardsInv g' := by
  cases he with
  | take3 hf hs hd hstock hgold =>
    refine h.congr (by simp [after3]) ?_
    rw [view_record, view_handOverUnlessFull hand_status]
    exact view_setMines hand_mineCount _ _
  | take2 hf hs hstock hgold =>
    refine h.congr (by simp) ?_
    rw [view_record, view_handOverUnlessFull hand_status]
    exact view_setMines hand_mineCount _ _
  | @reserve it p slot c couponIdx player hf hs hroom hslot =>
    have hc := h.real_of_idx hn hslot
    have htake := h.take ((g.modifyPlayer it fun p =>
        { p with reservedCoupons := p.reservedCoupons ++ [c] }).record
        [("type", .str "RESERVE_COUPON"), ("subject_id", .int player), ("coupon", c.toJson)])
      (f := fun p => { p with reservedCoupons := p.reservedCoupons ++ [c] })
      (findIf_eq_some hslot).1 hc (find_at hf) (hand_reserve p c) rfl rfl
    refine htake.congr ?_ ?_
    · rw [board_handOverUnlessFull, board_afterReserve]
      rfl
    · rw [view_handOverUnlessFull hand_status, view_afterReserve hand_mineCount,
        view_fillCoupon, view_record]
  | @buy it p slot c t couponIdx player hf hs hslot hafford ht =>
    have hc := h.real_of_idx hn hslot
    have htake := h.take (g.afterBuy it p c t "BUY_COUPON" player)
      (f := fun q => { q with coupons := q.coupons ++ [c] })
      (findIf_eq_some hslot).1 hc (find_at hf) (hand_buy p c) rfl
      ((view_of_players (players_afterBuy ..)).trans (view_modifyPlayer_congr fun _ => rfl))
    refine htake.congr (by simp) ?_
    rw [view_checkAlly hand_reputation, view_handOver hand_status]
  | @buyReserved it p slot c t couponIdx player hf hs hslot hafford ht =>
    refine h.congr (by rfl) ?_
    rw [view_buyReserved hand_status hand_reputation]
    exact (find_at hf).view_modifyPlayer (hand_buyReserved (findIf_eq_some hslot).1)
  | returnMine hf hs hheld =>
    refine h.congr ?_ ?_
    · simp only
      split <;> rfl
    · simp only
      split
      · rw [view_handOver hand_status]
        exact view_setMines hand_mineCount _ _
      · exact view_setMines hand_mineCount _ _

/-! ## The first state -/

/-- The levels of what is left of a shuffled heap. -/
theorem map_level_drop {l t : List Coupon} {level : Int} {n m : Nat} (hp : l.Perm t)
    (ht : ∀ c ∈ t, c.level = level) (hl : t.length = n + m) :
    (l.drop n).map Coupon.level = List.replicate m level := by
  rw [List.eq_replicate_iff]
  constructor
  · rw [List.length_map, List.length_drop, hp.length_eq, hl]
    omega
  · intro x hx
    obtain ⟨c, hc, rfl⟩ := List.mem_map.mp hx
    exact ht c (hp.mem_iff.mp (List.mem_of_mem_drop hc))

/-- The constructor deals the ninety coupons onto the board and the deck. -/
theorem cardsInv_new (ids : List Int) (draw : Nat → Nat) (rank : Int → Nat) :
    CardsInv (new ids draw rank) := by
  have hhand : (new ids draw rank).view hand = (hashOrder rank id ids.dedup).map fun _ => 0 :=
    view_new ids draw rank hand_status
  have hp₁ := Shuffle.shuffle_perm (fun k => draw (k + ids.length + 2)) allCouponsLv1
  have hp₂ := Shuffle.shuffle_perm (fun k => draw (k + ids.length + 41)) allCouponsLv2
  have hp₃ := Shuffle.shuffle_perm (fun k => draw (k + ids.length + 70)) allCouponsLv3
  have hcards : (new ids draw rank).cards = ↑allCoupons := by
    have hdeal (l : List Coupon) (n : Nat) :
        (↑(l.drop n) : Multiset Coupon) + ↑(l.take n) = ↑l := by
      rw [add_comm, Multiset.coe_add, List.take_append_drop]
    have hsum : ((new ids draw rank).view hand).sum = 0 := by
      rw [hhand]
      exact List.sum_eq_zero (by simp)
    unfold Game.cards
    rw [hsum, add_zero]
    simp only [new, ← Multiset.coe_add]
    rw [add_add_add_comm, add_add_add_comm (Multiset.ofList _), hdeal, hdeal, hdeal,
      Multiset.coe_eq_coe.mpr hp₁, Multiset.coe_eq_coe.mpr hp₂, Multiset.coe_eq_coe.mpr hp₃]
    rfl
  have hreal : ∀ c ∈ (new ids draw rank).cards, c.IsReal := by
    rw [hcards]
    intro c hc
    exact (allCoupons_genuine c hc).isReal
  constructor
  case cards => rw [Multiset.filter_eq_self.mpr hreal, hcards]
  case rest => exact fun c hc => hreal c (by simp [Game.cards, hc])
  case hands =>
    intro h hh c hc
    rw [hhand] at hh
    obtain ⟨_, _, rfl⟩ := List.mem_map.mp hh
    exact absurd hc (Multiset.notMem_zero c)
  case levels =>
    simp only [new, List.map_append]
    have h₁ : ∀ c ∈ allCouponsLv1, c.level = 1 := by decide +kernel
    have h₂ : ∀ c ∈ allCouponsLv2, c.level = 2 := by decide +kernel
    have h₃ : ∀ c ∈ allCouponsLv3, c.level = 3 := by decide +kernel
    rw [map_level_drop (m := 4) hp₁ h₁ (by decide), map_level_drop (m := 4) hp₂ h₂ (by decide),
      map_level_drop (m := 4) hp₃ h₃ (by decide)]
    rfl
  case empty => exact fun c hc hr => absurd (hreal c (mem_cards_of_board hc)) hr

/-! ## Runs -/

/-- No request that names a mine and a real index faults. -/
theorem CardsInv.completes {g : Game} (h : CardsInv g) {op : Op} (hm : op.NamesMines)
    (hn : op.NamesCoupon) : Completes (g.step op) := by
  cases op with
  | take3Mines m₀ m₁ m₂ player =>
    exact (completes_take3Mines_iff ..).mpr fun _ _ _ _ _ =>
      ⟨hm.1, fun _ => ⟨hm.2.1, fun _ => hm.2.2⟩⟩
  | take2Mines mine player => exact (completes_take2Mines_iff ..).mpr fun _ _ _ _ => hm
  | returnMine mine player => exact (completes_returnMine_iff ..).mpr fun _ _ _ _ => hm
  | reserveCoupon couponIdx player => exact completes_reserveCoupon ..
  | buyCoupon couponIdx player =>
    refine (completes_buyCoupon_iff ..).mpr fun it p hf hs slot c hslot _ => ?_
    exact (h.genuine (mem_cards_of_board (findIf_mem hslot)) (h.real_of_idx hn hslot)).type
  | buyReservedCoupon couponIdx player =>
    refine (completes_buyReservedCoupon_iff ..).mpr fun it p hf hs slot c hslot _ => ?_
    exact (h.genuine_reserved hf (findIf_mem hslot)).type

/-- **Step lemma**: a call that names mines and a real index completes and keeps
the invariant. -/
theorem CardsInv.step {g : Game} (h : CardsInv g) {op : Op} (hm : op.NamesMines)
    (hn : op.NamesCoupon) : ∃ b g', g.step op = .ok (b, g') ∧ CardsInv g' := by
  obtain ⟨⟨b, g'⟩, hg⟩ := h.completes hm hn
  refine ⟨b, g', hg, ?_⟩
  rcases step_cases hg with ⟨-, rfl⟩ | ⟨-, he⟩
  · exact h
  · exact h.effect hn he

/-- The invariant holds after every sequence of well-behaved calls. -/
theorem exec_cardsInv (ids : List Int) (draw : Nat → Nat) (rank : Int → Nat) {ops : List Op}
    (hops : ∀ op ∈ ops, op.InRange) :
    ∃ g, exec Game.step (new ids draw rank) ops = .ok g ∧ CardsInv g :=
  exec_invariant (A := Op.InRange) (fun _ _ h ha => h.step ha.namesMines ha.namesCoupon)
    (cardsInv_new ids draw rank) hops

/-- How often the real coupon of an index is in play. -/
def copies (g : Game) (i : Nat) : Nat := g.cards.countP fun c => c.IsReal ∧ c.idx = i

/-- Each coupon is there once. -/
theorem CardsInv.copies_eq_one {g : Game} (h : CardsInv g) {i : Nat} (hi : 1 ≤ i ∧ i ≤ 90) :
    g.copies i = 1 := by
  have hmap : (g.cards.filter Coupon.IsReal).map Coupon.idx = ↑(List.range' 1 90) := by
    rw [h.cards, Multiset.map_coe, allCoupons_idx]
  have hcount : (↑(List.range' 1 90) : Multiset Nat).count i = 1 :=
    Multiset.count_eq_one_of_mem (Multiset.coe_nodup.mpr List.nodup_range')
      (Multiset.mem_coe.mpr (List.mem_range'_1.mpr (by omega)))
  rw [← hmap, Multiset.count_map, ← Multiset.countP_eq_card_filter] at hcount
  rw [Multiset.countP_filter] at hcount
  rw [← hcount, copies]
  exact Multiset.countP_congr rfl fun c _ =>
    propext ⟨fun h => ⟨h.2.symm, h.1⟩, fun h => ⟨h.2, h.1.symm⟩⟩

/-- The board has four slots of each level. -/
theorem CardsInv.countP_level {g : Game} (h : CardsInv g) {level : Int}
    (hl : level ∈ ([1, 2, 3] : List Int)) :
    g.coupons.countP (fun c => decide (c.level = level)) = 4 := by
  have hc : g.coupons.countP (fun c => decide (c.level = level)) =
      (g.coupons.map Coupon.level).count level := by
    rw [List.count_eq_countP, List.countP_map]
    exact List.countP_congr fun c _ => by simp
  rw [hc, h.levels]
  simp only [List.mem_cons, List.not_mem_nil, or_false] at hl
  rcases hl with rfl | rfl | rfl <;> rfl

/-- **Coupon conservation and board layout**: whatever well-behaved calls the
players make, none faults, every real coupon is in exactly one place, the board
has four slots of each level, and an empty slot means the deck is out of its
level. -/
theorem coupons_conserved (ids : List Int) (draw : Nat → Nat) (rank : Int → Nat) (ops : List Op)
    (hops : ∀ op ∈ ops, op.InRange) :
    ∃ g, exec Game.step (new ids draw rank) ops = .ok g ∧
      (∀ i, 1 ≤ i ∧ i ≤ 90 → g.copies i = 1) ∧
      g.coupons.length = 12 ∧
      (∀ level ∈ ([1, 2, 3] : List Int),
        g.coupons.countP (fun c => decide (c.level = level)) = 4) ∧
      ∀ c ∈ g.coupons, c.isEmpty = true → ∀ d ∈ g.couponsRest, d.level ≠ c.level := by
  obtain ⟨g, hg, h⟩ := exec_cardsInv ids draw rank hops
  refine ⟨g, hg, fun i hi => h.copies_eq_one hi, ?_, fun level hl => h.countP_level hl, ?_⟩
  · rw [← List.length_map (f := Coupon.level), h.levels]
    rfl
  · intro c hc he
    exact (h.empty c hc (by simpa [Coupon.isEmpty, Coupon.IsReal] using he)).2

/-- A coupon is reserved, and the board is filled up. -/
theorem coupons_conserved_two :
    ∃ g, exec Game.step (new [1, 2] (fun _ => 0) Int.toNat)
        [.reserveCoupon 38 1, .take2Mines 0 2] = .ok g ∧
      g.copies 38 = 1 ∧ g.coupons.length = 12 := by
  obtain ⟨g, hg, hone, hlen, -⟩ := coupons_conserved [1, 2] (fun _ => 0) Int.toNat
    [.reserveCoupon 38 1, .take2Mines 0 2]
    (List.forall_mem_cons.mpr ⟨⟨by decide, by decide⟩, List.forall_mem_singleton.mpr ⟨.copper, rfl⟩⟩)
  exact ⟨g, hg, hone 38 (by decide), hlen⟩

end Game

end UnoppServer.Splendor
