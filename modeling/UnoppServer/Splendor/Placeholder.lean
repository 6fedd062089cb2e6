import UnoppServer.Splendor.Cards

/-!
# Splendor: the placeholder of an empty slot

`Coupon::empty` leaves `idx` out of its initializer, so the placeholder of an
empty slot has index 0 and is found by the same search as the coupons. A request
for index 0 (or any multiple of 2³²) made by the active player therefore takes
the placeholder: `reserve_coupon` puts it among the player's reserved coupons,
and `buy_coupon` counts it as a coupon of type `GOLD`, outside the array.

- `TakesReal`: what a call is expected to do, whatever index it names;
- `Op.SparesPlaceholders`: the calls that do not reach a placeholder;
- `takesReal_iff`: along every run of such calls, these are the calls that do
  what is expected;
- `reserve_takes_placeholder`: a game in which a placeholder is reserved.
-/

namespace UnoppServer.Splendor

open FindIf Runs

namespace Game

/-! ## Reputation -/

/-- No player's reputation is smaller than before. -/
def NoLoss (g g' : Game) : Prop :=
  List.Forall₂ (fun e e' => e.1 = e'.1 ∧ e.2.reputation ≤ e'.2.reputation) g.players g'.players

/-- A change of one element that keeps the relation keeps it for the list. -/
theorem forall₂_modify {α : Type} {R : α → α → Prop} {f : α → α} (hR : ∀ a, R a a)
    (hf : ∀ a, R a (f a)) (l : List α) (i : Nat) : List.Forall₂ R l (l.modify i f) := by
  induction l generalizing i with
  | nil =>
    rw [List.modify_nil]
    exact .nil
  | cons a l ih =>
    cases i with
    | zero => exact .cons (hf a) (List.forall₂_same.mpr fun x _ => hR x)
    | succ i => exact .cons (hR a) (ih i)

theorem noLoss_of_players {g g' : Game} (h : g'.players = g.players) : NoLoss g g' := by
  unfold NoLoss
  rw [h]
  exact List.forall₂_same.mpr fun _ _ => ⟨rfl, le_refl _⟩

/-- A transitive relation is one of lists. -/
theorem forall₂_trans {α : Type} {R : α → α → Prop} (hR : ∀ a b c, R a b → R b c → R a c)
    {l₁ l₂ l₃ : List α} (h : List.Forall₂ R l₁ l₂) (h' : List.Forall₂ R l₂ l₃) :
    List.Forall₂ R l₁ l₃ := by
  induction h generalizing l₃ with
  | nil => exact h'
  | cons hab _ ih =>
    cases h' with
    | cons hbc htail => exact .cons (hR _ _ _ hab hbc) (ih htail)

theorem NoLoss.trans {g g' g'' : Game} (h : NoLoss g g') (h' : NoLoss g' g'') : NoLoss g g'' :=
  forall₂_trans (fun _ _ _ h h' => ⟨h.1.trans h'.1, h.2.trans h'.2⟩) h h'

theorem noLoss_modifyPlayer {g : Game} {it : Nat} {f : Player → Player}
    (hf : ∀ p, p.reputation ≤ (f p).reputation) : NoLoss g (g.modifyPlayer it f) :=
  forall₂_modify (fun _ => ⟨rfl, le_refl _⟩) (fun e => ⟨rfl, hf e.2⟩) ..

theorem noLoss_setMines (g : Game) (it : Nat) (v b : Vector Int 6) :
    NoLoss g (g.setMines it v b) :=
  noLoss_modifyPlayer (g := { g with bank := b }) (f := fun p => { p with mineCount := v })
    fun _ => le_refl _

theorem noLoss_moveToReserve (g : Game) (it slot : Nat) (c : Coupon) (player : Int) :
    NoLoss g (g.moveToReserve it slot c player) :=
  (noLoss_modifyPlayer (f := fun p => { p with reservedCoupons := p.reservedCoupons ++ [c] })
    fun _ => le_refl _).trans (noLoss_of_players (players_moveToReserve ..))

theorem noLoss_handOver (g : Game) (it : Nat) : NoLoss g (g.handOver it) :=
  (noLoss_modifyPlayer (f := fun p => { p with status := .waiting }) fun _ => le_refl _).trans
    (noLoss_modifyPlayer (f := fun p => { p with status := .action }) fun _ => le_refl _)

theorem noLoss_handOverUnlessFull (g : Game) (it : Nat) : NoLoss g (g.handOverUnlessFull it) := by
  unfold handOverUnlessFull
  split
  · exact noLoss_modifyPlayer fun _ => le_refl _
  · exact noLoss_handOver g it

/-- No ally costs reputation. -/
def AlliesInv (g : Game) : Prop := ∀ a ∈ g.allies, 0 ≤ a.reputation

/-- Offering an ally takes reputation from nobody. -/
theorem noLoss_offerAlly : ∀ {a : Ally} (_ : 0 ≤ a.reputation) (actions : List Json)
    (players : List (Int × Player)), (offerAlly a actions players).1.reputation = a.reputation ∧
      List.Forall₂ (fun e e' : Int × Player => e.1 = e'.1 ∧ e.2.reputation ≤ e'.2.reputation)
        players (offerAlly a actions players).2.2
  | _, _, _, [] => ⟨rfl, .nil⟩
  | a, ha, actions, (id, p) :: rest => by
    unfold offerAlly
    split
    · obtain ⟨h₁, h₂⟩ := noLoss_offerAlly (a := { a with isOwned := true, ownerId := id }) ha
        (actions ++ [_]) rest
      refine ⟨h₁, .cons ⟨rfl, ?_⟩ h₂⟩
      simp only
      omega
    · obtain ⟨h₁, h₂⟩ := noLoss_offerAlly ha actions rest
      exact ⟨h₁, .cons ⟨rfl, le_refl _⟩ h₂⟩

/-- Offering all allies takes reputation from nobody. -/
theorem noLoss_offerAllies : ∀ {allies : List Ally} (_ : ∀ a ∈ allies, 0 ≤ a.reputation)
    (actions : List Json) (players : List (Int × Player)),
    (∀ a ∈ (offerAllies allies actions players).1, 0 ≤ a.reputation) ∧
      List.Forall₂ (fun e e' : Int × Player => e.1 = e'.1 ∧ e.2.reputation ≤ e'.2.reputation)
        players (offerAllies allies actions players).2.2
  | [], _, _, _ => ⟨by simp [offerAllies], List.forall₂_same.mpr fun _ _ => ⟨rfl, le_refl _⟩⟩
  | a :: rest, h, actions, players => by
    obtain ⟨ha, hrest⟩ := List.forall_mem_cons.mp h
    unfold offerAllies
    split
    · obtain ⟨h₁, h₂⟩ := noLoss_offerAllies hrest actions players
      exact ⟨List.forall_mem_cons.mpr ⟨ha, h₁⟩, h₂⟩
    · obtain ⟨ho₁, ho₂⟩ := noLoss_offerAlly ha actions players
      obtain ⟨h₁, h₂⟩ := noLoss_offerAllies hrest (offerAlly a actions players).2.1
        (offerAlly a actions players).2.2
      exact ⟨List.forall_mem_cons.mpr ⟨ho₁ ▸ ha, h₁⟩,
        forall₂_trans (fun _ _ _ h h' => ⟨h.1.trans h'.1, h.2.trans h'.2⟩) ho₂ h₂⟩

theorem AlliesInv.checkAlly {g : Game} (h : AlliesInv g) :
    AlliesInv g.checkAlly ∧ NoLoss g g.checkAlly :=
  noLoss_offerAllies h ..

theorem AlliesInv.congr {g g' : Game} (h : AlliesInv g) (ha : g'.allies = g.allies) :
    AlliesInv g' := by
  unfold AlliesInv
  rw [ha]
  exact h

/-- The coupon that a call takes, as far as the search goes: the first one with the
requested index on the board, or among the caller's reserved ones. -/
def requested (g : Game) : Op → Option Coupon
  | .reserveCoupon couponIdx _ | .buyCoupon couponIdx _ =>
    (findIf (fun c => c.hasIdx couponIdx) g.coupons).map Prod.snd
  | .buyReservedCoupon couponIdx player =>
    (g.find player).bind fun r =>
      (findIf (fun c => c.hasIdx couponIdx) r.2.reservedCoupons).map Prod.snd
  | _ => none

/-- A call that takes what `requested` says costs nobody reputation if that is a
genuine coupon. -/
theorem noLoss_effect {g g' : Game} {op : Op} (ha : AlliesInv g)
    (hc : ∀ c, g.requested op = some c → 0 ≤ c.reputation) (he : Effect g op g') :
    AlliesInv g' ∧ NoLoss g g' := by
  cases he with
  | take3 hf hs hd hstock hgold =>
    refine ⟨ha.congr (by simp [after3]), ?_⟩
    exact (noLoss_setMines g _ _ _).trans (noLoss_handOverUnlessFull _ _)
  | take2 hf hs hstock hgold =>
    refine ⟨ha.congr (by simp), ?_⟩
    exact (noLoss_setMines g _ _ _).trans (noLoss_handOverUnlessFull _ _)
  | @reserve it p slot c couponIdx player hf hs hroom hslot =>
    refine ⟨ha.congr ?_, NoLoss.trans ?_ (noLoss_handOverUnlessFull _ _)⟩
    · rw [allies_handOverUnlessFull, allies_afterReserve]
    · unfold afterReserve
      simp only
      split
      · exact (noLoss_moveToReserve ..).trans (noLoss_setMines ..)
      · exact noLoss_moveToReserve ..
  | @buy it p slot c t couponIdx player hf hs hslot hafford ht =>
    have hrep : 0 ≤ c.reputation := hc c (by simp [requested, hslot])
    have hbuy : NoLoss g ((g.afterBuy it p c t "BUY_COUPON" player).fillCoupon c.level slot) :=
      (noLoss_modifyPlayer (f := bought p c t g.bank) fun q => by simp [bought, hrep]).trans
        (noLoss_of_players ((players_fillCoupon ..).trans (players_afterBuy ..)))
    have hallies := AlliesInv.checkAlly
      (g := ((g.afterBuy it p c t "BUY_COUPON" player).fillCoupon c.level slot).handOver it)
      (ha.congr (by simp))
    exact ⟨hallies.1, (hbuy.trans (noLoss_handOver ..)).trans hallies.2⟩
  | @buyReserved it p slot c t couponIdx player hf hs hslot hafford ht =>
    have hrep : 0 ≤ c.reputation := hc c (by simp [requested, hf, hslot])
    have hbuy : NoLoss g ((g.afterBuy it p c t "BUY_RESERVED_COUPON" player).modifyPlayer it
        (dropReserved slot)) :=
      (noLoss_modifyPlayer (f := fun q => dropReserved slot (bought p c t g.bank q))
        fun q => by simp [bought, dropReserved, hrep]).trans
        (noLoss_of_players (players_afterBuy_dropReserved ..))
    have hallies := AlliesInv.checkAlly
      (g := ((g.afterBuy it p c t "BUY_RESERVED_COUPON" player).modifyPlayer it
        (dropReserved slot)).handOver it) (ha.congr (by simp))
    exact ⟨hallies.1, (hbuy.trans (noLoss_handOver ..)).trans hallies.2⟩
  | returnMine hf hs hheld =>
    simp only
    split
    · exact ⟨ha.congr (by simp), (noLoss_setMines ..).trans (noLoss_handOver ..)⟩
    · exact ⟨ha.congr (by simp), noLoss_setMines ..⟩

/-- The allies of a game are from the table. -/
theorem mem_pickAllies {a : Ally} : ∀ {draw : Nat → Nat} {count i : Nat} {l : Array Ally},
    a ∈ pickAllies draw count i l → a ∈ l
  | _, 0, _, _, h => absurd h List.not_mem_nil
  | draw, count + 1, i, l, h => by
    have hperm := Shuffle.swapIfInBounds_perm l i (draw 0 % i)
    unfold pickAllies at h
    rcases List.mem_append.mp h with h | h
    · exact hperm.mem_iff.mp (Array.mem_of_getElem? (Option.mem_toList.mp h))
    · exact hperm.mem_iff.mp (mem_pickAllies h)

theorem alliesInv_new (ids : List Int) (draw : Nat → Nat) (rank : Int → Nat) :
    AlliesInv (new ids draw rank) := by
  intro a ha
  have htable : ∀ a ∈ allAllies, 0 ≤ a.reputation := by decide +kernel
  exact htable a (Array.mem_toList_iff.mpr (mem_pickAllies ha))

end Game

/-! ## Calls that take a real coupon -/

/-- A call for a coupon. -/
def Op.isForCoupon : Op → Bool
  | .reserveCoupon _ _ | .buyCoupon _ _ | .buyReservedCoupon _ _ => true
  | _ => false

/-- The index is 0 as an `unsigned`, and some slot of the board is empty. -/
def Game.NamesEmptySlot (g : Game) (couponIdx : Int) : Prop :=
  (couponIdx % 4294967296).toNat = 0 ∧ ∃ c ∈ g.coupons, c.isEmpty = true

/-- The calls that do not reach the placeholder of an empty slot. One that names
it is refused all the same when the caller is not the active player, when a
reservation finds three coupons reserved, or when a purchase is not affordable. -/
def Op.SparesPlaceholders (g : Game) : Op → Prop
  | .reserveCoupon couponIdx player => g.NamesEmptySlot couponIdx →
    ∀ it p, g.find player = some (it, p) → p.status = .action → 2 < p.reservedCoupons.length
  | .buyCoupon couponIdx player => g.NamesEmptySlot couponIdx →
    ∀ it p, g.find player = some (it, p) → p.status = .action →
      Game.checkAffordabillity p (Coupon.empty 0) = false
  | _ => True

namespace Game

/-- What a call is expected to do. -/
structure TakesReal (g : Game) (op : Op) : Prop where
  /-- A call for a coupon indexes no array outside its bounds and fails no
  assertion. -/
  completes : op.isForCoupon = true → Completes (g.step op)
  /-- The coupon moved is a real one. -/
  real : ∀ g', g.step op = .ok (true, g') → ∀ c, g.requested op = some c →
    c.reputation ≠ -1 ∧ c.type ≠ .gold
  /-- No reputation decreases. -/
  noLoss : ∀ b g', g.step op = .ok (b, g') → NoLoss g g'

/-- Whether a placeholder is affordable does not depend on its level. -/
theorem afford_empty (p : Player) (level level' : Int) :
    checkAffordabillity p (Coupon.empty level) = checkAffordabillity p (Coupon.empty level') := by
  have hloop : ∀ (mines : List (Fin 5)) (goldCnt : Int),
      affordLoop p (Coupon.empty level) mines goldCnt =
        affordLoop p (Coupon.empty level') mines goldCnt := by
    intro mines
    induction mines with
    | nil => exact fun _ => rfl
    | cons mine mines ih =>
      intro goldCnt
      simp only [affordLoop, Coupon.empty] at ih ⊢
      rw [ih]
      rfl
  exact hloop ..

/-- Under the invariant a slot without a real coupon is one found under index 0. -/
theorem CardsInv.eq_empty {g : Game} (h : CardsInv g) {couponIdx : Int} {slot : Nat} {c : Coupon}
    (hs : findIf (fun c => c.hasIdx couponIdx) g.coupons = some (slot, c)) (hc : ¬ c.IsReal) :
    c = Coupon.empty c.level ∧ g.NamesEmptySlot couponIdx := by
  have hmem := findIf_mem hs
  have hempty := (h.empty c hmem hc).1
  refine ⟨hempty, ?_, c, hmem, by simpa [Coupon.isEmpty, Coupon.IsReal] using hc⟩
  rw [← idx_of_search hs, hempty]
  rfl

/-- The converse: a request that names an empty slot finds one. -/
theorem CardsInv.exists_empty {g : Game} (h : CardsInv g) {couponIdx : Int}
    (hn : g.NamesEmptySlot couponIdx) : ∃ slot c,
      findIf (fun c => c.hasIdx couponIdx) g.coupons = some (slot, c) ∧
        c = Coupon.empty c.level := by
  obtain ⟨hzero, d, hd, hempty⟩ := hn
  have hreal : ¬ d.IsReal := by simpa [Coupon.isEmpty, Coupon.IsReal] using hempty
  have hdidx : d.hasIdx couponIdx = true := by
    rw [(h.empty d hd hreal).1]
    simp [Coupon.hasIdx, Coupon.empty, hzero]
  obtain ⟨slot, c, hs⟩ := exists_findIf (p := fun c => c.hasIdx couponIdx) hd hdidx
  exact ⟨slot, c, hs, (h.empty c (findIf_mem hs) (h.not_isReal_of_idx hzero hs)).1⟩

/-- A call that spares the placeholders and succeeds names a real index. -/
theorem CardsInv.namesCoupon {g g' : Game} {op : Op} (h : CardsInv g)
    (hn : op.SparesPlaceholders g) (he : Effect g op g') : op.NamesCoupon := by
  cases he with
  | take3 | take2 | returnMine => trivial
  | @reserve it p slot c couponIdx player hf hs hroom hslot =>
    intro hzero
    have hempty := h.eq_empty hslot (h.not_isReal_of_idx hzero hslot)
    have hfull := hn hempty.2 it p hf hs
    omega
  | @buy it p slot c t couponIdx player hf hs hslot hafford ht =>
    intro hzero
    obtain ⟨hempty, hnames⟩ := h.eq_empty hslot (h.not_isReal_of_idx hzero hslot)
    rw [hempty, afford_empty p c.level 0, hn hnames it p hf hs] at hafford
    cases hafford
  | @buyReserved it p slot c t couponIdx player hf hs hslot hafford ht =>
    intro hzero
    have hidx := idx_of_search hslot
    have hpos := (h.genuine_reserved hf (findIf_mem hslot)).idx
    omega

/-- The coupon that a call takes when it spares the placeholders. -/
theorem CardsInv.genuine_requested {g g' : Game} {op : Op} (h : CardsInv g)
    (hn : op.SparesPlaceholders g) (he : Effect g op g') {c : Coupon}
    (hc : g.requested op = some c) : c.Genuine := by
  have hnames := h.namesCoupon hn he
  cases he with
  | take3 | take2 | returnMine => cases hc
  | reserve hf hs hroom hslot =>
    simp only [requested, hslot, Option.map_some, Option.some.injEq] at hc
    subst hc
    exact h.genuine (mem_cards_of_board (findIf_mem hslot)) (h.real_of_idx hnames hslot)
  | buy hf hs hslot hafford ht =>
    simp only [requested, hslot, Option.map_some, Option.some.injEq] at hc
    subst hc
    exact h.genuine (mem_cards_of_board (findIf_mem hslot)) (h.real_of_idx hnames hslot)
  | buyReserved hf hs hslot hafford ht =>
    simp only [requested, hf, hslot, Option.bind_some, Option.map_some, Option.some.injEq] at hc
    subst hc
    exact h.genuine_reserved hf (findIf_mem hslot)

/-- The invariant of the runs that spare the placeholders. -/
structure PlainInv (g : Game) : Prop where
  cards : CardsInv g
  allies : AlliesInv g

/-- A call that spares the placeholders leaves none in a hand, and takes reputation from nobody. -/
theorem PlainInv.step {g g' : Game} {op : Op} {b : Bool} (h : PlainInv g)
    (hn : op.SparesPlaceholders g) (hs : g.step op = .ok (b, g')) :
    PlainInv g' ∧ NoLoss g g' := by
  rcases step_cases hs with ⟨-, rfl⟩ | ⟨-, he⟩
  · exact ⟨h, noLoss_of_players rfl⟩
  · obtain ⟨hallies, hloss⟩ := noLoss_effect h.allies
      (fun c hc => (h.cards.genuine_requested hn he hc).reputation) he
    exact ⟨⟨h.cards.effect (h.cards.namesCoupon hn he) he, hallies⟩, hloss⟩

/-- A call that spares the placeholders does what is expected. -/
theorem PlainInv.takesReal {g : Game} {op : Op} (h : PlainInv g) (hn : op.SparesPlaceholders g) :
    TakesReal g op := by
  constructor
  case completes =>
    intro hop
    cases op with
    | take3Mines | take2Mines | returnMine => cases hop
    | reserveCoupon couponIdx player => exact completes_reserveCoupon ..
    | buyCoupon couponIdx player =>
      refine (completes_buyCoupon_iff ..).mpr fun it p hf hs slot c hslot hafford => ?_
      by_cases hc : c.IsReal
      · exact (h.cards.genuine (mem_cards_of_board (findIf_mem hslot)) hc).type
      · obtain ⟨hempty, hnames⟩ := h.cards.eq_empty hslot hc
        rw [hempty, afford_empty p c.level 0, hn hnames it p hf hs] at hafford
        cases hafford
    | buyReservedCoupon couponIdx player =>
      refine (completes_buyReservedCoupon_iff ..).mpr fun it p hf hs slot c hslot _ => ?_
      exact (h.cards.genuine_reserved hf (findIf_mem hslot)).type
  case real =>
    intro g' hs c hc
    rcases step_cases hs with ⟨hb, -⟩ | ⟨-, he⟩
    · cases hb
    · have hgen := h.cards.genuine_requested hn he hc
      exact ⟨hgen.isReal, hgen.type⟩
  case noLoss => exact fun b g' hs => (h.step hn hs).2

/-- A call that does not spare them takes one, or indexes outside the array. -/
theorem PlainInv.not_takesReal {g : Game} {op : Op} (h : PlainInv g)
    (hn : ¬ op.SparesPlaceholders g) : ¬ TakesReal g op := by
  intro hreal
  cases op with
  | take3Mines | take2Mines | returnMine | buyReservedCoupon => exact hn trivial
  | reserveCoupon couponIdx player =>
    simp only [Op.SparesPlaceholders, not_forall] at hn
    obtain ⟨hnames, it, p, hf, hs, hroom⟩ := hn
    obtain ⟨slot, c, hslot, hempty⟩ := h.cards.exists_empty hnames
    have hstep := step_of_effect (.reserve hf hs (by omega) hslot)
    refine (hreal.real _ hstep c (by simp [requested, hslot])).1 ?_
    rw [hempty]
    rfl
  | buyCoupon couponIdx player =>
    simp only [Op.SparesPlaceholders, not_forall] at hn
    obtain ⟨hnames, it, p, hf, hs, hafford⟩ := hn
    obtain ⟨slot, c, hslot, hempty⟩ := h.cards.exists_empty hnames
    refine (completes_buyCoupon_iff ..).mp (hreal.completes rfl) it p hf hs slot c hslot ?_ ?_
    · rw [hempty, afford_empty p c.level 0]
      simpa using hafford
    · rw [hempty]
      rfl

/-- **Placeholders**: in a run whose calls all spare the placeholders, every call
does what is expected, and in the state it leads to the calls that do so are
exactly those that spare the placeholders. -/
theorem takesReal_iff {ids : List Int} {draw : Nat → Nat} {rank : Int → Nat}
    {h : List (Entry Game Op Bool)} {g : Game}
    (hr : Run Game.step (fun g op => op.SparesPlaceholders g) (new ids draw rank) h g) :
    (∀ e ∈ h, TakesReal e.pre e.act) ∧ ∀ op, TakesReal g op ↔ op.SparesPlaceholders g := by
  have hinv {s : Game} (hs : Reachable Game.step (fun g op => op.SparesPlaceholders g)
      (new ids draw rank) s) : PlainInv s :=
    hs.invariant ⟨cardsInv_new ids draw rank, alliesInv_new ids draw rank⟩
      fun _ _ _ _ h hn hs => (h.step hn hs).1
  constructor
  · intro e he
    obtain ⟨hpre, hn, -⟩ := hr.mem_entry e he
    exact (hinv hpre).takesReal hn
  · intro op
    have hg := hinv ⟨h, hr⟩
    exact ⟨fun hreal => not_not.mp fun hn => hg.not_takesReal hn hreal, hg.takesReal⟩

/-! ## A game in which a placeholder is taken -/

/-- Four players exhaust the coupons of level 3. -/
def exhaustLevel3 : List Op :=
  [.reserveCoupon 88 1, .reserveCoupon 72 2, .reserveCoupon 90 3, .reserveCoupon 74 4,
    .reserveCoupon 73 1, .take2Mines 2 2, .take2Mines 3 3, .reserveCoupon 76 4,
    .reserveCoupon 89 1, .reserveCoupon 78 2, .buyCoupon 1 3, .reserveCoupon 77 4,
    .take2Mines 0 1, .reserveCoupon 80 2, .reserveCoupon 81 3, .take2Mines 3 4, .take2Mines 0 1,
    .take2Mines 2 2, .reserveCoupon 82 3, .take2Mines 3 4, .take3Mines 0 4 3 1,
    .take3Mines 2 4 3 2, .take2Mines 1 3, .take3Mines 3 0 2 4, .buyReservedCoupon 88 1,
    .take3Mines 2 4 1 2, .returnMine 1 2, .take2Mines 1 3, .buyReservedCoupon 76 4,
    .take2Mines 0 1, .buyReservedCoupon 72 2, .buyCoupon 40 3, .reserveCoupon 83 4,
    .reserveCoupon 84 1, .reserveCoupon 85 2, .take2Mines 1 3, .take2Mines 2 4, .take2Mines 4 1,
    .buyCoupon 2 2, .take2Mines 1 3, .take2Mines 2 4, .take2Mines 4 1, .take2Mines 3 2,
    .take3Mines 1 3 4 3, .take2Mines 0 4, .buyReservedCoupon 84 1, .take3Mines 4 0 3 2,
    .take3Mines 1 4 3 3, .take3Mines 2 4 1 4, .returnMine 1 4, .returnMine 4 4,
    .reserveCoupon 86 1, .take2Mines 4 2, .take3Mines 1 3 2 3, .returnMine 4 3, .returnMine 4 3,
    .returnMine 3 3, .buyReservedCoupon 74 4, .take2Mines 4 1, .take3Mines 4 3 2 2,
    .buyReservedCoupon 81 3, .reserveCoupon 79 4, .take3Mines 4 2 0 1, .take3Mines 1 2 0 2,
    .returnMine 0 2, .returnMine 1 2, .returnMine 3 2]

/-- What a computed state has to be checked for: player 3 acts, with room for
a reservation, and index 0 is that of a placeholder. -/
def offersPlaceholder (g : Game) : Bool :=
  match g.find 3, findIf (fun c => c.hasIdx 0) g.coupons with
  | some (_, p), some (_, c) =>
    decide (p.status = .action ∧ p.reservedCoupons.length ≤ 2) && c.isEmpty
  | _, _ => false

/-- The check finds a board with a placeholder that can be reserved. -/
theorem offersPlaceholder_spec {g : Game} (h : g.offersPlaceholder = true) :
    ∃ g' c, g.step (.reserveCoupon 0 3) = .ok (true, g') ∧
      g.requested (.reserveCoupon 0 3) = some c ∧ c.reputation = -1 := by
  unfold offersPlaceholder at h
  split at h
  · rename_i it p slot c hf hslot
    simp only [Bool.and_eq_true, decide_eq_true_eq, Coupon.isEmpty] at h
    refine ⟨_, c, step_of_effect (.reserve hf h.1.1 h.1.2 hslot), ?_, h.2⟩
    simp [requested, hslot]
  · cases h

/-- In the end there is a placeholder, which player 1 cannot take, who does not act. -/
theorem exec_exhaustLevel3 : execTo Game.step (new [1, 2, 3, 4] (fun _ => 0) Int.toNat)
    exhaustLevel3 (fun g => g.offersPlaceholder &&
      (g.find 1).all fun q => decide (q.2.status ≠ .action)) = true := by
  decide +kernel

/-- No call of these names an empty slot. -/
theorem sparesPlaceholders_exhaustLevel3 : ∀ g : Game, ∀ op ∈ exhaustLevel3,
    op.SparesPlaceholders g := by
  have hnames : ∀ op ∈ exhaustLevel3, ∀ couponIdx player,
      op = .reserveCoupon couponIdx player ∨ op = .buyCoupon couponIdx player →
      (couponIdx % 4294967296).toNat ≠ 0 := by
    simp [exhaustLevel3]
  intro g op hop
  cases op with
  | reserveCoupon couponIdx player =>
    exact fun h => absurd h.1 (hnames _ hop couponIdx player (.inl rfl))
  | buyCoupon couponIdx player =>
    exact fun h => absurd h.1 (hnames _ hop couponIdx player (.inr rfl))
  | _ => trivial

/-- All these calls take real coupons, and then there is a placeholder on the board: player 1,
who does not act, cannot take it, and player 3 can. -/
theorem takesReal_iff_exhausted : ∃ h g,
    Run Game.step (fun g op => op.SparesPlaceholders g) (new [1, 2, 3, 4] (fun _ => 0) Int.toNat)
      h g ∧ h.map Entry.act = exhaustLevel3 ∧ (∀ e ∈ h, TakesReal e.pre e.act) ∧
    (∃ c ∈ g.coupons, c.isEmpty = true) ∧
    TakesReal g (.reserveCoupon 0 1) ∧ ¬ TakesReal g (.reserveCoupon 0 3) := by
  obtain ⟨g, hg, hcheck⟩ := exists_of_execTo exec_exhaustLevel3
  obtain ⟨hoffers, hwaits⟩ := Bool.and_eq_true_iff.mp hcheck
  obtain ⟨h, hr, hacts⟩ := exists_run_of_exec sparesPlaceholders_exhaustLevel3 hg
  obtain ⟨hall, hiff⟩ := takesReal_iff hr
  unfold offersPlaceholder at hoffers
  split at hoffers
  · rename_i it p slot c hfind hslot
    obtain ⟨hp, hempty⟩ := Bool.and_eq_true_iff.mp hoffers
    obtain ⟨hstatus, hroom⟩ := of_decide_eq_true hp
    have hmem : c ∈ g.coupons := findIf_mem hslot
    refine ⟨h, g, hr, hacts, hall, ⟨c, hmem, hempty⟩, (hiff _).mpr ?_, fun htakes => ?_⟩
    · intro _ it' p' hfind' hstatus'
      rw [hfind'] at hwaits
      exact absurd hstatus' (of_decide_eq_true hwaits)
    · have hthree := (hiff _).mp htakes ⟨rfl, c, hmem, hempty⟩ it p hfind hstatus
      omega
  · cases hoffers

/-- After these calls `reserve_coupon(0, 3)` succeeds and moves a placeholder. -/
theorem reserve_takes_placeholder : ∃ g g' c,
    Reachable Game.step (fun _ _ => True) (new [1, 2, 3, 4] (fun _ => 0) Int.toNat) g ∧
      g.step (.reserveCoupon 0 3) = .ok (true, g') ∧
      g.requested (.reserveCoupon 0 3) = some c ∧ c.reputation = -1 := by
  obtain ⟨g, hg, hcheck⟩ := exists_of_execTo exec_exhaustLevel3
  obtain ⟨g', c, h⟩ := offersPlaceholder_spec (Bool.and_eq_true_iff.mp hcheck).1
  exact ⟨g, g', c, reachable_of_exec (fun _ _ _ => trivial) .refl hg, h⟩

end Game

end UnoppServer.Splendor
