import UnoppServer.Splendor.Placeholder

/-!
# Splendor: reputation and allies

`check_ally` offers every ally without an owner to all players in turn and does
not stop at the first one whose coupons meet its condition. That each ally is
still credited once rests on an invariant of the runs: between two calls no ally
without an owner has its condition met, so after a purchase the buyer is the
only player whose coupons can meet one.

- `offerAllies_of_one`: what the two loops of `check_ally` do when only one
  player can win anything;
- `Books`, `Settled`: the accounts of the players and the allies, and the
  invariant above;
- `accounts_balance`: both after every run, with the credits recorded on the way.
-/

namespace UnoppServer.Splendor

open FindIf Runs

/-- An ally that a player has won. -/
def Ally.wonBy (id : Int) (a : Ally) : Ally := { a with isOwned := true, ownerId := id }

/-- Whether a player owns an ally. -/
def Ally.isOwnedBy (id : Int) (a : Ally) : Bool := a.isOwned && decide (a.ownerId = id)

/-- A coupon that counts as one of a type. -/
def Coupon.hasType (t : Fin 5) (c : Coupon) : Bool := decide (c.type.toInt = (t : Nat))

/-- What `check_ally` records for an ally that its owner wins. -/
def Ally.credit (a : Ally) : Json := .obj [("subject_id", .int a.ownerId), ("ally", a.toJson)]

namespace Game

/-! ## The loops of `check_ally` -/

/-- A player after winning reputation. -/
def gain (r : Int) (p : Player) : Player := { p with reputation := p.reputation + r }

/-- A player can win an ally that has no owner and whose condition is met. -/
def canWin (p : Player) (a : Ally) : Bool := !a.isOwned && meets a p

/-- The allies that a player can win. -/
def wins (p : Player) (allies : List Ally) : List Ally := allies.filter (canWin p)

/-- The reputation that allies bring. -/
def worth (allies : List Ally) : Int := (allies.map Ally.reputation).sum

@[simp] theorem worth_cons (a : Ally) (allies : List Ally) :
    worth (a :: allies) = a.reputation + worth allies :=
  List.sum_cons

/-- An ally after it has been offered to a player. -/
def award (id : Int) (p : Player) (a : Ally) : Ally :=
  if canWin p a then a.wonBy id else a

theorem award_of_canWin {p : Player} {a : Ally} (h : canWin p a = true) (id : Int) :
    award id p a = a.wonBy id :=
  if_pos h

theorem award_of_not {p : Player} {a : Ally} (h : canWin p a = false) (id : Int) :
    award id p a = a :=
  if_neg (by rw [h]; exact Bool.false_ne_true)

theorem isOwned_of_canWin {p : Player} {a : Ally} (h : canWin p a = true) : a.isOwned = false := by
  simpa using (Bool.and_eq_true_iff.mp h).1

theorem wins_cons_of_canWin {p : Player} {a : Ally} (h : canWin p a = true) (rest : List Ally) :
    wins p (a :: rest) = a :: wins p rest :=
  List.filter_cons_of_pos h

theorem wins_cons_of_not {p : Player} {a : Ally} (h : canWin p a = false) (rest : List Ally) :
    wins p (a :: rest) = wins p rest :=
  List.filter_cons_of_neg (by rw [h]; exact Bool.false_ne_true)

theorem gain_zero (p : Player) : gain 0 p = p := by
  unfold gain
  rw [add_zero]

theorem gain_gain (r r' : Int) (p : Player) : gain r' (gain r p) = gain (r + r') p := by
  unfold gain
  rw [← add_assoc]

theorem wins_gain (r : Int) (p : Player) (allies : List Ally) :
    wins (gain r p) allies = wins p allies := rfl

theorem award_gain (id r : Int) (p : Player) : award id (gain r p) = award id p := rfl

theorem offerAlly_cons_of_not {a : Ally} {p : Player} (h : meets a p = false) (actions : List Json)
    (id : Int) (rest : List (Int × Player)) :
    offerAlly a actions ((id, p) :: rest) = ((offerAlly a actions rest).1,
      (offerAlly a actions rest).2.1, (id, p) :: (offerAlly a actions rest).2.2) := by
  rw [offerAlly, if_neg (by rw [h]; exact Bool.false_ne_true)]

/-- An ally that is won is offered on to the rest of the players. -/
theorem offerAlly_cons_of_meets {a : Ally} {p : Player} (h : meets a p = true) (actions : List Json)
    (id : Int) (rest : List (Int × Player)) :
    offerAlly a actions ((id, p) :: rest) =
      ((offerAlly (a.wonBy id) (actions ++ [(a.wonBy id).credit]) rest).1,
        (offerAlly (a.wonBy id) (actions ++ [(a.wonBy id).credit]) rest).2.1,
        (id, gain a.reputation p) ::
          (offerAlly (a.wonBy id) (actions ++ [(a.wonBy id).credit]) rest).2.2) := by
  rw [offerAlly, if_pos h]
  rfl

/-- Players whose coupons do not meet the condition are passed by. -/
theorem offerAlly_append {a : Ally} (actions : List Json) {l₁ : List (Int × Player)}
    (h : ∀ e ∈ l₁, meets a e.2 = false) (l₂ : List (Int × Player)) :
    offerAlly a actions (l₁ ++ l₂) = ((offerAlly a actions l₂).1, (offerAlly a actions l₂).2.1,
      l₁ ++ (offerAlly a actions l₂).2.2) := by
  induction l₁ with
  | nil => rfl
  | cons e rest ih =>
    obtain ⟨he, hrest⟩ := List.forall_mem_cons.mp h
    rw [List.cons_append, offerAlly_cons_of_not he, ih hrest]
    rfl

theorem offerAlly_of_none {a : Ally} {actions : List Json} {players : List (Int × Player)}
    (h : ∀ e ∈ players, meets a e.2 = false) :
    offerAlly a actions players = (a, actions, players) := by
  have happ := offerAlly_append actions h []
  rwa [List.append_nil, offerAlly, List.append_nil] at happ

/-- The inner loop, when one player at most can win the ally. -/
theorem offerAlly_of_one {a : Ally} {actions : List Json} {l₁ l₂ : List (Int × Player)} {id : Int}
    {p : Player} (h₁ : ∀ e ∈ l₁, meets a e.2 = false) (h₂ : ∀ e ∈ l₂, meets a e.2 = false) :
    offerAlly a actions (l₁ ++ (id, p) :: l₂) =
      if meets a p then
        (a.wonBy id, actions ++ [(a.wonBy id).credit], l₁ ++ (id, gain a.reputation p) :: l₂)
      else (a, actions, l₁ ++ (id, p) :: l₂) := by
  rw [offerAlly_append actions h₁]
  cases hp : meets a p with
  | true =>
    -- winning does not change the condition
    have hrest : ∀ e ∈ l₂, meets (a.wonBy id) e.2 = false := h₂
    rw [if_pos rfl, offerAlly_cons_of_meets hp, offerAlly_of_none hrest]
  | false => rw [if_neg Bool.false_ne_true, offerAlly_cons_of_not hp, offerAlly_of_none h₂]

/-- **The loops of `check_ally`**, when one player at most can win anything: that
player wins all allies without an owner whose conditions are met. -/
theorem offerAllies_of_one {allies : List Ally} (actions : List Json) {l₁ l₂ : List (Int × Player)}
    (id : Int) (p : Player)
    (h₁ : ∀ a ∈ allies, a.isOwned = false → ∀ e ∈ l₁, meets a e.2 = false)
    (h₂ : ∀ a ∈ allies, a.isOwned = false → ∀ e ∈ l₂, meets a e.2 = false) :
    offerAllies allies actions (l₁ ++ (id, p) :: l₂) =
      (allies.map (award id p), actions ++ (wins p allies).map fun a => (a.wonBy id).credit,
        l₁ ++ (id, gain (worth (wins p allies)) p) :: l₂) := by
  induction allies generalizing actions p with
  | nil =>
    show ([], actions, l₁ ++ (id, p) :: l₂) = ([], actions ++ [], l₁ ++ (id, gain 0 p) :: l₂)
    rw [gain_zero, List.append_nil]
  | cons a rest ih =>
    obtain ⟨ha₁, hrest₁⟩ := List.forall_mem_cons.mp h₁
    obtain ⟨ha₂, hrest₂⟩ := List.forall_mem_cons.mp h₂
    unfold offerAllies
    cases howned : a.isOwned with
    | true =>
      have hlost : canWin p a = false := by
        unfold canWin
        rw [howned]
        rfl
      rw [if_pos rfl, ih actions p hrest₁ hrest₂, wins_cons_of_not hlost, List.map_cons,
        award_of_not hlost]
    | false =>
      rw [if_neg Bool.false_ne_true, offerAlly_of_one (ha₁ howned) (ha₂ howned)]
      cases hmeets : meets a p with
      | true =>
        have hwon : canWin p a = true := by
          unfold canWin
          rw [howned, hmeets]
          rfl
        have ih' := ih (actions ++ [(a.wonBy id).credit]) (gain a.reputation p) hrest₁ hrest₂
        rw [wins_gain, award_gain, gain_gain] at ih'
        rw [if_pos rfl]
        simp only [ih']
        rw [wins_cons_of_canWin hwon, List.map_cons, award_of_canWin hwon, List.map_cons,
          worth_cons, List.append_assoc]
        rfl
      | false =>
        have hlost : canWin p a = false := by
          unfold canWin
          rw [hmeets, Bool.and_false]
        rw [if_neg Bool.false_ne_true]
        simp only [ih actions p hrest₁ hrest₂]
        rw [wins_cons_of_not hlost, List.map_cons, award_of_not hlost]

/-- `check_ally`, when one player at most can win anything. -/
theorem checkAlly_of_one {g : Game} {it : Nat} {id : Int} {p : Player} (hnd : g.ids.Nodup)
    (hp : g.At it id p)
    (hothers : ∀ a ∈ g.allies, a.isOwned = false →
      ∀ e ∈ g.players, e.1 ≠ id → meets a e.2 = false) :
    g.checkAlly =
      { g.modifyPlayer it (gain (worth (wins p g.allies))) with
        allies := g.allies.map (award id p)
        allyActions := .arr (g.allyActions.items ++
          (wins p g.allies).map fun a => (a.wonBy id).credit) } := by
  obtain ⟨hlt, hget⟩ := List.getElem?_eq_some_iff.mp hp
  have hsplit : g.players = g.players.take it ++ (id, p) :: g.players.drop (it + 1) := by
    rw [← hget, List.getElem_cons_drop, List.take_append_drop]
  -- the others have other keys
  have hkeys : ∀ e ∈ g.players.take it ++ g.players.drop (it + 1), e.1 ≠ id := by
    have hperm := ((List.Perm.of_eq hsplit).trans List.perm_middle).map Prod.fst
    have hids := hperm.nodup_iff.mp hnd
    intro e he hid
    exact (List.nodup_cons.mp hids).1 (List.mem_map.mpr ⟨e, he, hid⟩)
  have hmem : ∀ e ∈ g.players.take it ++ g.players.drop (it + 1), e ∈ g.players := fun e he =>
    (List.mem_append.mp he).elim List.mem_of_mem_take List.mem_of_mem_drop
  have hloops := offerAllies_of_one g.allyActions.items id p
    (fun a ha ho e he => hothers a ha ho e (hmem e (List.mem_append_left _ he))
      (hkeys e (List.mem_append_left _ he)))
    (fun a ha ho e he => hothers a ha ho e (hmem e (List.mem_append_right _ he))
      (hkeys e (List.mem_append_right _ he)))
  rw [← hsplit] at hloops
  unfold checkAlly modifyPlayer
  rw [hloops, List.modify_eq_take_cons_drop hlt, hget]

/-! ## The accounts -/

/-- What the accounts of a player rest on. -/
def standing (p : Player) : List Coupon × Vector Int 5 × Int :=
  (p.coupons, p.couponCount, p.reputation)

/-- Every player's standing. -/
def ledger (g : Game) : List (Int × (List Coupon × Vector Int 5 × Int)) :=
  g.players.map fun e => (e.1, standing e.2)

/-- The allies a player owns. -/
def alliesOf (allies : List Ally) (id : Int) : List Ally := allies.filter (Ally.isOwnedBy id)

/-- The accounts of a player: the coupons are counted by their type, and the
reputation is that of the coupons and the allies. -/
structure Account (allies : List Ally) (id : Int) (p : Player) : Prop where
  counts : ∀ t : Fin 5, p.couponCount.get t = p.coupons.countP (Coupon.hasType t)
  reputation : p.reputation = (p.coupons.map Coupon.reputation).sum + worth (alliesOf allies id)

/-- The accounts of all players, and what is known of the owners. -/
structure Books (g : Game) : Prop where
  nodup : g.ids.Nodup
  unowned : ∀ a ∈ g.allies, a.isOwned = false → a.ownerId = 0
  owners : ∀ a ∈ g.allies, a.isOwned = true → a.ownerId ∈ g.ids
  accounts : ∀ e ∈ g.players, Account g.allies e.1 e.2

/-- No ally without an owner has its condition met. -/
def Settled (g : Game) : Prop :=
  ∀ a ∈ g.allies, a.isOwned = false → ∀ e ∈ g.players, meets a e.2 = false

/-- None has its condition met by anyone but one player. -/
def SettledBut (id : Int) (g : Game) : Prop :=
  ∀ a ∈ g.allies, a.isOwned = false → ∀ e ∈ g.players, e.1 ≠ id → meets a e.2 = false

theorem Account.congr {allies : List Ally} {id : Int} {p p' : Player} (h : Account allies id p)
    (hs : standing p' = standing p) : Account allies id p' := by
  obtain ⟨hc, hrest⟩ := Prod.mk.inj hs
  obtain ⟨hn, hr⟩ := Prod.mk.inj hrest
  exact ⟨by rw [hc, hn]; exact h.counts, by rw [hc, hr]; exact h.reputation⟩

theorem meets_congr {p p' : Player} (hs : standing p' = standing p) (a : Ally) :
    meets a p' = meets a p := by
  unfold meets
  rw [(Prod.mk.inj (Prod.mk.inj hs).2).1]

section Ledger

variable {g g' : Game}

theorem ledger_congr (hi : g'.ids = g.ids) (hv : g'.view standing = g.view standing) :
    g'.ledger = g.ledger := by
  have hzip (s : Game) : s.ledger = s.ids.zip (s.view standing) := (List.zip_map' ..).symm
  rw [hzip, hzip, hi, hv]

theorem ids_of_ledger (h : g'.ledger = g.ledger) : g'.ids = g.ids := by
  have hfst (s : Game) : s.ids = s.ledger.map Prod.fst := by
    unfold ids ledger
    rw [List.map_map]
    rfl
  rw [hfst, hfst, h]

/-- A player keeps the seat. -/
theorem exists_at_of_ledger (h : g'.ledger = g.ledger) {it : Nat} {id : Int} {p : Player}
    (hp : g.At it id p) : ∃ p', g'.At it id p' := by
  have hat : g'.ledger[it]? = some (id, standing p) := by
    rw [h, ledger, List.getElem?_map, hp]
    rfl
  rw [ledger, List.getElem?_map, Option.map_eq_some_iff] at hat
  obtain ⟨⟨id', p'⟩, hget, heq⟩ := hat
  obtain ⟨rfl, -⟩ := Prod.mk.inj heq
  exact ⟨p', hget⟩

theorem exists_mem_of_ledger (h : g'.ledger = g.ledger) {e' : Int × Player} (he : e' ∈ g'.players) :
    ∃ e ∈ g.players, e.1 = e'.1 ∧ standing e'.2 = standing e.2 := by
  have hmem : (e'.1, standing e'.2) ∈ g.ledger := h ▸ List.mem_map.mpr ⟨e', he, rfl⟩
  obtain ⟨e, heg, heq⟩ := List.mem_map.mp hmem
  obtain ⟨hid, hs⟩ := Prod.mk.inj heq
  exact ⟨e, heg, hid, hs.symm⟩

/-- After one player is changed, the others are as before. -/
theorem mem_modifyPlayer (hnd : g.ids.Nodup) {it : Nat} {id : Int} {p : Player} (hp : g.At it id p)
    {f : Player → Player} {e : Int × Player} (he : e ∈ (g.modifyPlayer it f).players) :
    e = (id, f p) ∨ e ∈ g.players ∧ e.1 ≠ id := by
  obtain ⟨j, hj⟩ := List.getElem?_of_mem he
  have hat : (g.modifyPlayer it f).At j e.1 e.2 := hj
  rcases hat.of_modifyPlayer with ⟨q, hq, heq⟩ | ⟨hne, hat⟩
  · obtain ⟨rfl, rfl⟩ := Prod.mk.inj (Option.some.inj (hp.symm.trans hq))
    exact .inl (Prod.ext rfl heq)
  · refine .inr ⟨hat.mem, ?_⟩
    rintro rfl
    exact hne (hat.unique hnd hp)

/-- The books depend on the ledger and the allies only. -/
theorem Books.congr (h : Books g) (hl : g'.ledger = g.ledger) (ha : g'.allies = g.allies) :
    Books g' := by
  constructor
  case nodup => rw [ids_of_ledger hl]; exact h.nodup
  case unowned => rw [ha]; exact h.unowned
  case owners => rw [ha, ids_of_ledger hl]; exact h.owners
  case accounts =>
    intro e' he'
    obtain ⟨e, he, hid, hs⟩ := exists_mem_of_ledger hl he'
    rw [ha, ← hid]
    exact (h.accounts e he).congr hs

theorem Settled.congr (h : Settled g) (hl : g'.ledger = g.ledger) (ha : g'.allies = g.allies) :
    Settled g' := by
  intro a hmem hown e' he'
  rw [ha] at hmem
  obtain ⟨e, he, -, hs⟩ := exists_mem_of_ledger hl he'
  rw [meets_congr hs]
  exact h a hmem hown e he

theorem SettledBut.congr {id : Int} (h : SettledBut id g) (hl : g'.ledger = g.ledger)
    (ha : g'.allies = g.allies) : SettledBut id g' := by
  intro a hmem hown e' he' hne
  rw [ha] at hmem
  obtain ⟨e, he, hid, hs⟩ := exists_mem_of_ledger hl he'
  rw [meets_congr hs]
  exact h a hmem hown e he (hid ▸ hne)

end Ledger

/-! ## One call -/

end Game

/-- The calls that end with `check_ally`. -/
def Op.isPurchase : Op → Bool
  | .buyCoupon _ _ | .buyReservedCoupon _ _ => true
  | _ => false

namespace Game

theorem standing_status (p : Player) (s : Status) : standing { p with status := s } = standing p :=
  rfl

theorem standing_mineCount (p : Player) (v : Vector Int 6) :
    standing { p with mineCount := v } = standing p := rfl

/-- Only purchases move the accounts. -/
theorem ledger_effect {g g' : Game} {op : Op} (he : Effect g op g') (hop : op.isPurchase = false) :
    g'.ledger = g.ledger ∧ g'.allies = g.allies := by
  have hids := ids_effect he
  cases he with
  | take3 hf hs hd hstock hgold =>
    refine ⟨ledger_congr hids ?_, by simp [after3]⟩
    rw [view_record, view_handOverUnlessFull standing_status]
    exact view_setMines standing_mineCount _ _
  | take2 hf hs hstock hgold =>
    refine ⟨ledger_congr hids ?_, by simp⟩
    rw [view_record, view_handOverUnlessFull standing_status]
    exact view_setMines standing_mineCount _ _
  | reserve hf hs hroom hslot =>
    refine ⟨ledger_congr hids ?_, by rw [allies_handOverUnlessFull, allies_afterReserve]⟩
    rw [view_handOverUnlessFull standing_status, view_afterReserve standing_mineCount]
    exact view_modifyPlayer fun _ => rfl
  | buy => cases hop
  | buyReserved => cases hop
  | returnMine hf hs hheld =>
    refine ⟨ledger_congr hids ?_, by dsimp only; split <;> simp⟩
    dsimp only
    split
    · rw [view_handOver standing_status]
      exact view_setMines standing_mineCount _ _
    · exact view_setMines standing_mineCount _ _

/-- The game after a purchase by a player, before `check_ally`. -/
structure Bought (g : Game) (player : Int) (g₁ : Game) : Prop where
  buyer : ∃ (it : Nat) (p : Player) (c : Coupon) (t : Fin 5) (f : Player → Player),
    g.At it player p ∧ c.type.toInt = (t : Nat) ∧
    standing (f p) = (p.coupons ++ [c], bump p.couponCount t 1, p.reputation + c.reputation) ∧
    g₁.ledger = (g.modifyPlayer it f).ledger
  allies : g₁.allies = g.allies
  actions : g₁.allyActions = .arr []

theorem allyActions_fillCoupon {g : Game} (level : Int) (slot : Nat) :
    (g.fillCoupon level slot).allyActions = g.allyActions := by
  unfold fillCoupon
  split <;> rfl

/-- A coupon that was bought from the board is in the books. -/
theorem bought_buy {g : Game} {it slot : Nat} {p : Player} {c : Coupon} {t : Fin 5} {player : Int}
    (hp : g.At it player p) (ht : c.type.toInt = (t : Nat)) (label : String) :
    Bought g player
      (((g.afterBuy it p c t label player).fillCoupon c.level slot).handOver it) := by
  refine ⟨⟨it, p, c, t, bought p c t g.bank, hp, ht, rfl, ?_⟩, ?_, ?_⟩
  · refine ledger_congr ?_ ?_
    · rw [ids_handOver, ids_fillCoupon, ids_of_players (players_afterBuy ..)]
    · rw [view_handOver standing_status, view_fillCoupon, view_of_players (players_afterBuy ..)]
  · rw [allies_handOver, allies_fillCoupon, allies_afterBuy]
  · exact allyActions_fillCoupon ..

/-- A coupon that was bought from the hand is in the books. -/
theorem bought_buyReserved {g : Game} {it slot : Nat} {p : Player} {c : Coupon} {t : Fin 5}
    {player : Int} (hp : g.At it player p) (ht : c.type.toInt = (t : Nat)) (label : String) :
    Bought g player
      (((g.afterBuy it p c t label player).modifyPlayer it (dropReserved slot)).handOver it) := by
  refine ⟨⟨it, p, c, t, fun q => dropReserved slot (bought p c t g.bank q), hp, ht, rfl, ?_⟩,
    rfl, rfl⟩
  refine ledger_congr ?_ ?_
  · rw [ids_handOver, ids_of_players (players_afterBuy_dropReserved ..)]
  · rw [view_handOver standing_status, view_of_players (players_afterBuy_dropReserved ..)]

/-- A purchase ends with `check_ally`. -/
theorem purchase_effect {g g' : Game} {op : Op} (he : Effect g op g')
    (hop : op.isPurchase = true) : ∃ g₁, g' = g₁.checkAlly ∧ Bought g op.player g₁ := by
  cases he with
  | take3 => cases hop
  | take2 => cases hop
  | reserve => cases hop
  | returnMine => cases hop
  | buy hf hs hslot hafford ht => exact ⟨_, rfl, bought_buy (find_at hf) ht _⟩
  | buyReserved hf hs hslot hafford ht => exact ⟨_, rfl, bought_buyReserved (find_at hf) ht _⟩

/-- The account of a buyer, with the coupon in it. -/
theorem Account.buy {allies : List Ally} {id : Int} {p p' : Player} {c : Coupon} {t : Fin 5}
    (h : Account allies id p) (ht : c.type.toInt = (t : Nat)) (hp' : standing p' =
      (p.coupons ++ [c], bump p.couponCount t 1, p.reputation + c.reputation)) :
    Account allies id p' := by
  obtain ⟨hc, hrest⟩ := Prod.mk.inj hp'
  obtain ⟨hn, hr⟩ := Prod.mk.inj hrest
  constructor
  case counts =>
    intro t'
    rw [hc, hn, get_bump, List.countP_append, h.counts t', List.countP_singleton,
      Coupon.hasType, ht]
    by_cases htt : t' = t
    · subst htt
      simp
    · have hne : ¬ ((t : Nat) : Int) = (t' : Nat) := natCast_ne_of_ne (Ne.symm htt)
      simp [htt, hne]
  case reputation =>
    rw [hc, hr, List.map_append, List.sum_append, h.reputation]
    simp only [List.map_cons, List.map_nil, List.sum_cons, List.sum_nil, add_zero]
    exact add_right_comm ..

/-- The accounts after a purchase, before `check_ally`: the buyer alone can win an
ally. -/
theorem Books.bought {g g₁ : Game} {player : Int} (h : Books g) (hs : Settled g)
    (hb : Bought g player g₁) :
    Books g₁ ∧ SettledBut player g₁ ∧ ∃ it p, g₁.At it player p := by
  obtain ⟨it, p, c, t, f, hp, ht, hf, hledger⟩ := hb.buyer
  have hmem {e : Int × Player} (he : e ∈ (g.modifyPlayer it f).players) :=
    mem_modifyPlayer h.nodup hp he
  have hbooks : Books (g.modifyPlayer it f) := by
    constructor
    case nodup => rw [ids_modifyPlayer]; exact h.nodup
    case unowned => exact h.unowned
    case owners => rw [ids_modifyPlayer]; exact h.owners
    case accounts =>
      intro e he
      rcases hmem he with rfl | ⟨he, -⟩
      · exact (h.accounts _ hp.mem).buy ht hf
      · exact h.accounts e he
  have hbut : SettledBut player (g.modifyPlayer it f) := by
    intro a ha hown e he hne
    rcases hmem he with rfl | ⟨he, -⟩
    · exact absurd rfl hne
    · exact hs a ha hown e he
  exact ⟨hbooks.congr hledger hb.allies, hbut.congr hledger hb.allies, it,
    exists_at_of_ledger hledger (hp.modifyPlayer f)⟩

/-! ## The awards -/

section Award

variable {id : Int} {p : Player} {a : Ally}

/-- An ally without an owner is nobody's. -/
theorem alliesOf_cons_of_unowned (h : a.isOwned = false) (rest : List Ally) :
    alliesOf (a :: rest) id = alliesOf rest id :=
  List.filter_cons_of_neg (by unfold Ally.isOwnedBy; rw [h]; exact Bool.false_ne_true)

/-- The winner's allies are worth more by those that are won. -/
theorem worth_award (allies : List Ally) :
    worth (alliesOf (allies.map (award id p)) id) =
      worth (alliesOf allies id) + worth (wins p allies) := by
  induction allies with
  | nil => rfl
  | cons a rest ih =>
    rw [List.map_cons]
    cases hwon : canWin p a with
    | true =>
      have hmine : Ally.isOwnedBy id (a.wonBy id) = true := by simp [Ally.isOwnedBy, Ally.wonBy]
      rw [award_of_canWin hwon, wins_cons_of_canWin hwon,
        alliesOf_cons_of_unowned (isOwned_of_canWin hwon), alliesOf, List.filter_cons_of_pos hmine,
        worth_cons, worth_cons, ← alliesOf, ih]
      exact add_left_comm ..
    | false =>
      rw [award_of_not hwon, wins_cons_of_not hwon]
      cases hmine : Ally.isOwnedBy id a with
      | true =>
        have hcons (l : List Ally) : alliesOf (a :: l) id = a :: alliesOf l id :=
          List.filter_cons_of_pos hmine
        rw [hcons, hcons, worth_cons, worth_cons, ih, add_assoc]
      | false =>
        have hcons (l : List Ally) : alliesOf (a :: l) id = alliesOf l id :=
          List.filter_cons_of_neg (by rw [hmine]; exact Bool.false_ne_true)
        rw [hcons, hcons, ih]

/-- The others' allies are the same. -/
theorem alliesOf_award {id' : Int} (hne : id' ≠ id) (allies : List Ally) :
    alliesOf (allies.map (award id p)) id' = alliesOf allies id' := by
  induction allies with
  | nil => rfl
  | cons a rest ih =>
    rw [List.map_cons]
    cases hwon : canWin p a with
    | true =>
      have hother : ¬ Ally.isOwnedBy id' (a.wonBy id) = true := by
        simp [Ally.isOwnedBy, Ally.wonBy, hne.symm]
      rw [award_of_canWin hwon, alliesOf_cons_of_unowned (isOwned_of_canWin hwon), ← ih]
      exact List.filter_cons_of_neg hother
    | false =>
      rw [award_of_not hwon]
      unfold alliesOf at ih ⊢
      rw [List.filter_cons, List.filter_cons, ih]

/-- The allies with an owner are those that had one and those that are won. -/
theorem owned_award_perm (allies : List Ally) :
    ((allies.map (award id p)).filter Ally.isOwned).Perm
      (allies.filter Ally.isOwned ++ (wins p allies).map (Ally.wonBy id)) := by
  induction allies with
  | nil => exact .nil
  | cons a rest ih =>
    rw [List.map_cons]
    cases hwon : canWin p a with
    | true =>
      have hown : ¬ a.isOwned = true := by rw [isOwned_of_canWin hwon]; exact Bool.false_ne_true
      rw [award_of_canWin hwon, wins_cons_of_canWin hwon, List.filter_cons_of_pos rfl,
        List.filter_cons_of_neg hown, List.map_cons]
      exact (ih.cons _).trans List.perm_middle.symm
    | false =>
      rw [award_of_not hwon, wins_cons_of_not hwon]
      by_cases hown : a.isOwned = true
      · rw [List.filter_cons_of_pos hown, List.filter_cons_of_pos hown, List.cons_append]
        exact ih.cons _
      · rw [List.filter_cons_of_neg hown, List.filter_cons_of_neg hown]
        exact ih

/-- An ally is one of those before, won or as it was. -/
theorem mem_map_award {allies : List Ally} {a' : Ally} (ha' : a' ∈ allies.map (award id p)) :
    ∃ a ∈ allies, canWin p a = true ∧ a' = a.wonBy id ∨ canWin p a = false ∧ a' = a := by
  obtain ⟨a, ha, rfl⟩ := List.mem_map.mp ha'
  refine ⟨a, ha, ?_⟩
  cases hwon : canWin p a with
  | true => exact .inl ⟨rfl, award_of_canWin hwon id⟩
  | false => exact .inr ⟨rfl, award_of_not hwon id⟩

/-- The accounts after the awards: the winner's grows by what the allies are worth, and
the others' are the same. -/
theorem Account.award {allies : List Ally} (h : Account allies id p) :
    Account (allies.map (award id p)) id (gain (worth (wins p allies)) p) := by
  refine ⟨h.counts, ?_⟩
  rw [worth_award, ← add_assoc]
  exact congrArg (· + worth (wins p allies)) h.reputation

theorem Account.award_ne {allies : List Ally} {id' : Int} {q : Player} (h : Account allies id' q)
    (hne : id' ≠ id) : Account (allies.map (Game.award id p)) id' q := by
  refine ⟨h.counts, ?_⟩
  rw [alliesOf_award hne]
  exact h.reputation

end Award

/-- The credits that stand in the books. -/
def credited (g : Game) : List Json := (g.allies.filter Ally.isOwned).map Ally.credit

/-- `check_ally` changes nobody but the one player who can win something. -/
theorem mem_checkAlly {g : Game} {it : Nat} {id : Int} {p : Player} (hnd : g.ids.Nodup)
    (hs : SettledBut id g) (hp : g.At it id p) {e : Int × Player} (he : e ∈ g.checkAlly.players) :
    e = (id, gain (worth (wins p g.allies)) p) ∨ e ∈ g.players ∧ e.1 ≠ id := by
  rw [checkAlly_of_one hnd hp hs] at he
  exact mem_modifyPlayer hnd hp he

/-- **`check_ally` after a purchase** credits the buyer with every ally that the
buyer's coupons win, once, and settles the rest. -/
theorem Books.checkAlly {g : Game} {it : Nat} {id : Int} {p : Player} (h : Books g)
    (hs : SettledBut id g) (hp : g.At it id p) :
    Books g.checkAlly ∧ Settled g.checkAlly ∧
      ∃ records, g.checkAlly.allyActions = .arr (g.allyActions.items ++ records) ∧
        g.checkAlly.credited.Perm (g.credited ++ records) := by
  have hcheck := checkAlly_of_one h.nodup hp hs
  have hallies : g.checkAlly.allies = g.allies.map (award id p) := by rw [hcheck]
  have hids : g.checkAlly.ids = g.ids := ids_checkAlly
  have hmem {e : Int × Player} (he : e ∈ g.checkAlly.players) := mem_checkAlly h.nodup hs hp he
  have hcases {a' : Ally} (ha' : a' ∈ g.checkAlly.allies) := mem_map_award (hallies ▸ ha')
  refine ⟨?_, ?_, _, by rw [hcheck], ?_⟩
  · constructor
    case nodup => rw [hids]; exact h.nodup
    case unowned =>
      intro a' ha' hown
      obtain ⟨a, ha, ⟨-, rfl⟩ | ⟨-, rfl⟩⟩ := hcases ha'
      · cases hown
      · exact h.unowned a' ha hown
    case owners =>
      intro a' ha' hown
      rw [hids]
      obtain ⟨a, ha, ⟨-, rfl⟩ | ⟨-, rfl⟩⟩ := hcases ha'
      · exact List.mem_map.mpr ⟨_, hp.mem, rfl⟩
      · exact h.owners a' ha hown
    case accounts =>
      intro e he
      rw [hallies]
      rcases hmem he with rfl | ⟨he, hne⟩
      · exact (h.accounts _ hp.mem).award
      · exact (h.accounts e he).award_ne hne
  · intro a' ha' hown e he
    obtain ⟨a, ha, ⟨-, rfl⟩ | ⟨hlost, rfl⟩⟩ := hcases ha'
    · cases hown
    · rcases hmem he with rfl | ⟨he, hne⟩
      · unfold canWin at hlost
        rw [hown] at hlost
        exact hlost
      · exact hs a' ha hown e he hne
  · have hmap : (wins p g.allies).map (fun a => (a.wonBy id).credit) =
        ((wins p g.allies).map (Ally.wonBy id)).map Ally.credit := by
      rw [List.map_map]
      rfl
    unfold credited
    rw [hallies, hmap, ← List.map_append]
    exact (owned_award_perm g.allies).map Ally.credit

/-! ## Runs -/

/-- The credits recorded by one step of a run. -/
def credits (e : Entry Game Op Bool) : List Json :=
  if e.out && e.act.isPurchase then e.post.allyActions.items else []

/-- **Step lemma**: a call keeps the books and settles them, and what it adds to
the credits is what it records. -/
theorem Books.step {g g' : Game} {op : Op} {b : Bool} (h : Books g) (hs : Settled g)
    (hstep : g.step op = .ok (b, g')) :
    Books g' ∧ Settled g' ∧ g'.credited.Perm (g.credited ++ credits ⟨g, op, b, g'⟩) := by
  unfold credits
  rcases step_cases hstep with ⟨rfl, rfl⟩ | ⟨rfl, he⟩
  · refine ⟨h, hs, ?_⟩
    rw [Bool.false_and, if_neg Bool.false_ne_true, List.append_nil]
  · rw [Bool.true_and]
    cases hop : op.isPurchase with
    | false =>
      obtain ⟨hl, ha⟩ := ledger_effect he hop
      refine ⟨h.congr hl ha, hs.congr hl ha, ?_⟩
      rw [if_neg Bool.false_ne_true, List.append_nil, credited, ha]
      exact .refl _
    | true =>
      obtain ⟨g₁, rfl, hb⟩ := purchase_effect he hop
      obtain ⟨hbooks, hbut, it, p, hp⟩ := h.bought hs hb
      obtain ⟨hbooks', hs', records, hrecords, hcredited⟩ := hbooks.checkAlly hbut hp
      refine ⟨hbooks', hs', ?_⟩
      have hsame : g₁.credited = g.credited := by
        unfold credited
        rw [hb.allies]
      rw [if_pos rfl]
      dsimp only
      rw [hrecords, hb.actions, ← hsame]
      exact hcredited

theorem allies_new {ids : List Int} {draw : Nat → Nat} {rank : Int → Nat} {a : Ally}
    (ha : a ∈ (new ids draw rank).allies) : a ∈ allAllies :=
  Array.mem_toList_iff.mpr (mem_pickAllies ha)

theorem standing_new {ids : List Int} {draw : Nat → Nat} {rank : Int → Nat} {e : Int × Player}
    (he : e ∈ (new ids draw rank).players) : standing e.2 = standing Player.new := by
  have hmem : standing e.2 ∈ (new ids draw rank).view standing := List.mem_map.mpr ⟨e, he, rfl⟩
  rw [view_new ids draw rank standing_status] at hmem
  obtain ⟨_, -, heq⟩ := List.mem_map.mp hmem
  exact heq.symm

/-- The constructor opens the books. -/
theorem books_new (ids : List Int) (draw : Nat → Nat) (rank : Int → Nat) :
    Books (new ids draw rank) ∧ Settled (new ids draw rank) ∧
      (new ids draw rank).credited = [] := by
  have hunowned : ∀ a ∈ allAllies, a.isOwned = false := by decide +kernel
  have hnone : (new ids draw rank).allies.filter Ally.isOwned = [] :=
    List.filter_eq_nil_iff.mpr fun a ha => by
      rw [hunowned a (allies_new ha)]
      exact Bool.false_ne_true
  refine ⟨?_, ?_, ?_⟩
  · constructor
    case nodup =>
      rw [ids_new]
      exact (hashOrder_perm ..).nodup_iff.mpr (List.nodup_dedup ids)
    case unowned =>
      have hzero : ∀ a ∈ allAllies, a.ownerId = 0 := by decide +kernel
      exact fun a ha _ => hzero a (allies_new ha)
    case owners =>
      intro a ha hown
      rw [hunowned a (allies_new ha)] at hown
      cases hown
    case accounts =>
      intro e he
      refine Account.congr (p := Player.new) ⟨by decide, ?_⟩ (standing_new he)
      have hno : alliesOf (new ids draw rank).allies e.1 = [] :=
        List.filter_eq_nil_iff.mpr fun a ha => by
          unfold Ally.isOwnedBy
          rw [hunowned a (allies_new ha)]
          exact Bool.false_ne_true
      rw [hno]
      rfl
  · have hmeets : ∀ a ∈ allAllies, meets a Player.new = false := by decide +kernel
    intro a ha _ e he
    rw [meets_congr (standing_new he)]
    exact hmeets a (allies_new ha)
  · unfold credited
    rw [hnone]
    rfl

/-- **Run lemma**: the books are kept and settled, and the credits in them are the
ones recorded on the way. -/
theorem run_books {ids : List Int} {draw : Nat → Nat} {rank : Int → Nat} {ok : Game → Op → Prop}
    {h : List (Entry Game Op Bool)} {g : Game} (hr : Run Game.step ok (new ids draw rank) h g) :
    Books g ∧ Settled g ∧ g.credited.Perm (h.flatMap credits) := by
  induction hr with
  | nil =>
    obtain ⟨hbooks, hs, hcredited⟩ := books_new ids draw rank
    exact ⟨hbooks, hs, by rw [hcredited]; exact .nil⟩
  | @snoc l g g' op b hl hok hstep ih =>
    obtain ⟨hbooks, hs, hcredited⟩ := ih
    obtain ⟨hbooks', hs', hcredited'⟩ := hbooks.step hs hstep
    refine ⟨hbooks', hs', ?_⟩
    rw [List.flatMap_append, List.flatMap_singleton]
    exact hcredited'.trans (hcredited.append_right _)

/-- **The accounts balance** after every run: an ally without an owner has its
condition met by nobody; an ally with an owner is one player's, and the credits
recorded in the run are one for each such ally, made out to its owner; the
coupons of each type are counted, and the reputation of a player is that of the
coupons bought and of the allies owned. -/
theorem accounts_balance (ids : List Int) (draw : Nat → Nat) (rank : Int → Nat)
    {h : List (Entry Game Op Bool)} {g : Game}
    (hr : Run Game.step (fun _ _ => True) (new ids draw rank) h g) :
    (∀ a ∈ g.allies, a.isOwned = false →
      a.ownerId = 0 ∧ ∀ e ∈ g.players, meets a e.2 = false) ∧
    (∀ a ∈ g.allies, a.isOwned = true → g.ids.count a.ownerId = 1) ∧
    (h.flatMap credits).Perm ((g.allies.filter Ally.isOwned).map Ally.credit) ∧
    ∀ e ∈ g.players,
      (∀ t : Fin 5, e.2.couponCount.get t = e.2.coupons.countP (Coupon.hasType t)) ∧
      e.2.reputation = (e.2.coupons.map Coupon.reputation).sum + worth (alliesOf g.allies e.1) := by
  obtain ⟨hbooks, hs, hcredited⟩ := run_books hr
  refine ⟨?_, ?_, hcredited.symm, ?_⟩
  · intro a ha hown
    exact ⟨hbooks.unowned a ha hown, hs a ha hown⟩
  · intro a ha hown
    exact List.count_eq_one_of_mem hbooks.nodup (hbooks.owners a ha hown)
  · intro e he
    have hacc := hbooks.accounts e he
    exact ⟨hacc.counts, hacc.reputation⟩

/-- A game of two players that the first one wins, with an ally. -/
def winningGame : List Op :=
  [.take3Mines 2 3 4 1, .take3Mines 1 3 4 2, .take3Mines 1 2 3 1, .take3Mines 0 1 2 2,
    .reserveCoupon 90 1, .buyCoupon 38 2, .buyCoupon 1 1, .take3Mines 0 3 4 2,
    .take3Mines 0 2 3 1, .buyCoupon 2 2, .take3Mines 0 3 4 1, .take3Mines 0 1 3 2,
    .buyCoupon 4 1, .take3Mines 2 3 4 2, .take3Mines 0 1 2 1, .buyCoupon 5 2, .buyCoupon 3 1,
    .take3Mines 2 3 4 2, .take3Mines 1 3 4 1, .take3Mines 2 3 4 2, .buyCoupon 6 1,
    .buyCoupon 7 2, .buyCoupon 88 1, .take3Mines 2 3 4 2, .take3Mines 0 1 3 1, .buyCoupon 9 2,
    .buyCoupon 10 1, .reserveCoupon 73 2, .take3Mines 0 1 2 1, .buyCoupon 11 2,
    .take3Mines 0 2 3 1, .reserveCoupon 74 2, .buyCoupon 39 1, .buyCoupon 41 2,
    .take3Mines 1 3 4 1, .reserveCoupon 72 2, .buyReservedCoupon 90 1, .buyCoupon 12 2,
    .buyCoupon 14 1, .take3Mines 1 2 3 2, .buyCoupon 40 1, .take3Mines 0 1 3 2, .buyCoupon 16 1,
    .buyCoupon 17 2, .buyCoupon 18 1, .buyCoupon 15 2, .buyCoupon 13 1, .take3Mines 1 2 4 2,
    .take3Mines 2 3 4 1, .take3Mines 0 2 4 2, .buyCoupon 19 1, .buyCoupon 89 2, .buyCoupon 22 1,
    .buyCoupon 23 2, .buyCoupon 24 1]

/-- Player 1 wins with an ally. -/
theorem accounts_balance_two : ∃ h g,
    Run Game.step (fun _ _ => True) (new [1, 2] (fun _ => 0) Int.toNat) h g ∧
      h.map Entry.act = winningGame ∧
      (h.flatMap credits).Perm ((g.allies.filter Ally.isOwned).map Ally.credit) ∧
      (g.allies.filter Ally.isOwned).map Ally.ownerId = [1] := by
  have hcheck : ((execIf Game.step (fun _ _ => True) (new [1, 2] (fun _ => 0) Int.toNat)
      winningGame).map fun g => (g.allies.filter Ally.isOwned).map Ally.ownerId) = some [1] := by
    decide +kernel
  obtain ⟨g, hg, howners⟩ := Option.map_eq_some_iff.mp hcheck
  obtain ⟨h, hr, hacts⟩ := run_of_execIf .nil hg
  exact ⟨h, g, hr, hacts, (accounts_balance [1, 2] (fun _ => 0) Int.toNat hr).2.2.1, howners⟩

end Game

end UnoppServer.Splendor
