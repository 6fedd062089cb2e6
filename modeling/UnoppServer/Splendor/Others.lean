import UnoppServer.Splendor.Allies

/-!
# Splendor: the players who do not call

A call that is refused leaves the game as it was (`step_cases`). One that succeeds writes to the
caller and hands the turn over. The one piece that looks at all players is `check_ally`, and
nobody but the buyer can win an ally after a purchase.

- `Same`: the pieces that write to the caller only;
- `Spares`: the others are as they were, but for the one whose turn it is now;
- `spares_effect`: every successful call spares the others;
- `call_frame`: so after every run a call changes nothing, or spares the others.
-/

namespace UnoppServer.Splendor

open FindIf Runs

namespace Game

/-- The others are as they were. -/
def Same (player : Int) (g g' : Game) : Prop :=
  ∀ it id p, g.At it id p → id ≠ player → g'.At it id p

/-- The others are as they were, except that one of them may have got the turn. -/
def Spares (player : Int) (g g' : Game) : Prop :=
  ∃ next, ∀ it id p, g.At it id p → id ≠ player →
    g'.At it id (if it = next then { p with status := .action } else p)

section Pieces

variable {player : Int} {g g' g'' : Game} {it : Nat} {p : Player}

theorem Same.trans (h : Same player g g') (h' : Same player g' g'') : Same player g g'' :=
  fun it id p hp hne => h' it id p (h it id p hp hne) hne

theorem same_of_players (h : g'.players = g.players) : Same player g g' := by
  intro it id p hp _
  unfold At
  rw [h]
  exact hp

/-- The caller is changed. -/
theorem same_modifyPlayer (hat : g.At it player p) (f : Player → Player) :
    Same player g (g.modifyPlayer it f) := by
  intro j id q hq hne
  refine hq.modifyPlayer_ne ?_ f
  rintro rfl
  obtain ⟨rfl, -⟩ := Prod.mk.inj (Option.some.inj (hq.symm.trans hat))
  exact hne rfl

theorem same_setMines (hat : g.At it player p) (v b : Vector Int 6) :
    Same player g (g.setMines it v b) :=
  same_modifyPlayer (g := { g with bank := b }) hat _

/-- No position gets the turn. -/
theorem Same.spares (h : Same player g g') : Spares player g g' := by
  refine ⟨g.players.length, fun j id q hq hne => ?_⟩
  have hlt : j < g.players.length := (List.getElem?_eq_some_iff.mp hq).1
  rw [if_neg (Nat.ne_of_lt hlt)]
  exact h j id q hq hne

theorem Spares.same (h : Spares player g g') (h' : Same player g' g'') : Spares player g g'' := by
  obtain ⟨next, h⟩ := h
  exact ⟨next, fun j id q hq hne => h' _ _ _ (h j id q hq hne) hne⟩

/-- **The hand-over** gives the turn to one player. -/
theorem Same.handOver (h : Same player g g') (hat : g'.At it player p) :
    Spares player g (g'.handOver it) := by
  refine ⟨(g'.modifyPlayer it fun p => { p with status := .waiting }).next it,
    fun j id q hq hne => ?_⟩
  have hwait := same_modifyPlayer hat (fun p => { p with status := .waiting }) j id q
    (h j id q hq hne) hne
  unfold Game.handOver
  dsimp only
  split
  · rename_i hj
    rw [← hj]
    exact hwait.modifyPlayer _
  · rename_i hj
    exact hwait.modifyPlayer_ne (Ne.symm hj) _

theorem Same.handOverUnlessFull (h : Same player g g') (hat : g'.At it player p) :
    Spares player g (g'.handOverUnlessFull it) := by
  unfold Game.handOverUnlessFull
  split
  · exact (h.trans (same_modifyPlayer hat _)).spares
  · exact h.handOver hat

/-- **`check_ally`** writes to the one player who can win something. -/
theorem same_checkAlly (hbooks : Books g) (hs : SettledBut player g) (hat : g.At it player p) :
    Same player g g.checkAlly := by
  rw [checkAlly_of_one hbooks.nodup hat hs]
  exact same_modifyPlayer hat _

end Pieces

/-! ## Calls -/

/-- A purchase, before `check_ally` and after. -/
theorem Bought.spares {g g₁ : Game} {player : Int} (hbooks : Books g) (hs : Settled g)
    (hb : Bought g player g₁) (h : Spares player g g₁) : Spares player g g₁.checkAlly := by
  obtain ⟨hbooks₁, hbut, it, p, hat⟩ := hbooks.bought hs hb
  exact h.same (same_checkAlly hbooks₁ hbut hat)

/-- **Step lemma**: a successful call spares the others. -/
theorem spares_effect {g g' : Game} {op : Op} (hbooks : Books g) (hs : Settled g)
    (he : Effect g op g') : Spares op.player g g' := by
  cases he with
  | take3 hf =>
    have hat := find_at hf
    exact ((same_setMines hat _ _).handOverUnlessFull (hat.setMines _ _)).same (same_of_players rfl)
  | take2 hf =>
    have hat := find_at hf
    exact ((same_setMines hat _ _).handOverUnlessFull (hat.setMines _ _)).same (same_of_players rfl)
  | @reserve it p slot c couponIdx player hf =>
    have hat := find_at hf
    have hplayers : (g.moveToReserve it slot c player).players = (g.modifyPlayer it fun p =>
        { p with reservedCoupons := p.reservedCoupons ++ [c] }).players :=
      players_moveToReserve slot c player
    have hsame : Same player g (g.moveToReserve it slot c player) :=
      (same_modifyPlayer hat _).trans (same_of_players hplayers)
    have hat' : (g.moveToReserve it slot c player).At it player
        { p with reservedCoupons := p.reservedCoupons ++ [c] } := by
      unfold At
      rw [hplayers]
      exact hat.modifyPlayer _
    unfold afterReserve
    dsimp only
    split
    · exact (hsame.trans (same_setMines hat' _ _)).handOverUnlessFull (hat'.setMines _ _)
    · exact hsame.handOverUnlessFull hat'
  | @buy it p slot c t couponIdx player hf hstatus hslot hafford ht =>
    have hat := find_at hf
    have hplayers : ((g.afterBuy it p c t "BUY_COUPON" player).fillCoupon c.level slot).players =
        (g.modifyPlayer it (bought p c t g.bank)).players := by
      rw [players_fillCoupon, players_afterBuy]
    refine (bought_buy hat ht _).spares hbooks hs (Same.handOver (p := bought p c t g.bank p) ?_ ?_)
    · exact (same_modifyPlayer hat _).trans (same_of_players hplayers)
    · unfold At
      rw [hplayers]
      exact hat.modifyPlayer _
  | @buyReserved it p slot c t couponIdx player hf hstatus hslot hafford ht =>
    have hat := find_at hf
    have hplayers : ((g.afterBuy it p c t "BUY_RESERVED_COUPON" player).modifyPlayer it
        (dropReserved slot)).players =
          (g.modifyPlayer it fun q => dropReserved slot (bought p c t g.bank q)).players :=
      players_afterBuy_dropReserved ..
    refine (bought_buyReserved hat ht _).spares hbooks hs
      (Same.handOver (p := dropReserved slot (bought p c t g.bank p)) ?_ ?_)
    · exact (same_modifyPlayer hat _).trans (same_of_players hplayers)
    · unfold At
      rw [hplayers]
      exact hat.modifyPlayer _
  | returnMine hf =>
    have hat := find_at hf
    dsimp only
    split
    · exact (same_setMines hat _ _).handOver (hat.setMines _ _)
    · exact (same_setMines hat _ _).spares

/-- **Rejected calls leave no trace**, and successful ones spare the other players, after every
run. When all calls name mines and real coupons, every call completes. -/
theorem call_frame (ids : List Int) (draw : Nat → Nat) (rank : Int → Nat)
    {h : List (Entry Game Op Bool)} {g : Game}
    (hr : Run Game.step (fun _ _ => True) (new ids draw rank) h g) (op : Op) :
    (∀ b g', g.step op = .ok (b, g') →
      (b = false → g' = g) ∧ (b = true → g'.ids = g.ids ∧ Spares op.player g g')) ∧
    ((∀ e ∈ h, e.act.InRange) → op.InRange → ∃ b g', g.step op = .ok (b, g')) := by
  obtain ⟨hbooks, hs, -⟩ := run_books hr
  constructor
  · intro b g' hstep
    rcases step_cases hstep with ⟨rfl, rfl⟩ | ⟨rfl, he⟩
    · exact ⟨fun _ => rfl, fun hb => (nomatch hb)⟩
    · exact ⟨fun hb => (nomatch hb), fun _ => ⟨ids_effect he, spares_effect hbooks hs he⟩⟩
  · intro hall hop
    have hops : ∀ a ∈ h.map Entry.act, a.InRange := by
      intro a ha
      obtain ⟨e, he, rfl⟩ := List.mem_map.mp ha
      exact hall e he
    obtain ⟨g₁, hexec, hcards⟩ := exec_cardsInv ids draw rank hops
    obtain rfl := Except.ok.inj (hr.exec_eq.symm.trans hexec)
    obtain ⟨b, g', hg, -⟩ := hcards.step hop.namesMines hop.namesCoupon
    exact ⟨b, g', hg⟩

/-- Player 1 reserves a coupon, and player 2 is spared. -/
theorem call_frame_two :
    ∃ b g', (new [1, 2] (fun _ => 0) Int.toNat).step (.reserveCoupon 38 1) = .ok (b, g') ∧
      (b = false → g' = new [1, 2] (fun _ => 0) Int.toNat) ∧
      (b = true → Spares 1 (new [1, 2] (fun _ => 0) Int.toNat) g') := by
  obtain ⟨hframe, hcompletes⟩ := call_frame [1, 2] (fun _ => 0) Int.toNat .nil (.reserveCoupon 38 1)
  obtain ⟨b, g', hstep⟩ := hcompletes (fun _ he => absurd he List.not_mem_nil)
    ⟨by decide, by decide⟩
  obtain ⟨hfalse, htrue⟩ := hframe b g' hstep
  exact ⟨b, g', hstep, hfalse, fun hb => (htrue hb).2⟩

end Game

end UnoppServer.Splendor
