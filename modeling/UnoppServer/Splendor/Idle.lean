import UnoppServer.Splendor.Completion
import UnoppServer.Splendor.Frame

/-!
# Splendor: calls that change nothing

`Op.Passes g` lists, operation by operation, the checks that a call has to pass.
A call that passes them has an effect (`exists_effect_iff`), an effect changes
the bank or the coupons of a player (`effect_ne`), and a call that does not pass
is refused. So a call that completes changes nothing iff it does not pass
(`step_eq_iff`).
-/

namespace UnoppServer.Splendor

open FindIf

/-- The call passes the checks of its operation. -/
def Op.Passes (g : Game) : Op → Prop
  | .take3Mines m₀ m₁ m₂ player => ∃ it p, g.find player = some (it, p) ∧ p.status = .action ∧
    ¬ (m₀ = m₁ ∨ m₁ = m₂ ∨ m₂ = m₀) ∧ (g.InStock m₀ ∧ g.InStock m₁ ∧ g.InStock m₂) ∧
    ¬ (m₀ = gold ∨ m₁ = gold ∨ m₂ = gold)
  | .take2Mines mine player => ∃ it p, g.find player = some (it, p) ∧ p.status = .action ∧
    (∃ k : Fin 6, mine = (k : Nat) ∧ 4 ≤ g.bank.get k) ∧ mine ≠ gold
  | .reserveCoupon couponIdx player => ∃ it p, g.find player = some (it, p) ∧
    p.status = .action ∧ p.reservedCoupons.length ≤ 2 ∧
    ∃ slot c, findIf (fun c => c.hasIdx couponIdx) g.coupons = some (slot, c)
  | .buyCoupon couponIdx player => ∃ it p, g.find player = some (it, p) ∧ p.status = .action ∧
    ∃ slot c, findIf (fun c => c.hasIdx couponIdx) g.coupons = some (slot, c) ∧
      Game.checkAffordabillity p c = true ∧ c.type ≠ .gold
  | .buyReservedCoupon couponIdx player => ∃ it p, g.find player = some (it, p) ∧
    p.status = .action ∧
    ∃ slot c, findIf (fun c => c.hasIdx couponIdx) p.reservedCoupons = some (slot, c) ∧
      Game.checkAffordabillity p c = true ∧ c.type ≠ .gold
  | .returnMine mine player => ∃ it p, g.find player = some (it, p) ∧
    p.status = .needReturnMine ∧ ∃ k : Fin 6, mine = (k : Nat) ∧ 1 ≤ p.mineCount.get k

namespace Game

/-- The calls that pass are those that have an effect. -/
theorem exists_effect_iff {g : Game} {op : Op} : (∃ g', Effect g op g') ↔ op.Passes g := by
  constructor
  · rintro ⟨g', h⟩
    cases h with
    | take3 hf hs hd hstock hgold =>
      refine ⟨_, _, hf, hs, ?_, ⟨⟨_, rfl, hstock.1⟩, ⟨_, rfl, hstock.2.1⟩, _, rfl, hstock.2.2⟩, ?_⟩
      · simp only [not_or]
        exact ⟨natCast_ne_of_ne hd.1, natCast_ne_of_ne hd.2.1, natCast_ne_of_ne hd.2.2⟩
      · simp only [not_or]
        exact ⟨natCast_ne_of_ne (j := goldIdx) hgold.1, natCast_ne_of_ne (j := goldIdx) hgold.2.1,
          natCast_ne_of_ne (j := goldIdx) hgold.2.2⟩
    | take2 hf hs hstock hgold =>
      exact ⟨_, _, hf, hs, ⟨_, rfl, hstock⟩, natCast_ne_of_ne (j := goldIdx) hgold⟩
    | reserve hf hs hroom hslot => exact ⟨_, _, hf, hs, hroom, _, _, hslot⟩
    | buy hf hs hslot hafford ht =>
      exact ⟨_, _, hf, hs, _, _, hslot, hafford, (exists_fin5_iff _).mp ⟨_, ht⟩⟩
    | buyReserved hf hs hslot hafford ht =>
      exact ⟨_, _, hf, hs, _, _, hslot, hafford, (exists_fin5_iff _).mp ⟨_, ht⟩⟩
    | returnMine hf hs hheld => exact ⟨_, _, hf, hs, _, rfl, hheld⟩
  · intro h
    cases op with
    | take3Mines m₀ m₁ m₂ player =>
      obtain ⟨it, p, hf, hs, hd, ⟨⟨k₀, rfl, h₀⟩, ⟨k₁, rfl, h₁⟩, k₂, rfl, h₂⟩, hgold⟩ := h
      simp only [not_or] at hd hgold
      exact ⟨_, .take3 hf hs ⟨natCast_ne hd.1, natCast_ne hd.2.1, natCast_ne hd.2.2⟩ ⟨h₀, h₁, h₂⟩
        ⟨natCast_ne (j := goldIdx) hgold.1, natCast_ne (j := goldIdx) hgold.2.1,
          natCast_ne (j := goldIdx) hgold.2.2⟩⟩
    | take2Mines mine player =>
      obtain ⟨it, p, hf, hs, ⟨k, rfl, hstock⟩, hgold⟩ := h
      exact ⟨_, .take2 hf hs hstock (natCast_ne (j := goldIdx) hgold)⟩
    | reserveCoupon couponIdx player =>
      obtain ⟨it, p, hf, hs, hroom, slot, c, hslot⟩ := h
      exact ⟨_, .reserve hf hs hroom hslot⟩
    | buyCoupon couponIdx player =>
      obtain ⟨it, p, hf, hs, slot, c, hslot, hafford, htype⟩ := h
      obtain ⟨t, ht⟩ := (exists_fin5_iff _).mpr htype
      exact ⟨_, .buy hf hs hslot hafford ht⟩
    | buyReservedCoupon couponIdx player =>
      obtain ⟨it, p, hf, hs, slot, c, hslot, hafford, htype⟩ := h
      obtain ⟨t, ht⟩ := (exists_fin5_iff _).mpr htype
      exact ⟨_, .buyReserved hf hs hslot hafford ht⟩
    | returnMine mine player =>
      obtain ⟨it, p, hf, hs, k, rfl, hheld⟩ := h
      exact ⟨_, .returnMine hf hs hheld⟩

/-- How many coupons of each kind a player holds. -/
def held (p : Player) : Nat × Nat := (p.coupons.length, p.reservedCoupons.length)

/-- A change that shows in the player shows in the game. -/
theorem view_modifyPlayer_ne {β : Type} {π : Player → β} {g : Game} {it : Nat} {id : Int}
    {p : Player} {f : Player → Player} (hp : g.At it id p) (hf : π (f p) ≠ π p) :
    (g.modifyPlayer it f).view π ≠ g.view π := by
  intro h
  have hit := congrArg (fun l => l[it]?) h
  simp only [view, List.getElem?_map] at hit
  rw [hp.modifyPlayer f, hp] at hit
  exact hf (Option.some.inj hit)

theorem ne_of_bank {g g' : Game} {b : Vector Int 6} (h : g'.bank = b) (k : Fin 6)
    (hk : b.get k ≠ g.bank.get k) : g' ≠ g := by
  rintro rfl
  exact hk (by rw [h])

/-- **An effect is a change**: of the bank, or of the coupons a player holds. -/
theorem effect_ne {g g' : Game} {op : Op} (h : Effect g op g') : g' ≠ g := by
  have hstatus : ∀ (p : Player) (s : Status), held { p with status := s } = held p :=
    fun _ _ => rfl
  have hrep : ∀ (p : Player) (r : Int), held { p with reputation := r } = held p := fun _ _ => rfl
  have hview {g₁ : Game} (hne : g₁.view held ≠ g.view held) : g₁ ≠ g := fun he => hne (by rw [he])
  cases h with
  | @take3 it p k₀ k₁ k₂ player hf hs hd hstock hgold =>
    refine ne_of_bank (by rw [bank_record, bank_handOverUnlessFull, after3, bank_setMines]) k₀ ?_
    rw [get_bump, get_bump, get_bump, if_pos rfl, if_neg hd.1, if_neg hd.2.2.symm]
    omega
  | @take2 it p k player hf hs hstock hgold =>
    refine ne_of_bank (by rw [bank_record, bank_handOverUnlessFull, bank_setMines]) k ?_
    rw [get_bump, if_pos rfl]
    omega
  | @reserve it p slot c couponIdx player hf hs hroom hslot =>
    refine hview ?_
    rw [view_handOverUnlessFull hstatus, view_afterReserve fun _ _ => rfl]
    exact view_modifyPlayer_ne (find_at hf) (by simp [held])
  | buy hf hs hslot hafford ht =>
    refine hview ?_
    rw [view_buy hstatus hrep]
    exact view_modifyPlayer_ne (find_at hf) (by simp [held, bought])
  | buyReserved hf hs hslot hafford ht =>
    refine hview ?_
    rw [view_buyReserved hstatus hrep]
    exact view_modifyPlayer_ne (find_at hf) (by simp [held, bought, dropReserved])
  | @returnMine it p k player hf hs hheld =>
    refine ne_of_bank (b := bump g.bank k 1) (by dsimp only; split <;> rfl) k ?_
    rw [get_bump, if_pos rfl]
    omega

/-- **A call that completes changes nothing iff it does not pass.** -/
theorem step_eq_iff {g g' : Game} {op : Op} {b : Bool} (h : g.step op = .ok (b, g')) :
    g' = g ↔ ¬ op.Passes g := by
  rw [← exists_effect_iff]
  rcases step_cases h with ⟨rfl, rfl⟩ | ⟨-, he⟩
  · refine iff_of_true rfl fun ⟨g₁, he⟩ => ?_
    rw [step_of_effect he] at h
    cases h
  · exact iff_of_false (effect_ne he) (not_not.mpr ⟨g', he⟩)

end Game

end UnoppServer.Splendor
