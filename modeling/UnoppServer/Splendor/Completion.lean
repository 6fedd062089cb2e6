import UnoppServer.Splendor.Effect

/-!
# Splendor: when an operation completes

An operation faults when it indexes an array with a number that is no
enumerator, or when a purchase reaches a coupon of type gold. The lemmas here
give, operation by operation, the exact condition under which it does not: a
request that is refused early never reaches the index.
-/

namespace UnoppServer.Splendor

open FindIf

/-- An integer that is the number of a `Mine`. -/
def IsMine (i : Int) : Prop := ∃ k : Fin 6, i = (k : Nat)

theorem isMine_iff (i : Int) : IsMine i ↔ 0 ≤ i ∧ i ≤ 5 := by
  constructor
  · rintro ⟨k, rfl⟩
    have := k.isLt
    omega
  · rintro ⟨h₀, h₅⟩
    exact ⟨⟨i.toNat, by omega⟩, by simp [Int.toNat_of_nonneg h₀]⟩

theorem isMine_toInt (m : Mine) : IsMine m.toInt := by
  rw [isMine_iff]
  cases m <;> decide

instance (i : Int) : Decidable (IsMine i) := decidable_of_iff _ (isMine_iff i).symm

namespace Game

variable {g : Game}

/-- A call whose player is not found completes. -/
theorem completes_find_iff {player : Int} {f : Nat → Player → Except Fault (Bool × Game)} :
    Completes (match g.find player with
      | none => .ok (false, g)
      | some (it, p) => f it p) ↔
      ∀ it p, g.find player = some (it, p) → Completes (f it p) := by
  cases hf : g.find player with
  | none => simp [completes_ok]
  | some r =>
    constructor
    · rintro h it p he
      obtain ⟨rfl, rfl⟩ := Prod.mk.inj (Option.some.inj he)
      exact h
    · intro h
      exact h r.1 r.2 rfl

/-- A call whose coupon is not found completes. -/
theorem completes_search_iff {q : Coupon → Bool} {l : List Coupon}
    {f : Nat → Coupon → Except Fault (Bool × Game)} :
    Completes (match findIf q l with
      | none => .ok (false, g)
      | some (slot, c) => f slot c) ↔
      ∀ slot c, findIf q l = some (slot, c) → Completes (f slot c) := by
  cases hf : findIf q l with
  | none => simp [completes_ok]
  | some r =>
    constructor
    · rintro h slot c he
      obtain ⟨rfl, rfl⟩ := Prod.mk.inj (Option.some.inj he)
      exact h
    · intro h
      exact h r.1 r.2 rfl

/-- `take_2_mines` completes iff a caller whose turn it is names a mine. -/
theorem completes_take2Mines_iff (mine player : Int) :
    Completes (g.take2Mines mine player) ↔
      ∀ it p, g.find player = some (it, p) → p.status = .action → IsMine mine := by
  unfold take2Mines
  refine completes_find_iff.trans (forall₃_congr fun it p hf => ?_)
  refine completes_check_iff.trans (imp_congr not_not ?_)
  refine completes_readAt_iff.trans (exists_congr fun k => and_iff_left_of_imp ?_)
  rintro rfl
  refine completes_check_iff.mpr fun _ => completes_check_iff.mpr fun _ => ?_
  exact completes_addAt_iff.mpr ⟨k, rfl, completes_addAt_iff.mpr ⟨k, rfl, completes_ok _⟩⟩

/-- `return_mine` completes iff a caller who has to return one names a mine. -/
theorem completes_returnMine_iff (mine player : Int) :
    Completes (g.returnMine mine player) ↔
      ∀ it p, g.find player = some (it, p) → p.status = .needReturnMine → IsMine mine := by
  unfold returnMine
  refine completes_find_iff.trans (forall₃_congr fun it p hf => ?_)
  refine completes_check_iff.trans (imp_congr not_not ?_)
  refine completes_readAt_iff.trans (exists_congr fun k => and_iff_left_of_imp ?_)
  rintro rfl
  refine completes_check_iff.mpr fun _ => ?_
  exact completes_addAt_iff.mpr ⟨k, rfl, completes_addAt_iff.mpr ⟨k, rfl, completes_ok _⟩⟩

/-- A mine of which the bank has some left. -/
def InStock (g : Game) (m : Int) : Prop := ∃ k : Fin 6, m = (k : Nat) ∧ g.bank.get k ≠ 0

theorem completes_isOut_iff (m : Int) : Completes (g.isOut m) ↔ IsMine m := by
  unfold isOut
  rw [completes_readAt_iff]
  exact exists_congr fun k => and_iff_left (completes_ok _)

theorem isOut_eq_false_iff (m : Int) : g.isOut m = .ok false ↔ g.InStock m := by
  constructor
  · intro h
    obtain ⟨k, hk, hb⟩ := isOut_eq_ok h
    exact ⟨k, hk, by simpa using hb⟩
  · rintro ⟨k, rfl, hk⟩
    rw [isOut_fin, beq_false_of_ne hk]

/-- The second test is made when the first one fails. -/
theorem completes_or_iff {x y : Except Fault Bool} :
    Completes (x <||> y) ↔ Completes x ∧ (x = .ok false → Completes y) := by
  cases x with
  | error e =>
    exact ⟨fun h => absurd h (not_completes_error e), fun h => absurd h.1 (not_completes_error e)⟩
  | ok b =>
    cases b with
    | false => exact ⟨fun h => ⟨completes_ok _, fun _ => h⟩, fun h => h.2 rfl⟩
    | true => exact ⟨fun _ => ⟨completes_ok _, fun h => nomatch h⟩, fun _ => completes_ok _⟩

/-- `take_3_mines` completes iff the mines it looks up are mines: the second is
looked up only when the first is in stock, and so on. -/
theorem completes_take3Mines_iff (m₀ m₁ m₂ player : Int) :
    Completes (g.take3Mines m₀ m₁ m₂ player) ↔
      ∀ it p, g.find player = some (it, p) → p.status = .action →
        ¬ (m₀ = m₁ ∨ m₁ = m₂ ∨ m₂ = m₀) →
        IsMine m₀ ∧ (g.InStock m₀ → IsMine m₁ ∧ (g.InStock m₁ → IsMine m₂)) := by
  unfold take3Mines
  refine completes_find_iff.trans (forall₃_congr fun it p hf => ?_)
  refine completes_check_iff.trans (imp_congr not_not ?_)
  refine completes_check_iff.trans (imp_congr Iff.rfl ?_)
  have hor : Completes (g.isOut m₀ <||> g.isOut m₁ <||> g.isOut m₂) ↔
      IsMine m₀ ∧ (g.InStock m₀ → IsMine m₁ ∧ (g.InStock m₁ → IsMine m₂)) := by
    simp only [completes_or_iff, completes_isOut_iff, isOut_eq_false_iff]
  rw [← hor, completes_bind_iff]
  refine exists_congr fun out => and_iff_left_of_imp fun hout => ?_
  refine completes_check_iff.mpr fun hno => completes_check_iff.mpr fun _ => ?_
  obtain rfl : out = false := by simpa using hno
  obtain ⟨k₀, k₁, k₂, rfl, rfl, rfl, -⟩ := isOut_or_eq_false hout
  simp only [addAt_fin]
  exact completes_ok _

theorem completes_reserveCoupon (couponIdx player : Int) :
    Completes (g.reserveCoupon couponIdx player) := by
  unfold reserveCoupon
  refine completes_find_iff.mpr fun it p hf => ?_
  refine completes_check_iff.mpr fun _ => completes_check_iff.mpr fun _ => ?_
  exact completes_search_iff.mpr fun slot c hslot => completes_ok _

theorem exists_fin5_iff (m : Mine) : (∃ t : Fin 5, m.toInt = (t : Nat)) ↔ m ≠ .gold := by
  cases m <;> decide

/-- `buy_coupon` completes iff the coupon it finds, when affordable, is not of
type gold. -/
theorem completes_buyCoupon_iff (couponIdx player : Int) :
    Completes (g.buyCoupon couponIdx player) ↔
      ∀ it p, g.find player = some (it, p) → p.status = .action →
        ∀ slot c, findIf (fun c => c.hasIdx couponIdx) g.coupons = some (slot, c) →
          checkAffordabillity p c = true → c.type ≠ .gold := by
  unfold buyCoupon
  refine completes_find_iff.trans (forall₃_congr fun it p hf => ?_)
  refine completes_check_iff.trans (imp_congr not_not ?_)
  refine completes_search_iff.trans (forall₃_congr fun slot c hslot => ?_)
  refine completes_check_iff.trans (imp_congr (by simp) ?_)
  rw [← exists_fin5_iff]
  exact completes_addAt_iff.trans (exists_congr fun t => and_iff_left (completes_ok _))

/-- Buying a reserved coupon fails on a placeholder, which is of gold. -/
theorem completes_buyReservedCoupon_iff (couponIdx player : Int) :
    Completes (g.buyReservedCoupon couponIdx player) ↔
      ∀ it p, g.find player = some (it, p) → p.status = .action →
        ∀ slot c, findIf (fun c => c.hasIdx couponIdx) p.reservedCoupons = some (slot, c) →
          checkAffordabillity p c = true → c.type ≠ .gold := by
  unfold buyReservedCoupon
  refine completes_find_iff.trans (forall₃_congr fun it p hf => ?_)
  refine completes_check_iff.trans (imp_congr not_not ?_)
  refine completes_search_iff.trans (forall₃_congr fun slot c hslot => ?_)
  refine completes_check_iff.trans (imp_congr (by simp) ?_)
  by_cases hgold : c.type = .gold
  · rw [if_pos hgold]
    exact ⟨fun h => absurd h (not_completes_error _), fun h => absurd hgold h⟩
  · rw [if_neg hgold]
    constructor
    · intro _
      exact hgold
    · intro h
      obtain ⟨t, ht⟩ := (exists_fin5_iff c.type).mpr h
      exact completes_addAt_iff.mpr ⟨t, ht, completes_ok _⟩

end Game

end UnoppServer.Splendor
