import Mathlib.Order.Lattice
import Mathlib.Order.MinMax

/-!
# Alpha-beta pruning

A game has moves in each position, and an evaluation with values between `low` and
`high`. `maxValue` and `minValue` are plain minimax, some levels deep. `searchMax` and
`searchMin` are the same search with pruning: each call gets one bound from its
parent, the best value that the parent has so far, and returns early when its own best
value reaches the bound.

Such a call may return another value than minimax does, but only beyond the bound:
`Below b v s` and `Above a v s` say how the result `s` relates to the exact value `v`.
That is all that the loop of the parent needs (`Above.max_eq`, `Below.min_eq`), so the
loops compute exact values as long as they are not cut off (`maxLoop_below`,
`minLoop_above`), and at the root, with the bound `high`, nothing is lost
(`searchMax_eq`). The move that `searchMax` keeps is the first one of maximal value
(`searchMax_best`).
-/

namespace AlphaBeta

universe u v

variable {P : Type u} {M V : Type v} [LinearOrder V]

/-- The result `s` of a search for a maximum with value `v` and the parent's bound `b`:
the value itself, or a part of it that reaches the bound. -/
def Below (b v s : V) : Prop := s ≤ v ∧ (s = v ∨ b ≤ s)

/-- The result `s` of a search for a minimum with value `v` and the parent's bound `a`. -/
def Above (a v s : V) : Prop := v ≤ s ∧ (s = v ∨ s ≤ a)

section Bounds

variable {a b v s : V}

theorem Below.refl (b v : V) : Below b v v := ⟨le_rfl, .inl rfl⟩

theorem Above.refl (a v : V) : Above a v v := ⟨le_rfl, .inl rfl⟩

/-- A result that improves the maximum is exact. -/
theorem Above.eq_of_lt (h : Above a v s) (hs : a < s) : s = v :=
  h.2.resolve_right (not_le.mpr hs)

/-- For the maximum with the bound, the result is as good as the value. -/
theorem Above.max_eq (h : Above a v s) : max a s = max a v := by
  rcases h.2 with rfl | hs
  · rfl
  · rw [max_eq_left hs, max_eq_left (h.1.trans hs)]

theorem Below.min_eq (h : Below b v s) : min b s = min b v := by
  rcases h.2 with rfl | hs
  · rfl
  · rw [min_eq_left hs, min_eq_left (hs.trans h.1)]

/-- Where the bound is at least the value, the result is the value. -/
theorem Below.eq_of_le (h : Below b v s) (hv : v ≤ b) : s = v := by
  rcases h.2 with rfl | hs
  · rfl
  · exact le_antisymm h.1 (hv.trans hs)

end Bounds

/-! ## The largest and the smallest value -/

/-- The largest of the values, and of `a`. -/
def largest (a : V) (vs : List V) : V := vs.foldl max a

/-- The smallest of the values, and of `b`. -/
def smallest (b : V) (vs : List V) : V := vs.foldl min b

section Largest

variable {a b v : V} {vs : List V}

@[simp] theorem largest_nil (a : V) : largest a [] = a := rfl

@[simp] theorem largest_cons (a v : V) (vs : List V) :
    largest a (v :: vs) = largest (max a v) vs := rfl

@[simp] theorem smallest_nil (b : V) : smallest b [] = b := rfl

@[simp] theorem smallest_cons (b v : V) (vs : List V) :
    smallest b (v :: vs) = smallest (min b v) vs := rfl

theorem le_largest (a : V) (vs : List V) : a ≤ largest a vs := by
  induction vs generalizing a with
  | nil => exact le_rfl
  | cons v vs ih => exact (le_max_left a v).trans (ih (max a v))

theorem smallest_le (b : V) (vs : List V) : smallest b vs ≤ b := by
  induction vs generalizing b with
  | nil => exact le_rfl
  | cons v vs ih => exact (ih (min b v)).trans (min_le_left b v)

theorem largest_le (ha : a ≤ b) (hvs : ∀ v ∈ vs, v ≤ b) : largest a vs ≤ b := by
  induction vs generalizing a with
  | nil => exact ha
  | cons v vs ih =>
    exact ih (max_le ha (hvs v List.mem_cons_self)) fun x hx => hvs x (List.mem_cons_of_mem v hx)

theorem le_largest_of_mem (hv : v ∈ vs) : v ≤ largest a vs := by
  induction vs generalizing a with
  | nil => exact absurd hv List.not_mem_nil
  | cons x vs ih =>
    rcases List.mem_cons.mp hv with rfl | hv
    · exact (le_max_right a v).trans (le_largest (max a v) vs)
    · exact ih hv

theorem lt_smallest (hb : a < b) (hvs : ∀ v ∈ vs, a < v) : a < smallest b vs := by
  induction vs generalizing b with
  | nil => exact hb
  | cons v vs ih =>
    have hv : a < v := hvs v List.mem_cons_self
    exact ih (lt_min hb hv) fun x hx => hvs x (List.mem_cons_of_mem v hx)

/-- The largest value is one of them. -/
theorem largest_mem (h : a < largest a vs) : largest a vs ∈ vs := by
  induction vs generalizing a with
  | nil => exact absurd h (lt_irrefl a)
  | cons v vs ih =>
    rw [largest_cons] at h ⊢
    by_cases hlt : max a v < largest (max a v) vs
    · exact List.mem_cons_of_mem v (ih hlt)
    · have heq : largest (max a v) vs = max a v := le_antisymm (not_lt.mp hlt) (le_largest _ _)
      rw [heq] at h ⊢
      rw [max_eq_right ((lt_max_iff.mp h).resolve_left (lt_irrefl a)).le]
      exact List.mem_cons_self

end Largest

/-! ## The loops -/

/-- The loop over the moves in a search for a maximum: the largest score so far, and the
move that reached it first. `child` gets that score as its bound. -/
def maxLoop (child : M → V → V) (b : V) : List M → V → Option M → V × Option M
  | [], a, best => (a, best)
  | m :: ms, a, best =>
    let s := child m a
    if a < s then if b ≤ s then (s, some m) else maxLoop child b ms s (some m)
    else maxLoop child b ms a best

/-- The loop in a search for a minimum. -/
def minLoop (child : M → V → V) (a : V) : List M → V → V
  | [], b => b
  | m :: ms, b =>
    let s := child m b
    if s < b then if s ≤ a then s else minLoop child a ms s else minLoop child a ms b

section Loops

variable {child : M → V → V} {value : M → V}

/-- The loop computes the largest value, unless it reaches the parent's bound. -/
theorem maxLoop_below (h : ∀ m a, Above a (value m) (child m a)) (b : V) (ms : List M) (a : V)
    (best : Option M) : Below b (largest a (ms.map value)) (maxLoop child b ms a best).1 := by
  induction ms generalizing a best with
  | nil => exact .refl b a
  | cons m ms ih =>
    have hmax : max a (value m) = max a (child m a) := (h m a).max_eq.symm
    rw [List.map_cons, largest_cons, hmax, maxLoop]
    split
    case isTrue hs =>
      rw [max_eq_right hs.le]
      split
      case isTrue hb => exact ⟨le_largest _ _, .inr hb⟩
      case isFalse => exact ih _ _
    case isFalse hs =>
      rw [max_eq_left (not_lt.mp hs)]
      exact ih _ _

/-- The loop computes the smallest value, unless it reaches the parent's bound. -/
theorem minLoop_above (h : ∀ m b, Below b (value m) (child m b)) (a : V) (ms : List M) (b : V) :
    Above a (smallest b (ms.map value)) (minLoop child a ms b) := by
  induction ms generalizing b with
  | nil => exact .refl a b
  | cons m ms ih =>
    have hmin : min b (value m) = min b (child m b) := (h m b).min_eq.symm
    rw [List.map_cons, smallest_cons, hmin, minLoop]
    split
    case isTrue hs =>
      rw [min_eq_right hs.le]
      split
      case isTrue ha => exact ⟨smallest_le _ _, .inr ha⟩
      case isFalse => exact ih _
    case isFalse hs =>
      rw [min_eq_left (not_lt.mp hs)]
      exact ih _

/-- With a bound that no value exceeds, the loop keeps the first move of the largest
value, or the move it began with when no value is larger than the first score. -/
theorem maxLoop_best (h : ∀ m a, Above a (value m) (child m a)) {b : V} {ms : List M}
    (hb : ∀ m ∈ ms, value m ≤ b) (a : V) (best : Option M) :
    (maxLoop child b ms a best).2 =
      if a < largest a (ms.map value) then
        ms.find? fun m => decide (value m = largest a (ms.map value))
      else best := by
  induction ms generalizing a best with
  | nil => simp [maxLoop]
  | cons m ms ih =>
    have hrest : ∀ x ∈ ms, value x ≤ b := fun x hx => hb x (List.mem_cons_of_mem m hx)
    have hmax : max a (value m) = max a (child m a) := (h m a).max_eq.symm
    rw [List.map_cons, largest_cons, hmax, maxLoop]
    split
    case isTrue hs =>
      have hexact : value m = child m a := ((h m a).eq_of_lt hs).symm
      rw [max_eq_right hs.le]
      have hle : child m a ≤ largest (child m a) (ms.map value) := le_largest _ _
      rw [if_pos (hs.trans_le hle), List.find?_cons, hexact]
      split
      case isTrue hcut =>
        -- the value reaches the bound, so no other one is larger
        have htop : largest (child m a) (ms.map value) = child m a := by
          refine le_antisymm (largest_le le_rfl fun v hv => ?_) hle
          obtain ⟨x, hx, rfl⟩ := List.mem_map.mp hv
          exact (hrest x hx).trans hcut
        simp [htop]
      case isFalse =>
        rw [ih hrest]
        by_cases hlt : child m a < largest (child m a) (ms.map value)
        · simp [hlt, hlt.ne]
        · simp [le_antisymm (not_lt.mp hlt) hle]
    case isFalse hs =>
      have hle : value m ≤ a := (h m a).1.trans (not_lt.mp hs)
      rw [max_eq_left (not_lt.mp hs), ih hrest]
      by_cases hlt : a < largest a (ms.map value)
      · simp [hlt, (hle.trans_lt hlt).ne]
      · simp [hlt]

end Loops

/-! ## Games -/

/-- A game, with the evaluation of a position where the search ends. -/
structure Game (P : Type u) (M V : Type v) [LinearOrder V] where
  moves : P → List M
  play : P → M → P
  eval : P → V
  low : V
  high : V
  eval_mem : ∀ p, low ≤ eval p ∧ eval p ≤ high

namespace Game

variable (G : Game P M V)

mutual

/-- The value for the maximizing player, with some levels below the moves. -/
def maxValue : Nat → P → V
  | 0, p => largest G.low ((G.moves p).map fun m => G.eval (G.play p m))
  | levels + 1, p => largest G.low ((G.moves p).map fun m => minValue levels (G.play p m))

/-- The value for the minimizing player. -/
def minValue : Nat → P → V
  | 0, p => smallest G.high ((G.moves p).map fun m => G.eval (G.play p m))
  | levels + 1, p => smallest G.high ((G.moves p).map fun m => maxValue levels (G.play p m))

end

/-- The value of a move for the maximizing player. -/
def moveValue : Nat → P → M → V
  | 0, p, m => G.eval (G.play p m)
  | levels + 1, p, m => G.minValue levels (G.play p m)

theorem maxValue_eq (levels : Nat) (p : P) :
    G.maxValue levels p = largest G.low ((G.moves p).map (G.moveValue levels p)) := by
  cases levels <;> rfl

theorem moveValue_le_high (levels : Nat) (p : P) (m : M) : G.moveValue levels p m ≤ G.high := by
  cases levels with
  | zero => exact (G.eval_mem _).2
  | succ levels =>
    show G.minValue levels (G.play p m) ≤ G.high
    cases levels <;> rw [minValue] <;> exact smallest_le _ _

theorem maxValue_le_high (levels : Nat) (p : P) : G.maxValue levels p ≤ G.high := by
  rw [maxValue_eq]
  refine largest_le ((G.eval_mem p).1.trans (G.eval_mem p).2) fun v hv => ?_
  obtain ⟨m, -, rfl⟩ := List.mem_map.mp hv
  exact G.moveValue_le_high levels p m

/-- Where the moves of the minimizing player end the search, its value is above `low` when the
evaluation is. -/
theorem low_lt_minValue (hrange : G.low < G.high) (h : ∀ p, G.low < G.eval p) (p : P) :
    G.low < G.minValue 0 p := by
  refine lt_smallest hrange fun v hv => ?_
  obtain ⟨m, -, rfl⟩ := List.mem_map.mp hv
  exact h (G.play p m)

mutual

/-- The pruned search for a maximum: its value, and the move that reached it. -/
def searchMax : Nat → P → V → V × Option M
  | 0, p, b => maxLoop (fun m _ => G.eval (G.play p m)) b (G.moves p) G.low none
  | levels + 1, p, b =>
    maxLoop (fun m a => searchMin levels (G.play p m) a) b (G.moves p) G.low none

/-- The pruned search for a minimum. -/
def searchMin : Nat → P → V → V
  | 0, p, a => minLoop (fun m _ => G.eval (G.play p m)) a (G.moves p) G.high
  | levels + 1, p, a =>
    minLoop (fun m b => (searchMax levels (G.play p m) b).1) a (G.moves p) G.high

end

/-- A pruned search is exact within its bound: all levels, both players. -/
theorem search_bounds (levels : Nat) (p : P) :
    (∀ b, Below b (G.maxValue levels p) (G.searchMax levels p b).1) ∧
      ∀ a, Above a (G.minValue levels p) (G.searchMin levels p a) := by
  induction levels generalizing p with
  | zero =>
    refine ⟨fun b => ?_, fun a => ?_⟩
    · exact maxLoop_below (fun m a => .refl a _) b (G.moves p) G.low none
    · exact minLoop_above (fun m b => .refl b _) a (G.moves p) G.high
  | succ levels ih =>
    refine ⟨fun b => ?_, fun a => ?_⟩
    · exact maxLoop_below (fun m a => (ih (G.play p m)).2 a) b (G.moves p) G.low none
    · exact minLoop_above (fun m b => (ih (G.play p m)).1 b) a (G.moves p) G.high

/-- **Alpha-beta is minimax** at the root. -/
theorem searchMax_eq (levels : Nat) (p : P) :
    (G.searchMax levels p G.high).1 = G.maxValue levels p :=
  ((G.search_bounds levels p).1 G.high).eq_of_le (G.maxValue_le_high levels p)

/-- **The move of the root** is the first one of maximal value, when that is above
`low`. -/
theorem searchMax_best {levels : Nat} {p : P} (hlow : G.low < G.maxValue levels p) :
    ∃ m, (G.searchMax levels p G.high).2 = some m ∧
      (G.moves p).find? (fun m => decide (G.moveValue levels p m = G.maxValue levels p)) =
        some m := by
  rw [maxValue_eq] at hlow ⊢
  have hhigh : ∀ m ∈ G.moves p, G.moveValue levels p m ≤ G.high :=
    fun m _ => G.moveValue_le_high levels p m
  have hloop : (G.searchMax levels p G.high).2 =
      if G.low < largest G.low ((G.moves p).map (G.moveValue levels p)) then (G.moves p).find?
        fun m => decide (G.moveValue levels p m =
          largest G.low ((G.moves p).map (G.moveValue levels p)))
      else none := by
    cases levels with
    | zero => exact maxLoop_best (fun m a => .refl a _) hhigh G.low none
    | succ levels =>
      exact maxLoop_best (fun m a => (G.search_bounds levels (G.play p m)).2 a) hhigh G.low none
  rw [if_pos hlow] at hloop
  obtain ⟨m, hm, hvalue⟩ := List.mem_map.mp (largest_mem hlow)
  have hsome : ((G.moves p).find? fun m => decide (G.moveValue levels p m =
      largest G.low ((G.moves p).map (G.moveValue levels p)))).isSome :=
    List.find?_isSome.mpr ⟨m, hm, decide_eq_true hvalue⟩
  obtain ⟨best, hbest⟩ := Option.isSome_iff_exists.mp hsome
  exact ⟨best, hloop.trans hbest, hbest⟩

end Game

end AlphaBeta
