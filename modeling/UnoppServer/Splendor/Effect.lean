import UnoppServer.Splendor.Game

/-!
# Splendor: what an operation does

`Effect g op g'` says once what a successful call can do: it lists, operation by
operation, the checks that were passed and the state that results. `step_cases`
is the inversion of `Game.step`: a call that completes either answers false and
leaves the game as it was, or answers true and has its effect;
`step_of_effect` is the converse. Every invariant of the game is proved by cases
on `Effect`.
-/

namespace UnoppServer.Splendor

open FindIf

namespace Game

/-- The bank and the caller's mines after `take_3_mines`. -/
def after3 (g : Game) (it : Nat) (p : Player) (k₀ k₁ k₂ : Fin 6) : Game :=
  g.setMines it (bump (bump (bump p.mineCount k₀ 1) k₁ 1) k₂ 1)
    (bump (bump (bump g.bank k₀ (-1)) k₁ (-1)) k₂ (-1))

/-- The coupon of a slot moves to the caller's reserved coupons and the slot is
refilled. -/
def moveToReserve (g : Game) (it : Nat) (slot : Nat) (c : Coupon) (player : Int) : Game :=
  ((g.modifyPlayer it fun p =>
    { p with reservedCoupons := p.reservedCoupons ++ [c] }).record
      [("type", .str "RESERVE_COUPON"), ("subject_id", .int player), ("coupon", c.toJson)]).fillCoupon
    c.level slot

/-- The reservation of a coupon, with the gold it brings if there is any. -/
def afterReserve (g : Game) (it : Nat) (p : Player) (slot : Nat) (c : Coupon) (player : Int) :
    Game :=
  let g := g.moveToReserve it slot c player
  if 0 < g.bank.get goldIdx then
    g.setMines it (bump p.mineCount goldIdx 1) (bump g.bank goldIdx (-1))
  else g

/-- The purchase of a coupon of type number `t`, recorded under `label`. -/
def afterBuy (g : Game) (it : Nat) (p : Player) (c : Coupon) (t : Fin 5) (label : String)
    (player : Int) : Game :=
  (g.acquire it c (pay p c g.bank) (bump p.couponCount t 1)).record
    [("type", .str label), ("subject_id", .int player), ("coupon", c.toJson)]

/-- A player without the reserved coupon at a position. -/
def dropReserved (slot : Nat) (q : Player) : Player :=
  { q with reservedCoupons := q.reservedCoupons.eraseIdx slot }

/-- The checks a successful call has passed, and its result. -/
inductive Effect (g : Game) : Op → Game → Prop where
  | take3 {it : Nat} {p : Player} {k₀ k₁ k₂ : Fin 6} {player : Int}
      (find : g.find player = some (it, p)) (status : p.status = .action)
      (distinct : k₀ ≠ k₁ ∧ k₁ ≠ k₂ ∧ k₂ ≠ k₀)
      (stock : g.bank.get k₀ ≠ 0 ∧ g.bank.get k₁ ≠ 0 ∧ g.bank.get k₂ ≠ 0)
      (noGold : k₀ ≠ goldIdx ∧ k₁ ≠ goldIdx ∧ k₂ ≠ goldIdx) :
      Effect g (.take3Mines (k₀ : Nat) (k₁ : Nat) (k₂ : Nat) player)
        (((g.after3 it p k₀ k₁ k₂).handOverUnlessFull it).record
          [("type", .str "TAKE_3"), ("subject_id", .int player),
            ("mines", .arr [.int (k₀ : Nat), .int (k₁ : Nat), .int (k₂ : Nat)])])
  | take2 {it : Nat} {p : Player} {k : Fin 6} {player : Int}
      (find : g.find player = some (it, p)) (status : p.status = .action)
      (stock : 4 ≤ g.bank.get k) (noGold : k ≠ goldIdx) :
      Effect g (.take2Mines (k : Nat) player)
        (((g.setMines it (bump p.mineCount k 2) (bump g.bank k (-2))).handOverUnlessFull it).record
          [("type", .str "TAKE_2"), ("subject_id", .int player), ("mine", .int (k : Nat))])
  | reserve {it : Nat} {p : Player} {slot : Nat} {c : Coupon} {couponIdx player : Int}
      (find : g.find player = some (it, p)) (status : p.status = .action)
      (room : p.reservedCoupons.length ≤ 2)
      (slot_eq : findIf (fun c => c.hasIdx couponIdx) g.coupons = some (slot, c)) :
      Effect g (.reserveCoupon couponIdx player)
        ((g.afterReserve it p slot c player).handOverUnlessFull it)
  | buy {it : Nat} {p : Player} {slot : Nat} {c : Coupon} {t : Fin 5} {couponIdx player : Int}
      (find : g.find player = some (it, p)) (status : p.status = .action)
      (slot_eq : findIf (fun c => c.hasIdx couponIdx) g.coupons = some (slot, c))
      (afford : checkAffordabillity p c = true) (type : c.type.toInt = (t : Nat)) :
      Effect g (.buyCoupon couponIdx player)
        ((((g.afterBuy it p c t "BUY_COUPON" player).fillCoupon c.level slot).handOver it).checkAlly)
  | buyReserved {it : Nat} {p : Player} {slot : Nat} {c : Coupon} {t : Fin 5}
      {couponIdx player : Int}
      (find : g.find player = some (it, p)) (status : p.status = .action)
      (slot_eq : findIf (fun c => c.hasIdx couponIdx) p.reservedCoupons = some (slot, c))
      (afford : checkAffordabillity p c = true) (type : c.type.toInt = (t : Nat)) :
      Effect g (.buyReservedCoupon couponIdx player)
        ((((g.afterBuy it p c t "BUY_RESERVED_COUPON" player).modifyPlayer it
          (dropReserved slot)).handOver it).checkAlly)
  | returnMine {it : Nat} {p : Player} {k : Fin 6} {player : Int}
      (find : g.find player = some (it, p)) (status : p.status = .needReturnMine)
      (held : 1 ≤ p.mineCount.get k) :
      Effect g (.returnMine (k : Nat) player)
        (let g' := g.setMines it (bump p.mineCount k (-1)) (bump g.bank k 1)
         if Player.totalMineCount { p with mineCount := bump p.mineCount k (-1) } < 11
         then g'.handOver it else g')

/-! ## Inversion, operation by operation

The rules below follow the shape of an operation: a check that refuses, an array
access, the final state. -/

/-- What `step_cases` says of one call. -/
def Outcome (g : Game) (op : Op) (r : Except Fault (Bool × Game)) : Prop :=
  ∀ b g', r = .ok (b, g') → (b = false ∧ g' = g) ∨ (b = true ∧ Effect g op g')

section Rules

variable {g : Game} {op : Op}

theorem outcome_refused : Outcome g op (.ok (false, g)) := by
  rintro b g' h
  cases h
  exact .inl ⟨rfl, rfl⟩

theorem outcome_done {g₁ : Game} (h : Effect g op g₁) : Outcome g op (.ok (true, g₁)) := by
  rintro b g' h'
  cases h'
  exact .inr ⟨rfl, h⟩

theorem outcome_throw {e : Fault} : Outcome g op (.error e) := fun _ _ h => nomatch h

theorem outcome_check {c : Prop} [Decidable c] {r : Except Fault (Bool × Game)}
    (h : ¬ c → Outcome g op r) : Outcome g op (if c then .ok (false, g) else r) := by
  by_cases hc : c
  · rw [if_pos hc]
    exact outcome_refused
  · rw [if_neg hc]
    exact h hc

theorem outcome_bind {α : Type} {x : Except Fault α} {f : α → Except Fault (Bool × Game)}
    (h : ∀ a, x = .ok a → Outcome g op (f a)) : Outcome g op (x >>= f) := by
  cases x with
  | error e => exact outcome_throw
  | ok a => exact h a rfl

theorem outcome_readAt {n : Nat} {a : Vector Int n} {i : Int}
    {f : Int → Except Fault (Bool × Game)}
    (h : ∀ k : Fin n, i = (k : Nat) → Outcome g op (f (a.get k))) :
    Outcome g op (readAt a i >>= f) := by
  refine outcome_bind fun x hx => ?_
  obtain ⟨k, hk, rfl⟩ := readAt_eq_ok hx
  exact h k hk

theorem outcome_addAt {n : Nat} {a : Vector Int n} {i d : Int}
    {f : Vector Int n → Except Fault (Bool × Game)}
    (h : ∀ k : Fin n, i = (k : Nat) → Outcome g op (f (bump a k d))) :
    Outcome g op (addAt a i d >>= f) := by
  refine outcome_bind fun x hx => ?_
  obtain ⟨k, hk, rfl⟩ := addAt_eq_ok hx
  exact h k hk

/-- A call whose player is not found is refused. -/
theorem outcome_find {player : Int} {f : Nat → Player → Except Fault (Bool × Game)}
    (h : ∀ it p, g.find player = some (it, p) → Outcome g op (f it p)) :
    Outcome g op (match g.find player with
      | none => .ok (false, g)
      | some (it, p) => f it p) := by
  cases hf : g.find player with
  | none => exact outcome_refused
  | some r => exact h r.1 r.2 hf

/-- A call whose coupon is not found is refused. -/
theorem outcome_search {q : Coupon → Bool} {l : List Coupon}
    {f : Nat → Coupon → Except Fault (Bool × Game)}
    (h : ∀ slot c, findIf q l = some (slot, c) → Outcome g op (f slot c)) :
    Outcome g op (match findIf q l with
      | none => .ok (false, g)
      | some (slot, c) => f slot c) := by
  cases hf : findIf q l with
  | none => exact outcome_refused
  | some r => exact h r.1 r.2 hf

theorem natCast_ne {n : Nat} {i j : Fin n} (h : ¬ ((i : Nat) : Int) = (j : Nat)) : i ≠ j :=
  fun hij => h (by rw [hij])

theorem natCast_ne_of_ne {n : Nat} {i j : Fin n} (h : i ≠ j) :
    ¬ ((i : Nat) : Int) = (j : Nat) := by
  simpa [Fin.ext_iff] using h

end Rules

/-- Taking two mines has its effect, or is refused. -/
theorem outcome_take2Mines (g : Game) (mine player : Int) :
    Outcome g (.take2Mines mine player) (g.take2Mines mine player) := by
  refine outcome_find fun it p hf => outcome_check fun hs => outcome_readAt fun k hk => ?_
  subst hk
  refine outcome_check fun hstock => outcome_check fun hgold => ?_
  rw [addAt_fin, addAt_fin]
  exact outcome_done
    (.take2 hf (not_not.mp hs) (Int.not_lt.mp hstock) (natCast_ne (j := goldIdx) hgold))

theorem outcome_returnMine (g : Game) (mine player : Int) :
    Outcome g (.returnMine mine player) (g.returnMine mine player) := by
  refine outcome_find fun it p hf => outcome_check fun hs => outcome_readAt fun k hk => ?_
  subst hk
  refine outcome_check fun hheld => ?_
  rw [addAt_fin, addAt_fin]
  exact outcome_done (.returnMine hf (not_not.mp hs) (by omega))

theorem outcome_reserveCoupon (g : Game) (couponIdx player : Int) :
    Outcome g (.reserveCoupon couponIdx player) (g.reserveCoupon couponIdx player) := by
  refine outcome_find fun it p hf => outcome_check fun hs => outcome_check fun hroom =>
    outcome_search fun slot c hslot => ?_
  exact outcome_done (.reserve hf (not_not.mp hs) (by omega) hslot)

theorem outcome_buyCoupon (g : Game) (couponIdx player : Int) :
    Outcome g (.buyCoupon couponIdx player) (g.buyCoupon couponIdx player) := by
  refine outcome_find fun it p hf => outcome_check fun hs => outcome_search fun slot c hslot =>
    outcome_check fun hafford => outcome_addAt fun t ht => ?_
  exact outcome_done (.buy hf (not_not.mp hs) hslot (by simpa using hafford) ht)

/-- Buying a reserved coupon has its effect, or is refused. -/
theorem outcome_buyReservedCoupon (g : Game) (couponIdx player : Int) :
    Outcome g (.buyReservedCoupon couponIdx player) (g.buyReservedCoupon couponIdx player) := by
  refine outcome_find fun it p hf => outcome_check fun hs => outcome_search fun slot c hslot =>
    outcome_check fun hafford => ?_
  by_cases hgold : c.type = .gold
  · rw [if_pos hgold]
    exact outcome_throw
  · rw [if_neg hgold]
    refine outcome_addAt fun t ht => ?_
    exact outcome_done (.buyReserved hf (not_not.mp hs) hslot (by simpa using hafford) ht)

/-- `bank[mine] == 0` reads inside the bank. -/
theorem isOut_eq_ok {g : Game} {mine : Int} {b : Bool} (h : g.isOut mine = .ok b) :
    ∃ k : Fin 6, mine = (k : Nat) ∧ b = (g.bank.get k == 0) := by
  unfold isOut at h
  cases hr : readAt g.bank mine with
  | error e =>
    rw [hr] at h
    cases h
  | ok x =>
    obtain ⟨k, hk, rfl⟩ := readAt_eq_ok hr
    rw [hr] at h
    exact ⟨k, hk, (Except.ok.inj h).symm⟩

@[simp] theorem isOut_fin (g : Game) (k : Fin 6) :
    g.isOut (k : Nat) = .ok (g.bank.get k == 0) := by
  unfold isOut
  rw [readAt_fin]
  rfl

/-- A disjunction of two checks is false when both are. -/
theorem or_eq_false {x y : Except Fault Bool} :
    (x <||> y) = .ok false ↔ x = .ok false ∧ y = .ok false := by
  cases x with
  | error e => exact ⟨fun h => (nomatch h), fun h => (nomatch h.1)⟩
  | ok b =>
    cases b with
    | false => exact ⟨fun h => ⟨rfl, h⟩, fun h => h.2⟩
    | true => exact ⟨fun h => (nomatch h), fun h => (nomatch h.1)⟩

/-- The three stock checks of `take_3_mines`, when none of them refuses. -/
theorem isOut_or_eq_false {g : Game} {m₀ m₁ m₂ : Int}
    (h : (g.isOut m₀ <||> g.isOut m₁ <||> g.isOut m₂) = .ok false) :
    ∃ k₀ k₁ k₂ : Fin 6, m₀ = (k₀ : Nat) ∧ m₁ = (k₁ : Nat) ∧ m₂ = (k₂ : Nat) ∧
      g.bank.get k₀ ≠ 0 ∧ g.bank.get k₁ ≠ 0 ∧ g.bank.get k₂ ≠ 0 := by
  obtain ⟨h₀, h₁₂⟩ := or_eq_false.mp h
  obtain ⟨h₁, h₂⟩ := or_eq_false.mp h₁₂
  obtain ⟨k₀, e₀, b₀⟩ := isOut_eq_ok h₀
  obtain ⟨k₁, e₁, b₁⟩ := isOut_eq_ok h₁
  obtain ⟨k₂, e₂, b₂⟩ := isOut_eq_ok h₂
  refine ⟨k₀, k₁, k₂, e₀, e₁, e₂, ?_, ?_, ?_⟩
  · intro h
    simp [h] at b₀
  · intro h
    simp [h] at b₁
  · intro h
    simp [h] at b₂

/-- Taking three mines has its effect, or is refused. -/
theorem outcome_take3Mines (g : Game) (m₀ m₁ m₂ player : Int) :
    Outcome g (.take3Mines m₀ m₁ m₂ player) (g.take3Mines m₀ m₁ m₂ player) := by
  refine outcome_find fun it p hf => outcome_check fun hs => outcome_check fun hd =>
    outcome_bind fun out hout => outcome_check fun hno => outcome_check fun hgold => ?_
  obtain rfl : out = false := by simpa using hno
  obtain ⟨k₀, k₁, k₂, rfl, rfl, rfl, h₀, h₁, h₂⟩ := isOut_or_eq_false hout
  simp only [not_or] at hd hgold
  simp only [addAt_fin]
  exact outcome_done (.take3 hf (not_not.mp hs)
    ⟨natCast_ne hd.1, natCast_ne hd.2.1, natCast_ne hd.2.2⟩ ⟨h₀, h₁, h₂⟩
    ⟨natCast_ne (j := goldIdx) hgold.1, natCast_ne (j := goldIdx) hgold.2.1,
      natCast_ne (j := goldIdx) hgold.2.2⟩)

/-- **Inversion**: a call that completes is refused and changes nothing, or it
succeeds and has its effect. -/
theorem step_cases {g g' : Game} {op : Op} {b : Bool} (h : g.step op = .ok (b, g')) :
    (b = false ∧ g' = g) ∨ (b = true ∧ Effect g op g') := by
  cases op with
  | take3Mines m₀ m₁ m₂ player => exact outcome_take3Mines g m₀ m₁ m₂ player b g' h
  | take2Mines mine player => exact outcome_take2Mines g mine player b g' h
  | reserveCoupon couponIdx player => exact outcome_reserveCoupon g couponIdx player b g' h
  | buyCoupon couponIdx player => exact outcome_buyCoupon g couponIdx player b g' h
  | buyReservedCoupon couponIdx player => exact outcome_buyReservedCoupon g couponIdx player b g' h
  | returnMine mine player => exact outcome_returnMine g mine player b g' h

/-! ## The converse, and calls that cannot fault -/

/-- A call whose checks are passed succeeds. -/
theorem step_of_effect {g g' : Game} {op : Op} (h : Effect g op g') :
    g.step op = .ok (true, g') := by
  cases h with
  | @take3 it p k₀ k₁ k₂ player hf hs hd hstock hgold =>
    have hout : (g.isOut (k₀ : Nat) <||> g.isOut (k₁ : Nat) <||> g.isOut (k₂ : Nat)) =
        .ok false := by
      obtain ⟨h₀, h₁, h₂⟩ := hstock
      rw [or_eq_false, or_eq_false, isOut_fin, isOut_fin, isOut_fin]
      exact ⟨by rw [beq_false_of_ne h₀], by rw [beq_false_of_ne h₁], by rw [beq_false_of_ne h₂]⟩
    have hne {i j : Fin 6} (h : i ≠ j) := natCast_ne_of_ne h
    show g.take3Mines _ _ _ _ = _
    unfold take3Mines
    simp only [hf, hs]
    rw [if_neg (by simp), if_neg (by simp [hne hd.1, hne hd.2.1, hne hd.2.2]), hout]
    simp only [bind, Except.bind]
    rw [if_neg (by simp), if_neg]
    · simp only [addAt_fin]
      rfl
    · simp only [not_or]
      exact ⟨hne (j := goldIdx) hgold.1, hne (j := goldIdx) hgold.2.1, hne (j := goldIdx) hgold.2.2⟩
  | take2 hf hs hstock hgold =>
    show g.take2Mines _ _ = _
    unfold take2Mines
    simp only [hf, hs, readAt_fin, bind, Except.bind]
    rw [if_neg (by simp), if_neg (by omega),
      if_neg (show ¬ _ = gold from natCast_ne_of_ne (j := goldIdx) hgold)]
    simp only [addAt_fin]
    rfl
  | reserve hf hs hroom hslot =>
    show g.reserveCoupon _ _ = _
    unfold reserveCoupon
    simp only [hf, hs, hslot]
    rw [if_neg (by simp), if_neg (by omega)]
    rfl
  | buy hf hs hslot hafford ht =>
    show g.buyCoupon _ _ = _
    unfold buyCoupon
    simp only [hf, hs, hslot, hafford, ht, addAt_fin]
    rfl
  | @buyReserved it p slot c t couponIdx player hf hs hslot hafford ht =>
    have hgold : c.type ≠ .gold := by
      intro hg
      rw [hg] at ht
      have := t.isLt
      simp only [Mine.toInt] at ht
      omega
    show g.buyReservedCoupon _ _ = _
    unfold buyReservedCoupon
    simp only [hf, hs, hslot, hafford, ht, addAt_fin, hgold]
    rfl
  | returnMine hf hs hheld =>
    show g.returnMine _ _ = _
    unfold returnMine
    simp only [hf, hs, readAt_fin, bind, Except.bind]
    rw [if_neg (by simp), if_neg (by omega)]
    simp only [addAt_fin]
    rfl

end Game

end UnoppServer.Splendor
