import UnoppServer.Fault
import UnoppServer.Json.Value

/-!
# Splendor: cards, allies, players

The data of `Splendor.hpp`. An array indexed by a `Mine` is a vector indexed by
the enumerator's number; a request may carry any integer in the place of a
`Mine`, so the operations of `Splendor.Game` take integers and check their
indexes (`readAt`, `addAt`).
-/

namespace UnoppServer.Splendor

/-- `enum Mine`. -/
inductive Mine where
  | copper | diamond | emerald | iron | netherite | gold
  deriving DecidableEq, Repr

/-- The enumerator's number, used as an array index. -/
def Mine.toInt : Mine → Int
  | .copper => 0
  | .diamond => 1
  | .emerald => 2
  | .iron => 3
  | .netherite => 4
  | .gold => 5

/-- The number of `GOLD`. -/
abbrev gold : Int := 5

/-- `Mine::GOLD`, as an index. -/
abbrev goldIdx : Fin 6 := 5

/-- `struct Coupon`. -/
structure Coupon where
  reputation : Int
  costs : Vector Int 5
  type : Mine
  level : Int
  idx : Nat
  deriving DecidableEq

/-- `Coupon::empty`: the initializer leaves `idx` out, so it is zero. -/
def Coupon.empty (level : Int) : Coupon := ⟨-1, #v[0, 0, 0, 0, 0], .gold, level, 0⟩

/-- `Coupon::is_empty`. -/
def Coupon.isEmpty (c : Coupon) : Bool := decide (c.reputation = -1)

/-- A vector as a JSON array. -/
def jsonOfVector {n : Nat} (v : Vector Int n) : Json := .arr (v.toList.map Json.int)

/-- `Coupon::to_json`. -/
def Coupon.toJson (c : Coupon) : Json :=
  if c.isEmpty then .obj [("type", .str "EMPTY")]
  else .obj [("reputation", .int c.reputation), ("costs", jsonOfVector c.costs),
    ("type", .int c.type.toInt), ("level", .int c.level), ("idx", .uint c.idx)]

/-- The comparison `c.idx == coupon_idx` of an `unsigned` with an `int`: the
`int` is converted to `unsigned` first. -/
def Coupon.hasIdx (c : Coupon) (couponIdx : Int) : Bool :=
  decide (c.idx = (couponIdx % 4294967296).toNat)

/-- `struct Ally`. -/
structure Ally where
  reputation : Int
  condition : Vector Int 5
  idx : Nat
  ownerId : Int
  isOwned : Bool
  deriving DecidableEq

/-- `Ally::to_json`. -/
def Ally.toJson (a : Ally) : Json :=
  .obj [("reputation", .int a.reputation), ("condition", jsonOfVector a.condition),
    ("idx", .uint a.idx), ("is_owned", .bool a.isOwned), ("owner_id", .int a.ownerId)]

/-- `Player::Status`. -/
inductive Status where
  | waiting | action | needReturnMine | chooseAlly
  deriving DecidableEq, Repr

/-- The status text of `Player::to_json`. -/
def Status.text : Status → String
  | .waiting => "WAITING"
  | .action => "ACTION"
  | .needReturnMine => "NEED_RETURN_MINE"
  | .chooseAlly => "CHOOSE_ALLY"

/-- `struct Player`. -/
structure Player where
  coupons : List Coupon
  reservedCoupons : List Coupon
  couponCount : Vector Int 5
  mineCount : Vector Int 6
  reputation : Int
  status : Status
  deriving DecidableEq

/-- `Player{}`. -/
def Player.new : Player := ⟨[], [], #v[0, 0, 0, 0, 0], #v[0, 0, 0, 0, 0, 0], 0, .waiting⟩

/-- `Player::to_json`. -/
def Player.toJson (p : Player) (id : Int) : Json :=
  .obj [("coupons", .arr (p.coupons.map Coupon.toJson)),
    ("reserved_coupons", .arr (p.reservedCoupons.map Coupon.toJson)),
    ("coupon_count", jsonOfVector p.couponCount), ("mine_count", jsonOfVector p.mineCount),
    ("allies", .arr []), ("reputation", .int p.reputation), ("id", .int id),
    ("status", .str p.status.text)]

/-- `Player::total_mine_count`. -/
def Player.totalMineCount (p : Player) : Int :=
  ([0, 1, 2, 3, 4, 5] : List (Fin 6)).foldl (fun cnt i => cnt + p.mineCount.get i) 0

/-! ## Tables -/

/-- `all_allies`. -/
def allAllies : List Ally := [
    ⟨3, #v[0, 4, 4, 0, 0], 1, 0, false⟩,
    ⟨3, #v[3, 3, 3, 0, 0], 2, 0, false⟩,
    ⟨3, #v[0, 3, 3, 3, 0], 3, 0, false⟩,
    ⟨3, #v[3, 0, 0, 3, 3], 4, 0, false⟩,
    ⟨3, #v[3, 0, 3, 0, 3], 5, 0, false⟩,
    ⟨3, #v[4, 0, 4, 0, 0], 6, 0, false⟩,
    ⟨3, #v[4, 0, 0, 0, 4], 7, 0, false⟩,
    ⟨3, #v[0, 4, 0, 4, 0], 8, 0, false⟩,
    ⟨3, #v[0, 3, 0, 3, 3], 9, 0, false⟩,
    ⟨3, #v[0, 0, 0, 4, 4], 10, 0, false⟩]

/-- `all_coupons_lv1`. -/
def allCouponsLv1 : List Coupon := [
    ⟨0, #v[0, 0, 0, 3, 0], .copper, 1, 1⟩,
    ⟨0, #v[1, 0, 0, 1, 3], .copper, 1, 2⟩,
    ⟨0, #v[0, 2, 1, 0, 0], .copper, 1, 3⟩,
    ⟨0, #v[0, 0, 1, 2, 2], .copper, 1, 4⟩,
    ⟨0, #v[0, 1, 1, 2, 1], .copper, 1, 5⟩,
    ⟨0, #v[0, 1, 1, 1, 1], .copper, 1, 6⟩,
    ⟨0, #v[2, 0, 0, 2, 0], .copper, 1, 7⟩,
    ⟨1, #v[0, 0, 0, 4, 0], .copper, 1, 8⟩,
    ⟨0, #v[0, 0, 0, 1, 2], .diamond, 1, 9⟩,
    ⟨0, #v[2, 0, 1, 1, 1], .diamond, 1, 10⟩,
    ⟨0, #v[1, 0, 1, 1, 1], .diamond, 1, 11⟩,
    ⟨0, #v[1, 1, 3, 0, 0], .diamond, 1, 12⟩,
    ⟨0, #v[0, 0, 0, 0, 3], .diamond, 1, 13⟩,
    ⟨0, #v[2, 0, 2, 1, 0], .diamond, 1, 14⟩,
    ⟨0, #v[0, 0, 2, 0, 2], .diamond, 1, 15⟩,
    ⟨1, #v[0, 0, 0, 0, 4], .diamond, 1, 16⟩,
    ⟨0, #v[0, 1, 0, 2, 0], .emerald, 1, 17⟩,
    ⟨0, #v[2, 2, 0, 0, 0], .emerald, 1, 18⟩,
    ⟨0, #v[0, 3, 1, 1, 0], .emerald, 1, 19⟩,
    ⟨0, #v[1, 1, 0, 1, 1], .emerald, 1, 20⟩,
    ⟨0, #v[1, 1, 0, 1, 2], .emerald, 1, 21⟩,
    ⟨0, #v[2, 1, 0, 0, 2], .emerald, 1, 22⟩,
    ⟨0, #v[3, 0, 0, 0, 0], .emerald, 1, 23⟩,
    ⟨1, #v[0, 0, 0, 0, 4], .emerald, 1, 24⟩,
    ⟨0, #v[0, 2, 2, 0, 1], .iron, 1, 25⟩,
    ⟨0, #v[2, 0, 0, 0, 1], .iron, 1, 26⟩,
    ⟨0, #v[1, 1, 1, 0, 1], .iron, 1, 27⟩,
    ⟨0, #v[0, 3, 0, 0, 0], .iron, 1, 28⟩,
    ⟨0, #v[0, 2, 0, 0, 2], .iron, 1, 29⟩,
    ⟨0, #v[1, 1, 2, 0, 1], .iron, 1, 30⟩,
    ⟨0, #v[0, 1, 0, 0, 1], .iron, 1, 31⟩,
    ⟨1, #v[0, 0, 4, 0, 0], .iron, 1, 32⟩,
    ⟨0, #v[1, 1, 1, 1, 0], .netherite, 1, 33⟩,
    ⟨0, #v[1, 0, 2, 0, 0], .netherite, 1, 34⟩,
    ⟨0, #v[0, 0, 2, 2, 0], .netherite, 1, 35⟩,
    ⟨0, #v[3, 0, 1, 0, 1], .netherite, 1, 36⟩,
    ⟨0, #v[0, 0, 3, 0, 0], .netherite, 1, 37⟩,
    ⟨0, #v[1, 2, 1, 1, 0], .netherite, 1, 38⟩,
    ⟨0, #v[1, 2, 0, 1, 0], .netherite, 1, 39⟩,
    ⟨1, #v[0, 4, 0, 0, 0], .netherite, 1, 40⟩]

/-- `all_coupons_lv2`. -/
def allCouponsLv2 : List Coupon := [
    ⟨1, #v[2, 3, 0, 0, 3], .copper, 2, 41⟩,
    ⟨1, #v[2, 0, 0, 2, 3], .copper, 2, 42⟩,
    ⟨2, #v[0, 4, 2, 1, 0], .copper, 2, 43⟩,
    ⟨2, #v[0, 0, 0, 3, 5], .copper, 2, 44⟩,
    ⟨2, #v[0, 0, 0, 0, 5], .copper, 2, 45⟩,
    ⟨3, #v[6, 0, 0, 0, 0], .copper, 2, 46⟩,
    ⟨1, #v[3, 2, 2, 0, 0], .diamond, 2, 47⟩,
    ⟨1, #v[0, 2, 3, 0, 3], .diamond, 2, 48⟩,
    ⟨2, #v[0, 3, 0, 5, 0], .diamond, 2, 49⟩,
    ⟨2, #v[0, 5, 0, 0, 0], .diamond, 2, 50⟩,
    ⟨2, #v[1, 0, 0, 2, 4], .diamond, 2, 51⟩,
    ⟨3, #v[0, 6, 0, 0, 0], .diamond, 2, 52⟩,
    ⟨1, #v[3, 0, 2, 3, 0], .emerald, 2, 53⟩,
    ⟨1, #v[0, 3, 0, 3, 2], .emerald, 2, 54⟩,
    ⟨2, #v[0, 2, 0, 4, 1], .emerald, 2, 55⟩,
    ⟨2, #v[0, 0, 5, 0, 0], .emerald, 2, 56⟩,
    ⟨2, #v[0, 5, 3, 0, 0], .emerald, 2, 57⟩,
    ⟨3, #v[0, 0, 6, 0, 0], .emerald, 2, 58⟩,
    ⟨1, #v[2, 0, 3, 0, 2], .iron, 2, 59⟩,
    ⟨1, #v[3, 3, 0, 2, 0], .iron, 2, 60⟩,
    ⟨2, #v[4, 0, 1, 0, 2], .iron, 2, 61⟩,
    ⟨2, #v[5, 0, 0, 0, 0], .iron, 2, 62⟩,
    ⟨2, #v[5, 0, 0, 0, 3], .iron, 2, 63⟩,
    ⟨3, #v[0, 0, 0, 6, 0], .iron, 2, 64⟩,
    ⟨1, #v[0, 2, 2, 3, 0], .netherite, 2, 65⟩,
    ⟨1, #v[0, 0, 3, 3, 2], .netherite, 2, 66⟩,
    ⟨2, #v[2, 1, 4, 0, 0], .netherite, 2, 67⟩,
    ⟨2, #v[0, 0, 0, 5, 0], .netherite, 2, 68⟩,
    ⟨2, #v[3, 0, 5, 0, 0], .netherite, 2, 69⟩,
    ⟨3, #v[0, 0, 0, 0, 6], .netherite, 2, 70⟩]

/-- `all_coupons_lv3`. -/
def allCouponsLv3 : List Coupon := [
    ⟨3, #v[0, 5, 3, 3, 3], .copper, 3, 71⟩,
    ⟨4, #v[0, 0, 7, 0, 0], .copper, 3, 72⟩,
    ⟨4, #v[3, 3, 6, 0, 0], .copper, 3, 73⟩,
    ⟨5, #v[3, 0, 7, 0, 0], .copper, 3, 74⟩,
    ⟨3, #v[3, 0, 3, 3, 5], .diamond, 3, 75⟩,
    ⟨4, #v[0, 0, 0, 7, 0], .diamond, 3, 76⟩,
    ⟨4, #v[0, 3, 0, 6, 3], .diamond, 3, 77⟩,
    ⟨5, #v[0, 3, 0, 7, 0], .diamond, 3, 78⟩,
    ⟨3, #v[3, 3, 0, 5, 3], .emerald, 3, 79⟩,
    ⟨4, #v[0, 6, 3, 3, 0], .emerald, 3, 80⟩,
    ⟨4, #v[0, 7, 0, 0, 0], .emerald, 3, 81⟩,
    ⟨5, #v[0, 7, 3, 0, 0], .emerald, 3, 82⟩,
    ⟨3, #v[5, 3, 3, 0, 3], .iron, 3, 83⟩,
    ⟨4, #v[0, 0, 0, 0, 7], .iron, 3, 84⟩,
    ⟨4, #v[3, 0, 0, 3, 6], .iron, 3, 85⟩,
    ⟨5, #v[0, 0, 0, 3, 7], .iron, 3, 86⟩,
    ⟨3, #v[3, 3, 5, 3, 0], .netherite, 3, 87⟩,
    ⟨4, #v[7, 0, 0, 0, 0], .netherite, 3, 88⟩,
    ⟨4, #v[6, 0, 3, 0, 3], .netherite, 3, 89⟩,
    ⟨5, #v[7, 0, 0, 0, 3], .netherite, 3, 90⟩]

/-- The ninety coupons of the game. -/
def allCoupons : List Coupon := allCouponsLv1 ++ allCouponsLv2 ++ allCouponsLv3

/-- A coupon that is not a placeholder. -/
def Coupon.IsReal (c : Coupon) : Prop := c.reputation ≠ -1

instance (c : Coupon) : Decidable c.IsReal := inferInstanceAs (Decidable (_ ≠ _))

/-- What the table says of every coupon: it is real, gives a mine other than
gold, costs nothing negative, earns no negative reputation, and its index is
between 1 and 90. -/
structure Coupon.Genuine (c : Coupon) : Prop where
  reputation : 0 ≤ c.reputation
  type : c.type ≠ .gold
  costs : ∀ i : Fin 5, 0 ≤ c.costs.get i
  level : c.level = 1 ∨ c.level = 2 ∨ c.level = 3
  idx : 1 ≤ c.idx ∧ c.idx ≤ 90

theorem Coupon.genuine_iff (c : Coupon) :
    c.Genuine ↔ 0 ≤ c.reputation ∧ c.type ≠ .gold ∧ (∀ i : Fin 5, 0 ≤ c.costs.get i) ∧
      (c.level = 1 ∨ c.level = 2 ∨ c.level = 3) ∧ 1 ≤ c.idx ∧ c.idx ≤ 90 :=
  ⟨fun h => ⟨h.reputation, h.type, h.costs, h.level, h.idx⟩,
    fun ⟨h₁, h₂, h₃, h₄, h₅⟩ => ⟨h₁, h₂, h₃, h₄, h₅⟩⟩

instance (c : Coupon) : Decidable c.Genuine := decidable_of_iff _ c.genuine_iff.symm

theorem allCoupons_genuine : ∀ c ∈ allCoupons, c.Genuine := by decide +kernel

/-- Each index from 1 to 90 is the index of exactly one coupon. -/
theorem allCoupons_idx : allCoupons.map Coupon.idx = List.range' 1 90 := by decide +kernel

theorem Coupon.Genuine.isReal {c : Coupon} (h : c.Genuine) : c.IsReal := by
  have := h.reputation
  unfold Coupon.IsReal
  omega

/-- The placeholder is neither real nor genuine. -/
theorem Coupon.not_isReal_empty (level : Int) : ¬ (Coupon.empty level).IsReal := by
  simp [Coupon.IsReal, Coupon.empty]

end UnoppServer.Splendor
