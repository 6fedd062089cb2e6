import UnoppServer.Lib.FindIf
import UnoppServer.Lib.Shuffle
import UnoppServer.Splendor.Tables

/-!
# Splendor: the game

`Game` is the class `Splendor`: the constructor (`Game.new`), the six operations
a player can call (`take3Mines`, `take2Mines`, `reserveCoupon`, `buyCoupon`,
`buyReservedCoupon`, `returnMine`), and `checkAlly`, `checkWinner` and
`getGameInfo`. The players of a game stand in the iteration order of the hash
map that holds them: the map is filled by the constructor and never again, so
an iterator is a position in the list.

The source repeats two pieces of code, which are functions here: the hand-over
at the end of a turn (`handOver`, and `handOverUnlessFull` with the limit of ten
mines), and the payment loop of the two purchases (`pay`).

An operation yields the C++ return value and the new state; a `Fault` is an
array indexed out of bounds, or the failed `assert` of `buy_reserved_coupon`.
-/

namespace UnoppServer.Splendor

open FindIf

/-- The private members of the class `Splendor`. -/
structure Game where
  bank : Vector Int 6
  coupons : List Coupon
  couponsRest : List Coupon
  allies : List Ally
  players : List (Int × Player)
  lastAction : Json
  allyActions : Json

namespace Game

/-! ## Construction -/

/-- The bank of a game of `n` players, before gold is put in. -/
def initialBank (n : Nat) : Vector Int 6 :=
  if n = 2 then #v[4, 4, 4, 4, 4, 4]
  else if n = 3 then #v[5, 5, 5, 5, 5, 5]
  else if n = 4 then #v[7, 7, 7, 7, 7, 7]
  else .replicate 6 0

/-- The loop that picks the allies: `count` times, swap position `i` with a
drawn one below it, take the ally there, and go down. -/
def pickAllies (draw : Nat → Nat) : (count i : Nat) → Array Ally → List Ally
  | 0, _, _ => []
  | count + 1, i, a =>
    let a := a.swapIfInBounds i (draw 0 % i)
    a[i]?.toList ++ pickAllies (fun k => draw (k + 1)) count (i - 1) a

/-- The constructor. `draw k` is the result of the `k`-th call of `rand()` and
`rank` the iteration order of the players map. -/
def new (playerIds : List Int) (draw : Nat → Nat) (rank : Int → Nat) : Game :=
  let players := (hashOrder rank id playerIds.dedup).map fun p => (p, Player.new)
  let players := players.modify (draw 0 % players.length)
    fun e => (e.1, { e.2 with status := .action })
  let n := playerIds.length
  let lv1 := Shuffle.shuffle (fun k => draw (k + n + 2)) allCouponsLv1
  let lv2 := Shuffle.shuffle (fun k => draw (k + n + 41)) allCouponsLv2
  let lv3 := Shuffle.shuffle (fun k => draw (k + n + 70)) allCouponsLv3
  -- the last four coupons of a level are on the board, the others in the deck
  { bank := setAt (initialBank n) goldIdx 5
    allies := pickAllies (fun k => draw (k + 1)) (n + 1) 9 allAllies.toArray
    couponsRest := lv1.take 36 ++ lv2.take 26 ++ lv3.take 16
    coupons := lv1.drop 36 ++ lv2.drop 26 ++ lv3.drop 16
    players := players
    lastAction := .null
    allyActions := .arr [] }

/-! ## Pieces of the operations -/

/-- `players.find(player)`: position and player. -/
def find (g : Game) (player : Int) : Option (Nat × Player) :=
  (findIf (fun e => e.1 == player) g.players).map fun r => (r.1, r.2.2)

/-- Update the player at a position in place. -/
def modifyPlayer (g : Game) (it : Nat) (f : Player → Player) : Game :=
  { g with players := g.players.modify it fun e => (e.1, f e.2) }

/-- Store the mines of the player at a position and those of the bank. -/
def setMines (g : Game) (it : Nat) (mineCount bank : Vector Int 6) : Game :=
  { g with bank := bank }.modifyPlayer it fun p => { p with mineCount := mineCount }

/-- `std::advance(it, 1)`, wrapping around at the end. -/
def next (g : Game) (it : Nat) : Nat :=
  if it + 1 = g.players.length then 0 else it + 1

/-- The hand-over: the player at `it` waits and the next one acts. -/
def handOver (g : Game) (it : Nat) : Game :=
  let g := g.modifyPlayer it fun p => { p with status := .waiting }
  g.modifyPlayer (g.next it) fun p => { p with status := .action }

/-- Whether the player at `it` has more than ten mines. -/
def isFull (g : Game) (it : Nat) : Bool :=
  match g.players[it]? with
  | some (_, p) => decide (10 < p.totalMineCount)
  | none => false

/-- The hand-over of an operation that brings mines: a player with more than ten
has to return some first. -/
def handOverUnlessFull (g : Game) (it : Nat) : Game :=
  if g.isFull it then g.modifyPlayer it fun p => { p with status := .needReturnMine }
  else g.handOver it

/-- The effects of a purchase on the buyer and the bank. -/
def acquire (g : Game) (it : Nat) (c : Coupon) (paid : Vector Int 6 × Vector Int 6)
    (couponCount : Vector Int 5) : Game :=
  (g.setMines it paid.1 paid.2).modifyPlayer it fun p =>
    { p with coupons := p.coupons ++ [c], couponCount := couponCount,
             reputation := p.reputation + c.reputation }

/-- Replace `last_action` and clear `ally_actions`. -/
def record (g : Game) (action : List (String × Json)) : Game :=
  { g with lastAction := .obj action, allyActions := .arr [] }

/-- `fill_coupon` for the slot at position `slot` of the board. -/
def fillCoupon (g : Game) (level : Int) (slot : Nat) : Game :=
  match findIf (fun c : Coupon => decide (c.level = level)) g.couponsRest with
  | some (k, c) =>
    { g with coupons := g.coupons.set slot c, couponsRest := g.couponsRest.eraseIdx k }
  | none => { g with coupons := g.coupons.set slot (Coupon.empty level) }

/-- The indexes of the mines a coupon can cost. -/
def fiveMines : List (Fin 5) := [0, 1, 2, 3, 4]

/-- The loop of `check_affordabillity`, with the gold left. -/
def affordLoop (p : Player) (c : Coupon) : List (Fin 5) → Int → Bool
  | [], _ => true
  | mine :: mines, goldCnt =>
    if p.mineCount.get mine.castSucc + p.couponCount.get mine + goldCnt < c.costs.get mine then
      false
    else
      let x := c.costs.get mine - p.mineCount.get mine.castSucc - p.couponCount.get mine
      affordLoop p c mines (goldCnt - if 0 < x then x else 0)

/-- `check_affordabillity`. -/
def checkAffordabillity (p : Player) (c : Coupon) : Bool :=
  affordLoop p c fiveMines (p.mineCount.get goldIdx)

/-- One round of the payment loop, on the player's mines and the bank's. -/
def payMine (c : Coupon) (couponCount : Vector Int 5) (s : Vector Int 6 × Vector Int 6)
    (mine : Fin 5) : Vector Int 6 × Vector Int 6 :=
  let (mineCount, bank) := s
  let m := mine.castSucc
  let cost := c.costs.get mine - couponCount.get mine
  if 0 < cost then
    let mineCount := bump mineCount m (-cost)
    let bank := bump bank m cost
    -- what the player lacks is paid in gold, and taken back from the bank
    if mineCount.get m < 0 then
      let deficit := mineCount.get m
      let mineCount := bump mineCount goldIdx deficit
      let bank := bump bank m deficit
      let bank := bump bank goldIdx (-deficit)
      (setAt mineCount m 0, bank)
    else (mineCount, bank)
  else s

/-- The payment loop of both purchases. -/
def pay (p : Player) (c : Coupon) (bank : Vector Int 6) : Vector Int 6 × Vector Int 6 :=
  fiveMines.foldl (payMine c p.couponCount) (p.mineCount, bank)

/-- Whether a player's coupons meet an ally's condition. -/
def meets (a : Ally) (p : Player) : Bool :=
  fiveMines.all fun c => !decide (p.couponCount.get c < a.condition.get c)

/-- The inner loop of `check_ally`: offer one ally to the players in turn. It
does not stop at the first one whose coupons meet the condition. -/
def offerAlly : Ally → List Json → List (Int × Player) → Ally × List Json × List (Int × Player)
  | a, actions, [] => (a, actions, [])
  | a, actions, (id, p) :: rest =>
    if meets a p then
      let a := { a with isOwned := true, ownerId := id }
      let p := { p with reputation := p.reputation + a.reputation }
      let action := Json.obj [("subject_id", .int id), ("ally", a.toJson)]
      -- the loop goes on, and a later player can become the owner
      let (a, actions, rest) := offerAlly a (actions ++ [action]) rest
      (a, actions, (id, p) :: rest)
    else
      let (a, actions, rest) := offerAlly a actions rest
      (a, actions, (id, p) :: rest)

/-- The outer loop of `check_ally`. -/
def offerAllies : List Ally → List Json → List (Int × Player) →
    List Ally × List Json × List (Int × Player)
  | [], actions, players => ([], actions, players)
  | a :: rest, actions, players =>
    if a.isOwned then
      let (rest, actions, players) := offerAllies rest actions players
      (a :: rest, actions, players)
    else
      let (a, actions, players) := offerAlly a actions players
      let (rest, actions, players) := offerAllies rest actions players
      (a :: rest, actions, players)

/-- `check_ally`. -/
def checkAlly (g : Game) : Game :=
  let (allies, actions, players) := offerAllies g.allies g.allyActions.items g.players
  { g with allies := allies, allyActions := .arr actions, players := players }

/-! ## The operations -/

/-- `bank[mine] == 0`. -/
def isOut (g : Game) (mine : Int) : Except Fault Bool := do
  return (← readAt g.bank mine) == 0

/-- `take_3_mines`. -/
def take3Mines (g : Game) (m₀ m₁ m₂ : Int) (player : Int) : Except Fault (Bool × Game) :=
  match g.find player with
  | none => .ok (false, g)
  | some (it, p) => do
    if p.status ≠ .action then return (false, g)
    if m₀ = m₁ ∨ m₁ = m₂ ∨ m₂ = m₀ then return (false, g)
    -- the bank is read at each index before any of them is known to be a mine
    if ← g.isOut m₀ <||> g.isOut m₁ <||> g.isOut m₂ then return (false, g)
    if m₀ = gold ∨ m₁ = gold ∨ m₂ = gold then return (false, g)
    let bank ← addAt g.bank m₀ (-1)
    let bank ← addAt bank m₁ (-1)
    let bank ← addAt bank m₂ (-1)
    let mineCount ← addAt p.mineCount m₀ 1
    let mineCount ← addAt mineCount m₁ 1
    let mineCount ← addAt mineCount m₂ 1
    return (true, ((g.setMines it mineCount bank).handOverUnlessFull it).record
      [("type", .str "TAKE_3"), ("subject_id", .int player),
        ("mines", .arr [.int m₀, .int m₁, .int m₂])])

/-- `take_2_mines`. -/
def take2Mines (g : Game) (mine : Int) (player : Int) : Except Fault (Bool × Game) :=
  match g.find player with
  | none => .ok (false, g)
  | some (it, p) => do
    if p.status ≠ .action then return (false, g)
    if (← readAt g.bank mine) < 4 then return (false, g)
    if mine = gold then return (false, g)
    let bank ← addAt g.bank mine (-2)
    let mineCount ← addAt p.mineCount mine 2
    return (true, ((g.setMines it mineCount bank).handOverUnlessFull it).record
      [("type", .str "TAKE_2"), ("subject_id", .int player), ("mine", .int mine)])

/-- `reserve_coupon`. -/
def reserveCoupon (g : Game) (couponIdx : Int) (player : Int) : Except Fault (Bool × Game) :=
  match g.find player with
  | none => .ok (false, g)
  | some (it, p) => do
    if p.status ≠ .action then return (false, g)
    if 2 < p.reservedCoupons.length then return (false, g)
    match findIf (fun c => c.hasIdx couponIdx) g.coupons with
    | none => return (false, g)
    | some (slot, c) =>
      -- nothing asks whether the coupon is a placeholder
      let g := g.modifyPlayer it fun p => { p with reservedCoupons := p.reservedCoupons ++ [c] }
      let g := g.record
        [("type", .str "RESERVE_COUPON"), ("subject_id", .int player), ("coupon", c.toJson)]
      let g := g.fillCoupon c.level slot
      let g :=
        if 0 < g.bank.get goldIdx then
          g.setMines it (bump p.mineCount goldIdx 1) (bump g.bank goldIdx (-1))
        else g
      return (true, g.handOverUnlessFull it)

/-- `buy_coupon`. -/
def buyCoupon (g : Game) (couponIdx : Int) (player : Int) : Except Fault (Bool × Game) :=
  match g.find player with
  | none => .ok (false, g)
  | some (it, p) => do
    if p.status ≠ .action then return (false, g)
    match findIf (fun c => c.hasIdx couponIdx) g.coupons with
    | none => return (false, g)
    | some (slot, c) =>
      if !checkAffordabillity p c then return (false, g)
      -- `coupon_count` has no place for the type of a placeholder
      let couponCount ← addAt p.couponCount c.type.toInt 1
      let g := (g.acquire it c (pay p c g.bank) couponCount).record
        [("type", .str "BUY_COUPON"), ("subject_id", .int player), ("coupon", c.toJson)]
      let g := g.fillCoupon c.level slot
      return (true, (g.handOver it).checkAlly)

/-- `buy_reserved_coupon`. -/
def buyReservedCoupon (g : Game) (couponIdx : Int) (player : Int) :
    Except Fault (Bool × Game) :=
  match g.find player with
  | none => .ok (false, g)
  | some (it, p) => do
    if p.status ≠ .action then return (false, g)
    match findIf (fun c => c.hasIdx couponIdx) p.reservedCoupons with
    | none => return (false, g)
    | some (slot, c) =>
      if !checkAffordabillity p c then return (false, g)
      if c.type = .gold then throw .assertion
      let couponCount ← addAt p.couponCount c.type.toInt 1
      let g := (g.acquire it c (pay p c g.bank) couponCount).record
        [("type", .str "BUY_RESERVED_COUPON"), ("subject_id", .int player), ("coupon", c.toJson)]
      let g := g.modifyPlayer it fun p =>
        { p with reservedCoupons := p.reservedCoupons.eraseIdx slot }
      return (true, (g.handOver it).checkAlly)

/-- `return_mine`. -/
def returnMine (g : Game) (mine : Int) (player : Int) : Except Fault (Bool × Game) :=
  match g.find player with
  | none => .ok (false, g)
  | some (it, p) => do
    if p.status ≠ .needReturnMine then return (false, g)
    if (← readAt p.mineCount mine) < 1 then return (false, g)
    let mineCount ← addAt p.mineCount mine (-1)
    let bank ← addAt g.bank mine 1
    let g := g.setMines it mineCount bank
    let total := Player.totalMineCount { p with mineCount := mineCount }
    -- neither `last_action` nor `ally_actions` changes here
    return (true, if total < 11 then g.handOver it else g)

/-- `check_winner`: the first player in iteration order with more than 14
points. -/
def checkWinner (g : Game) : Option Int :=
  (findIf (fun e => decide (14 < e.2.reputation)) g.players).map fun r => r.2.1

/-- `get_player_info`. -/
def getPlayerInfo (g : Game) (player : Int) : Json :=
  match g.find player with
  | none => .null
  | some (_, p) => p.toJson player

/-- The coupons of one level, as `get_game_info` lists them. -/
def couponsOfLevel (g : Game) (level : Int) : Json :=
  .arr ((g.coupons.filter fun c => decide (c.level = level)).map Coupon.toJson)

/-- The members of `get_game_info`. -/
def getGameInfo (g : Game) : List (String × Json) :=
  [("allies", .arr (g.allies.map Ally.toJson)),
    ("coupon_lv1", g.couponsOfLevel 1), ("coupon_lv2", g.couponsOfLevel 2),
    ("coupon_lv3", g.couponsOfLevel 3), ("bank", jsonOfVector g.bank),
    ("players", .arr (g.players.map fun e => e.2.toJson e.1)),
    ("last_action", g.lastAction), ("ally_actions", g.allyActions)]

end Game

/-! ## Requests -/

/-- A call of one of the operations; the last argument is the caller. -/
inductive Op where
  | take3Mines (m₀ m₁ m₂ : Int) (player : Int)
  | take2Mines (mine : Int) (player : Int)
  | reserveCoupon (couponIdx : Int) (player : Int)
  | buyCoupon (couponIdx : Int) (player : Int)
  | buyReservedCoupon (couponIdx : Int) (player : Int)
  | returnMine (mine : Int) (player : Int)
  deriving DecidableEq, Repr

/-- Perform a call. -/
def Game.step (g : Game) : Op → Except Fault (Bool × Game)
  | .take3Mines m₀ m₁ m₂ player => g.take3Mines m₀ m₁ m₂ player
  | .take2Mines mine player => g.take2Mines mine player
  | .reserveCoupon couponIdx player => g.reserveCoupon couponIdx player
  | .buyCoupon couponIdx player => g.buyCoupon couponIdx player
  | .buyReservedCoupon couponIdx player => g.buyReservedCoupon couponIdx player
  | .returnMine mine player => g.returnMine mine player

/-- The caller of a request. -/
def Op.player : Op → Int
  | .take3Mines _ _ _ player | .take2Mines _ player | .reserveCoupon _ player
  | .buyCoupon _ player | .buyReservedCoupon _ player | .returnMine _ player => player

end UnoppServer.Splendor
