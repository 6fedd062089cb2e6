import UnoppServer.Room.Room

/-!
# Rooms: Splendor

`SplendorRoom` of `SplendorRoom.hpp`: the `SPLENDOR_*` messages
(`splendorMessage`), the start of a game (`startSplendor`) and the messages with
the state of the game. The mines of a request are whatever integers the client
sends; `static_cast<Splendor::Mine>` keeps them as they are.
-/

namespace UnoppServer

open Assoc FindIf

namespace Room

/-- Add a name next to the id that an object holds under `key`. -/
def addName (env : Env) (r : Room) (key nameKey : String) (v : Json) : Json :=
  match v with
  | .obj members =>
    match members.lookup key with
    | some (.int id) => .obj (Json.upsert members nameKey (.str (r.userIdToUserName env id)))
    | _ => v
  | _ => v

/-- The players of `get_game_info`, with their names. -/
def splendorPlayers (env : Env) (r : Room) (g : Splendor.Game) : Json :=
  .arr (g.players.map fun e => r.addName env "id" "name" (e.2.toJson e.1))

/-- `get_game_info` with the names of the players. -/
def splendorNamed (env : Env) (r : Room) (g : Splendor.Game) : List (String × Json) :=
  Json.upsert g.getGameInfo "players" (r.splendorPlayers env g)

/-- `get_game_info` with the names that `send_game_info` adds. -/
def splendorInfo (env : Env) (r : Room) (g : Splendor.Game) : List (String × Json) :=
  let info := Json.upsert (r.splendorNamed env g) "last_action"
    (r.addName env "subject_id" "subject_name" g.lastAction)
  if g.allyActions.isNull then info
  else Json.upsert info "ally_actions"
    (.arr (g.allyActions.items.map (r.addName env "subject_id" "subject_name")))

/-- `send_game_info` of a Splendor room. -/
def sendSplendorInfo (env : Env) (r : Room) (g : Splendor.Game) : Outbox :=
  (r.members env).map fun p =>
    (p.1, .obj [("message_type", .str "SPLENDOR_GAME_INFO"),
      ("info", .obj (Json.upsert (r.splendorInfo env g) "player_info"
        (g.getPlayerInfo p.2.userId)))])

/-- `send_game_result` of a Splendor room. -/
def sendSplendorResult (env : Env) (r : Room) (g : Splendor.Game) (winner : Int) : Outbox :=
  let info := r.splendorNamed env g
  (r.members env).map fun p =>
    (p.1, .obj [("message_type", .str "SPLENDOR_GAME_OVER"),
      ("info", .obj (Json.upsert info "player_info" (g.getPlayerInfo p.2.userId))),
      ("winner_id", .int winner), ("winner_name", .str (r.userIdToUserName env winner))])

/-- The room with its game changed. -/
def withSplendor (r : Room) (g : Splendor.Game) : Room := { r with game := .splendor (some g) }

/-- A member function of the game is called and, when it succeeds, the state of
the game is sent. -/
def splendorCall (env : Env) (r : Room) (game : Option Splendor.Game) (op : Splendor.Op) :
    Except Fault (Outbox × Room) :=
  match game with
  | none => .error .nullPointer
  | some g => do
    let (success, g) ← g.step op
    let r := r.withSplendor g
    return (if success then r.sendSplendorInfo env g else [], r)

/-- A purchase: the game is over when `check_winner` finds a winner after it. -/
def splendorPurchase (env : Env) (r : Room) (game : Option Splendor.Game) (op : Splendor.Op) :
    Except Fault (Outbox × Room) :=
  match game with
  | none => .error .nullPointer
  | some g => do
    let (success, g) ← g.step op
    let r := r.withSplendor g
    if success then
      match g.checkWinner with
      | none => return (r.sendSplendorInfo env g, r)
      | some winner =>
        return (r.sendSplendorInfo env g ++ r.sendSplendorResult env g winner,
          { r with isGameOn := false })
    else return ([], r)

/-- `SPLENDOR_TAKE_3`: nothing happens unless `mines` is an array of three. -/
def splendorTake3 (env : Env) (r : Room) (game : Option Splendor.Game) (c : Caller)
    (payload : Json) : Except Fault (Outbox × Room) := do
  let mines ← payload.get "mines"
  if mines.isArray = true ∧ mines.size = 3 then
    -- any three integers are cast to mines
    let m₀ ← (← mines.item 0).asInt
    let m₁ ← (← mines.item 1).asInt
    let m₂ ← (← mines.item 2).asInt
    r.splendorCall env game (.take3Mines m₀ m₁ m₂ c.userId)
  else .ok ([], r)

/-- The messages that begin with `SPLENDOR`. -/
def splendorMessage (env : Env) (r : Room) (game : Option Splendor.Game) (c : Caller)
    (messageType : String) (payload : Json) : Except Fault (Outbox × Room) :=
  if messageType = "SPLENDOR_TAKE_2" then do
    let mine ← (← payload.get "mine").asInt
    r.splendorCall env game (.take2Mines mine c.userId)
  else if messageType = "SPLENDOR_TAKE_3" then r.splendorTake3 env game c payload
  else if messageType = "SPLENDOR_BUY_COUPON" then do
    let couponIdx ← (← payload.get "coupon_idx").asInt
    r.splendorPurchase env game (.buyCoupon couponIdx c.userId)
  else if messageType = "SPLENDOR_RESERVE_COUPON" then do
    let couponIdx ← (← payload.get "coupon_idx").asInt
    r.splendorCall env game (.reserveCoupon couponIdx c.userId)
  else if messageType = "SPLENDOR_BUY_RESERVED_COUPON" then do
    let couponIdx ← (← payload.get "coupon_idx").asInt
    r.splendorPurchase env game (.buyReservedCoupon couponIdx c.userId)
  else if messageType = "SPLENDOR_RETURN_MINE" then do
    let mine ← (← payload.get "mine").asInt
    r.splendorCall env game (.returnMine mine c.userId)
  else .ok ([], r)

/-- `on_everyone_prepared` of a Splendor room. -/
def startSplendor (env : Env) (r : Room) : Outbox × Room :=
  let size := r.connections.entries.length
  if size < 2 then
    (r.broadcast env [("type", .str "LESS_THAN_2_PEOPLE")] "SPLENDOR_BROADCAST", r)
  else if 4 < size then
    (r.broadcast env [("type", .str "MORE_THAN_4_PEOPLE")] "SPLENDOR_BROADCAST", r)
  else
    let players := (r.members env).map fun p => p.2.userId
    let g := Splendor.Game.new players env.draw env.playerOrder
    let r := { r with isGameOn := true }.withSplendor g
    let r' := r.clearPrepared
    (r.broadcast env [] "SPLENDOR_START" ++ r'.sendSplendorInfo env g ++
      r'.broadcastMembersInfo env, r')

end Room

end UnoppServer
