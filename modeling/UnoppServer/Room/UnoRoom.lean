import UnoppServer.Room.Room

/-!
# Rooms: Uno

`UnoRoom` of `UnoRoom.hpp`: the `UNO_*` messages (`unoMessage`), the start of a
game (`startUno`) and the messages with the state of the game. The handlers
take the game, if there is one, apart from the room; calling a member function
of a game that does not exist is a fault.
-/

namespace UnoppServer

open Assoc FindIf

namespace Room

/-- `card_2_int`. -/
def card2Int (card : Uno.Card) : Int := card.content + card.color * 16

/-- `int_2_card`: division and remainder of C++ truncate. -/
def int2Card (cardHash : Int) : Uno.Card := ⟨cardHash.tdiv 16, cardHash.tmod 16⟩

/-- `get_cards_in_hand`: the player found is dereferenced without a check. -/
def getCardsInHand (u : Uno) (userId : Int) : Except Fault Json :=
  match findIf (fun p : Uno.Player => p.userId == userId) u.players with
  | some (_, p) => .ok (.arr (p.cardsInHand.map fun card => .int (card2Int card)))
  | none => .error .endIterator

/-- The loop of `send_cards_in_hand`. -/
def sendCardsTo (u : Uno) : List (Nat × UserInfo) → Except Fault Outbox
  | [] => .ok []
  | p :: rest => do
    let cards ← getCardsInHand u p.2.userId
    let out ← sendCardsTo u rest
    return (p.1, .obj [("message_type", .str "UNO_CARDS_IN_HAND"), ("cards", cards)]) :: out

/-- `send_cards_in_hand`. -/
def sendCardsInHand (env : Env) (r : Room) (u : Uno) : Except Fault Outbox :=
  sendCardsTo u (r.members env)

/-- `get_game_info` of an Uno room. -/
def unoGameInfo (env : Env) (r : Room) (u : Uno) : Except Fault (List (String × Json)) := do
  let lastCard ← u.getLastCard
  return [("last_card", .int (card2Int lastCard)),
    ("next_player", .str (r.userIdToUserName env u.getNextPlayer)),
    ("specified_color", .int u.lastColor), ("direction", .bool u.reversed),
    ("players", .arr (u.players.map fun p =>
      .obj [("name", .str (r.userIdToUserName env p.userId)), ("id", .int p.userId),
        ("count", .uint p.cardsInHand.length)]))]

/-- `send_game_info` of an Uno room. -/
def sendUnoInfo (env : Env) (r : Room) (u : Uno) : Except Fault Outbox := do
  let info ← r.unoGameInfo env u
  return r.broadcast env info "UNO_GAME_INFO"

/-- `send_cards_in_hand` and `send_game_info`, as most handlers call them. -/
def sendUno (env : Env) (r : Room) (u : Uno) : Except Fault Outbox := do
  let cards ← r.sendCardsInHand env u
  let info ← r.sendUnoInfo env u
  return cards ++ info

/-- `get_game_result`. -/
def unoGameResult (env : Env) (r : Room) (u : Uno) : Except Fault Json := do
  let lastCard ← u.getLastCard
  return .obj [("last_card", .int (card2Int lastCard)),
    ("players", .arr (u.players.map fun p =>
      .obj [("name", .str (r.userIdToUserName env p.userId)), ("id", .int p.userId),
        ("cards", .arr (p.cardsInHand.map fun card => .int (card2Int card))),
        ("count", .uint p.cardsInHand.length)]))]

/-- A `UNO_BROADCAST` about a user. -/
def unoBroadcast (env : Env) (r : Room) (userName type : String) (rest : List (String × Json)) :
    Outbox :=
  r.broadcast env ([("user_name", .str userName), ("type", .str type)] ++ rest) "UNO_BROADCAST"

/-- The messages after a successful `UNO_PLAY`. -/
def playSucceeded (env : Env) (r : Room) (u : Uno) (userName : String) (cardHash : Int)
    (punish : Bool) : Except Fault Outbox := do
  let state ← r.sendUno env u
  -- 78 is the hash of WILD_DRAW_4
  let draw4 := if cardHash = 78 then
    r.unoBroadcast env userName "WILD_DRAW_4"
      [("object", .str (r.userIdToUserName env u.getNextPlayer))] else []
  let unsaid := if punish then r.unoBroadcast env userName "DIDNT_SAY_UNO" [] else []
  return state ++ draw4 ++ unsaid ++
    r.broadcast env [("last_card", .int cardHash)] "UNO_LAST_CARD"

/-- The messages after a `UNO_PLAY`: none when it is refused. -/
def playAnswer (env : Env) (r : Room) (u : Uno) (userName : String) (cardHash : Int)
    (success punish : Bool) : Except Fault Outbox :=
  if success then r.playSucceeded env u userName cardHash punish else .ok []

/-- The end of `UNO_PLAY`: the game is over when a player has no cards left. -/
def checkUnoOver (env : Env) (r : Room) (u : Uno) : Except Fault (Outbox × Room) :=
  match u.checkWinner with
  | none => .ok ([], r)
  | some winner => do
    let result ← r.unoGameResult env u
    let out := r.broadcast env
      [("winner", .obj [("id", .int winner), ("name", .str (r.userIdToUserName env winner))]),
        ("result", result)] "UNO_GAMEOVER"
    let r := { r with isGameOn := false }
    return (out ++ r.broadcastMembersInfo env, r)

/-- The room with its game changed. -/
def withUno (r : Room) (u : Uno) : Room := { r with game := .uno (some u) }

/-- `UNO_PLAY`. -/
def unoPlay (env : Env) (r : Room) (u : Uno) (c : Caller) (cardHash specifiedColor : Int) :
    Except Fault (Outbox × Room) := do
  let ((success, punish), u) ← u.play c.userId (int2Card cardHash) specifiedColor
  let r := r.withUno u
  let out ← r.playAnswer env u c.userName cardHash success punish
  -- a refused card can still be followed by the end of the game
  let (gameover, r) ← r.checkUnoOver env u
  return (out ++ gameover, r)

/-- `UNO_DRAW_ONE`. -/
def unoDrawOne (env : Env) (r : Room) (u : Uno) (c : Caller) : Except Fault (Outbox × Room) := do
  let ((card, punish), u) ← u.drawOne c.userId
  let r := r.withUno u
  let said := if punish then r.unoBroadcast env c.userName "SAID_UNO_BUT_DIDNT_PLAY" [] else []
  match card with
  | none => return (said, r)
  | some card =>
    let info ← r.sendUnoInfo env u
    return (info ++ [(c.connId, .obj [("message_type", .str "UNO_DRAW_ONE_RES"),
      ("success", .bool true), ("card", .int (card2Int card))])] ++ said, r)

/-- `UNO_SKIP_AFTER_DRAWING_ONE`. -/
def unoSkip (env : Env) (r : Room) (u : Uno) (c : Caller) : Except Fault (Outbox × Room) := do
  let (success, u) ← u.skipAfterDrawingOne c.userId
  let r := r.withUno u
  if success then
    -- here the state of the game goes out before the hands
    let info ← r.sendUnoInfo env u
    let cards ← r.sendCardsInHand env u
    return (info ++ cards, r)
  else return ([], r)

/-- `UNO_SAY_UNO`. -/
def unoSayUno (env : Env) (r : Room) (u : Uno) (c : Caller) : Except Fault (Outbox × Room) := do
  let (success, u) ← u.sayUno c.userId
  let r := r.withUno u
  if success then return (r.unoBroadcast env c.userName "SAY_UNO" [], r)
  else
    let out ← r.sendUno env u
    return (out ++ r.unoBroadcast env c.userName "MISSAY_UNO" [], r)

/-- `UNO_SUSPECT`. -/
def unoSuspect (env : Env) (r : Room) (u : Uno) (c : Caller) : Except Fault (Outbox × Room) := do
  let (result, u) ← u.suspect c.userId
  let r := r.withUno u
  match result with
  | none => return ([], r)
  | some (cards, success, suspectId) =>
    let out ← r.sendUno env u
    return ([(c.connId, .obj [("message_type", .str "UNO_SUSPECT_CARDS"),
        ("cards", .arr (cards.map fun card => .int (card2Int card)))])] ++
      r.unoBroadcast env c.userName "SUSPECT"
        [("suspect", .str (r.userIdToUserName env suspectId)), ("success", .bool success)] ++
      out, r)

/-- `UNO_DISSUSPECT`. -/
def unoDissuspect (env : Env) (r : Room) (u : Uno) (c : Caller) : Except Fault (Outbox × Room) := do
  let (success, u) ← u.dissuspect c.userId
  let r := r.withUno u
  if success then
    let out ← r.sendUno env u
    return (out, r)
  else return ([], r)

/-- A member function of the game is called. -/
def onUno {α : Type} (unoGame : Option Uno) (f : Uno → Except Fault α) : Except Fault α :=
  match unoGame with
  | some u => f u
  | none => .error .nullPointer

/-- The messages that begin with `UNO`. -/
def unoMessage (env : Env) (r : Room) (unoGame : Option Uno) (c : Caller) (messageType : String)
    (payload : Json) : Except Fault (Outbox × Room) :=
  if messageType = "UNO_PLAY" then do
    let cardHash ← (← payload.get "card").asInt
    let specifiedColor ← (← payload.get "specified_color").asInt
    onUno unoGame fun u => r.unoPlay env u c cardHash specifiedColor
  else if messageType = "UNO_DRAW_ONE" then onUno unoGame fun u => r.unoDrawOne env u c
  else if messageType = "UNO_SKIP_AFTER_DRAWING_ONE" then onUno unoGame fun u => r.unoSkip env u c
  else if messageType = "UNO_SAY_UNO" then onUno unoGame fun u => r.unoSayUno env u c
  else if messageType = "UNO_SUSPECT" then onUno unoGame fun u => r.unoSuspect env u c
  else if messageType = "UNO_DISSUSPECT" then onUno unoGame fun u => r.unoDissuspect env u c
  else .ok ([], r)

/-- `on_everyone_prepared` of an Uno room. -/
def startUno (env : Env) (r : Room) : Except Fault (Outbox × Room) :=
  let size := r.connections.entries.length
  if size < 3 then
    .ok (r.broadcast env [("type", .str "LESS_THAN_3_PEOPLE")] "UNO_BROADCAST", r)
  else if 10 < size then
    .ok (r.broadcast env [("type", .str "MORE_THAN_10_PEOPLE")] "UNO_BROADCAST", r)
  else
    let players := (r.members env).map fun p => p.2.userId
    if hne : players = [] then .error .outOfBounds
    else do
      let u ← Uno.new players hne env.draw
      let r := ({ r with isGameOn := true }.withUno u)
      -- the flags are cleared after `UNO_START` and before the state is sent
      let r' := r.clearPrepared
      let out ← r'.sendUno env u
      return (r.broadcast env [] "UNO_START" ++ out ++ r'.broadcastMembersInfo env, r')

end Room

end UnoppServer
