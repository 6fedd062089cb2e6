import UnoppServer.Room.Room

/-!
# Rooms: Gomoku

`GomokuRoom` of `GomokuRoom.hpp`: `GOMOKU_DROP` (`gomokuDrop`), the thread that
an accepted drop starts and detaches (`gomokuUpdate`), and the start of a game
(`startGomoku`).
-/

namespace UnoppServer

open Assoc FindIf

namespace Room

/-- `user_id_to_is_black`. -/
abbrev Colors := (Int × Bool) × (Int × Bool)

/-- `send_game_info` of a Gomoku room. -/
def sendGomokuInfo (env : Env) (r : Room) (g : Gomoku) (colors : Colors) : Outbox :=
  let second : Json × Json :=
    if colors.2.1 ≠ 0 then
      (.int colors.2.1, .str (r.userIdToUserName env colors.2.1))
    else (.str "robot", .str "AlphaGomoku")
  let players := Json.arr [
    .obj [("id", .int colors.1.1), ("name", .str (r.userIdToUserName env colors.1.1)),
      ("is_black", .bool colors.1.2)],
    .obj [("id", second.1), ("is_black", .bool colors.2.2), ("name", second.2)]]
  r.broadcast env (g.getGameInfo ++ [("players", players)]) "GOMOKU_GAME_INFO"

/-- `send_game_result` of a Gomoku room. -/
def sendGomokuResult (env : Env) (r : Room) (winnerIsBlack tied : Bool) : Outbox :=
  let winner := if tied then "TIED" else if winnerIsBlack then "BLACK" else "WHITE"
  r.broadcast env [("winner", .str winner)] "GOMOKU_GAME_OVER"

/-- The colour of a user: whoever is not the first entry counts as the second. -/
def isBlack (colors : Colors) (userId : Int) : Bool :=
  if colors.1.1 = userId then colors.1.2 else colors.2.2

/-- `GOMOKU_DROP`. -/
def gomokuDrop (env : Env) (r : Room) (g : Gomoku) (colors : Colors) (updates : Nat) (c : Caller)
    (payload : Json) : Except Fault (Outbox × Room) := do
  let y ← (← payload.get "y").asInt
  let x ← (← payload.get "x").asInt
  let (canDrop, g') := g.drop y x (isBlack colors c.userId)
  if canDrop then
    return (r.sendGomokuInfo env g' colors, { r with game := .gomoku g' colors (updates + 1) })
  else return ([], r)

/-- The detached thread of an accepted drop. -/
def gomokuUpdate (env : Env) (r : Room) (g : Gomoku) (colors : Colors) (updates : Nat) :
    Outbox × Room :=
  -- with the algorithm the update is called twice
  let g := if r.connections.entries.length = 1 then g.update (Gomoku.noisy (env.noise 0)) 0 else g
  let g := g.update (Gomoku.noisy (env.noise 1)) 0
  let r := { r with game := .gomoku g colors updates }
  let info := r.sendGomokuInfo env g colors
  if g.status ≠ .notEnd then
    (info ++ r.sendGomokuResult env (decide (g.status = .blackWin)) (decide (g.status = .tied)),
      { r with isGameOn := false })
  else (info, r)

/-- The loop that assigns the colours of two players, beginning with the entry
`i`. -/
def assignColors (i : Bool) : List (Nat × UserInfo) → Colors → Colors
  | [], colors => colors
  | p :: rest, colors =>
    assignColors (!i) rest
      (if i then (colors.1, (p.2.userId, i)) else ((p.2.userId, i), colors.2))

/-- `on_everyone_prepared` of a Gomoku room. -/
def startGomoku (env : Env) (r : Room) (g : Gomoku) (colors : Colors) (updates : Nat) :
    Outbox × Room :=
  let members := r.members env
  if 2 < members.length then
    (r.broadcast env [("type", .str "MORE_THAN_2_PEOPLE")] "GOMOKU_BROADCAST", r)
  else
    let g := g.clear
    let (out, g, colors) : Outbox × Gomoku × Colors :=
      match members with
      | [(_, p)] => (r.broadcast env [("type", .str "PLAY_WITH_ALGORITHM")] "GOMOKU_BROADCAST",
          g.enableAi true, ((p.userId, true), (0, colors.2.2)))
      | _ => ([], g.enableAi false, assignColors (decide (env.draw 0 % 2 = 1)) members colors)
    let r := { r with isGameOn := true, game := .gomoku g colors updates }
    let r' := r.clearPrepared
    (out ++ r.broadcast env [] "GOMOKU_START" ++ r'.sendGomokuInfo env g colors ++
      r'.broadcastMembersInfo env, r')

end Room

end UnoppServer
