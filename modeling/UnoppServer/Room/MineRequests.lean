import UnoppServer.Room.Manager
import UnoppServer.Splendor.Cards

/-!
# Rooms: the mines of a Splendor request

A Splendor room casts the integers of a request to `Mine` without a check, and
the three operations that take mines read the bank and the caller's mines at
these indexes. `take_3_mines` and `take_2_mines` do so once the caller is known to
be the active player, `return_mine` once the caller has to return mines; no
operation compares a mine with the bounds.

- `Op.IndexesGuarded`: the operation uses no index that is not a mine;
- `mineRequest_safe_iff`: exactly then does a request index inside the arrays and
  leave the room as it is if it names something that is not a mine.
-/

namespace UnoppServer

open Runs Splendor

/-- No value that is not a mine is used as an index: the request is refused
before it is, or all that is used are mines. -/
def Splendor.Op.IndexesGuarded (g : Game) : Op → Prop
  | .take3Mines m₀ m₁ m₂ player => ∀ it p, g.find player = some (it, p) → p.status = .action →
    ¬ (m₀ = m₁ ∨ m₁ = m₂ ∨ m₂ = m₀) →
    IsMine m₀ ∧ (g.InStock m₀ → IsMine m₁ ∧ (g.InStock m₁ → IsMine m₂))
  | .take2Mines mine player => ∀ it p, g.find player = some (it, p) → p.status = .action →
    IsMine mine
  | .returnMine mine player => ∀ it p, g.find player = some (it, p) →
    p.status = .needReturnMine → IsMine mine
  | _ => True

namespace Room

/-- `MineRequest userId messageType payload op`: the message asks for the
operation `op`, which takes mines. -/
inductive MineRequest (userId : Int) : String → Json → Op → Prop where
  | take2 {payload mine : Json} {m : Int} (field : payload.get "mine" = .ok mine)
      (value : mine.asInt = .ok m) :
      MineRequest userId "SPLENDOR_TAKE_2" payload (.take2Mines m userId)
  | take3 {payload : Json} {v₀ v₁ v₂ : Json} {m₀ m₁ m₂ : Int}
      (field : payload.get "mines" = .ok (.arr [v₀, v₁, v₂]))
      (values : v₀.asInt = .ok m₀ ∧ v₁.asInt = .ok m₁ ∧ v₂.asInt = .ok m₂) :
      MineRequest userId "SPLENDOR_TAKE_3" payload (.take3Mines m₀ m₁ m₂ userId)
  | returnMine {payload mine : Json} {m : Int} (field : payload.get "mine" = .ok mine)
      (value : mine.asInt = .ok m) :
      MineRequest userId "SPLENDOR_RETURN_MINE" payload (.returnMine m userId)

/-- What a room is expected to do with a request for mines. -/
structure RequestSafe (env : Env) (userRooms : UserRooms) (r : Room) (c : Caller)
    (messageType : String) (payload : Json) (op : Op) : Prop where
  /-- No array is indexed outside its bounds. -/
  inBounds : Completes (r.receive env userRooms c messageType payload)
  /-- What is not a mine is rejected. -/
  rejected : ¬ op.NamesMines → ∀ out userRooms' r',
    r.receive env userRooms c messageType payload = .ok (out, userRooms', r') →
      out = [] ∧ userRooms' = userRooms ∧ r' = r

/-- A request for mines is handed to the operation of the game. -/
theorem splendorMessage_mineRequest {env : Env} {r : Room} {game : Option Game} {c : Caller}
    {messageType : String} {payload : Json} {op : Op}
    (hm : MineRequest c.userId messageType payload op) :
    r.splendorMessage env game c messageType payload = r.splendorCall env game op := by
  cases hm with
  | take2 hfield hvalue =>
    simp [splendorMessage, hfield, hvalue, bind, Except.bind]
  | take3 hfield hvalues =>
    obtain ⟨h₀, h₁, h₂⟩ := hvalues
    simp [splendorMessage, splendorTake3, hfield, h₀, h₁, h₂, Json.isArray, Json.size, Json.item,
      bind, Except.bind]
  | returnMine hfield hvalue =>
    simp [splendorMessage, hfield, hvalue, bind, Except.bind]

theorem MineRequest.beginsWith {userId : Int} {messageType : String} {payload : Json} {op : Op}
    (hm : MineRequest userId messageType payload op) :
    Room.beginsWith "SPLENDOR" messageType = true := by
  cases hm <;> decide

/-- A room with a game answers such a request as the operation does. -/
theorem receive_mineRequest (env : Env) (userRooms : UserRooms) {r : Room} {g : Game} {c : Caller}
    {messageType : String} {payload : Json} {op : Op} (hr : r.game = .splendor (some g))
    (hm : MineRequest c.userId messageType payload op) :
    r.receive env userRooms c messageType payload =
      match g.step op with
      | .error e => .error e
      | .ok (success, g') =>
        .ok (if success then (r.withSplendor g').sendSplendorInfo env g' else [], userRooms,
          r.withSplendor g') := by
  have hgame : r.isGameMessage messageType = true := by
    simp only [isGameMessage, hr, hm.beginsWith]
  unfold receive
  rw [if_pos hgame]
  simp only [gameMessage, hr, splendorMessage_mineRequest hm, splendorCall]
  cases g.step op <;> rfl

/-- The operation behind a request completes iff it uses no index that is not a
mine. -/
theorem completes_mineRequest_iff {g : Game} {userId : Int} {messageType : String} {payload : Json}
    {op : Op} (hm : MineRequest userId messageType payload op) :
    Completes (g.step op) ↔ op.IndexesGuarded g := by
  cases hm with
  | take2 => exact Game.completes_take2Mines_iff ..
  | take3 => exact Game.completes_take3Mines_iff ..
  | returnMine => exact Game.completes_returnMine_iff ..

/-- An operation that names something that is not a mine does not succeed. -/
theorem effect_namesMines {g g' : Game} {op : Op} (h : Game.Effect g op g') : op.NamesMines := by
  cases h with
  | take3 => exact ⟨⟨_, rfl⟩, ⟨_, rfl⟩, _, rfl⟩
  | take2 | returnMine => exact ⟨_, rfl⟩
  | reserve | buy | buyReserved => trivial

theorem withSplendor_self {r : Room} {g : Game} (hr : r.game = .splendor (some g)) :
    r.withSplendor g = r := by
  unfold withSplendor
  rw [← hr]

/-- **Mine requests**: in a room with a game, a request for mines is handled
inside the bounds of the arrays, and rejected without a trace if it names
something that is not a mine, exactly when the operation guards its indexes. -/
theorem mineRequest_safe_iff {env : Env} {userRooms : UserRooms} {r : Room} {g : Game} {c : Caller}
    {messageType : String} {payload : Json} {op : Op} (hr : r.game = .splendor (some g))
    (hm : MineRequest c.userId messageType payload op) :
    RequestSafe env userRooms r c messageType payload op ↔ op.IndexesGuarded g := by
  rw [← completes_mineRequest_iff hm]
  constructor
  · intro h
    obtain ⟨a, ha⟩ := h.inBounds
    rw [receive_mineRequest env userRooms hr hm] at ha
    cases hs : g.step op with
    | error e =>
      rw [hs] at ha
      cases ha
    | ok s => exact completes_ok s
  · rintro ⟨⟨success, g'⟩, hs⟩
    have hreceive := receive_mineRequest env userRooms hr hm
    rw [hs] at hreceive
    refine ⟨⟨_, hreceive⟩, fun hmines out userRooms' r' hr' => ?_⟩
    rw [hreceive] at hr'
    rcases Game.step_cases hs with ⟨rfl, rfl⟩ | ⟨-, he⟩
    · cases hr'
      exact ⟨rfl, rfl, withSplendor_self hr⟩
    · exact absurd (effect_namesMines he) hmines

theorem mineRequest_safe_iff_six :
    let g := Game.new [1, 2] (fun _ => 0) Int.toNat
    RequestSafe ⟨fun _ => 0, fun k => k, Int.toNat, fun _ _ => 0⟩ (fun _ => none)
      (.new 1 "a" 1 "" "" (.splendor (some g))) ⟨1, "a", 1⟩ "SPLENDOR_TAKE_2"
      (.obj [("mine", .int 6)]) (.take2Mines 6 1) ↔
    Op.IndexesGuarded g (.take2Mines 6 1) :=
  mineRequest_safe_iff rfl (.take2 rfl rfl)

/-! ## A request outside the bounds -/

/-- Draws that are all zero, and maps iterated over by key. -/
def plainEnv : Env := ⟨fun _ => 0, fun k => k, fun i => i.toNat, fun _ _ => 0⟩

/-- Users 1 and 2 create and join room 1 and start a game of Splendor. -/
def splendorStart : List (Env × Event) :=
  [(plainEnv, .message ⟨1, "a", 1⟩ "CREATE_ROOM"
      (.obj [("room_id", .int 1), ("room_type", .str "SPLENDOR")])),
    (plainEnv, .message ⟨1, "a", 1⟩ "JOIN_ROOM" (.obj [("room_id", .int 1)])),
    (plainEnv, .message ⟨2, "b", 2⟩ "JOIN_ROOM" (.obj [("room_id", .int 1)])),
    (plainEnv, .message ⟨1, "a", 1⟩ "GAME_PREPARE" (.obj [("prepare", .bool true)])),
    (plainEnv, .message ⟨2, "b", 2⟩ "GAME_PREPARE" (.obj [("prepare", .bool true)]))]

/-- The answer of a room to `SPLENDOR_TAKE_2` for a mine, sent by user 1. -/
def take2Answer (m : Manager) (r : Room) (mine : Int) :
    Except Fault (Outbox × UserRooms × Room) :=
  r.receive plainEnv m.userRooms ⟨1, "a", 1⟩ "SPLENDOR_TAKE_2" (.obj [("mine", .int mine)])

theorem exec_splendorStart : execTo Manager.step Manager.new splendorStart (fun m =>
    (m.rooms.lookup 1).any fun r =>
      match r.game, take2Answer m r 6 with
      | .splendor (some _), .error .outOfBounds => true
      | _, _ => false) = true := by
  decide +kernel

/-- User 1 asks for two mines of kind 6, and the bank is read past its end. -/
theorem take2_outOfBounds : ∃ m r g, exec Manager.step Manager.new splendorStart = .ok m ∧
    m.rooms.lookup 1 = some r ∧ r.game = .splendor (some g) ∧
    take2Answer m r 6 = .error .outOfBounds := by
  obtain ⟨m, hm, hroom⟩ := exists_of_execTo exec_splendorStart
  obtain ⟨r, hr, hcheck⟩ := (Option.any_eq_true _ _).mp hroom
  split at hcheck
  · rename_i g hg herr
    exact ⟨m, r, g, hm, hr, hg, herr⟩
  · cases hcheck

end Room

end UnoppServer
