import UnoppServer.Lib.Handler
import UnoppServer.Room.Manager

/-!
# Rooms: the operation behind a message

A message of a game asks for one operation of the game, or for none
(`unoRequest`, `splendorRequest`). The specs below say that a handler which
completes has performed that operation and has changed nothing of the room but
the game and `is_game_on`.
-/

namespace UnoppServer

open FindIf

namespace Room

/-! ## Uno -/

/-- The operation that a message to an Uno room asks for. -/
def unoRequest (userId : Int) (messageType : String) (payload : Json) :
    Except Fault (Option Uno.Op) :=
  if messageType = "UNO_PLAY" then do
    let cardHash ← (← payload.get "card").asInt
    let specifiedColor ← (← payload.get "specified_color").asInt
    return some (.play userId (int2Card cardHash) specifiedColor)
  else if messageType = "UNO_DRAW_ONE" then .ok (some (.drawOne userId))
  else if messageType = "UNO_SKIP_AFTER_DRAWING_ONE" then .ok (some (.skipAfterDrawingOne userId))
  else if messageType = "UNO_SAY_UNO" then .ok (some (.sayUno userId))
  else if messageType = "UNO_SUSPECT" then .ok (some (.suspect userId))
  else if messageType = "UNO_DISSUSPECT" then .ok (some (.dissuspect userId))
  else .ok none

/-- The room has performed an operation of its game of Uno. -/
def UnoDone (r : Room) (u : Uno) (op : Uno.Op) (r' : Room) : Prop :=
  ∃ b u' isGameOn, u.step op = .ok (b, u') ∧
    r' = { r with game := .uno (some u'), isGameOn := isGameOn }

section Uno

variable {env : Env} {r : Room} {u : Uno} {c : Caller}

theorem ensures_checkUnoOver : Ensures (r.checkUnoOver env u) fun s =>
    ∃ isGameOn, s.2 = { r with isGameOn := isGameOn } := by
  unfold checkUnoOver
  split
  · exact .ok ⟨r.isGameOn, rfl⟩
  · exact .bind' fun _ _ => .ok ⟨false, rfl⟩

/-- The state of an operation, once it has completed. -/
theorem unoDone {op : Uno.Op} {b : Bool} {u' : Uno} (h : u.step op = .ok (b, u')) :
    UnoDone r u op (r.withUno u') := ⟨b, u', r.isGameOn, h, rfl⟩

/-- A play that is handled has made its call. -/
theorem ensures_unoPlay (cardHash specifiedColor : Int) :
    Ensures (r.unoPlay env u c cardHash specifiedColor) fun s =>
      UnoDone r u (.play c.userId (int2Card cardHash) specifiedColor) s.2 := by
  unfold unoPlay
  refine .bind' fun ⟨⟨success, punish⟩, u'⟩ hplay => .bind' fun out _ => ?_
  refine ensures_checkUnoOver.bind fun s ⟨isGameOn, hs⟩ => .ok ⟨success, u', isGameOn, ?_, hs⟩
  simp only [Uno.step, hplay]
  rfl

/-- A draw that is handled has made its call. -/
theorem ensures_unoDrawOne : Ensures (r.unoDrawOne env u c) fun s =>
    UnoDone r u (.drawOne c.userId) s.2 := by
  unfold unoDrawOne
  refine .bind' fun ⟨⟨card, punish⟩, u'⟩ hdraw => ?_
  have hdone : UnoDone r u (.drawOne c.userId) (r.withUno u') :=
    unoDone (b := card.isSome) (by simp only [Uno.step, hdraw]; rfl)
  cases card with
  | none => exact .ok hdone
  | some card => exact .bind' fun _ _ => .ok hdone

theorem ensures_unoSkip : Ensures (r.unoSkip env u c) fun s =>
    UnoDone r u (.skipAfterDrawingOne c.userId) s.2 := by
  unfold unoSkip
  refine .bind' fun ⟨success, u'⟩ hskip => .ite (fun _ => ?_) fun _ => .ok (unoDone hskip)
  exact .bind' fun _ _ => .bind' fun _ _ => .ok (unoDone hskip)

theorem ensures_unoSayUno : Ensures (r.unoSayUno env u c) fun s =>
    UnoDone r u (.sayUno c.userId) s.2 := by
  unfold unoSayUno
  refine .bind' fun ⟨success, u'⟩ hsay => .ite (fun _ => .ok (unoDone hsay)) fun _ => ?_
  exact .bind' fun _ _ => .ok (unoDone hsay)

/-- A challenge that is handled has made its call. -/
theorem ensures_unoSuspect : Ensures (r.unoSuspect env u c) fun s =>
    UnoDone r u (.suspect c.userId) s.2 := by
  unfold unoSuspect
  refine .bind' fun ⟨result, u'⟩ hsuspect => ?_
  have hdone : UnoDone r u (.suspect c.userId) (r.withUno u') :=
    unoDone (b := result.isSome) (by simp only [Uno.step, hsuspect]; rfl)
  cases result with
  | none => exact .ok hdone
  | some result => exact .bind' fun _ _ => .ok hdone

theorem ensures_unoDissuspect : Ensures (r.unoDissuspect env u c) fun s =>
    UnoDone r u (.dissuspect c.userId) s.2 := by
  unfold unoDissuspect
  refine .bind' fun ⟨success, u'⟩ hdis => .ite (fun _ => ?_) fun _ => .ok (unoDone hdis)
  exact .bind' fun _ _ => .ok (unoDone hdis)

theorem ensures_onUno {α : Type} {unoGame : Option Uno} {f : Uno → Except Fault α} {Q : α → Prop}
    (hf : ∀ u, unoGame = some u → Ensures (f u) Q) : Ensures (onUno unoGame f) Q := by
  cases unoGame with
  | none => exact .error
  | some u => exact hf u rfl

/-- What a completed message has done to an Uno room. -/
def UnoAnswer (r : Room) (unoGame : Option Uno) (r' : Room) : Option Uno.Op → Prop
  | none => r' = r
  | some op => ∃ u, unoGame = some u ∧ UnoDone r u op r'

/-- **An Uno room performs the operation that a message asks for.** -/
theorem ensures_unoMessage (unoGame : Option Uno) (messageType : String) (payload : Json) :
    Ensures (r.unoMessage env unoGame c messageType payload) fun s =>
      ∃ o, unoRequest c.userId messageType payload = .ok o ∧ UnoAnswer r unoGame s.2 o := by
  have honUno {op : Uno.Op} {f : Uno → Except Fault (Outbox × Room)}
      (hf : ∀ u, Ensures (f u) fun s => UnoDone r u op s.2) :
      Follows (.ok (some op)) (onUno unoGame f) fun o s => UnoAnswer r unoGame s.2 o :=
    .read (ensures_onUno fun u hu => (hf u).mono fun s hs => ⟨u, hu, hs⟩)
  unfold unoMessage unoRequest
  refine Follows.ite (fun _ => ?_) fun _ => ?_
  · refine .bind fun _ => .bind fun cardHash => .bind fun _ => .bind fun specifiedColor => ?_
    exact honUno fun u => ensures_unoPlay cardHash specifiedColor
  refine .ite (fun _ => honUno fun u => ensures_unoDrawOne) fun _ => ?_
  refine .ite (fun _ => honUno fun u => ensures_unoSkip) fun _ => ?_
  refine .ite (fun _ => honUno fun u => ensures_unoSayUno) fun _ => ?_
  refine .ite (fun _ => honUno fun u => ensures_unoSuspect) fun _ => ?_
  refine .ite (fun _ => honUno fun u => ensures_unoDissuspect) fun _ => ?_
  exact .read (.ok rfl)

end Uno

/-! ## Splendor -/

/-- The operation that a `SPLENDOR_TAKE_3` asks for. -/
def take3Request (userId : Int) (payload : Json) : Except Fault (Option Splendor.Op) := do
  let mines ← payload.get "mines"
  if mines.isArray = true ∧ mines.size = 3 then
    let m₀ ← (← mines.item 0).asInt
    let m₁ ← (← mines.item 1).asInt
    let m₂ ← (← mines.item 2).asInt
    return some (.take3Mines m₀ m₁ m₂ userId)
  else return none

/-- The operation that a message with one integer asks for. -/
def intRequest (key : String) (op : Int → Splendor.Op) (payload : Json) :
    Except Fault (Option Splendor.Op) := do
  let i ← (← payload.get key).asInt
  return some (op i)

/-- The operation that a message to a Splendor room asks for. -/
def splendorRequest (userId : Int) (messageType : String) (payload : Json) :
    Except Fault (Option Splendor.Op) :=
  if messageType = "SPLENDOR_TAKE_2" then intRequest "mine" (.take2Mines · userId) payload
  else if messageType = "SPLENDOR_TAKE_3" then take3Request userId payload
  else if messageType = "SPLENDOR_BUY_COUPON" then
    intRequest "coupon_idx" (.buyCoupon · userId) payload
  else if messageType = "SPLENDOR_RESERVE_COUPON" then
    intRequest "coupon_idx" (.reserveCoupon · userId) payload
  else if messageType = "SPLENDOR_BUY_RESERVED_COUPON" then
    intRequest "coupon_idx" (.buyReservedCoupon · userId) payload
  else if messageType = "SPLENDOR_RETURN_MINE" then
    intRequest "mine" (.returnMine · userId) payload
  else .ok none

/-- The room has performed an operation of its game of Splendor. -/
def SplendorDone (r : Room) (g : Splendor.Game) (op : Splendor.Op) (r' : Room) : Prop :=
  ∃ b g' isGameOn, g.step op = .ok (b, g') ∧
    r' = { r with game := .splendor (some g'), isGameOn := isGameOn }

/-- What a completed message has done to a Splendor room. -/
def SplendorAnswer (r : Room) (game : Option Splendor.Game) (r' : Room) :
    Option Splendor.Op → Prop
  | none => r' = r
  | some op => ∃ g, game = some g ∧ SplendorDone r g op r'

section Splendor

variable {env : Env} {r : Room} {c : Caller}

theorem ensures_splendorCall (game : Option Splendor.Game) (op : Splendor.Op) :
    Ensures (r.splendorCall env game op) fun s => SplendorAnswer r game s.2 (some op) := by
  unfold splendorCall
  cases game with
  | none => exact .error
  | some g => exact .bind' fun ⟨b, g'⟩ hg => .ok ⟨g, rfl, b, g', r.isGameOn, hg, rfl⟩

/-- A purchase that is handled has made its call. -/
theorem ensures_splendorPurchase (game : Option Splendor.Game) (op : Splendor.Op) :
    Ensures (r.splendorPurchase env game op) fun s => SplendorAnswer r game s.2 (some op) := by
  unfold splendorPurchase
  cases game with
  | none => exact .error
  | some g =>
    refine .bind' fun ⟨b, g'⟩ hg => .ite (fun _ => ?_) fun _ =>
      .ok ⟨g, rfl, b, g', r.isGameOn, hg, rfl⟩
    cases g'.checkWinner with
    | none => exact .ok ⟨g, rfl, b, g', r.isGameOn, hg, rfl⟩
    | some winner => exact .ok ⟨g, rfl, b, g', false, hg, rfl⟩

/-- Three mines that are handled are those of the call. -/
theorem ensures_splendorTake3 (game : Option Splendor.Game) (payload : Json) :
    Ensures (r.splendorTake3 env game c payload) fun s =>
      ∃ o, take3Request c.userId payload = .ok o ∧ SplendorAnswer r game s.2 o := by
  unfold splendorTake3 take3Request
  refine Follows.bind fun mines => .ite (fun _ => ?_) fun _ => .read (.ok rfl)
  refine .bind fun _ => .bind fun m₀ => .bind fun _ => .bind fun m₁ => .bind fun _ =>
    .bind fun m₂ => ?_
  exact .read (ensures_splendorCall game _)

/-- **A Splendor room performs the operation that a message asks for.** -/
theorem ensures_splendorMessage (game : Option Splendor.Game) (messageType : String)
    (payload : Json) :
    Ensures (r.splendorMessage env game c messageType payload) fun s =>
      ∃ o, splendorRequest c.userId messageType payload = .ok o ∧ SplendorAnswer r game s.2 o := by
  have hint {key : String} {op : Int → Splendor.Op} {f : Int → Except Fault (Outbox × Room)}
      (hf : ∀ i, Ensures (f i) fun s => SplendorAnswer r game s.2 (some (op i))) :
      Follows (intRequest key op payload) (do f (← (← payload.get key).asInt))
        fun o s => SplendorAnswer r game s.2 o :=
    .bind fun _ => .bind fun i => .read (hf i)
  unfold splendorMessage splendorRequest
  refine Follows.ite (fun _ => hint fun i => ensures_splendorCall game _) fun _ => ?_
  refine .ite (fun _ => ensures_splendorTake3 game payload) fun _ => ?_
  refine .ite (fun _ => hint fun i => ensures_splendorPurchase game _) fun _ => ?_
  refine .ite (fun _ => hint fun i => ensures_splendorCall game _) fun _ => ?_
  refine .ite (fun _ => hint fun i => ensures_splendorPurchase game _) fun _ => ?_
  refine .ite (fun _ => hint fun i => ensures_splendorCall game _) fun _ => ?_
  exact .read (.ok rfl)

end Splendor

/-! ## Gomoku -/

/-- The row and the column of a `GOMOKU_DROP`. -/
def dropRequest (payload : Json) : Except Fault (Int × Int) := do
  let y ← (← payload.get "y").asInt
  let x ← (← payload.get "x").asInt
  return (y, x)

/-- **A Gomoku room drops the piece that a message asks for.** -/
theorem ensures_gomokuDrop {env : Env} {r : Room} {c : Caller} (g : Gomoku) (colors : Colors)
    (updates : Nat) (payload : Json) :
    Ensures (r.gomokuDrop env g colors updates c payload) fun s =>
      ∃ y x, dropRequest payload = .ok (y, x) ∧
        s.2 = if (g.drop y x (isBlack colors c.userId)).1 then
          { r with game := .gomoku (g.drop y x (isBlack colors c.userId)).2 colors (updates + 1) }
          else r := by
  unfold gomokuDrop dropRequest
  refine .bind' fun v hv => .bind' fun y hy => .bind' fun w hw => .bind' fun x hx => ?_
  simp only [hv, hy, hw, hx, bind, Except.bind]
  cases hdrop : g.drop y x (isBlack colors c.userId) with
  | mk accepted g' =>
    refine .ite (fun h => .ok ⟨y, x, rfl, ?_⟩) fun h => .ok ⟨y, x, rfl, ?_⟩
    · rw [hdrop]
      exact (if_pos h).symm
    · rw [hdrop]
      exact (if_neg h).symm

end Room

end UnoppServer
