import UnoppServer.Room.Frame
import UnoppServer.Room.MineRequests
import UnoppServer.Room.UnoCompletion

/-!
# Rooms: messages that are handled to the end

Each handler completes iff the members of the payload that it reads can be
converted and the state is fit for what it does: a game exists, and the
operation that is asked for has what it needs.

There is a condition for each layer and a theorem that says that the handlers of
the layer complete exactly under it: `GameMessageOk` for the messages of a game,
`JoinOk` and `BaseOk` for those of the base class, `ReceiveOk` for a room, and
`CreateOk` and `MessageOk` for the manager.
-/

namespace UnoppServer

open Assoc FindIf

/-! ## Splendor -/

namespace Splendor

/-- An operation indexes no array outside its bounds: the mines are mines, and the
coupon that is bought is not of type gold. -/
def Op.Fits (g : Game) : Op → Prop
  | .buyCoupon couponIdx player => ∀ it p, g.find player = some (it, p) → p.status = .action →
    ∀ slot c, findIf (fun c => c.hasIdx couponIdx) g.coupons = some (slot, c) →
      Game.checkAffordabillity p c = true → c.type ≠ .gold
  | .buyReservedCoupon couponIdx player =>
    ∀ it p, g.find player = some (it, p) → p.status = .action →
      ∀ slot c, findIf (fun c => c.hasIdx couponIdx) p.reservedCoupons = some (slot, c) →
        Game.checkAffordabillity p c = true → c.type ≠ .gold
  | op => op.IndexesGuarded g

/-- A call completes when it indexes no array outside its bounds. -/
theorem completes_step_iff {g : Game} (op : Op) : Completes (g.step op) ↔ op.Fits g := by
  cases op with
  | take3Mines m₀ m₁ m₂ player => exact Game.completes_take3Mines_iff m₀ m₁ m₂ player
  | take2Mines mine player => exact Game.completes_take2Mines_iff mine player
  | buyCoupon couponIdx player => exact Game.completes_buyCoupon_iff couponIdx player
  | reserveCoupon couponIdx player =>
    exact iff_of_true (Game.completes_reserveCoupon couponIdx player) trivial
  | buyReservedCoupon couponIdx player =>
    exact Game.completes_buyReservedCoupon_iff couponIdx player
  | returnMine mine player => exact Game.completes_returnMine_iff mine player

end Splendor

namespace Room

/-- Unless it is an array of three, nothing is read from the `mines` of a
`SPLENDOR_TAKE_3`. -/
def FitsThree : Json → Prop
  | .arr items => items.length = 3 → ∀ v ∈ items, v.FitsInt
  | _ => True

/-- The member that a message to a Splendor room is read from can be converted. -/
def SplendorFields (messageType : String) (payload : Json) : Prop :=
  if messageType = "SPLENDOR_TAKE_2" then payload.Member "mine" Json.FitsInt
  else if messageType = "SPLENDOR_TAKE_3" then payload.Member "mines" FitsThree
  else if messageType = "SPLENDOR_BUY_COUPON" then payload.Member "coupon_idx" Json.FitsInt
  else if messageType = "SPLENDOR_RESERVE_COUPON" then payload.Member "coupon_idx" Json.FitsInt
  else if messageType = "SPLENDOR_BUY_RESERVED_COUPON" then payload.Member "coupon_idx" Json.FitsInt
  else if messageType = "SPLENDOR_RETURN_MINE" then payload.Member "mine" Json.FitsInt
  else True

/-- A message to a Splendor room is handled to the end. -/
structure SplendorMessageOk (game : Option Splendor.Game) (userId : Int) (messageType : String)
    (payload : Json) : Prop where
  fields : SplendorFields messageType payload
  op : ∀ op, splendorRequest userId messageType payload = .ok (some op) →
    ∃ g, game = some g ∧ op.Fits g

section Splendor

variable {env : Env} {r : Room} {c : Caller}

/-- The request is read when `mines` holds three numbers. -/
theorem completes_take3Request_iff (userId : Int) (payload : Json) :
    Completes (take3Request userId payload) ↔ payload.Member "mines" FitsThree := by
  unfold take3Request
  refine completes_bind_iff.trans (exists_congr fun mines => and_congr_right fun _ => ?_)
  by_cases hsize : mines.isArray = true ∧ mines.size = 3
  · rw [if_pos hsize]
    cases mines with
    | arr items =>
      obtain ⟨v₀, v₁, v₂, rfl⟩ := List.length_eq_three.mp hsize.2
      have hread {v : Json} {α : Type} {f : Int → Except Fault α} {Q : Prop}
          (hf : ∀ i, Completes (f i) ↔ Q) : Completes (v.asInt >>= f) ↔ v.FitsInt ∧ Q :=
        completes_bind_and (Json.completes_asInt_iff v) fun i _ => hf i
      have hlast {f : Int → Option Splendor.Op} :
          Completes (v₂.asInt >>= fun m₂ => .ok (f m₂)) ↔ v₂.FitsInt :=
        (completes_bind_of fun _ _ => completes_ok _).trans (Json.completes_asInt_iff v₂)
      exact (hread fun m₀ => hread fun m₁ => hlast).trans (by simp [FitsThree])
    | _ => cases hsize.1
  · rw [if_neg hsize]
    refine iff_of_true (completes_ok _) ?_
    cases mines with
    | arr items => exact fun hlen => absurd ⟨rfl, hlen⟩ hsize
    | _ => trivial

theorem completes_intRequest_iff (key : String) (op : Int → Splendor.Op) (payload : Json) :
    Completes (intRequest key op payload) ↔ payload.Member key Json.FitsInt :=
  Json.completes_member_iff Json.completes_asInt_iff fun _ => completes_ok _

/-- The request of a message is read when the fields of its type are there. -/
theorem completes_splendorRequest_iff (userId : Int) (messageType : String) (payload : Json) :
    Completes (splendorRequest userId messageType payload) ↔
      SplendorFields messageType payload := by
  unfold splendorRequest SplendorFields
  refine completes_ite_congr (completes_intRequest_iff ..) ?_
  refine completes_ite_congr (completes_take3Request_iff userId payload) ?_
  refine completes_ite_congr (completes_intRequest_iff ..) ?_
  refine completes_ite_congr (completes_intRequest_iff ..) ?_
  refine completes_ite_congr (completes_intRequest_iff ..) ?_
  exact completes_ite_congr (completes_intRequest_iff ..) (iff_true_intro (completes_ok _))

/-- A call needs a game that it fits. -/
theorem completes_splendorCall_iff (game : Option Splendor.Game) (op : Splendor.Op) :
    Completes (r.splendorCall env game op) ↔ ∃ g, game = some g ∧ op.Fits g := by
  unfold splendorCall
  cases game with
  | none => exact iff_of_false (not_completes_error _) fun ⟨_, h, _⟩ => nomatch h
  | some g =>
    simp only [Option.some.injEq, exists_eq_left']
    exact (completes_bind_of fun _ _ => completes_ok _).trans (Splendor.completes_step_iff op)

/-- A purchase needs a game that it fits; nothing else can go wrong in its answer. -/
theorem completes_splendorPurchase_iff (game : Option Splendor.Game) (op : Splendor.Op) :
    Completes (r.splendorPurchase env game op) ↔ ∃ g, game = some g ∧ op.Fits g := by
  unfold splendorPurchase
  cases game with
  | none => exact iff_of_false (not_completes_error _) fun ⟨_, h, _⟩ => nomatch h
  | some g =>
    simp only [Option.some.injEq, exists_eq_left']
    refine (completes_bind_of fun ⟨success, g'⟩ _ => ?_).trans (Splendor.completes_step_iff op)
    refine completes_ite_iff.mpr ⟨fun _ => ?_, fun _ => completes_ok _⟩
    cases g'.checkWinner with
    | none => exact completes_ok _
    | some winner => exact completes_ok _

/-- **A message of Splendor** is handled to the end iff its members can be read, a
game exists and the operation it asks for indexes nothing outside its bounds. -/
theorem completes_splendorMessage_iff (game : Option Splendor.Game) (messageType : String)
    (payload : Json) :
    Completes (r.splendorMessage env game c messageType payload) ↔
      SplendorMessageOk game c.userId messageType payload := by
  have hint {key : String} {op : Int → Splendor.Op} {f : Int → Except Fault (Outbox × Room)}
      (hf : ∀ i, Completes (f i) ↔ ∃ g, game = some g ∧ (op i).Fits g) :
      Serves (intRequest key op payload) (do f (← (← payload.get key).asInt))
        fun op => ∃ g, game = some g ∧ op.Fits g :=
    .bind fun _ => .bind fun i => .read (hf i)
  have hserves : Serves (splendorRequest c.userId messageType payload)
      (r.splendorMessage env game c messageType payload)
      fun op => ∃ g, game = some g ∧ op.Fits g := by
    unfold splendorMessage splendorRequest
    refine .ite (fun _ => hint fun i => completes_splendorCall_iff game _) fun _ => ?_
    refine .ite (fun _ => ?_) fun _ => ?_
    · refine .bind fun mines => .ite (fun _ => ?_) fun _ => .nothing
      refine .bind fun _ => .bind fun m₀ => .bind fun _ => .bind fun m₁ => .bind fun _ =>
        .bind fun m₂ => ?_
      exact .read (completes_splendorCall_iff game _)
    refine .ite (fun _ => hint fun i => completes_splendorPurchase_iff game _) fun _ => ?_
    refine .ite (fun _ => hint fun i => completes_splendorCall_iff game _) fun _ => ?_
    refine .ite (fun _ => hint fun i => completes_splendorPurchase_iff game _) fun _ => ?_
    exact .ite (fun _ => hint fun i => completes_splendorCall_iff game _) fun _ => .nothing
  refine hserves.trans ⟨fun ⟨hreq, hq⟩ => ⟨?_, hq⟩, fun h => ⟨?_, h.op⟩⟩
  · exact (completes_splendorRequest_iff ..).mp hreq
  · exact (completes_splendorRequest_iff ..).mpr h.fields

end Splendor

/-! ## The messages of a game -/

/-- A message that the derived class handles itself is handled to the end. -/
def GameMessageOk (r : Room) (c : Caller) (messageType : String) (payload : Json) : Prop :=
  match r.game with
  | .uno unoGame => r.UnoMessageOk unoGame c.userId messageType payload
  | .splendor game => SplendorMessageOk game c.userId messageType payload
  | .gomoku .. => payload.Member "y" Json.FitsInt ∧ payload.Member "x" Json.FitsInt

/-- The state of the game can be sent. -/
def StateOk (r : Room) : Prop :=
  match r.game with
  | .uno unoGame => ∃ u, unoGame = some u ∧ r.AllSeated u ∧ 0 < u.deckSize
  | .splendor game => game ≠ none
  | .gomoku .. => True

section Base

variable {env : Env} {r : Room} {c : Caller}

theorem completes_gomokuDrop_iff (g : Gomoku) (colors : Colors) (updates : Nat) (payload : Json) :
    Completes (r.gomokuDrop env g colors updates c payload) ↔
      payload.Member "y" Json.FitsInt ∧ payload.Member "x" Json.FitsInt :=
  Json.completes_member_and Json.completes_asInt_iff fun _ =>
    Json.completes_member_iff Json.completes_asInt_iff fun _ =>
      completes_ite_iff.mpr ⟨fun _ => completes_ok _, fun _ => completes_ok _⟩

/-- When each message of a game is handled to the end. -/
theorem completes_gameMessage_iff (messageType : String) (payload : Json) :
    Completes (r.gameMessage env c messageType payload) ↔
      r.GameMessageOk c messageType payload := by
  unfold gameMessage GameMessageOk
  cases r.game with
  | uno unoGame => exact completes_unoMessage_iff unoGame messageType payload
  | splendor game => exact completes_splendorMessage_iff game messageType payload
  | gomoku g colors updates => exact completes_gomokuDrop_iff g colors updates payload

/-- When the state of a running game can be sent. -/
theorem completes_sendState_iff : Completes (r.sendState env) ↔ r.StateOk := by
  unfold sendState StateOk
  cases r.game with
  | uno unoGame =>
    exact completes_onUno_iff.trans
      (exists_congr fun u => and_congr_right fun _ => completes_sendUno_iff)
  | splendor game =>
    cases game with
    | none => exact iff_of_false (not_completes_error _) fun h => h rfl
    | some g => exact iff_of_true (completes_ok _) (Option.some_ne_none g)
  | gomoku g colors updates => exact iff_of_true (completes_ok _) trivial

/-- The start of a game always completes. -/
theorem completes_onEveryonePrepared : Completes (r.onEveryonePrepared env) := by
  unfold onEveryonePrepared
  cases r.game with
  | uno unoGame => exact completes_startUno
  | splendor game => exact completes_ok _
  | gomoku g colors updates => exact completes_ok _

/-! ## Joining -/

/-- A `JOIN_ROOM` fails before its payload is read: the caller is not a member of
the running game, or is in a room already. -/
def TurnsAway (env : Env) (userRooms : UserRooms) (r : Room) (c : Caller) : Prop :=
  r.oldConnId env c.userName = none ∧ (r.isGameOn = true ∨ (userRooms c.userId).isSome = true)

/-- The caller of a `JOIN_ROOM` has been in the room before or knows the password. -/
def Authorizes (r : Room) (c : Caller) (payload : Json) : Prop :=
  (payload.Reads "no_password" Json.asBool true ∧ c.userId ∈ r.authorizedUserId) ∨
  (payload.Reads "no_password" Json.asBool false ∧
    payload.Reads "password" Json.asString r.password)

/-- A `JOIN_ROOM` is handled to the end, and so is the sending of the state after
it: the caller may have been in the room already, or may have just been admitted. -/
structure JoinOk (env : Env) (userRooms : UserRooms) (r : Room) (c : Caller) (payload : Json) :
    Prop where
  noPassword : ¬ r.TurnsAway env userRooms c → payload.Member "no_password" Json.FitsBool
  password : ¬ r.TurnsAway env userRooms c → payload.Reads "no_password" Json.asBool false →
    payload.Member "password" Json.FitsString
  refused : r.TurnsAway env userRooms c ∨ ¬ r.Authorizes c payload → r.isGameOn = true →
    (r.connections.lookup c.connId).isSome = true → r.StateOk
  admitted : ¬ r.TurnsAway env userRooms c → r.Authorizes c payload → r.isGameOn = true →
    (r.enter c (r.oldConnId env c.userName)).StateOk

theorem not_turnsAway_iff {userRooms : UserRooms} : ¬ r.TurnsAway env userRooms c ↔
    ¬ (r.isGameOn = true ∧ r.oldConnId env c.userName = none) ∧
    ¬ ((userRooms c.userId).isSome = true ∧ r.oldConnId env c.userName = none) := by
  unfold TurnsAway
  tauto

/-- The password is read unless the payload says that there is none. -/
theorem completes_passwordIncorrect_iff (noPassword : Bool) (payload : Json) :
    Completes (r.passwordIncorrect noPassword payload) ↔
      (noPassword = false → payload.Member "password" Json.FitsString) := by
  unfold passwordIncorrect
  cases noPassword with
  | true => exact iff_of_true (completes_ok _) fun h => nomatch h
  | false =>
    rw [imp_iff_right rfl]
    exact Json.completes_member_iff Json.completes_asString_iff fun _ => completes_ok _

/-- The password is right when it is that of the room, or not asked for. -/
theorem ensures_passwordIncorrect (noPassword : Bool) (payload : Json) :
    Ensures (r.passwordIncorrect noPassword payload) fun incorrect =>
      incorrect = false ↔
        noPassword = true ∨ payload.Reads "password" Json.asString r.password := by
  unfold passwordIncorrect
  cases noPassword with
  | true => exact .ok (iff_of_true rfl (.inl rfl))
  | false =>
    refine .bind' fun v hv => .bind' fun password hpassword => .ok ?_
    have hreads : payload.Reads "password" Json.asString password := ⟨v, hv, hpassword⟩
    rw [or_iff_right Bool.false_ne_true, decide_eq_false_iff_not, not_not]
    exact ⟨fun h => h ▸ hreads, hreads.unique⟩

/-- The two checks that follow the reading pass iff the caller is authorized. -/
theorem authorizes_iff {payload : Json} {noPassword incorrect : Bool}
    (hread : payload.Reads "no_password" Json.asBool noPassword)
    (hincorrect : r.passwordIncorrect noPassword payload = .ok incorrect) :
    r.Authorizes c payload ↔
      incorrect = false ∧ ¬ (noPassword = true ∧ c.userId ∉ r.authorizedUserId) := by
  have hcorrect : incorrect = false ↔ _ := ensures_passwordIncorrect noPassword payload _ hincorrect
  rw [hcorrect, Authorizes]
  have hreads (b : Bool) : payload.Reads "no_password" Json.asBool b ↔ noPassword = b :=
    ⟨hread.unique, fun h => h ▸ hread⟩
  rw [hreads, hreads]
  cases noPassword <;> simp

/-- A `JOIN_ROOM` that is not turned away reads its fields. -/
theorem completes_joinRoom_iff (userRooms : UserRooms) (payload : Json) :
    Completes (r.joinRoom env userRooms c payload) ↔ (¬ r.TurnsAway env userRooms c →
      payload.Member "no_password" Json.FitsBool ∧
      (payload.Reads "no_password" Json.asBool false →
        payload.Member "password" Json.FitsString)) := by
  rw [not_turnsAway_iff, and_imp]
  refine completes_check_iff.trans (imp_congr_right fun _ => ?_)
  refine completes_check_iff.trans (imp_congr_right fun _ => ?_)
  refine (Json.completes_member_forall Json.completes_asBool_iff fun noPassword =>
    (completes_bind_of fun incorrect _ => ?_).trans
      (completes_passwordIncorrect_iff noPassword payload)).trans ?_
  · exact completes_check_iff.mpr fun _ => completes_check_iff.mpr fun _ => completes_ok _
  · exact and_congr_right fun _ =>
      ⟨fun h hread => h false hread rfl, fun h b hread hfalse => h (hfalse ▸ hread)⟩

/-- The room after a `JOIN_ROOM`. -/
theorem ensures_joinRoom_room (userRooms : UserRooms) (payload : Json) :
    Ensures (r.joinRoom env userRooms c payload) fun s =>
      (r.TurnsAway env userRooms c ∨ ¬ r.Authorizes c payload) ∧ s.2.2 = r ∨
      (¬ r.TurnsAway env userRooms c ∧ r.Authorizes c payload) ∧
        s.2.2 = r.enter c (r.oldConnId env c.userName) := by
  unfold joinRoom
  refine .ite (fun h => .ok (.inl ⟨.inl ⟨h.2, .inl h.1⟩, rfl⟩)) fun hgame => ?_
  refine .ite (fun h => .ok (.inl ⟨.inl ⟨h.2, .inr h.1⟩, rfl⟩)) fun hfree => ?_
  refine .bind' fun v hv => .bind' fun noPassword hread => .bind' fun incorrect hincorrect => ?_
  have hauth := authorizes_iff (c := c) ⟨v, hv, hread⟩ hincorrect
  refine .ite (fun h => .ok (.inl ⟨.inr ?_, rfl⟩)) fun hcorrect => ?_
  · intro ha
    exact absurd (h.symm.trans (hauth.mp ha).1) Bool.noConfusion
  refine .ite (fun h => .ok (.inl ⟨.inr fun ha => (hauth.mp ha).2 h, rfl⟩)) fun hknown => ?_
  refine .ok (.inr ⟨⟨not_turnsAway_iff.mpr ⟨hgame, hfree⟩, hauth.mpr ⟨?_, hknown⟩⟩, rfl⟩)
  exact Bool.eq_false_of_not_eq_true hcorrect

/-! ## The other messages of the base class -/

/-- A chat message needs a `message` that can take the members that are added. -/
theorem completes_chatMessage_iff (env : Env) (payload : Json) :
    Completes (r.chatMessage env c payload) ↔ payload.Member "message" Json.TakesMembers := by
  unfold chatMessage
  refine completes_bind_iff.trans (exists_congr fun v => and_congr_right fun hv => ?_)
  have hpayload := (Json.completes_get_iff payload "message").mp ⟨v, hv⟩
  rw [← Json.completes_set_iff v "user_name" (.str c.userName)]
  refine completes_bind_of fun message hmessage => ?_
  refine Json.completes_set_bind (Json.takesMembers_of_set hmessage) fun message _ => ?_
  refine Json.completes_set_bind hpayload fun res hres => ?_
  exact Json.completes_set_bind hres fun _ _ => completes_ok _

theorem completes_gamePrepare_iff (connId : Nat) (info : UserInfo) (payload : Json) :
    Completes (r.gamePrepare env (onEveryonePrepared env) connId info payload) ↔
      payload.Member "prepare" Json.FitsBool := by
  refine Json.completes_member_iff Json.completes_asBool_iff fun prepared => ?_
  refine completes_ite_iff.mpr ⟨fun _ => ?_, fun _ => completes_ok _⟩
  exact (completes_bind_of fun _ _ => completes_ok _).mpr completes_onEveryonePrepared

/-- A message to the base class is handled to the end. -/
structure BaseOk (env : Env) (userRooms : UserRooms) (r : Room) (c : Caller)
    (messageType : String) (payload : Json) : Prop where
  join : messageType = "JOIN_ROOM" → r.JoinOk env userRooms c payload
  chat : messageType = "CHAT_MESSAGE" → (r.connections.lookup c.connId).isSome = true →
    payload.Member "message" Json.TakesMembers
  prepare : messageType = "GAME_PREPARE" → (r.connections.lookup c.connId).isSome = true →
    payload.Member "prepare" Json.FitsBool

/-- The end of `process_message`, when it has left the room `r`. -/
theorem completes_sendsState_iff {messageType : String} {α : Type} {f : Outbox → α} {a : α} :
    Completes (if r.sendsState c messageType then (do return f (← r.sendState env)) else .ok a) ↔
      (messageType = "JOIN_ROOM" → r.isGameOn = true →
        (r.connections.lookup c.connId).isSome = true → r.StateOk) := by
  refine completes_ite_iff.trans ((and_iff_left fun _ => completes_ok _).trans ?_)
  refine (imp_congr_right fun _ => (completes_bind_of fun _ _ => completes_ok _).trans
    completes_sendState_iff).trans ?_
  simp only [sendsState, Bool.and_eq_true, beq_iff_eq, and_imp]

/-- A message other than `JOIN_ROOM`. -/
theorem completes_processMessage_iff {userRooms : UserRooms} {messageType : String}
    (hjoin : messageType ≠ "JOIN_ROOM") (payload : Json) :
    Completes (r.processMessage env (onEveryonePrepared env) userRooms c messageType payload) ↔
      r.BaseOk env userRooms c messageType payload := by
  unfold processMessage
  rw [if_neg hjoin]
  cases hinfo : r.connections.lookup c.connId with
  | none =>
    refine iff_of_true (completes_ok _) ⟨fun h => absurd h hjoin, fun _ h => ?_, fun _ h => ?_⟩
    · rw [hinfo] at h
      cases h
    · rw [hinfo] at h
      cases h
  | some info =>
    have hsome : (r.connections.lookup c.connId).isSome = true := by rw [hinfo]; rfl
    have hok : r.BaseOk env userRooms c messageType payload ↔
        (messageType = "CHAT_MESSAGE" → payload.Member "message" Json.TakesMembers) ∧
        (messageType = "GAME_PREPARE" → payload.Member "prepare" Json.FitsBool) :=
      ⟨fun h => ⟨fun ht => h.chat ht hsome, fun ht => h.prepare ht hsome⟩,
        fun h => ⟨fun ht => absurd ht hjoin, fun ht _ => h.1 ht, fun ht _ => h.2 ht⟩⟩
    rw [hok]
    by_cases hchat : messageType = "CHAT_MESSAGE"
    · have hprepare : messageType ≠ "GAME_PREPARE" := by rw [hchat]; decide
      simp only [if_pos hchat, imp_iff_right hchat]
      rw [and_iff_left fun h => absurd h hprepare, ← completes_chatMessage_iff env]
      exact completes_bind_of fun _ _ => completes_ok _
    · simp only [if_neg hchat]
      rw [and_iff_right fun h => absurd h hchat]
      by_cases hprepare : messageType = "GAME_PREPARE"
      · simp only [if_pos hprepare, imp_iff_right hprepare]
        rw [← completes_gamePrepare_iff c.connId info payload]
        exact completes_bind_of fun _ _ => completes_ok _
      · simp only [if_neg hprepare]
        exact iff_of_true (completes_ok _) fun h => absurd h hprepare

/-- A `JOIN_ROOM`, with the state of the game after it. -/
theorem completes_join_iff {userRooms : UserRooms} (payload : Json) {α : Type}
    {f : Outbox × UserRooms × Room → Outbox → α} {g : Outbox × UserRooms × Room → α} :
    Completes (do
      let s ← r.joinRoom env userRooms c payload
      if s.2.2.sendsState c "JOIN_ROOM" then (do return f s (← s.2.2.sendState env))
      else .ok (g s)) ↔ r.JoinOk env userRooms c payload := by
  rw [completes_bind_forall, completes_joinRoom_iff]
  simp only [completes_sendsState_iff, imp_iff_right]
  constructor
  · rintro ⟨hfields, hstate⟩
    obtain ⟨s, hs⟩ := completes_joinRoom_iff userRooms payload |>.mpr hfields
    have hroom := ensures_joinRoom_room userRooms payload s hs
    refine ⟨fun h => (hfields h).1, fun h => (hfields h).2, fun hno => ?_, fun hturn hauth => ?_⟩
    · obtain ⟨-, h⟩ | ⟨h, -⟩ := hroom
      · exact h ▸ hstate s hs
      · exact absurd hno (by tauto)
    · obtain ⟨h, -⟩ | ⟨-, h⟩ := hroom
      · exact absurd h (by tauto)
      · intro hgame
        refine h ▸ hstate s hs (h ▸ hgame) ?_
        rw [h, lookup_enter, if_pos rfl]
        rfl
  · intro h
    refine ⟨fun hturn => ⟨h.noPassword hturn, h.password hturn⟩, fun s hs => ?_⟩
    obtain ⟨hno, hr⟩ | ⟨hyes, hr⟩ := ensures_joinRoom_room userRooms payload s hs
    · rw [hr]
      exact h.refused hno
    · rw [hr]
      intro hgame _
      exact h.admitted hyes.1 hyes.2 hgame

/-- A message to a room is handled to the end. -/
def ReceiveOk (env : Env) (userRooms : UserRooms) (r : Room) (c : Caller) (messageType : String)
    (payload : Json) : Prop :=
  if r.isGameMessage messageType = true then r.GameMessageOk c messageType payload
  else r.BaseOk env userRooms c messageType payload

/-- **A message to a room** is handled to the end iff `ReceiveOk` holds. -/
theorem completes_receive_iff (userRooms : UserRooms) (messageType : String) (payload : Json) :
    Completes (r.receive env userRooms c messageType payload) ↔
      r.ReceiveOk env userRooms c messageType payload := by
  refine completes_ite_congr ?_ ?_
  · exact (completes_bind_of fun _ _ => completes_ok _).trans
      (completes_gameMessage_iff messageType payload)
  by_cases hjoin : messageType = "JOIN_ROOM"
  · subst hjoin
    have hok : r.BaseOk env userRooms c "JOIN_ROOM" payload ↔
        r.JoinOk env userRooms c payload :=
      ⟨fun h => h.join rfl, fun h => ⟨fun _ => h, (fun ht => nomatch ht), (fun ht => nomatch ht)⟩⟩
    rw [hok]
    exact completes_join_iff payload
  · rw [← completes_processMessage_iff hjoin payload]
    exact completes_bind_of fun s _ =>
      completes_sendsState_iff.mpr fun h => absurd h hjoin

end Base

end Room

/-! ## The manager -/

namespace Manager

variable {env : Env} {m : Manager} {c : Caller}

/-- The name and the password of a new room can be read, if the room is created:
the id is free and the type is known. -/
def NewRoomOk (m : Manager) (payload : Json) (roomId : Nat) (roomType : String) : Prop :=
  m.rooms.lookup roomId = none → newSlot roomType ≠ none →
    payload.Member "room_name" Json.FitsString ∧ payload.Member "password" Json.FitsString

/-- A `CREATE_ROOM` is handled to the end. -/
structure CreateOk (m : Manager) (payload : Json) : Prop where
  roomId : payload.Member "room_id" Json.FitsUInt
  roomType : payload.Member "room_type" Json.FitsString
  newRoom : ∀ roomId, payload.Reads "room_id" Json.asUInt roomId →
    ∀ roomType, payload.Reads "room_type" Json.asString roomType →
      m.NewRoomOk payload roomId roomType

/-- A message to the manager is handled to the end. -/
structure MessageOk (env : Env) (m : Manager) (c : Caller) (messageType : String)
    (payload : Json) : Prop where
  create : messageType = "CREATE_ROOM" → m.CreateOk payload
  roomId : messageType = "JOIN_ROOM" → payload.Member "room_id" Json.FitsUInt
  receive : messageType ≠ "CREATE_ROOM" → messageType ≠ "GET_ROOM_LIST" →
    ∀ roomId r, m.target c messageType payload = .ok roomId → m.rooms.lookup roomId = some r →
      r.ReceiveOk env m.userRooms c messageType payload

/-- When a `CREATE_ROOM` is handled to the end. -/
theorem completes_createRoom_iff (payload : Json) :
    Completes (m.createRoom c payload) ↔ m.CreateOk payload := by
  refine (Json.completes_member_forall Json.completes_asUInt_iff fun roomId =>
    Json.completes_member_forall (Q := m.NewRoomOk payload roomId) Json.completes_asString_iff
      fun roomType => ?_).trans ?_
  · refine completes_check_iff.trans (imp_congr Option.not_isSome_iff_eq_none ?_)
    cases newSlot roomType with
    | none => exact iff_of_true (completes_ok _) fun h => absurd rfl h
    | some slot =>
      rw [imp_iff_right (Option.some_ne_none slot)]
      exact Json.completes_member_and Json.completes_asString_iff fun _ =>
        Json.completes_member_iff Json.completes_asString_iff fun _ => completes_ok _
  · constructor
    · rintro ⟨hid, h⟩
      obtain ⟨roomId, hroomId⟩ := hid.reads Json.completes_asUInt_iff
      exact ⟨hid, (h roomId hroomId).1, fun roomId hid => (h roomId hid).2⟩
    · intro h
      exact ⟨h.roomId, fun roomId hid => ⟨h.roomType, h.newRoom roomId hid⟩⟩

theorem completes_target_iff (messageType : String) (payload : Json) :
    Completes (m.target c messageType payload) ↔
      (messageType = "JOIN_ROOM" → payload.Member "room_id" Json.FitsUInt) := by
  refine completes_ite_iff.trans ((and_iff_left fun _ => completes_ok _).trans ?_)
  refine imp_congr_right fun _ => ?_
  exact Json.completes_member_conv_iff Json.completes_asUInt_iff

/-- A message to a room is handled when the room, if there is one, handles it. -/
theorem completes_deliver_iff (roomId : Nat) (messageType : String) (payload : Json) :
    Completes (m.deliver env roomId c messageType payload) ↔
      ∀ r, m.rooms.lookup roomId = some r → r.ReceiveOk env m.userRooms c messageType payload := by
  unfold deliver
  cases hroom : m.rooms.lookup roomId with
  | none => exact iff_of_true (completes_ok _) fun _ h => nomatch h
  | some r =>
    refine (completes_bind_of fun _ _ => completes_ok _).trans ?_
    rw [Room.completes_receive_iff]
    simp only [Option.some.injEq, forall_eq']

/-- **A message to the manager** is handled to the end iff `MessageOk` holds. -/
theorem completes_processMessage_iff (messageType : String) (payload : Json) :
    Completes (m.processMessage env c messageType payload) ↔
      m.MessageOk env c messageType payload := by
  unfold processMessage
  by_cases hcreate : messageType = "CREATE_ROOM"
  · rw [if_pos hcreate, completes_createRoom_iff]
    constructor
    · intro h
      refine ⟨fun _ => h, fun hj => ?_, fun hne => absurd hcreate hne⟩
      exact absurd (hcreate.symm.trans hj) (by decide)
    · intro h
      exact h.create hcreate
  rw [if_neg hcreate]
  by_cases hlist : messageType = "GET_ROOM_LIST"
  · rw [if_pos hlist]
    refine iff_of_true (completes_ok _) ⟨fun h => absurd h hcreate, fun hj => ?_,
      fun _ hne => absurd hlist hne⟩
    exact absurd (hlist.symm.trans hj) (by decide)
  rw [if_neg hlist, completes_bind_forall, completes_target_iff]
  simp only [completes_deliver_iff]
  constructor
  · intro h
    exact ⟨fun ht => absurd ht hcreate, h.1, fun _ _ roomId r ht => h.2 roomId ht r⟩
  · intro h
    exact ⟨h.roomId, fun roomId ht r => h.receive hcreate hlist roomId r ht⟩

end Manager

end UnoppServer
