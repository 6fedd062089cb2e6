import UnoppServer.Room.Frame
import UnoppServer.Uno.Deal

/-!
# Rooms: what the messages announce

The start of a game is announced to everybody in the room, and so is its end.
`announces types out` says that somebody is sent a message of one of the types.

- `Uno.Op.Ends`, `Splendor.Op.Ends`: the operations after which the room finds a
  winner;
- `Room.Outcome`: what a message of a game does to `is_game_on`, and what it
  announces;
- `Room.AdmitsNumber`: a game can start with the members there are.
-/

namespace UnoppServer

open Assoc FindIf

/-- The `message_type` of a message. -/
def Json.messageType : Json → Option String
  | .obj members =>
    match members.lookup "message_type" with
    | some (.str t) => some t
    | _ => none
  | _ => none

/-- Somebody is sent a message of one of the types. -/
def announces (types : List String) (out : Outbox) : Bool :=
  out.any fun p => p.2.messageType.any fun t => types.contains t

/-- The messages that announce the start of a game. -/
def startTypes : List String := ["UNO_START", "SPLENDOR_START", "GOMOKU_START"]

/-- The messages that announce the end of a game. -/
def overTypes : List String := ["UNO_GAMEOVER", "SPLENDOR_GAME_OVER", "GOMOKU_GAME_OVER"]

@[simp] theorem Json.messageType_upsert (members : List (String × Json)) (t : String) :
    (Json.obj (Json.upsert members "message_type" (.str t))).messageType = some t := by
  simp only [Json.messageType, Json.lookup_upsert]

@[simp] theorem Json.messageType_cons (t : String) (members : List (String × Json)) :
    (Json.obj (("message_type", .str t) :: members)).messageType = some t := by
  simp [Json.messageType]

section Announces

variable {types : List String}

@[simp] theorem announces_nil : announces types [] = false := rfl

@[simp] theorem announces_append (out out' : Outbox) :
    announces types (out ++ out') = (announces types out || announces types out') :=
  List.any_append

@[simp] theorem announces_singleton (k : Nat) (v : Json) :
    announces types [(k, v)] = v.messageType.any fun t => types.contains t := by
  simp [announces]

/-- A message that goes to everybody in a list. -/
theorem announces_map {α : Type} {l : List α} {f : α → Nat × Json} {t : String}
    (hf : ∀ a, (f a).2.messageType = some t) :
    announces types (l.map f) = (types.contains t && !l.isEmpty) := by
  induction l with
  | nil => simp
  | cons a l ih =>
    show ((f a).2.messageType.any (fun t => types.contains t) || announces types (l.map f)) = _
    rw [hf, ih]
    show (types.contains t || (types.contains t && !l.isEmpty)) = (types.contains t && true)
    cases types.contains t <;> rfl

end Announces

namespace Room

/-- Nobody has a connection in the room. -/
def isEmpty (r : Room) : Bool := r.connections.entries.isEmpty

/-- Nothing about the start or the end of a game. -/
def Plain (out : Outbox) : Prop :=
  announces startTypes out = false ∧ announces overTypes out = false

section Plain

variable {env : Env} {r : Room}

theorem isEmpty_members (env : Env) : (r.members env).isEmpty = r.isEmpty := by
  have hlen : (r.members env).length = r.connections.entries.length := length_ranked ..
  rw [isEmpty, Bool.eq_iff_iff, List.isEmpty_iff_length_eq_zero, List.isEmpty_iff_length_eq_zero,
    hlen]

@[simp] theorem announces_broadcast {types : List String} (payload : List (String × Json))
    (t : String) :
    announces types (r.broadcast env payload t) = (types.contains t && !r.isEmpty) := by
  rw [← isEmpty_members env]
  exact announces_map fun _ => Json.messageType_upsert payload t

theorem plain_nil : Plain [] := ⟨rfl, rfl⟩

theorem Plain.append {out out' : Outbox} (h : Plain out) (h' : Plain out') :
    Plain (out ++ out') := by
  rw [Plain, announces_append, announces_append, h.1, h.2, h'.1, h'.2]
  exact ⟨rfl, rfl⟩

/-- Any other message. -/
theorem plain_broadcast {t : String} (ht : t ∉ startTypes ++ overTypes)
    (payload : List (String × Json)) : Plain (r.broadcast env payload t) := by
  rw [List.mem_append, not_or, ← List.contains_iff_mem, ← List.contains_iff_mem,
    Bool.not_eq_true, Bool.not_eq_true] at ht
  rw [Plain, announces_broadcast, announces_broadcast, ht.1, ht.2]
  exact ⟨rfl, rfl⟩

theorem plain_map {α : Type} {l : List α} {f : α → Nat × Json} {t : String}
    (ht : t ∉ startTypes ++ overTypes) (hf : ∀ a, (f a).2.messageType = some t) :
    Plain (l.map f) := by
  rw [List.mem_append, not_or, ← List.contains_iff_mem, ← List.contains_iff_mem,
    Bool.not_eq_true, Bool.not_eq_true] at ht
  rw [Plain, announces_map hf, announces_map hf, ht.1, ht.2]
  exact ⟨rfl, rfl⟩

theorem plain_singleton {k : Nat} {t : String} {members : List (String × Json)}
    (ht : t ∉ startTypes ++ overTypes) : Plain [(k, .obj (("message_type", .str t) :: members))] :=
  plain_map (l := [()]) (f := fun _ => (k, .obj (("message_type", .str t) :: members))) ht
    fun _ => Json.messageType_cons t members

theorem plain_membersInfo : Plain (r.broadcastMembersInfo env) :=
  plain_broadcast (by decide) _

end Plain

/-! ## The base class -/

section Base

variable {env : Env} {r : Room} {c : Caller}

theorem plain_joinFailed (info : String) : Plain (joinFailed c info) :=
  plain_singleton (by decide)

theorem plain_joinSucceeded (r' : Room) (old : Option Nat) :
    Plain (joinSucceeded env r r' c old) := by
  refine .append (.append ?_ (plain_singleton (by decide))) plain_membersInfo
  split
  · exact plain_broadcast (by decide) _
  · exact plain_nil

/-- A `JOIN_ROOM` announces nothing about the game. -/
theorem ensures_joinRoom_plain (userRooms : UserRooms) (payload : Json) :
    Ensures (r.joinRoom env userRooms c payload) fun s => Plain s.1 := by
  unfold joinRoom
  refine .ite (fun _ => .ok (plain_joinFailed _)) fun _ => ?_
  refine .ite (fun _ => .ok (plain_joinFailed _)) fun _ => ?_
  refine .bind' fun _ _ => .bind' fun _ _ => .bind' fun _ _ => ?_
  refine .ite (fun _ => .ok (plain_joinFailed _)) fun _ => ?_
  exact .ite (fun _ => .ok (plain_joinFailed _)) fun _ => .ok (plain_joinSucceeded _ _)

/-- The type that is set is the type that is read. -/
theorem Json.messageType_set {v v' : Json} {t : String}
    (h : v.set "message_type" (.str t) = .ok v') : v'.messageType = some t := by
  cases v with
  | null =>
    obtain rfl := Except.ok.inj h
    exact Json.messageType_cons t []
  | obj members =>
    obtain rfl := Except.ok.inj h
    exact Json.messageType_upsert members t
  | _ => cases h

/-- A chat message is passed on as one, whatever type the client has given it. -/
theorem ensures_chatMessage_plain (payload : Json) :
    Ensures (r.chatMessage env c payload) Plain := by
  unfold chatMessage
  refine .bind' fun _ _ => .bind' fun _ _ => .bind' fun _ _ => .bind' fun _ _ => ?_
  refine .bind' fun res hres => .ok ?_
  exact plain_map (by decide) fun _ => Json.messageType_set hres

/-- A closed connection announces nothing about the game. -/
theorem plain_processClose (userRooms : UserRooms) (connId : Nat) :
    Plain (r.processClose env userRooms connId).1 := by
  unfold processClose
  split
  · exact plain_membersInfo
  · split
    · exact plain_membersInfo
    · exact .append (plain_broadcast (by decide) _) plain_membersInfo

end Base

/-! ## The games -/

end Room

/-- The game is over after the operation: a `play`, accepted or not, after which a
player has no cards. -/
def Uno.Op.Ends (u : Uno) : Uno.Op → Prop
  | .play playerId card specifiedColor =>
    ∃ b u', u.step (.play playerId card specifiedColor) = .ok (b, u') ∧ u'.checkWinner ≠ none
  | _ => False

/-- The game is over after the operation: a purchase after which `check_winner`
finds a winner. -/
def Splendor.Op.Ends (g : Splendor.Game) : Splendor.Op → Prop
  | .buyCoupon couponIdx player =>
    ∃ g', g.step (.buyCoupon couponIdx player) = .ok (true, g') ∧ g'.checkWinner ≠ none
  | .buyReservedCoupon couponIdx player =>
    ∃ g', g.step (.buyReservedCoupon couponIdx player) = .ok (true, g') ∧ g'.checkWinner ≠ none
  | _ => False

namespace Room

/-- A message of a game announces no start. If it ends the game, it says so to
everybody and clears `is_game_on`, else it does neither. -/
structure Outcome (r : Room) (ends : Prop) (s : Outbox × Room) : Prop where
  start : announces startTypes s.1 = false
  isOver : ends → s.2.isGameOn = false ∧ announces overTypes s.1 = !r.isEmpty
  goesOn : ¬ ends → s.2.isGameOn = r.isGameOn ∧ announces overTypes s.1 = false

theorem Outcome.of_plain {r : Room} {s : Outbox × Room} (hs : Plain s.1)
    (hon : s.2.isGameOn = r.isGameOn) : Outcome r False s :=
  ⟨hs.1, False.elim, fun _ => ⟨hon, hs.2⟩⟩

theorem Outcome.congr {r : Room} {ends ends' : Prop} {s : Outbox × Room} (h : Outcome r ends s)
    (hends : ends ↔ ends') : Outcome r ends' s :=
  ⟨h.start, fun h' => h.isOver (hends.mpr h'), fun h' => h.goesOn fun he => h' (hends.mp he)⟩

/-- Messages that announce nothing come before. -/
theorem Outcome.append {r r' : Room} {ends : Prop} {out : Outbox} {s : Outbox × Room}
    (h : Outcome r ends s) (hout : Plain out) (hon : r'.isGameOn = r.isGameOn)
    (hempty : r'.isEmpty = r.isEmpty) : Outcome r' ends (out ++ s.1, s.2) := by
  refine ⟨?_, fun he => ?_, fun he => ?_⟩
  · rw [announces_append, hout.1, h.start]
    rfl
  · rw [announces_append, hout.2, (h.isOver he).2, hempty]
    exact ⟨(h.isOver he).1, rfl⟩
  · rw [announces_append, hout.2, (h.goesOn he).2, hon]
    exact ⟨(h.goesOn he).1, rfl⟩

section Uno

variable {env : Env} {r : Room} {u : Uno} {c : Caller}

theorem ensures_sendCardsTo_plain (l : List (Nat × UserInfo)) :
    Ensures (sendCardsTo u l) Plain := by
  induction l with
  | nil => exact .ok plain_nil
  | cons p rest ih =>
    refine .bind' fun cards _ => ih.bind fun out hout => .ok ?_
    exact (plain_singleton (k := p.1) (by decide)).append hout

theorem ensures_sendUnoInfo_plain : Ensures (r.sendUnoInfo env u) Plain := by
  unfold sendUnoInfo
  exact .bind' fun _ _ => .ok (plain_broadcast (by decide) _)

theorem ensures_sendCardsInHand_plain : Ensures (r.sendCardsInHand env u) Plain :=
  ensures_sendCardsTo_plain _

theorem ensures_sendUno_plain : Ensures (r.sendUno env u) Plain := by
  unfold sendUno
  refine ensures_sendCardsInHand_plain.bind fun cards hcards => ?_
  exact ensures_sendUnoInfo_plain.bind fun info hinfo => .ok (hcards.append hinfo)

theorem plain_unoBroadcast (userName type : String) (rest : List (String × Json)) :
    Plain (r.unoBroadcast env userName type rest) := plain_broadcast (by decide) _

/-- The answer to a play, and what it shows the others, announces nothing. -/
theorem ensures_playAnswer_plain (userName : String) (cardHash : Int) (success punish : Bool) :
    Ensures (r.playAnswer env u userName cardHash success punish) Plain := by
  unfold playAnswer
  refine .ite (fun _ => ?_) fun _ => .ok plain_nil
  unfold playSucceeded
  refine ensures_sendUno_plain.bind fun state hstate => .ok ?_
  refine .append (.append (.append hstate ?_) ?_) (plain_broadcast (by decide) _)
  · split
    · exact plain_unoBroadcast ..
    · exact plain_nil
  · split
    · exact plain_unoBroadcast ..
    · exact plain_nil

/-- `check_uno_over` ends the game when there is a winner. -/
theorem ensures_checkUnoOver_outcome :
    Ensures (r.checkUnoOver env u) (Outcome r (u.checkWinner ≠ none)) := by
  unfold checkUnoOver
  cases u.checkWinner with
  | none => exact .ok ⟨rfl, fun h => absurd rfl h, fun _ => ⟨rfl, rfl⟩⟩
  | some winner =>
    refine .bind' fun result _ => .ok ⟨?_, fun _ => ⟨rfl, ?_⟩, fun h => ?_⟩
    · rw [announces_append, announces_broadcast, plain_membersInfo.1]
      rfl
    · rw [announces_append, announces_broadcast, plain_membersInfo.2]
      exact Bool.or_false _
    · exact absurd (Option.some_ne_none winner) h

/-- A play ends the game when it leaves the player without cards. -/
theorem ensures_unoPlay_outcome (cardHash specifiedColor : Int) :
    Ensures (r.unoPlay env u c cardHash specifiedColor)
      (Outcome r ((Uno.Op.play c.userId (int2Card cardHash) specifiedColor).Ends u)) := by
  unfold unoPlay
  refine .bind' fun ⟨⟨success, punish⟩, u'⟩ hplay => ?_
  have hstep : u.step (.play c.userId (int2Card cardHash) specifiedColor) = .ok (success, u') := by
    simp only [Uno.step, hplay]
    rfl
  have hends : (Uno.Op.play c.userId (int2Card cardHash) specifiedColor).Ends u ↔
      u'.checkWinner ≠ none := by
    constructor
    · rintro ⟨b, u₁, h, hwin⟩
      obtain rfl : u' = u₁ := congrArg Prod.snd (Except.ok.inj (hstep.symm.trans h))
      exact hwin
    · intro hwin
      exact ⟨success, u', hstep, hwin⟩
  refine (ensures_playAnswer_plain _ _ _ _).bind fun out hout => ?_
  exact ensures_checkUnoOver_outcome.bind fun s hs =>
    .ok ((hs.congr hends.symm).append hout rfl rfl)

/-- Drawing a card does not end the game. -/
theorem ensures_unoDrawOne_outcome : Ensures (r.unoDrawOne env u c) (Outcome r False) := by
  unfold unoDrawOne
  refine .bind' fun ⟨⟨card, punish⟩, u'⟩ _ => ?_
  have hsaid : Plain (if punish then
      (r.withUno u').unoBroadcast env c.userName "SAID_UNO_BUT_DIDNT_PLAY" [] else []) := by
    split
    · exact plain_unoBroadcast ..
    · exact plain_nil
  cases card with
  | none => exact .ok (.of_plain hsaid rfl)
  | some card =>
    refine ensures_sendUnoInfo_plain.bind fun info hinfo => .ok (.of_plain ?_ rfl)
    exact .append (.append hinfo (plain_singleton (by decide))) hsaid

theorem ensures_unoSkip_outcome : Ensures (r.unoSkip env u c) (Outcome r False) := by
  unfold unoSkip
  refine .bind' fun ⟨success, u'⟩ _ => .ite (fun _ => ?_) fun _ => .ok (.of_plain plain_nil rfl)
  refine ensures_sendUnoInfo_plain.bind fun info hinfo => ?_
  exact ensures_sendCardsInHand_plain.bind fun cards hcards =>
    .ok (.of_plain (hinfo.append hcards) rfl)

theorem ensures_unoSayUno_outcome : Ensures (r.unoSayUno env u c) (Outcome r False) := by
  unfold unoSayUno
  refine .bind' fun ⟨success, u'⟩ _ => .ite (fun _ => .ok (.of_plain ?_ rfl)) fun _ => ?_
  · exact plain_unoBroadcast ..
  · refine ensures_sendUno_plain.bind fun out hout => .ok (.of_plain ?_ rfl)
    exact hout.append (plain_unoBroadcast ..)

/-- A challenge does not end the game. -/
theorem ensures_unoSuspect_outcome : Ensures (r.unoSuspect env u c) (Outcome r False) := by
  unfold unoSuspect
  refine .bind' fun ⟨result, u'⟩ _ => ?_
  cases result with
  | none => exact .ok (.of_plain plain_nil rfl)
  | some result =>
    refine ensures_sendUno_plain.bind fun out hout => .ok (.of_plain ?_ rfl)
    exact .append (.append (plain_singleton (by decide)) (plain_unoBroadcast ..)) hout

theorem ensures_unoDissuspect_outcome : Ensures (r.unoDissuspect env u c) (Outcome r False) := by
  unfold unoDissuspect
  refine .bind' fun ⟨success, u'⟩ _ => .ite (fun _ => ?_) fun _ => .ok (.of_plain plain_nil rfl)
  exact ensures_sendUno_plain.bind fun out hout => .ok (.of_plain hout rfl)

/-- What a completed message announces in an Uno room. -/
def UnoOutcome (r : Room) (unoGame : Option Uno) (s : Outbox × Room) : Option Uno.Op → Prop
  | none => Outcome r False s
  | some op => ∃ u, unoGame = some u ∧ Outcome r (op.Ends u) s

/-- A message of Uno ends the game as the call that it makes does. -/
theorem ensures_unoMessage_outcome (unoGame : Option Uno) (messageType : String) (payload : Json) :
    Ensures (r.unoMessage env unoGame c messageType payload) fun s =>
      ∃ o, unoRequest c.userId messageType payload = .ok o ∧ UnoOutcome r unoGame s o := by
  have honUno {op : Uno.Op} {f : Uno → Except Fault (Outbox × Room)}
      (hf : ∀ u, Ensures (f u) (Outcome r (op.Ends u))) :
      Follows (.ok (some op)) (onUno unoGame f) fun o s => UnoOutcome r unoGame s o :=
    .read (ensures_onUno fun u hu => (hf u).mono fun s hs => ⟨u, hu, hs⟩)
  unfold unoMessage unoRequest
  refine Follows.ite (fun _ => ?_) fun _ => ?_
  · refine .bind fun _ => .bind fun cardHash => .bind fun _ => .bind fun specifiedColor => ?_
    exact honUno fun u => ensures_unoPlay_outcome cardHash specifiedColor
  refine .ite (fun _ => honUno fun u => ensures_unoDrawOne_outcome) fun _ => ?_
  refine .ite (fun _ => honUno fun u => ensures_unoSkip_outcome) fun _ => ?_
  refine .ite (fun _ => honUno fun u => ensures_unoSayUno_outcome) fun _ => ?_
  refine .ite (fun _ => honUno fun u => ensures_unoSuspect_outcome) fun _ => ?_
  refine .ite (fun _ => honUno fun u => ensures_unoDissuspect_outcome) fun _ => ?_
  exact .read (.ok (.of_plain plain_nil rfl))

end Uno

section Splendor

variable {env : Env} {r : Room} {c : Caller}

theorem plain_sendSplendorInfo (g : Splendor.Game) : Plain (r.sendSplendorInfo env g) :=
  plain_map (by decide) fun _ => Json.messageType_cons ..

theorem announces_sendSplendorResult {types : List String} (g : Splendor.Game) (winner : Int) :
    announces types (r.sendSplendorResult env g winner) =
      (types.contains "SPLENDOR_GAME_OVER" && !r.isEmpty) := by
  rw [← isEmpty_members env]
  exact announces_map fun _ => Json.messageType_cons ..

/-- A call that takes mines, returns one or reserves a coupon does not end the game. -/
theorem ensures_splendorCall_outcome (game : Option Splendor.Game) (op : Splendor.Op) :
    Ensures (r.splendorCall env game op) (Outcome r False) := by
  unfold splendorCall
  cases game with
  | none => exact .error
  | some g =>
    refine .bind' fun ⟨success, g'⟩ _ => .ok (.of_plain ?_ rfl)
    show Plain (if success then (r.withSplendor g').sendSplendorInfo env g' else [])
    split
    · exact plain_sendSplendorInfo g'
    · exact plain_nil

/-- The game is over after a purchase that succeeds and leaves a winner. -/
theorem ensures_splendorPurchase_outcome (game : Option Splendor.Game) (op : Splendor.Op) :
    Ensures (r.splendorPurchase env game op) fun s => ∃ g, game = some g ∧
      Outcome r (∃ g', g.step op = .ok (true, g') ∧ g'.checkWinner ≠ none) s := by
  unfold splendorPurchase
  cases game with
  | none => exact .error
  | some g =>
    refine .bind' fun ⟨success, g'⟩ hstep => .ite (fun hsuccess => ?_) fun hrefused => ?_
    · obtain rfl : success = true := hsuccess
      have hends : (∃ g'', g.step op = .ok (true, g'') ∧ g''.checkWinner ≠ none) ↔
          g'.checkWinner ≠ none := by
        constructor
        · rintro ⟨g'', h, hwin⟩
          obtain rfl : g' = g'' := congrArg Prod.snd (Except.ok.inj (hstep.symm.trans h))
          exact hwin
        · intro hwin
          exact ⟨g', hstep, hwin⟩
      suffices hs : Ensures _ (Outcome r (g'.checkWinner ≠ none)) from
        hs.mono fun s h => ⟨g, rfl, h.congr hends.symm⟩
      have hinfo : Plain ((r.withSplendor g').sendSplendorInfo env g') := plain_sendSplendorInfo g'
      cases hwinner : g'.checkWinner with
      | none =>
        exact .ok ⟨hinfo.1, fun h => absurd rfl h, fun _ => ⟨rfl, hinfo.2⟩⟩
      | some winner =>
        refine .ok ⟨?_, fun _ => ⟨rfl, ?_⟩, fun h => absurd (Option.some_ne_none winner) h⟩
        · rw [announces_append, hinfo.1, announces_sendSplendorResult]
          rfl
        · rw [announces_append, hinfo.2, announces_sendSplendorResult]
          rfl
    · refine .ok ⟨g, rfl, rfl, ?_, fun _ => ⟨rfl, rfl⟩⟩
      rintro ⟨g'', h, -⟩
      exact absurd (congrArg Prod.fst (Except.ok.inj (hstep.symm.trans h))) hrefused

/-- What a completed message announces in a Splendor room. -/
def SplendorOutcome (r : Room) (game : Option Splendor.Game) (s : Outbox × Room) :
    Option Splendor.Op → Prop
  | none => Outcome r False s
  | some op => ∃ g, game = some g ∧ Outcome r (op.Ends g) s

/-- Taking three mines does not end the game. -/
theorem ensures_splendorTake3_outcome (game : Option Splendor.Game) (payload : Json) :
    Ensures (r.splendorTake3 env game c payload) fun s =>
      ∃ o, take3Request c.userId payload = .ok o ∧ SplendorOutcome r game s o := by
  unfold splendorTake3 take3Request
  refine Follows.bind fun mines => .ite (fun _ => ?_) fun _ => .read (.ok (.of_plain plain_nil rfl))
  refine .bind fun _ => .bind fun m₀ => .bind fun _ => .bind fun m₁ => .bind fun _ =>
    .bind fun m₂ => ?_
  exact .read ((ensures_splendorCall game _).and (ensures_splendorCall_outcome game _) |>.mono
    fun s ⟨⟨g, hg, _⟩, hs⟩ => ⟨g, hg, hs⟩)

/-- A message of Splendor ends the game as the call that it makes does. -/
theorem ensures_splendorMessage_outcome (game : Option Splendor.Game) (messageType : String)
    (payload : Json) :
    Ensures (r.splendorMessage env game c messageType payload) fun s =>
      ∃ o, splendorRequest c.userId messageType payload = .ok o ∧ SplendorOutcome r game s o := by
  have hcall {key : String} {op : Int → Splendor.Op} (hop : ∀ i g, (op i).Ends g ↔ False) :
      Follows (intRequest key op payload)
        (do r.splendorCall env game (op (← (← payload.get key).asInt)))
        fun o s => SplendorOutcome r game s o :=
    .bind fun _ => .bind fun i => .read
      ((ensures_splendorCall game (op i)).and (ensures_splendorCall_outcome game (op i)) |>.mono
        fun s ⟨⟨g, hg, _⟩, hs⟩ => ⟨g, hg, hs.congr (hop i g).symm⟩)
  have hpurchase {key : String} {op : Int → Splendor.Op} (hop : ∀ i g, (op i).Ends g ↔
      ∃ g', g.step (op i) = .ok (true, g') ∧ g'.checkWinner ≠ none) :
      Follows (intRequest key op payload)
        (do r.splendorPurchase env game (op (← (← payload.get key).asInt)))
        fun o s => SplendorOutcome r game s o :=
    .bind fun _ => .bind fun i => .read
      ((ensures_splendorPurchase_outcome game (op i)).mono
        fun s ⟨g, hg, hs⟩ => ⟨g, hg, hs.congr (hop i g).symm⟩)
  unfold splendorMessage splendorRequest
  refine Follows.ite (fun _ => hcall fun _ _ => Iff.rfl) fun _ => ?_
  refine .ite (fun _ => ensures_splendorTake3_outcome game payload) fun _ => ?_
  refine .ite (fun _ => hpurchase fun _ _ => Iff.rfl) fun _ => ?_
  refine .ite (fun _ => hcall fun _ _ => Iff.rfl) fun _ => ?_
  refine .ite (fun _ => hpurchase fun _ _ => Iff.rfl) fun _ => ?_
  refine .ite (fun _ => hcall fun _ _ => Iff.rfl) fun _ => ?_
  exact .read (.ok (.of_plain plain_nil rfl))

end Splendor

section Gomoku

variable {env : Env} {r : Room} {c : Caller}

theorem plain_sendGomokuInfo (g : Gomoku) (colors : Colors) :
    Plain (r.sendGomokuInfo env g colors) :=
  plain_broadcast (by decide) _

/-- A drop does not end the game: `update` does. -/
theorem ensures_gomokuDrop_outcome (g : Gomoku) (colors : Colors) (updates : Nat) (payload : Json) :
    Ensures (r.gomokuDrop env g colors updates c payload) (Outcome r False) := by
  unfold gomokuDrop
  refine .bind' fun _ _ => .bind' fun y _ => .bind' fun _ _ => .bind' fun x _ => ?_
  cases hdrop : g.drop y x (isBlack colors c.userId) with
  | mk accepted g' =>
    refine .ite (fun _ => .ok (.of_plain (plain_sendGomokuInfo _ _) rfl)) fun _ => ?_
    exact .ok (.of_plain plain_nil rfl)

/-- The game after the detached thread has run. -/
def updated (env : Env) (r : Room) (g : Gomoku) : Gomoku :=
  let g := if r.connections.entries.length = 1 then g.update (Gomoku.noisy (env.noise 0)) 0 else g
  g.update (Gomoku.noisy (env.noise 1)) 0

/-- `update` ends the game when the status is no longer `NOT_END`. -/
theorem gomokuUpdate_outcome (g : Gomoku) (colors : Colors) (updates : Nat) :
    Outcome r ((r.updated env g).status ≠ .notEnd) (r.gomokuUpdate env g colors updates) ∧
      (r.gomokuUpdate env g colors updates).2.game = .gomoku (r.updated env g) colors updates := by
  unfold gomokuUpdate updated
  generalize (if r.connections.entries.length = 1 then _ else g) = g₁
  dsimp only
  generalize g₁.update (Gomoku.noisy (env.noise 1)) 0 = g₂
  have hinfo : Plain (({ r with game := .gomoku g₂ colors updates } : Room).sendGomokuInfo env g₂
      colors) := plain_sendGomokuInfo ..
  split
  · refine ⟨⟨?_, fun _ => ⟨rfl, ?_⟩, fun h => absurd ‹g₂.status ≠ .notEnd› h⟩, rfl⟩
    · rw [announces_append, hinfo.1, sendGomokuResult, announces_broadcast]
      rfl
    · rw [announces_append, hinfo.2, sendGomokuResult, announces_broadcast]
      rfl
  · exact ⟨⟨hinfo.1, fun h => absurd h ‹¬ g₂.status ≠ .notEnd›, fun _ => ⟨rfl, hinfo.2⟩⟩, rfl⟩

end Gomoku

/-! ## The start of a game -/

/-- A game can start with the members there are. -/
def AdmitsNumber (r : Room) : Prop :=
  match r.game with
  | .uno _ => 3 ≤ r.connections.entries.length ∧ r.connections.entries.length ≤ 10
  | .splendor _ => 2 ≤ r.connections.entries.length ∧ r.connections.entries.length ≤ 4
  | .gomoku .. => r.connections.entries.length ≤ 2

/-- The user ids of the members, in iteration order. -/
def userIds (env : Env) (r : Room) : List Int := (r.members env).map fun p => p.2.userId

/-- `NewGame env r game`: `game` is what the room `r` starts with, for Uno and
Splendor a new game of the members, for Gomoku a cleared board. -/
inductive NewGame (env : Env) (r : Room) : GameSlot → Prop where
  | uno {unoGame : Option Uno} {u : Uno} (hgame : r.game = .uno unoGame)
      (hne : r.userIds env ≠ []) (hnew : Uno.new (r.userIds env) hne env.draw = .ok u) :
      NewGame env r (.uno (some u))
  | splendor {game : Option Splendor.Game} (hgame : r.game = .splendor game) :
      NewGame env r
        (.splendor (some (Splendor.Game.new (r.userIds env) env.draw env.playerOrder)))
  | gomoku {g : Gomoku} {colors colors' : Colors} {updates : Nat} {ai : Bool}
      (hgame : r.game = .gomoku g colors updates) :
      NewGame env r (.gomoku (g.clear.enableAi ai) colors' updates)

/-- What `on_everyone_prepared` does: if the number of members is admitted, it starts
a game and says so to everybody, else it does neither. -/
structure StartOutcome (env : Env) (r : Room) (s : Outbox × Room) : Prop where
  isOver : announces overTypes s.1 = false
  starts : r.AdmitsNumber → announces startTypes s.1 = !r.isEmpty ∧ ∃ game, NewGame env r game ∧
    s.2 = ({ r with isGameOn := true, game := game } : Room).clearPrepared
  stays : ¬ r.AdmitsNumber → announces startTypes s.1 = false ∧ s.2 = r

section Start

variable {env : Env} {r : Room}

/-- The number of members is not admitted. -/
theorem StartOutcome.refused {s : Outbox × Room} (h : ¬ r.AdmitsNumber) (hs : Plain s.1)
    (hr : s.2 = r) : StartOutcome env r s :=
  ⟨hs.2, fun h' => absurd h' h, fun _ => ⟨hs.1, hr⟩⟩

/-- Everybody is told. -/
theorem StartOutcome.started {t : String} {game : GameSlot} {r' : Room} (ht : t ∈ startTypes)
    (ht' : t ∉ overTypes) (h : r.AdmitsNumber) (hgame : NewGame env r game)
    (hr : r' = ({ r with isGameOn := true, game := game } : Room).clearPrepared) :
    StartOutcome env r (r.broadcast env [] t, r') := by
  rw [← List.contains_iff_mem] at ht
  rw [← List.contains_iff_mem, Bool.not_eq_true] at ht'
  refine ⟨?_, fun _ => ⟨?_, game, hgame, hr⟩, fun h' => absurd h h'⟩
  · rw [announces_broadcast, ht']
    rfl
  · rw [announces_broadcast, ht, Bool.true_and]

/-- Messages that announce nothing come after. -/
theorem StartOutcome.append {out out' : Outbox} {r' : Room} (h : StartOutcome env r (out, r'))
    (hout' : Plain out') : StartOutcome env r (out ++ out', r') := by
  refine ⟨?_, fun ha => ?_, fun ha => ?_⟩
  · rw [announces_append, h.isOver, hout'.2]
    rfl
  · rw [announces_append, (h.starts ha).1, hout'.1, Bool.or_false]
    exact ⟨rfl, (h.starts ha).2⟩
  · rw [announces_append, (h.stays ha).1, hout'.1]
    exact ⟨rfl, (h.stays ha).2⟩

/-- Messages that announce nothing come before. -/
theorem StartOutcome.prepend {out out' : Outbox} {r' : Room} (hout : Plain out)
    (h : StartOutcome env r (out', r')) : StartOutcome env r (out ++ out', r') := by
  refine ⟨?_, fun ha => ?_, fun ha => ?_⟩
  · rw [announces_append, h.isOver, hout.2]
    rfl
  · rw [announces_append, (h.starts ha).1, hout.1, Bool.false_or]
    exact ⟨rfl, (h.starts ha).2⟩
  · rw [announces_append, (h.stays ha).1, hout.1]
    exact ⟨rfl, (h.stays ha).2⟩

/-- Uno starts for the numbers of members that it admits. -/
theorem ensures_startUno_outcome {unoGame : Option Uno} (hgame : r.game = .uno unoGame) :
    Ensures (r.startUno env) (StartOutcome env r) := by
  have hadmits : r.AdmitsNumber ↔
      3 ≤ r.connections.entries.length ∧ r.connections.entries.length ≤ 10 := by
    unfold AdmitsNumber
    rw [hgame]
  unfold startUno
  refine .ite (fun hfew => .ok (.refused ?_ (plain_broadcast (by decide) _) rfl)) fun hfew => ?_
  · rw [hadmits]
    omega
  refine .ite (fun hmany => .ok (.refused ?_ (plain_broadcast (by decide) _) rfl)) fun hmany => ?_
  · rw [hadmits]
    omega
  have hok : r.AdmitsNumber := hadmits.mpr (by omega)
  dsimp only
  split
  · exact .error
  · rename_i hne
    refine .bind' fun u hu => ensures_sendUno_plain.bind fun out hout => .ok ?_
    have hnew : NewGame env r (.uno (some u)) := .uno hgame hne hu
    have hstart := StartOutcome.started (t := "UNO_START") (by decide) (by decide) hok hnew rfl
    exact (hstart.append hout).append plain_membersInfo

/-- Splendor starts for the numbers of members that it admits. -/
theorem startSplendor_outcome {game : Option Splendor.Game} (hgame : r.game = .splendor game) :
    StartOutcome env r (r.startSplendor env) := by
  have hadmits : r.AdmitsNumber ↔
      2 ≤ r.connections.entries.length ∧ r.connections.entries.length ≤ 4 := by
    unfold AdmitsNumber
    rw [hgame]
  unfold startSplendor
  dsimp only
  split
  · refine .refused ?_ (plain_broadcast (by decide) _) rfl
    rw [hadmits]
    omega
  · split
    · refine .refused ?_ (plain_broadcast (by decide) _) rfl
      rw [hadmits]
      omega
    · have hok : r.AdmitsNumber := hadmits.mpr (by omega)
      have hstart := StartOutcome.started (t := "SPLENDOR_START") (by decide) (by decide) hok
        (NewGame.splendor hgame : NewGame env r _) rfl
      exact (hstart.append (plain_sendSplendorInfo _)).append plain_membersInfo

/-- Gomoku starts for the numbers of members that it admits. -/
theorem startGomoku_outcome {g : Gomoku} {colors : Colors} {updates : Nat}
    (hgame : r.game = .gomoku g colors updates) :
    StartOutcome env r (r.startGomoku env g colors updates) := by
  have hadmits : r.AdmitsNumber ↔ (r.members env).length ≤ 2 := by
    unfold AdmitsNumber
    rw [hgame, members, length_ranked]
  unfold startGomoku
  dsimp only
  split
  · refine .refused ?_ (plain_broadcast (by decide) _) rfl
    rw [hadmits]
    omega
  · have hok : r.AdmitsNumber := hadmits.mpr (by omega)
    have hstart (ai : Bool) (colors' : Colors) := StartOutcome.started (t := "GOMOKU_START")
      (by decide) (by decide) hok
      (.gomoku hgame : NewGame env r (.gomoku (g.clear.enableAi ai) colors' updates)) rfl
    split
    · refine .append (.append (.prepend ?_ (hstart _ _)) (plain_sendGomokuInfo _ _))
        plain_membersInfo
      exact plain_broadcast (by decide) _
    · exact .append (.append (.prepend plain_nil (hstart _ _)) (plain_sendGomokuInfo _ _))
        plain_membersInfo

theorem ensures_onEveryonePrepared_outcome :
    Ensures (r.onEveryonePrepared env) (StartOutcome env r) := by
  unfold onEveryonePrepared
  cases hgame : r.game with
  | uno unoGame => exact ensures_startUno_outcome hgame
  | splendor game => exact .ok (startSplendor_outcome hgame)
  | gomoku g colors updates => exact .ok (startGomoku_outcome hgame)

end Start

end Room

end UnoppServer
