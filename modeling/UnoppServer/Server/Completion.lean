import UnoppServer.Room.Completion
import UnoppServer.Server.Server

/-!
# The server: messages that do not end the processing thread

`process_message` catches nothing but what `send` throws. Any other fault, while
a text of a client is parsed or handled, leaves the loop and ends the program.

- `TextOk`: the condition under which a text is handled to the end: every value
  that is read from it has a type that the accessor converts, and the room that
  it goes to is fit for what it asks (`Manager.MessageOk`);
- `completes_message_iff`: exactly then is the `MESSAGE` action completed, in any
  state of the server;
- `survives_iff`: the thread survives a run iff every text is `TextOk` in the
  state in which it is processed.
-/

namespace UnoppServer

open Assoc Runs

namespace Json

theorem completes_touch_iff (v : Json) (key : String) :
    Completes (v.touch key) ↔ v.TakesMembers := by
  cases v <;> simp only [touch, TakesMembers, completes_ok, not_completes_error]

/-- A member that is made null has been read as null before. -/
theorem get_touch {v v' : Json} {key : String} (h : v.touch key = .ok v') (key' : String) :
    v'.get key' = v.get key' := by
  have hnull : ([(key, Json.null)].lookup key').getD .null = .null := by
    rw [List.lookup_cons, List.lookup_nil]
    split <;> rfl
  cases v with
  | null =>
    obtain rfl := Except.ok.inj h
    exact congrArg Except.ok hnull
  | obj members =>
    obtain rfl := Except.ok.inj h
    split
    · rfl
    · rw [get_obj, get_obj, List.lookup_append]
      cases members.lookup key' with
      | none => exact congrArg Except.ok hnull
      | some value => rfl
  | _ => cases h

end Json

namespace WsServer

/-! ## The conditions -/

/-- A `WHISPER_MESSAGE` is handled to the end. -/
def WhisperOk (msg : Json) : Prop :=
  msg.Member "receiver_id" Json.FitsInt ∧ msg.Member "message" Json.TakesMembers

/-- A `READ_WHISPER_MESSAGES` is handled to the end. -/
def ReadWhisperOk (w : World) (conn : Connection) (msg : Json) : Prop :=
  msg.Member "friend_id" Json.FitsInt ∧
  ∀ friendId, msg.Reads "friend_id" Json.asInt friendId →
    Completes (w.clearUnread conn.userId friendId)

/-- A message from an authorized connection is handled to the end. -/
def AuthorizedOk (w : World) (s : WsServer) (conn : Connection) (messageType : String)
    (msg : Json) : Prop :=
  if messageType = "WHISPER_MESSAGE" then WhisperOk msg
  else if messageType = "READ_WHISPER_MESSAGES" then ReadWhisperOk w conn msg
  else s.roomManager.MessageOk w.env ⟨conn.connId, conn.userName, conn.userId⟩ messageType msg

/-- A message from a connection that is not authorized is handled to the end. -/
def UnauthorizedOk (w : World) (messageType : String) (msg : Json) : Prop :=
  messageType = "AUTHORIZE" → msg.Member "sessdata" Json.FitsUInt ∧
    ∀ sessdata, msg.Reads "sessdata" Json.asUInt sessdata → Completes (w.authorize sessdata)

/-- A message with a type is handled to the end. -/
def TypedOk (w : World) (s : WsServer) (hdl : Hdl) (msg : Json) (messageType : String) : Prop :=
  match s.connections.lookup hdl with
  | some conn => s.AuthorizedOk w conn messageType msg
  | none => UnauthorizedOk w messageType msg

/-- A parsed text is handled to the end. -/
structure ParsedOk (w : World) (s : WsServer) (hdl : Hdl) (msg : Json) : Prop where
  object : msg.TakesMembers
  messageType : msg.isMember "message_type" = .ok true → msg.Member "message_type" Json.FitsString
  typed : msg.isMember "message_type" = .ok true →
    ∀ messageType, msg.Reads "message_type" Json.asString messageType →
      s.TypedOk w hdl msg messageType

/-- A text is handled to the end. -/
structure TextOk (parse : String → Except Fault (Option Json)) (w : World) (s : WsServer)
    (hdl : Hdl) (text : String) : Prop where
  parses : Completes (parse text)
  parsed : ∀ msg, parse text = .ok (some msg) → s.ParsedOk w hdl msg

/-! ## One message -/

section Message

variable {w : World} {s : WsServer} {hdl : Hdl}

/-- When a whisper is handled to the end. -/
theorem completes_whisper_iff (conn : Connection) (msg : Json) :
    Completes (s.whisper w hdl conn msg) ↔ WhisperOk msg := by
  have hrest {msg' : Json} (h : msg.touch "receiver_id" = .ok msg') : Completes (do
      let receiverId ← (← msg'.get "receiver_id").asInt
      let message ← (← msg'.get "message").set "user_name" (.str conn.userName)
      let message ← message.set "user_id" (.int conn.userId)
      let message ← message.set "timestamp" (.int w.timestamp)
      let msg ← msg'.set "message" message
      return [Effect.newChatMessage conn.userId receiverId message,
          .addOneUnread receiverId conn.userId, .send hdl msg] ++
        (s.recipients w.env receiverId).map fun connId => .pushMessage connId msg) ↔
      WhisperOk msg := by
    unfold WhisperOk Json.Member
    simp only [← Json.get_touch h]
    refine Json.completes_member_and Json.completes_asInt_iff fun receiverId => ?_
    refine completes_bind_iff.trans (exists_congr fun v => and_congr_right fun hv => ?_)
    have hmsg := (Json.completes_get_iff msg' "message").mp ⟨v, hv⟩
    rw [← Json.completes_set_iff v "user_name" (.str conn.userName)]
    refine completes_bind_of fun message hmessage => ?_
    refine Json.completes_set_bind (Json.takesMembers_of_set hmessage) fun message hmessage => ?_
    refine Json.completes_set_bind hmessage fun message _ => ?_
    exact Json.completes_set_bind hmsg fun _ _ => completes_ok _
  refine (completes_bind_and (Json.completes_touch_iff msg _) fun msg' h => hrest h).trans ?_
  refine and_iff_right_of_imp fun ⟨⟨v, hv, _⟩, _⟩ => ?_
  exact (Json.completes_get_iff msg "receiver_id").mp ⟨v, hv⟩

/-- When a message of an authorized connection is handled to the end. -/
theorem completes_authorizedMessage_iff (conn : Connection) (messageType : String) (msg : Json) :
    Completes (s.authorizedMessage w hdl conn messageType msg) ↔
      s.AuthorizedOk w conn messageType msg := by
  refine completes_ite_congr ?_ (completes_ite_congr ?_ ?_)
  · exact (completes_bind_of fun _ _ => completes_ok _).trans (completes_whisper_iff conn msg)
  · exact Json.completes_member_forall Json.completes_asInt_iff fun friendId =>
      completes_bind_of fun _ _ => completes_ok _
  · exact (completes_bind_of fun _ _ => completes_ok _).trans
      (Manager.completes_processMessage_iff messageType msg)

/-- When a message of a new connection is handled to the end. -/
theorem completes_unauthorizedMessage_iff (messageType : String) (msg : Json) :
    Completes (s.unauthorizedMessage w hdl messageType msg) ↔ UnauthorizedOk w messageType msg := by
  refine completes_check_iff.trans (imp_congr not_not ?_)
  refine Json.completes_member_forall Json.completes_asUInt_iff fun sessdata => ?_
  refine completes_bind_of fun user _ => ?_
  cases user with
  | none => exact completes_ok _
  | some user => exact completes_ok _

/-- A message needs a type, and what its type asks for. -/
theorem completes_typedMessage_iff (msg : Json) : Completes (s.typedMessage w hdl msg) ↔
    msg.Member "message_type" Json.FitsString ∧
    ∀ messageType, msg.Reads "message_type" Json.asString messageType →
      s.TypedOk w hdl msg messageType := by
  refine Json.completes_member_forall Json.completes_asString_iff fun messageType => ?_
  unfold TypedOk
  cases s.connections.lookup hdl with
  | some conn => exact completes_authorizedMessage_iff conn messageType msg
  | none => exact completes_unauthorizedMessage_iff messageType msg

/-- When a message that has been parsed is handled to the end. -/
theorem completes_parsedMessage_iff (msg : Json) :
    Completes (s.parsedMessage w hdl (some msg)) ↔ s.ParsedOk w hdl msg := by
  show Completes (msg.isMember "message_type" >>= _) ↔ _
  rw [completes_bind_forall, Json.completes_isMember_iff]
  constructor
  · rintro ⟨hobj, h⟩
    have htyped (ht : msg.isMember "message_type" = .ok true) :=
      (completes_typedMessage_iff msg).mp (h true ht)
    exact ⟨hobj, fun ht => (htyped ht).1, fun ht => (htyped ht).2⟩
  · intro h
    refine ⟨h.object, fun isMember ht => completes_ite_iff.mpr ⟨fun hm => ?_, fun _ => ?_⟩⟩
    swap
    · exact completes_ok _
    rw [hm] at ht
    exact (completes_typedMessage_iff msg).mpr ⟨h.messageType ht, h.typed ht⟩

/-- **A text is handled to the end iff it is `TextOk`**, in any state of the server,
on any connection. -/
theorem completes_message_iff (parse : String → Except Fault (Option Json)) (text : String) :
    Completes (s.message parse w hdl text) ↔ s.TextOk parse w hdl text := by
  unfold message
  rw [completes_bind_forall]
  constructor
  · intro h
    exact ⟨h.1, fun msg hmsg => (completes_parsedMessage_iff msg).mp (h.2 _ hmsg)⟩
  · intro h
    refine ⟨h.parses, fun parsed hparsed => ?_⟩
    cases parsed with
    | none => exact completes_ok _
    | some msg => exact (completes_parsedMessage_iff msg).mpr (h.parsed msg hparsed)

end Message

/-! ## A whole run -/

/-- **The processing thread survives a run iff every text of it is handled to the
end**: iff each is `TextOk` in the state in which it is processed. -/
theorem survives_iff (parse : String → Except Fault (Option Json)) (as : List (World × Action)) :
    Completes (exec (step parse) new as) ↔ ∀ pre w hdl text post s,
      as = pre ++ (w, Action.message hdl text) :: post → exec (step parse) new pre = .ok s →
        s.TextOk parse w hdl text := by
  refine exec_completes_iff.trans ⟨fun h pre w hdl text post s has hpre => ?_,
    fun h pre a post s has hpre => ?_⟩
  · exact (completes_message_iff parse text).mp (h pre _ post s has hpre)
  · obtain ⟨w, action⟩ := a
    cases action with
    | message hdl text =>
      exact (completes_message_iff parse text).mpr (h pre w hdl text post s has hpre)
    | subscribe hdl => exact completes_ok _
    | unsubscribe hdl => exact completes_ok _
    | visit roomId => exact completes_ok _
    | update roomId => exact completes_ok _

/-- A world without users. -/
def noUsers : World := ⟨Room.plainEnv, fun _ => .ok none, fun _ _ => .ok (), 0⟩

/-- A parser that knows the text `[]`. -/
def parseArray (text : String) : Except Fault (Option Json) :=
  .ok (if text = "[]" then some (.arr []) else none)

/-- The text `[]` ends the thread: an array is asked for a member, and nothing
catches the exception. The sender need not be authorized. -/
theorem array_ends_thread : exec (step parseArray) new [(noUsers, .message 0 "[]")] =
    .error (.exception "in Json::Value::find(begin, end): requires objectValue or nullValue") :=
  rfl

end WsServer

end UnoppServer
