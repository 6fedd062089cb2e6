import UnoppServer.Lib.Since
import UnoppServer.Room.Lifetime
import UnoppServer.Room.Membership
import UnoppServer.Splendor.Idle
import UnoppServer.Uno.Idle

/-!
# Rooms: before, during and after a game

`is_game_on` says which of the two came last, the start of a game or the end of one
(`Change.isGameOn_iff`), and so do the announcements of the room: a game is running
since its start has been announced and until its end is.

- `neverReplaced_iff`: a running game is replaced exactly by the `GAME_PREPARE`s
  that leave everyone prepared while it runs;
- `frozen_iff`: a finished game is left alone, and is announced once, exactly when
  nobody disturbs it before the next start.
-/

namespace UnoppServer

open Assoc FindIf Runs Room

/-- The recorded events of a room. -/
abbrev RoomHistory := List (Entry RoomState (Env × RoomEvent) Outbox)

/-- The events `h` have led the room from `s₀` to `s`. -/
abbrev RoomRun (s₀ : RoomState) (h : RoomHistory) (s : RoomState) : Prop :=
  Run RoomState.step (fun _ _ => True) s₀ h s

/-- An operation of a game starts none. -/
theorem Room.GameStep.not_starts {env : Env} {r : Room} {e : RoomEvent} {game : GameSlot}
    (h : GameStep env r e game) : ¬ r.Starts e := by
  have hno {c : Caller} {messageType : String} {payload : Json}
      (h : r.Asks (.message c messageType payload)) :
      ¬ r.Starts (.message c messageType payload) := not_starts_of_isGameMessage h.isGameMessage
  cases h with
  | uno hgame hop _ => exact hno ((asks_uno hgame).mpr ⟨_, hop⟩)
  | splendor hgame hop _ => exact hno ((asks_splendor hgame).mpr ⟨_, hop⟩)
  | drop => exact fun h => nomatch h.1
  | update => exact fun h => h

namespace RoomState

section Change

variable {env : Env} {s s' : RoomState} {e : RoomEvent}

/-- A game is on after an event iff the event starts one, or does not end the one that
was on. -/
theorem Change.isGameOn_iff (h : Change env s e s') : s'.room.isGameOn = true ↔
    s.room.Starts e ∨ (¬ s.room.Ends env e ∧ s.room.isGameOn = true) := by
  have hkeeps (hon : s'.room.isGameOn = s.room.isGameOn) (hstarts : ¬ s.room.Starts e)
      (hends : ¬ s.room.Ends env e) : s'.room.isGameOn = true ↔
        s.room.Starts e ∨ (¬ s.room.Ends env e ∧ s.room.isGameOn = true) := by
    rw [hon, or_iff_right hstarts, and_iff_right hends]
  cases h with
  | stays _ hstarts hends => exact hkeeps rfl hstarts hends
  | elsewhere | offline | leaves => exact hkeeps rfl id id
  | joins h =>
    refine hkeeps ?_ (fun h => nomatch h.1)
      (not_ends_of_isGameMessage (s.room.isGameMessage_eq_false (by decide)))
    rw [h.room]
    rfl
  | prepares _ _ hstarts =>
    exact hkeeps rfl hstarts
      (not_ends_of_isGameMessage (s.room.isGameMessage_eq_false (by decide)))
  | starts _ hstarts _ => exact iff_of_true rfl (.inl hstarts)
  | plays hgame hends => exact hkeeps rfl hgame.not_starts hends
  | finishes hgame hends =>
    refine iff_of_false Bool.false_ne_true ?_
    rintro (h | h)
    · exact hgame.not_starts h
    · exact h.1 hends

/-- A game is on. -/
def Playing (s : RoomState) : Prop := s.room.isGameOn = true

/-- Somebody is in the room while a game is on. -/
def Occupied (s : RoomState) : Prop := s.Playing → s.room.isEmpty = false

theorem isEmpty_of_insert {r : Room} {connections : Connections} {k : Nat} {info : UserInfo}
    (h : r.connections = connections.insert k info) : r.isEmpty = false := by
  rw [Room.isEmpty, h, AList.entries_insert]
  rfl

theorem isEmpty_clearPrepared (r : Room) : r.clearPrepared.isEmpty = r.isEmpty :=
  List.isEmpty_map

/-- Each change leaves somebody in the room while a game is on. -/
theorem Change.occupied (h : Change env s e s') (hs : s.Occupied) : s'.Occupied := by
  cases h with
  | stays | elsewhere | plays => exact hs
  | joins h =>
    intro _
    rw [h.room]
    exact isEmpty_of_insert rfl
  | prepares | offline => exact fun _ => isEmpty_of_insert rfl
  | starts => exact fun _ => (isEmpty_clearPrepared _).trans (isEmpty_of_insert rfl)
  | finishes => exact fun h => nomatch h
  | leaves _ hon => exact fun h => absurd (hon.symm.trans h) Bool.false_ne_true

end Change

theorem Fresh.not_playing {s : RoomState} (h : s.Fresh) : ¬ s.Playing := by
  obtain ⟨id, creator, creatorId, name, password, roomType, slot, -, h⟩ := h
  rw [Playing, h]
  exact Bool.false_ne_true

section Run

variable {s₀ s : RoomState} {h : RoomHistory}

theorem Occupied.of_run (h₀ : s₀.Fresh) (hr : RoomRun s₀ h s) : s.Occupied := by
  have hfresh : s₀.Occupied := fun hon => absurd hon h₀.not_playing
  exact hr.invariant hfresh fun s e out s' hs _ hstep => (step_cases hstep).change.occupied hs

/-- What is known of the steps of a run. -/
theorem spec_of_run (h₀ : s₀.Fresh) (hr : RoomRun s₀ h s) :
    ∀ e ∈ h, e.pre.Occupied ∧ Spec e.act.1 e.pre e.act.2 (e.out, e.post) := by
  intro e he
  obtain ⟨⟨l, hl⟩, -, hstep⟩ := hr.mem_entry e he
  exact ⟨.of_run h₀ hl, step_cases hstep⟩

/-! ## A running game -/

/-- A start is announced. -/
def StartsAt (e : Entry RoomState (Env × RoomEvent) Outbox) : Prop :=
  announces startTypes e.out = true

/-- An end is announced. -/
def OverAt (e : Entry RoomState (Env × RoomEvent) Outbox) : Prop :=
  announces overTypes e.out = true

/-- A game is on since a start has been announced and no end. -/
theorem playing_post_iff (h₀ : s₀.Fresh) (hr : RoomRun s₀ h s) :
    ∀ e ∈ h, (e.post.Playing ↔ StartsAt e ∨ (¬ OverAt e ∧ e.pre.Playing)) := by
  intro e he
  obtain ⟨hocc, hspec⟩ := spec_of_run h₀ hr e he
  rw [StartsAt, OverAt, hspec.start, hspec.isOver, Playing, hspec.change.isGameOn_iff]
  refine or_congr_right (and_congr_left fun hon => ?_)
  rw [and_iff_left (hocc hon)]

/-- The game goes on: it is as it was, or an operation of the game has been performed. -/
def GoesOn (e : Entry RoomState (Env × RoomEvent) Outbox) : Prop :=
  e.post.room.game = e.pre.room.game ∨ GameStep e.act.1 e.pre.room e.act.2 e.post.room.game

/-- Between the announcement of a start and that of the end no other start is
announced, and the game goes on. -/
def NeverReplaced (h : RoomHistory) : Prop :=
  ∀ h₁ x h₂ y h₃, h = h₁ ++ x :: (h₂ ++ y :: h₃) → StartsAt x → (∀ z ∈ h₂, ¬ OverAt z) →
    ¬ StartsAt y ∧ GoesOn y

theorem neverReplaced_iff_playing (h₀ : s₀.Fresh) (hr : RoomRun s₀ h s) :
    NeverReplaced h ↔ ∀ y ∈ h, y.pre.Playing → ¬ StartsAt y ∧ GoesOn y :=
  hr.forall_between_iff h₀.not_playing (playing_post_iff h₀ hr)

/-- Unless it starts a game, an event lets the game go on. -/
theorem Change.goesOn {env : Env} {e : RoomEvent} {s' : RoomState} (h : Change env s e s')
    (hstarts : ¬ s.room.Starts e) :
    s'.room.game = s.room.game ∨ GameStep env s.room e s'.room.game := by
  cases h with
  | stays | elsewhere | prepares | offline | leaves => exact .inl rfl
  | joins h =>
    rw [h.room]
    exact .inl rfl
  | starts _ h _ => exact absurd h hstarts
  | plays hgame _ | finishes hgame _ => exact .inr hgame

/-- **A running game is never replaced** exactly when no event starts a game while one
is on. -/
theorem neverReplaced_iff (h₀ : s₀.Fresh) (hr : RoomRun s₀ h s) :
    NeverReplaced h ↔ ∀ e ∈ h, e.pre.Playing → ¬ e.pre.room.Starts e.act.2 := by
  rw [neverReplaced_iff_playing h₀ hr]
  refine forall₃_congr fun y hy _ => ?_
  have hspec := (spec_of_run h₀ hr y hy).2
  rw [StartsAt, hspec.start]
  exact and_iff_left_of_imp hspec.change.goesOn

end Run

/-- A user on the connection of the same number. -/
def guest (k : Nat) : Caller := ⟨k, tally k, k⟩

/-- A message of a user. -/
def sends (k : Nat) (messageType : String) (fields : List (String × Json)) : Env × RoomEvent :=
  (plainEnv, .message (guest k) messageType (.obj fields))

/-- Room 0, to which a `JOIN_ROOM` without `room_id` goes. -/
def roomOf (slot : GameSlot) : RoomState := ⟨fun _ => none, Room.new 0 "a" 1 "" "" slot⟩

/-- Users 1 and 2 join. -/
def twoJoin : List (Env × RoomEvent) := [sends 1 "JOIN_ROOM" [], sends 2 "JOIN_ROOM" []]

/-- A user is prepared. -/
def prepares (k : Nat) : Env × RoomEvent := sends k "GAME_PREPARE" [("prepare", .bool true)]

theorem fresh_splendor : (roomOf (.splendor none)).Fresh :=
  ⟨0, "a", 1, "", "", "SPLENDOR", .splendor none, rfl, rfl⟩

theorem exec_twoStart : execTo step (roomOf (.splendor none))
    (twoJoin ++ [prepares 1, prepares 2]) (fun s => s.room.isGameOn) = true := by
  decide +kernel

theorem neverReplaced_iff_twoStart : ∃ h s, RoomRun (roomOf (.splendor none)) h s ∧ s.Playing ∧
    (NeverReplaced h ↔ ∀ e ∈ h, e.pre.Playing → ¬ e.pre.room.Starts e.act.2) := by
  obtain ⟨h, s, hr, -, hon⟩ := exists_run_of_execTo exec_twoStart
  exact ⟨h, s, hr, hon, neverReplaced_iff fresh_splendor hr⟩

theorem exec_twoRestart : execTo step (roomOf (.splendor none))
    (twoJoin ++ [prepares 1, prepares 2, prepares 1])
    (fun s => s.room.isGameOn && stepTo step s (prepares 2) fun out _ => announces startTypes out) =
      true := by
  decide +kernel

/-- During a game of Splendor both players prepare again, and a new game starts. -/
theorem splendor_replaced : ∃ h s, RoomRun (roomOf (.splendor none)) h s ∧
    h.map Entry.act = twoJoin ++ [prepares 1, prepares 2, prepares 1] ++ [prepares 2] ∧
    ¬ NeverReplaced h := by
  obtain ⟨h, s, hr, hacts, hcheck⟩ := exists_run_of_execTo exec_twoRestart
  obtain ⟨hplaying, hnext⟩ := Bool.and_eq_true_iff.mp hcheck
  obtain ⟨out, s', hstep, hstart⟩ := exists_of_stepTo hnext
  have hr' := hr.snoc trivial hstep
  refine ⟨_, s', hr', by rw [List.map_append, hacts]; rfl, ?_⟩
  rw [neverReplaced_iff_playing fresh_splendor hr']
  intro hnever
  exact (hnever _ (List.mem_append_right _ List.mem_cons_self) hplaying).1 hstart

end RoomState

/-! ## A finished game -/

namespace Room

/-- A room of Uno or Splendor. -/
def PlaysCards (r : Room) : Prop :=
  match r.game with
  | .gomoku .. => False
  | _ => True

/-- A game of Uno or Splendor has been made. -/
def HasGame (r : Room) : Prop :=
  match r.game with
  | .uno unoGame => unoGame.isSome = true
  | .splendor game => game.isSome = true
  | .gomoku .. => False

/-- The event asks for an operation that changes the game or, in an Uno room with
somebody in it, for a `play` while a player has no cards. -/
def Disturbs (r : Room) : RoomEvent → Prop
  | .message c messageType payload =>
    match r.game with
    | .uno unoGame => ∃ u op, unoGame = some u ∧
      unoRequest c.userId messageType payload = .ok (some op) ∧
      (op.Idle u → messageType = "UNO_PLAY" ∧ u.checkWinner ≠ none ∧ r.isEmpty = false)
    | .splendor game => ∃ g op, game = some g ∧
      splendorRequest c.userId messageType payload = .ok (some op) ∧ op.Passes g
    | .gomoku .. => False
  | _ => False

section Cards

variable {env : Env} {r : Room} {e : RoomEvent} {game : GameSlot}

theorem hasGame_congr {r' : Room} (h : r'.game = r.game) : r'.HasGame ↔ r.HasGame := by
  unfold HasGame
  rw [h]

theorem playsCards_congr {r' : Room} (h : r'.game = r.game) : r'.PlaysCards ↔ r.PlaysCards := by
  unfold PlaysCards
  rw [h]

theorem hasGame_uno {unoGame : Option Uno} (hgame : r.game = .uno unoGame) :
    r.HasGame ↔ unoGame.isSome = true := by
  simp only [HasGame, hgame]

theorem hasGame_splendor {game : Option Splendor.Game} (hgame : r.game = .splendor game) :
    r.HasGame ↔ game.isSome = true := by
  simp only [HasGame, hgame]

theorem PlaysCards.not_gomoku {g : Gomoku} {colors : Colors} {updates : Nat} (h : r.PlaysCards) :
    r.game ≠ .gomoku g colors updates := by
  intro hgame
  simp only [PlaysCards, hgame] at h

/-- A room of cards has a game before an operation. -/
theorem GameStep.hasGame_pre (h : GameStep env r e game) (hcards : r.PlaysCards) : r.HasGame := by
  cases h with
  | uno hgame _ _ => exact (hasGame_uno hgame).mpr rfl
  | splendor hgame _ _ => exact (hasGame_splendor hgame).mpr rfl
  | drop hgame _ _ | update hgame => exact absurd hgame hcards.not_gomoku

/-- A room of cards has a game after an operation. -/
theorem GameStep.hasGame {r' : Room} (h : GameStep env r e game) (hcards : r.PlaysCards)
    (hr : r'.game = game) : r'.HasGame ∧ r'.PlaysCards := by
  unfold HasGame PlaysCards
  rw [hr]
  cases h with
  | uno | splendor => exact ⟨rfl, trivial⟩
  | drop hgame _ _ | update hgame => exact absurd hgame hcards.not_gomoku

theorem NewGame.hasGame {r' : Room} (h : NewGame env r game) (hcards : r.PlaysCards)
    (hr : r'.game = game) : r'.HasGame ∧ r'.PlaysCards := by
  unfold HasGame PlaysCards
  rw [hr]
  cases h with
  | uno | splendor => exact ⟨rfl, trivial⟩
  | gomoku hgame => exact absurd hgame hcards.not_gomoku

/-- A message that ends a game was sent to a room with a game. -/
theorem Ends.hasGame (h : r.Ends env e) (hcards : r.PlaysCards) : r.HasGame := by
  cases e with
  | message c messageType payload =>
    cases hgame : r.game with
    | uno unoGame =>
      obtain ⟨u, _, rfl, _⟩ := (ends_uno hgame).mp h
      exact (hasGame_uno hgame).mpr rfl
    | splendor game =>
      obtain ⟨g, _, rfl, _⟩ := (ends_splendor hgame).mp h
      exact (hasGame_splendor hgame).mpr rfl
    | gomoku => exact absurd hgame hcards.not_gomoku
  | update =>
    unfold Ends at h
    dsimp only at h
    split at h
    · rename_i hgame
      exact absurd hgame hcards.not_gomoku
    · exact h.elim
  | close | elsewhere => exact h.elim

/-- What ends a game starts none. -/
theorem Ends.not_starts (h : r.Ends env e) : ¬ r.Starts e := by
  cases e with
  | message => exact not_starts_of_isGameMessage h.asks.isGameMessage
  | close | update | elsewhere => exact fun h => h

/-- A `play` is asked for with a `UNO_PLAY`, and nothing else is. -/
theorem unoRequest_cases {userId : Int} {messageType : String} {payload : Json} {op : Uno.Op}
    (h : unoRequest userId messageType payload = .ok (some op)) :
    (messageType = "UNO_PLAY" ∧ ∃ card specifiedColor, op = .play userId card specifiedColor) ∨
    (messageType ≠ "UNO_PLAY" ∧ ∀ playerId card specifiedColor,
      op ≠ .play playerId card specifiedColor) := by
  suffices hens : Ensures (unoRequest userId messageType payload) fun o => ∀ op, o = some op →
      (messageType = "UNO_PLAY" ∧ ∃ card specifiedColor, op = .play userId card specifiedColor) ∨
      (messageType ≠ "UNO_PLAY" ∧ ∀ playerId card specifiedColor,
        op ≠ .play playerId card specifiedColor) from hens _ h op rfl
  unfold unoRequest
  refine .ite (fun ht => ?_) fun ht => ?_
  · refine .bind' fun _ _ => .bind' fun cardHash _ => .bind' fun _ _ => .bind' fun color _ => .ok ?_
    rintro op ⟨⟩
    exact .inl ⟨ht, _, _, rfl⟩
  · have hother {op : Uno.Op} (hop : ∀ playerId card specifiedColor,
        op ≠ .play playerId card specifiedColor) (op' : Uno.Op) (he : some op = some op') :
        (messageType = "UNO_PLAY" ∧ ∃ card specifiedColor, op' = .play userId card specifiedColor) ∨
        (messageType ≠ "UNO_PLAY" ∧ ∀ playerId card specifiedColor,
          op' ≠ .play playerId card specifiedColor) := Option.some.inj he ▸ .inr ⟨ht, hop⟩
    refine .ite (fun _ => .ok (hother fun _ _ _ h => nomatch h)) fun _ => ?_
    refine .ite (fun _ => .ok (hother fun _ _ _ h => nomatch h)) fun _ => ?_
    refine .ite (fun _ => .ok (hother fun _ _ _ h => nomatch h)) fun _ => ?_
    refine .ite (fun _ => .ok (hother fun _ _ _ h => nomatch h)) fun _ => ?_
    refine .ite (fun _ => .ok (hother fun _ _ _ h => nomatch h)) fun _ => ?_
    exact .ok fun op h => nomatch h

/-- An idle operation ends a game iff it is a `play` and a player has no cards. -/
theorem ends_iff_of_idle {u : Uno} {op : Uno.Op} {b : Bool} {userId : Int}
    {messageType : String} {payload : Json}
    (hop : unoRequest userId messageType payload = .ok (some op))
    (hstep : u.step op = .ok (b, u)) :
    op.Ends u ↔ messageType = "UNO_PLAY" ∧ u.checkWinner ≠ none := by
  rcases unoRequest_cases hop with ⟨ht, card, color, rfl⟩ | ⟨ht, hno⟩
  · rw [and_iff_right ht]
    constructor
    · rintro ⟨b', u', hstep', hwin⟩
      obtain ⟨-, rfl⟩ := Prod.mk.inj (Except.ok.inj (hstep.symm.trans hstep'))
      exact hwin
    · intro hwin
      exact ⟨b, u, hstep, hwin⟩
  · refine iff_of_false (fun h => ?_) fun h => ht h.1
    cases op with
    | play playerId card color => exact hno playerId card color rfl
    | _ => exact h

/-- A Splendor operation that is refused ends no game. -/
theorem not_ends_of_not_passes {g : Splendor.Game} {op : Splendor.Op} (h : ¬ op.Passes g) :
    ¬ op.Ends g := by
  have hrefused {g' : Splendor.Game} (hstep : g.step op = .ok (true, g')) : False := by
    rcases Splendor.Game.step_cases hstep with ⟨hb, -⟩ | ⟨-, he⟩
    · cases hb
    · exact h (Splendor.Game.exists_effect_iff.mp ⟨g', he⟩)
  intro hends
  cases op with
  | buyCoupon | buyReservedCoupon =>
    obtain ⟨g', hstep, -⟩ := hends
    exact hrefused hstep
  | _ => exact hends

/-- What disturbs a game asks for an operation. -/
theorem Disturbs.asks (h : r.Disturbs e) : r.Asks e := by
  cases e with
  | message c messageType payload =>
    unfold Disturbs at h
    cases hgame : r.game with
    | uno unoGame =>
      simp only [hgame] at h
      obtain ⟨_, op, _, hop, _⟩ := h
      exact (asks_uno hgame).mpr ⟨op, hop⟩
    | splendor game =>
      simp only [hgame] at h
      obtain ⟨_, op, _, hop, _⟩ := h
      exact (asks_splendor hgame).mpr ⟨op, hop⟩
    | gomoku =>
      simp only [hgame] at h
  | close | update | elsewhere => exact h

/-- **One operation** leaves the game as it is and ends nothing that somebody hears of
iff it disturbs nobody. -/
theorem GameStep.quiet_iff (h : GameStep env r e game) (hcards : r.PlaysCards) :
    (game = r.game ∧ ¬ (r.Ends env e ∧ r.isEmpty = false)) ↔ ¬ r.Disturbs e := by
  cases h with
  | @uno c messageType payload u u' op b hgame hop hstep =>
    have hends : r.Ends env (.message c messageType payload) ↔ op.Ends u := by
      simp [Ends, hgame, hop]
    have hdisturbs : r.Disturbs (.message c messageType payload) ↔
        (op.Idle u → messageType = "UNO_PLAY" ∧ u.checkWinner ≠ none ∧ r.isEmpty = false) := by
      simp [Disturbs, hgame, hop]
    have hsame : GameSlot.uno (some u') = r.game ↔ u' = u := by
      rw [hgame]
      exact ⟨fun h => by cases h; rfl, fun h => by rw [h]⟩
    rw [hdisturbs, hends, hsame, Uno.step_eq_iff hstep, Classical.not_imp]
    refine and_congr_right fun hidle => not_congr ?_
    obtain rfl := (Uno.step_eq_iff hstep).mpr hidle
    rw [ends_iff_of_idle hop hstep, and_assoc]
  | @splendor c messageType payload g g' op b hgame hop hstep =>
    have hends : r.Ends env (.message c messageType payload) ↔ op.Ends g := by
      simp [Ends, hgame, hop]
    have hdisturbs : r.Disturbs (.message c messageType payload) ↔ op.Passes g := by
      simp [Disturbs, hgame, hop]
    have hsame : GameSlot.splendor (some g') = r.game ↔ g' = g := by
      rw [hgame]
      exact ⟨fun h => by cases h; rfl, fun h => by rw [h]⟩
    rw [hdisturbs, hends, hsame, Splendor.Game.step_eq_iff hstep]
    exact and_iff_left_of_imp fun hno h => not_ends_of_not_passes hno h.1
  | drop hgame _ _ | update hgame => exact absurd hgame hcards.not_gomoku

end Cards

end Room

namespace RoomState

section Change

variable {env : Env} {s s' : RoomState} {e : RoomEvent}

/-- A room of cards stays one, and its game is made by the events that start one. -/
theorem Change.hasGame_iff (h : Change env s e s') (hcards : s.room.PlaysCards) :
    s'.room.PlaysCards ∧ (s'.room.HasGame ↔ s.room.Starts e ∨ s.room.HasGame) := by
  have hkeeps (hgame : s'.room.game = s.room.game) (hstarts : ¬ s.room.Starts e) :
      s'.room.PlaysCards ∧ (s'.room.HasGame ↔ s.room.Starts e ∨ s.room.HasGame) := by
    rw [playsCards_congr hgame, hasGame_congr hgame, or_iff_right hstarts]
    exact ⟨hcards, Iff.rfl⟩
  cases h with
  | stays _ hstarts _ => exact hkeeps rfl hstarts
  | elsewhere | offline | leaves => exact hkeeps rfl fun h => h
  | joins h =>
    refine hkeeps ?_ fun h => nomatch h.1
    rw [h.room]
    rfl
  | prepares _ _ hstarts => exact hkeeps rfl hstarts
  | @starts c payload info prepared _ _ hstarts hgame =>
    have hset : (s.room.setPrepared c.connId info prepared).PlaysCards := hcards
    exact ⟨(hgame.hasGame hset rfl).2, iff_of_true (hgame.hasGame hset rfl).1 (.inl hstarts)⟩
  | plays hgame _ | finishes hgame _ =>
    exact ⟨(hgame.hasGame hcards rfl).2, iff_of_true (hgame.hasGame hcards rfl).1
      (.inr (hgame.hasGame_pre hcards))⟩

/-- An event that starts no game leaves a finished one alone iff it does not disturb
it. -/
theorem Change.quiet_iff (h : Change env s e s') (hcards : s.room.PlaysCards) :
    (¬ s.room.Starts e → s'.room.game = s.room.game ∧
      ¬ (s.room.Ends env e ∧ s.room.isEmpty = false)) ↔ ¬ s.room.Disturbs e := by
  have hkeeps (hgame : s'.room.game = s.room.game) (hasks : ¬ s.room.Asks e)
      (hends : ¬ s.room.Ends env e) :
      (¬ s.room.Starts e → s'.room.game = s.room.game ∧
        ¬ (s.room.Ends env e ∧ s.room.isEmpty = false)) ↔ ¬ s.room.Disturbs e :=
    iff_of_true (fun _ => ⟨hgame, fun h => hends h.1⟩) fun h => hasks h.asks
  have hbase (messageType : String) (hmem : messageType ∈ ["CREATE_ROOM", "GET_ROOM_LIST",
      "JOIN_ROOM", "CHAT_MESSAGE", "GAME_PREPARE"]) (c : Caller) (payload : Json) :
      ¬ s.room.Asks (.message c messageType payload) :=
    not_asks_of_isGameMessage (s.room.isGameMessage_eq_false hmem)
  cases h with
  | stays hasks _ hends => exact hkeeps rfl hasks hends
  | elsewhere | offline | leaves => exact hkeeps rfl (fun h => h) fun h => h
  | @joins c payload _ h =>
    have hasks := hbase "JOIN_ROOM" (by decide) c payload
    refine hkeeps ?_ hasks fun h => hasks h.asks
    rw [h.room]
    rfl
  | @prepares c payload =>
    have hasks := hbase "GAME_PREPARE" (by decide) c payload
    exact hkeeps rfl hasks fun h => hasks h.asks
  | @starts c payload _ _ _ _ hstarts =>
    have hasks := hbase "GAME_PREPARE" (by decide) c payload
    exact iff_of_true (fun h => absurd hstarts h) fun h => hasks h.asks
  | plays hgame _ | finishes hgame _ =>
    rw [← hgame.quiet_iff hcards]
    exact imp_iff_right hgame.not_starts

end Change

/-- The room is one of Uno or Splendor. -/
def Cards (s : RoomState) : Prop := s.room.PlaysCards

/-- The last game is over, and no new one has been started. -/
def Finished (s : RoomState) : Prop := ¬ s.Playing ∧ s.room.HasGame

/-- After the announcement of an end and before that of a start, an event that does not
start a game leaves the game as it is, and announces no end. -/
def Frozen (h : RoomHistory) : Prop :=
  ∀ h₁ x h₂ y h₃, h = h₁ ++ x :: (h₂ ++ y :: h₃) → OverAt x → (∀ z ∈ h₂, ¬ StartsAt z) →
    ¬ StartsAt y → y.post.room.game = y.pre.room.game ∧ ¬ OverAt y

section Run

variable {s₀ s : RoomState} {h : RoomHistory}

/-- A new room has no game of cards. -/
theorem Fresh.not_hasGame (h : s.Fresh) : ¬ s.room.HasGame := by
  obtain ⟨id, creator, creatorId, name, password, roomType, slot, hslot, hroom⟩ := h
  have hgame : s.room.game = slot := by rw [hroom]; rfl
  unfold HasGame
  rw [hgame]
  unfold Manager.newSlot at hslot
  split at hslot
  · obtain rfl := Option.some.inj hslot
    exact Bool.false_ne_true
  · split at hslot
    · obtain rfl := Option.some.inj hslot
      exact Bool.false_ne_true
    · split at hslot
      · obtain rfl := Option.some.inj hslot
        exact fun h => h
      · cases hslot

theorem Cards.of_run (hcards : s₀.Cards) (hr : RoomRun s₀ h s) : s.Cards :=
  hr.invariant hcards fun _ _ _ _ hs _ hstep => ((step_cases hstep).change.hasGame_iff hs).1

/-- What is known of the steps of a room of cards. -/
theorem cardsSpec_of_run (h₀ : s₀.Fresh) (hcards : s₀.Cards) (hr : RoomRun s₀ h s) :
    ∀ e ∈ h, e.pre.Occupied ∧ e.pre.Cards ∧
      Spec e.act.1 e.pre e.act.2 (e.out, e.post) := by
  intro e he
  obtain ⟨⟨l, hl⟩, -, -⟩ := hr.mem_entry e he
  obtain ⟨hocc, hspec⟩ := spec_of_run h₀ hr e he
  exact ⟨hocc, hcards.of_run hl, hspec⟩

/-- A game is finished since its end has been announced and no start. -/
theorem finished_post_iff (h₀ : s₀.Fresh) (hcards : s₀.Cards) (hr : RoomRun s₀ h s) :
    ∀ e ∈ h, (e.post.Finished ↔ OverAt e ∨ (¬ StartsAt e ∧ e.pre.Finished)) := by
  intro e he
  obtain ⟨hocc, hpre, hspec⟩ := cardsSpec_of_run h₀ hcards hr e he
  have hends : e.pre.room.Ends e.act.1 e.act.2 → e.pre.room.HasGame := fun h => h.hasGame hpre
  have hboth : e.pre.room.Ends e.act.1 e.act.2 → ¬ e.pre.room.Starts e.act.2 :=
    fun h => h.not_starts
  rw [StartsAt, OverAt, hspec.start, hspec.isOver, Finished, Playing, hspec.change.isGameOn_iff,
    (hspec.change.hasGame_iff hpre).2]
  constructor
  · rintro ⟨hoff, hgame⟩
    have hstarts : ¬ e.pre.room.Starts e.act.2 := fun h => hoff (.inl h)
    by_cases hon : e.pre.Playing
    · have hover : e.pre.room.Ends e.act.1 e.act.2 := by_contra fun h => hoff (.inr ⟨h, hon⟩)
      exact .inl ⟨hover, hocc hon⟩
    · exact .inr ⟨hstarts, hon, hgame.resolve_left hstarts⟩
  · rintro (⟨hover, -⟩ | ⟨hstarts, hon, hgame⟩)
    · exact ⟨fun h => h.elim (hboth hover) fun h => h.1 hover, .inr (hends hover)⟩
    · exact ⟨fun h => h.elim hstarts fun h => hon h.2, .inr hgame⟩

/-- **A finished game is frozen** exactly when nobody disturbs it before the next one. -/
theorem frozen_iff (h₀ : s₀.Fresh) (hcards : s₀.Cards) (hr : RoomRun s₀ h s) :
    Frozen h ↔ ∀ e ∈ h, e.pre.Finished → ¬ e.pre.room.Disturbs e.act.2 := by
  have hnew : ¬ s₀.Finished := by
    exact fun h => h₀.not_hasGame h.2
  have hbetween : Frozen h ↔ ∀ y ∈ h, y.pre.Finished →
      ¬ StartsAt y → y.post.room.game = y.pre.room.game ∧ ¬ OverAt y :=
    hr.forall_between_iff hnew (finished_post_iff h₀ hcards hr)
  rw [hbetween]
  refine forall₃_congr fun y hy _ => ?_
  obtain ⟨-, hpre, hspec⟩ := cardsSpec_of_run h₀ hcards hr y hy
  rw [StartsAt, OverAt, hspec.start, hspec.isOver]
  exact hspec.change.quiet_iff hpre

end Run

/-- User `k` plays a card, of the hand or not. -/
def playsCard (k : Nat) (card : Int) : Env × RoomEvent :=
  sends k "UNO_PLAY" [("card", .int card), ("specified_color", .int 0)]

/-- Users 1 to 3 join and prepare. -/
def threeStart : List (Env × RoomEvent) :=
  [1, 2, 3].map (fun k => sends k "JOIN_ROOM" []) ++ [1, 2, 3].map prepares

/-- User 2 gets rid of all cards but the last. -/
def unoRounds : List (Env × RoomEvent) :=
  [1, 2, 2, 3, 3].flatMap (fun card => [playsCard 2 card, playsCard 1 0, playsCard 3 0]) ++
    [sends 2 "UNO_SAY_UNO" [], playsCard 2 4, playsCard 1 0, playsCard 3 0]

theorem fresh_uno : (roomOf (.uno none)).Fresh :=
  ⟨0, "a", 1, "", "", "UNO", .uno none, rfl, rfl⟩

theorem exec_threeStart : execTo step (roomOf (.uno none)) threeStart (fun s => s.room.isGameOn) =
    true := by
  decide +kernel

/-- There is a game of Uno, and none is on. -/
def unoFinished (r : Room) : Bool :=
  !r.isGameOn && match r.game with
    | .uno unoGame => unoGame.isSome
    | _ => false

/-- The check finds a finished game of Uno. -/
theorem finished_of_unoFinished {s : RoomState} (h : unoFinished s.room = true) : s.Finished := by
  obtain ⟨hoff, hgame⟩ := Bool.and_eq_true_iff.mp h
  refine ⟨fun hon => ?_, ?_⟩
  · have hon : s.room.isGameOn = true := hon
    rw [hon] at hoff
    cases hoff
  · cases hslot : s.room.game with
    | uno =>
      rw [hslot] at hgame
      exact (hasGame_uno hslot).mpr hgame
    | splendor | gomoku =>
      rw [hslot] at hgame
      cases hgame

theorem exec_unoWon : execTo step (roomOf (.uno none)) (threeStart ++ unoRounds ++ [playsCard 2 4])
    (fun s => unoFinished s.room && stepTo step s (playsCard 3 0) fun out _ =>
      !announces startTypes out && announces overTypes out) = true := by
  decide +kernel

/-- User 2 wins. Then user 3 plays out of turn, and the end is announced again. -/
theorem exists_unoWon : ∃ h s out s', RoomRun (roomOf (.uno none)) h s ∧
    h.map Entry.act = threeStart ++ unoRounds ++ [playsCard 2 4] ∧ s.Finished ∧
    s.step (playsCard 3 0) = .ok (out, s') ∧ announces startTypes out = false ∧
    announces overTypes out = true := by
  obtain ⟨h, s, hr, hacts, hcheck⟩ := exists_run_of_execTo exec_unoWon
  obtain ⟨hfinished, hnext⟩ := Bool.and_eq_true_iff.mp hcheck
  obtain ⟨out, s', hstep, hout⟩ := exists_of_stepTo hnext
  obtain ⟨hstart, hover⟩ := Bool.and_eq_true_iff.mp hout
  exact ⟨h, s, out, s', hr, hacts, finished_of_unoFinished hfinished, hstep,
    (Bool.not_eq_true' _).mp hstart, hover⟩

theorem frozen_iff_unoWon : ∃ h s, RoomRun (roomOf (.uno none)) h s ∧ s.Finished ∧
    (Frozen h ↔ ∀ e ∈ h, e.pre.Finished → ¬ e.pre.room.Disturbs e.act.2) := by
  obtain ⟨h, s, _, _, hr, -, hfinished, -⟩ := exists_unoWon
  exact ⟨h, s, hr, hfinished, frozen_iff fresh_uno trivial hr⟩

/-- A game of Uno whose end is announced twice. -/
theorem uno_over_twice : ∃ h s, RoomRun (roomOf (.uno none)) h s ∧
    h.map Entry.act = threeStart ++ unoRounds ++ [playsCard 2 4] ++ [playsCard 3 0] ∧
    ¬ Frozen h := by
  obtain ⟨h, s, out, s', hr, hacts, hfinished, hstep, hstart, hover⟩ := exists_unoWon
  have hr' := hr.snoc trivial hstep
  refine ⟨_, s', hr', by rw [List.map_append, hacts]; rfl, fun hfrozen => ?_⟩
  have hbefore : Since OverAt (fun e => ¬ StartsAt e) h := by
    have hnew : ¬ (roomOf (.uno none)).Finished := fun h => fresh_uno.not_hasGame h.2
    exact (hr.held_iff_since hnew (finished_post_iff fresh_uno trivial hr)).mp hfinished
  obtain ⟨h₁, x, h₂, rfl, hx, hquiet⟩ := hbefore
  have hlast := hfrozen h₁ x h₂ ⟨s, playsCard 3 0, out, s'⟩ [] (by simp) hx hquiet
  refine (hlast fun h => ?_).2 hover
  exact Bool.false_ne_true (hstart.symm.trans h)

end RoomState

end UnoppServer
