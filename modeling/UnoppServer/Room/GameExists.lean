import UnoppServer.Room.Faults

/-!
# Rooms: calls before the first game

`uno_game` and `game` are null until a game has been started, and the messages of a game
go to them without a question. The rejoin path asks for `is_game_on` first.

- `neverNull_iff`: no null pointer is dereferenced exactly when every message that asks
  for an operation comes after the start of a game.
-/

namespace UnoppServer

open Runs Room

namespace Room

section HasGame

variable {env : Env} {r : Room} {event : RoomEvent}

/-- The state of a game that exists is sent without touching a null pointer. -/
theorem sendState_ne_nullPointer (hcards : r.PlaysCards) (hgame : r.HasGame) :
    r.sendState env ≠ .error .nullPointer := by
  unfold sendState
  cases hslot : r.game with
  | uno unoGame =>
    rw [hasGame_uno hslot] at hgame
    cases unoGame with
    | none => cases hgame
    | some u =>
      intro h
      exact nomatch ((failsIff_sendUno _ (.inl rfl)).mp h).1
  | splendor game =>
    rw [hasGame_splendor hslot] at hgame
    cases game with
    | none => cases hgame
    | some g => exact fun h => nomatch h
  | gomoku => exact absurd hslot hcards.not_gomoku

/-- An operation runs into a null pointer iff there is no game. -/
theorem blamed_nullPointer_iff (hcards : r.PlaysCards) :
    r.Blamed .nullPointer event ↔ r.Asks event ∧ ¬ r.HasGame := by
  unfold Blamed Asks HasGame
  cases event with
  | message c messageType payload =>
    cases hslot : r.game with
    | uno unoGame =>
      dsimp only
      rw [← exists_and_right]
      refine exists_congr fun op => and_congr_right fun _ => ?_
      constructor
      · rintro (⟨rfl, -⟩ | ⟨_, _, h, _⟩)
        · exact Bool.false_ne_true
        · cases h
      · intro h
        exact .inl ⟨Option.not_isSome_iff_eq_none.mp h, rfl⟩
    | splendor game =>
      dsimp only
      rw [← exists_and_right]
      refine exists_congr fun op => and_congr_right fun _ => ?_
      rw [Option.not_isSome_iff_eq_none]
      exact and_iff_left rfl
    | gomoku => exact absurd hslot hcards.not_gomoku
  | close | update | elsewhere => exact iff_of_false (fun h => h) fun h => h.1

end HasGame

end Room

namespace RoomState

/-- There is a game. -/
def HasGame (s : RoomState) : Prop := s.room.HasGame

/-- A room of cards in which no game is on without a game to play. -/
structure Provided (s : RoomState) : Prop where
  cards : s.Cards
  game : s.Playing → s.HasGame

theorem Change.provided {env : Env} {s s' : RoomState} {e : RoomEvent} (h : Change env s e s')
    (hs : s.Provided) : s'.Provided := by
  obtain ⟨hcards', hgame'⟩ := h.hasGame_iff hs.cards
  refine ⟨hcards', fun hon => hgame'.mpr ?_⟩
  exact (h.isGameOn_iff.mp hon).imp_right fun hon => hs.game hon.2

section Run

variable {s₀ s : RoomState} {h : RoomHistory}

theorem Provided.of_run (h₀ : s₀.Fresh) (hcards : s₀.Cards) (hr : RoomRun s₀ h s) :
    s.Provided := by
  have hfresh : s₀.Provided := ⟨hcards, fun hon => absurd hon h₀.not_playing⟩
  exact hr.invariant hfresh fun _ _ _ _ hs _ hstep => (step_cases hstep).change.provided hs

/-- There is a game since the first one has been started. -/
theorem hasGame_iff_started (h₀ : s₀.Fresh) (hcards : s₀.Cards) (hr : RoomRun s₀ h s) :
    s.HasGame ↔ ∃ x ∈ h, x.pre.room.Starts x.act.2 := by
  have hnew : ¬ s₀.HasGame := h₀.not_hasGame
  rw [← since_true_iff]
  refine hr.held_iff_since hnew fun e he => ?_
  obtain ⟨-, hpre, hspec⟩ := cardsSpec_of_run h₀ hcards hr e he
  rw [true_and]
  exact (hspec.change.hasGame_iff hpre).2

/-- **One event** makes a handler dereference a null pointer iff it asks for an operation
while there is no game. -/
theorem step_nullPointer_iff (hs : s.Provided) (e : Env × RoomEvent) :
    s.step e = .error .nullPointer ↔ s.room.Asks e.2 ∧ ¬ s.HasGame := by
  rw [HasGame, ← blamed_nullPointer_iff hs.cards]
  refine step_error_iff (.inl rfl) hs.cards fun s' hchange hon => ?_
  have hs' := hchange.provided hs
  exact sendState_ne_nullPointer hs'.cards (hs'.game hon)

/-- No handler dereferences a null pointer while the events are handled. -/
def NeverNull (s₀ : RoomState) (as : List (Env × RoomEvent)) : Prop :=
  exec step s₀ as ≠ .error .nullPointer

/-- **No null pointer is dereferenced** exactly when every message that asks for an
operation comes after the start of a game. -/
theorem neverNull_iff (h₀ : s₀.Fresh) (hcards : s₀.Cards) (as : List (Env × RoomEvent)) :
    NeverNull s₀ as ↔ ∀ h s a post, RoomRun s₀ h s → as = h.map Entry.act ++ a :: post →
      s.room.Asks a.2 → ∃ x ∈ h, x.pre.room.Starts x.act.2 := by
  refine exec_ne_error_iff fun h s a post hr _ => ?_
  rw [step_nullPointer_iff (.of_run h₀ hcards hr), hasGame_iff_started h₀ hcards hr,
    Classical.not_imp]

end Run

theorem neverNull_iff_threeStart : NeverNull (roomOf (.uno none)) threeStart ∧
    (NeverNull (roomOf (.uno none)) threeStart ↔ ∀ h s a post, RoomRun (roomOf (.uno none)) h s →
      threeStart = h.map Entry.act ++ a :: post → s.room.Asks a.2 →
        ∃ x ∈ h, x.pre.room.Starts x.act.2) := by
  refine ⟨fun hnull => ?_, neverNull_iff fresh_uno trivial threeStart⟩
  obtain ⟨s, hs, -⟩ := exists_of_execTo exec_threeStart
  cases hnull.symm.trans hs

/-- User 1 joins a room of Uno and draws a card. -/
theorem uno_draws_from_null :
    ¬ NeverNull (roomOf (.uno none)) [sends 1 "JOIN_ROOM" [], sends 1 "UNO_DRAW_ONE" []] := by
  have hnull : (match exec step (roomOf (.uno none))
      [sends 1 "JOIN_ROOM" [], sends 1 "UNO_DRAW_ONE" []] with
      | .error e => decide (e = .nullPointer)
      | .ok _ => false) = true := by
    decide +kernel
  split at hnull
  · rename_i e he
    obtain rfl := of_decide_eq_true hnull
    exact not_not.mpr he
  · cases hnull

end RoomState

end UnoppServer
