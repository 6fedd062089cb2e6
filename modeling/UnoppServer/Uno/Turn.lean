import UnoppServer.Lib.Runs
import UnoppServer.Uno.Deal
import UnoppServer.Uno.Effect

/-!
# Uno: whose turn it is

A call by anybody but the next player is refused, and a `say_uno` of another
player costs that player two cards and nobody else anything (`RespectsTurn`).
This holds of the callers who play (`respects_turn_iff`). A `say_uno` of a user who
does not play passes the loop of `say_uno` over the players and is taken for one of
the next player (`sayUno_of_not_mem`), who draws two cards or has said UNO.
-/

namespace UnoppServer.Uno

open FindIf Runs

/-! ## The users of a game -/

theorem ids_dealt (u : Uno) (i k : Nat) : (u.dealt i k).ids = u.ids :=
  map_dealt (fun _ _ => rfl) u i k

theorem ids_unannounced (u : Uno) : u.unannounced.ids = u.ids := ids_modifyPlayer fun _ => rfl

theorem ids_played (u : Uno) (card : Card) (specifiedColor : Int) :
    (u.played card specifiedColor).ids = u.ids := by
  have happlied : (u.played card specifiedColor).ids = (u.putCard card).punished.ids :=
    map_applied (fun _ _ => rfl) _ card
  rw [happlied, punished, ids_unannounced, ids_dealt, ids_putCard]

theorem ids_drew (u : Uno) (card : Card) : (u.drew card).ids = u.ids := by
  have hdrew : (u.drew card).ids = (u.drawing.dealt u.nextPlayerIdx 1).ids :=
    ids_modifyPlayer fun _ => rfl
  have hdrawing : u.drawing.ids = u.hushed.ids := ids_modifyPlayer fun _ => rfl
  rw [hdrew, ids_dealt, hdrawing, hushed, ids_unannounced, ids_dealt]

/-- The players keep their seats. -/
theorem ids_effect {u u' : Uno} {op : Op} {b : Bool} (h : Effect u op b u') : u'.ids = u.ids := by
  cases h with
  | play hacc specifiedColor => exact ids_played ..
  | drawOne hmay card => exact ids_drew ..
  | skip hmay => exact ids_modifyPlayer fun _ => rfl
  | announce hmay => exact ids_modifyPlayer fun _ => rfl
  | interrupt hseat => exact ids_dealt ..
  | missay hseat hmany => exact ids_dealt ..
  | suspect hmay => exact map_penalised (fun _ _ => rfl) u _
  | dissuspect hmay => exact ids_dealt ..

theorem ids_step {u u' : Uno} {op : Op} {b : Bool} (h : u.step op = .ok (b, u')) :
    u'.ids = u.ids := by
  rcases step_cases h with ⟨-, rfl, -⟩ | he
  · rfl
  · exact ids_effect he

/-- **The players of a game** are the users that it was made for, throughout. -/
theorem ids_run {users : List Int} {hne : users ≠ []} {draw : Nat → Nat} {u₀ u : Uno}
    {h : List (Entry Uno Op Bool)} (hnew : Uno.new users hne draw = .ok u₀)
    (hr : Run step (fun _ _ => True) u₀ h u) : u.ids.Perm users := by
  have hsame : u.ids = u₀.ids := by
    induction hr with
    | nil => rfl
    | snoc _ _ hs ih => exact (ids_step hs).trans ih
  rw [hsame]
  exact ids_new _ hnew

/-! ## Calls out of turn -/

/-- The user who makes a call. -/
def Op.caller : Op → Int
  | .play playerId _ _ | .drawOne playerId | .skipAfterDrawingOne playerId | .sayUno playerId
  | .suspect playerId | .dissuspect playerId => playerId

/-- The call is refused and changes nothing, except that a `say_uno` of a player costs
this player two cards. -/
def RespectsTurn (u : Uno) : Op → Prop
  | .sayUno playerId =>
    (∃ i p, u.players[i]? = some p ∧ p.userId = playerId ∧
      u.sayUno playerId = .ok (false, u.dealt i 2) ∧
      ∀ j, j ≠ i → (u.dealt i 2).players[j]? = u.players[j]?) ∨
    playerId ∉ u.ids ∧ u.sayUno playerId = .ok (false, u)
  | op => u.step op = .ok (false, u)

/-- The loop of `say_uno` finds every player but the next one. -/
theorem exists_seatOf {u : Uno} {playerId : Int} (hmem : playerId ∈ u.ids)
    (hne : playerId ≠ u.player.userId) :
    ∃ i p, u.seatOf playerId = some (i, p) ∧ u.players[i]? = some p ∧ p.userId = playerId := by
  obtain ⟨p, hp, hid⟩ := List.mem_map.mp hmem
  obtain ⟨i, p', hfind⟩ := exists_findIf (p := fun p => decide (p.userId = playerId)) hp
    (decide_eq_true hid)
  obtain ⟨hget, hid'⟩ := findIf_eq_some hfind
  refine ⟨i, p', ?_, hget, of_decide_eq_true hid'⟩
  unfold seatOf
  rw [if_pos hne]
  exact hfind

/-- It does not find anybody else. -/
theorem seatOf_eq_none {u : Uno} {playerId : Int} (hmem : playerId ∉ u.ids) :
    u.seatOf playerId = none := by
  unfold seatOf
  split
  · refine findIf_eq_none.mpr fun p hp => decide_eq_false fun hid => hmem ?_
    exact List.mem_map.mpr ⟨p, hp, hid⟩
  · rfl

/-- Saying UNO out of turn costs the two cards. -/
theorem sayUno_of_seatOf {u : Uno} (hdeck : 2 ≤ u.deckSize) {playerId : Int} {i : Nat} {p : Player}
    (hseat : u.seatOf playerId = some (i, p)) :
    u.sayUno playerId = .ok (false, u.dealt i 2) := by
  obtain ⟨r, hr⟩ := (takes_give u i 2).yields.mpr hdeck
  have hdealt := give_dealt u i 2 r hr
  unfold sayUno
  rw [hseat]
  show (u.give i 2 >>= fun r => .ok (false, r.2)) = _
  rw [hr, ← hdealt]
  rfl

/-- **A user who does not play** speaks for the next player. -/
theorem sayUno_of_not_mem {u : Uno} {playerId : Int} (hmem : playerId ∉ u.ids) :
    u.sayUno playerId = u.sayUno u.player.userId := by
  have hnext : u.seatOf u.player.userId = none := by
    unfold seatOf
    exact if_neg (not_not.mpr rfl)
  unfold sayUno
  rw [seatOf_eq_none hmem, hnext]

/-- A `say_uno` in the name of the next player is never refused without a penalty. -/
theorem sayUno_ne {u : Uno} {playerId : Int} : u.sayUno playerId ≠ .ok (false, u) := by
  intro h
  have hstep : u.step (.sayUno playerId) = .ok (false, u) := h
  have hidle : Op.Idle u (.sayUno playerId) := (step_eq_iff hstep).mp rfl
  rw [sayUno_accepted hidle.1] at h
  cases h

/-- A `say_uno` out of turn respects the turn iff the caller plays. -/
theorem sayUno_respects_iff {u : Uno} (hdeck : 2 ≤ u.deckSize) {playerId : Int}
    (hne : playerId ≠ u.player.userId) :
    RespectsTurn u (.sayUno playerId) ↔ playerId ∈ u.ids := by
  constructor
  · rintro (⟨i, p, hget, hid, -⟩ | ⟨-, hsame⟩)
    · exact List.mem_map.mpr ⟨p, List.mem_of_getElem? hget, hid⟩
    · exact absurd hsame sayUno_ne
  · intro hmem
    obtain ⟨i, p, hseat, hget, hid⟩ := exists_seatOf hmem hne
    exact .inl ⟨i, p, hget, hid, sayUno_of_seatOf hdeck hseat, fun j hj => getElem?_dealt_ne hj 2⟩

/-- Every other operation asks for the turn before it changes anything. -/
theorem refused_of_caller {u : Uno} {op : Op} (hne : op.caller ≠ u.player.userId)
    (hop : ∀ playerId, op ≠ .sayUno playerId) : op.Refused u := by
  cases op with
  | sayUno playerId => exact absurd rfl (hop playerId)
  | play | drawOne | skipAfterDrawingOne | suspect | dissuspect => exact fun h => hne h.caller

/-- **Turn authority**: after every run, with cards to draw, a call out of turn
respects the turn iff it is not a `say_uno` of a user who does not play. -/
theorem respects_turn_iff {users : List Int} {hne : users ≠ []} {draw : Nat → Nat} {u₀ u : Uno}
    {h : List (Entry Uno Op Bool)} (hnew : Uno.new users hne draw = .ok u₀)
    (hr : Run step (fun _ _ => True) u₀ h u) (hdeck : 2 < u.deckSize) {op : Op}
    (hcaller : op.caller ≠ u.player.userId) :
    RespectsTurn u op ↔ ∀ playerId, op = .sayUno playerId → playerId ∈ users := by
  have hmem (playerId : Int) : playerId ∈ u.ids ↔ playerId ∈ users := (ids_run hnew hr).mem_iff
  cases op with
  | sayUno playerId =>
    refine (sayUno_respects_iff hdeck.le hcaller).trans ((hmem playerId).trans ?_)
    constructor
    · rintro hseated _ ⟨⟩
      exact hseated
    · exact fun hall => hall playerId rfl
  | play | drawOne | skipAfterDrawingOne | suspect | dissuspect =>
    refine iff_of_true (step_refused (refused_of_caller hcaller fun _ => nofun)) fun _ => nofun

/-- A game of three, and what a stranger's `say_uno` does to it. -/
theorem exec_stranger : (match Uno.new [1, 2, 3] (by decide) (fun _ => 0) with
    | .ok u₀ => decide (2 < u₀.deckSize) && decide (4 ∉ u₀.ids) && decide (u₀.player.userId = 2) &&
      match u₀.sayUno 4 with
      | .ok (_, u) => decide (u₀.player.cardsInHand.length = 7 ∧ u.player.cardsInHand.length = 9)
      | .error _ => false
    | .error _ => false) = true := by
  decide +kernel

/-- Someone without a seat says UNO, and the player to move pays for it. -/
theorem stranger : ∃ u₀ b u, Uno.new [1, 2, 3] (by decide) (fun _ => 0) = .ok u₀ ∧
    2 < u₀.deckSize ∧ 4 ∉ u₀.ids ∧ u₀.player.userId = 2 ∧ u₀.sayUno 4 = .ok (b, u) ∧
    u₀.player.cardsInHand.length = 7 ∧ u.player.cardsInHand.length = 9 := by
  have hcheck := exec_stranger
  split at hcheck
  · rename_i u₀ hnew
    obtain ⟨hseats, hsay⟩ := Bool.and_eq_true_iff.mp hcheck
    obtain ⟨hseats, htwo⟩ := Bool.and_eq_true_iff.mp hseats
    obtain ⟨hdeck, hfour⟩ := Bool.and_eq_true_iff.mp hseats
    split at hsay
    · rename_i b u hu
      exact ⟨u₀, b, u, hnew, of_decide_eq_true hdeck, of_decide_eq_true hfour,
        of_decide_eq_true htwo, hu, of_decide_eq_true hsay⟩
    · cases hsay
  · cases hcheck

/-- User 4 does not play, says UNO, and user 2, whose turn it is, has two more cards. -/
theorem stranger_penalises : ∃ u₀ b u, Uno.new [1, 2, 3] (by decide) (fun _ => 0) = .ok u₀ ∧
    2 < u₀.deckSize ∧ 4 ∉ u₀.ids ∧ u₀.player.userId = 2 ∧ u₀.sayUno 4 = .ok (b, u) ∧
    u₀.player.cardsInHand.length = 7 ∧ u.player.cardsInHand.length = 9 ∧
    ¬ RespectsTurn u₀ (.sayUno 4) := by
  obtain ⟨u₀, b, u, hnew, hdeck, hfour, htwo, hu, hcards⟩ := stranger
  refine ⟨u₀, b, u, hnew, hdeck, hfour, htwo, hu, hcards.1, hcards.2, fun hrespects => hfour ?_⟩
  refine (sayUno_respects_iff hdeck.le ?_).mp hrespects
  rw [htwo]
  decide

theorem respects_turn_iff_three : ∃ u₀, Uno.new [1, 2, 3] (by decide) (fun _ => 0) = .ok u₀ ∧
    (RespectsTurn u₀ (.sayUno 4) ↔ ∀ playerId, Op.sayUno 4 = .sayUno playerId →
      playerId ∈ [(1 : Int), 2, 3]) := by
  obtain ⟨u₀, -, -, hnew, hdeck, -, htwo, -⟩ := stranger
  refine ⟨u₀, hnew, respects_turn_iff hnew .nil hdeck ?_⟩
  rw [htwo]
  decide

end UnoppServer.Uno
