import UnoppServer.Lib.Runs
import UnoppServer.Uno.Deal
import UnoppServer.Uno.Idle

/-!
# Uno: the deck runs out

Cards leave the deck through `draw_one` and six kinds of penalties, and `play`
brings back one at a time. Nothing in the operations asks whether the deck has
the cards that `give` takes from it, and a `say_uno` of anybody at any time takes
two. `Op.Supplied` is what a call needs: the cards that it takes, and one that
is left to be shown.

- `supplied_iff`: a call completes and leaves a card iff it is supplied;
- `game_safe_iff`: a game never draws from an empty deck iff all its calls are
  supplied;
- `sayUno_exhausts`: a game in which they are not.
-/

namespace UnoppServer.Uno

open Runs

/-- The deck has the cards that the call takes, and one more. -/
def Op.Supplied (u : Uno) : Op → Prop
  | .play playerId card _ => u.Accepts playerId card → u.playTakes card ≤ u.deckSize
  | .drawOne playerId => u.MayDraw playerId → u.said + 1 < u.deckSize
  | .skipAfterDrawingOne _ => True
  | .sayUno playerId => ¬ u.MaySay playerId → 2 < u.deckSize
  | .suspect playerId =>
    u.MayAnswer playerId → (if u.isGuilty u.lastPlayer then 4 else 6) < u.deckSize
  | .dissuspect playerId => u.MayAnswer playerId → 4 < u.deckSize

/-- A computation that takes `k` cards completes and leaves one iff there are more. -/
theorem leaves_iff {α : Type} {u : Uno} {k : Nat} {r : Except Fault α} {state : α → Uno}
    (h : Takes u k r state) : (∃ a, r = .ok a ∧ 0 < (state a).deckSize) ↔ k < u.deckSize := by
  constructor
  · rintro ⟨a, rfl, hpos⟩
    have := (h.spent a rfl).size
    omega
  · intro hlt
    obtain ⟨a, rfl⟩ := h.yields.mpr hlt.le
    have := (h.spent a rfl).size
    exact ⟨a, rfl, by omega⟩

/-- A call that changes at most the flags of a player. -/
theorem leaves_of_ok {u u' : Uno} {op : Op} {b : Bool} (hpos : 0 < u.deckSize)
    (h : u.step op = .ok (b, u')) (hdeck : u'.deckSize = u.deckSize) :
    ∃ r, u.step op = .ok r ∧ 0 < r.2.deckSize :=
  ⟨_, h, hdeck.symm ▸ hpos⟩

/-- A call that is refused needs no cards. -/
theorem Op.supplied_of_refused {u : Uno} {op : Op} (h : op.Refused u) : op.Supplied u := by
  cases op with
  | play => exact fun hacc => absurd hacc h
  | drawOne => exact fun hmay => absurd hmay h
  | skipAfterDrawingOne => trivial
  | sayUno => exact h.elim
  | suspect => exact fun hmay => absurd hmay h
  | dissuspect => exact fun hmay => absurd hmay h

/-- **Step lemma**: a call completes and leaves a card in the deck iff it is
supplied. -/
theorem supplied_iff {u : Uno} (hpos : 0 < u.deckSize) (op : Op) :
    (∃ r, u.step op = .ok r ∧ 0 < r.2.deckSize) ↔ op.Supplied u := by
  by_cases href : op.Refused u
  · exact iff_of_true (leaves_of_ok hpos (step_refused href) rfl) (Op.supplied_of_refused href)
  cases op with
  | play playerId card specifiedColor =>
    have hacc : u.Accepts playerId card := not_not.mp href
    have htakes : Takes (u.putCard card) (u.playTakes card)
        (u.step (.play playerId card specifiedColor)) Prod.snd :=
      (takes_play hacc specifiedColor).bind (j := 0) fun r _ => .ok (.refl r.2)
    rw [leaves_iff htakes, deckSize_putCard, Nat.lt_succ_iff]
    exact (imp_iff_right hacc).symm
  | drawOne playerId =>
    have hmay : u.MayDraw playerId := not_not.mp href
    have htakes : Takes u (u.said + 1) (u.step (.drawOne playerId)) Prod.snd :=
      (takes_drawOne hmay).1.bind (j := 0) fun r _ => .ok (.refl r.2)
    rw [leaves_iff htakes]
    exact (imp_iff_right hmay).symm
  | skipAfterDrawingOne playerId =>
    exact iff_of_true (leaves_of_ok hpos (skip_accepted (not_not.mp href)) rfl) trivial
  | sayUno playerId =>
    by_cases hmay : u.MaySay playerId
    · exact iff_of_true (leaves_of_ok hpos (sayUno_accepted hmay) rfl) fun h => absurd hmay h
    · have htakes : Takes u 2 (u.step (.sayUno playerId)) Prod.snd := (takes_sayUno hmay).1
      rw [leaves_iff htakes]
      exact (imp_iff_right hmay).symm
  | suspect playerId =>
    have hmay : u.MayAnswer playerId := not_not.mp href
    have htakes : Takes u (if u.isGuilty u.lastPlayer then 4 else 6)
        (u.step (.suspect playerId)) Prod.snd :=
      (takes_suspect hmay).1.bind (j := 0) fun r _ => .ok (.refl r.2)
    rw [leaves_iff htakes]
    exact (imp_iff_right hmay).symm
  | dissuspect playerId =>
    have hmay : u.MayAnswer playerId := not_not.mp href
    have htakes : Takes u 4 (u.step (.dissuspect playerId)) Prod.snd := (takes_dissuspect hmay).1
    rw [leaves_iff htakes]
    exact (imp_iff_right hmay).symm

/-- No call of the game draws from an empty deck, and there is always a card to
show. -/
def Safe (u₀ : Uno) (ops : List Op) : Prop :=
  ∀ pre, pre <+: ops → ∃ u, exec step u₀ pre = .ok u ∧ 0 < u.deckSize

/-- **The deck of a game**: dealing to at most ten players succeeds and leaves
cards, and a sequence of calls by any users never draws from an empty deck and
always leaves a card to show iff each call is supplied in the state it meets. -/
theorem game_safe_iff {users : List Int} (hne : users ≠ []) (hlen : users.length ≤ 10)
    (draw : Nat → Nat) :
    ∃ u₀, Uno.new users hne draw = .ok u₀ ∧ ∀ ops : List Op,
      Safe u₀ ops ↔ ∀ pre op post u, ops = pre ++ op :: post → exec step u₀ pre = .ok u →
        Op.Supplied u op := by
  obtain ⟨u₀, hnew, -, hpos⟩ := exists_new hne hlen draw
  refine ⟨u₀, hnew, fun ops => ?_⟩
  exact exec_safe_iff (fun u op hu => supplied_iff hu op) hpos

theorem game_safe_iff_three : ∃ u₀, Uno.new [1, 2, 3] (by decide) (fun _ => 0) = .ok u₀ ∧
    (Safe u₀ [.sayUno 4] ↔ ∀ pre op post u, [.sayUno 4] = pre ++ op :: post →
      exec step u₀ pre = .ok u → Op.Supplied u op) := by
  have hne : [(1 : Int), 2, 3] ≠ [] := by decide
  obtain ⟨u₀, hnew, h⟩ := game_safe_iff hne (by decide) fun _ => 0
  exact ⟨u₀, hnew, h _⟩

/-- One user says UNO forty-four times in a game of three. -/
theorem exec_sayUno : (match Uno.new [1, 2, 3] (by decide) (fun _ => 0) with
    | .ok u₀ =>
      match exec step u₀ (List.replicate 43 (.sayUno 1)),
        exec step u₀ (List.replicate 44 (.sayUno 1)) with
      | .ok u, .error .emptyQueue => decide (u.deckSize = 1)
      | _, _ => false
    | .error _ => false) = true := by
  decide +kernel

/-- The last but one of these calls leaves one card in the deck, and the last one
takes two. -/
theorem sayUno_exhausts : ∃ u₀ u, Uno.new [1, 2, 3] (by decide) (fun _ => 0) = .ok u₀ ∧
    exec step u₀ (List.replicate 43 (.sayUno 1)) = .ok u ∧ u.deckSize = 1 ∧
    exec step u₀ (List.replicate 44 (.sayUno 1)) = .error .emptyQueue := by
  have hcheck := exec_sayUno
  split at hcheck
  · rename_i u₀ hnew
    split at hcheck
    · rename_i u hu hfault
      exact ⟨u₀, u, hnew, hu, of_decide_eq_true hcheck, hfault⟩
    · cases hcheck
  · cases hcheck

end UnoppServer.Uno
