import UnoppServer.Room.GomokuEnd
import UnoppServer.Room.Rejoin

/-!
# Rooms: the colours of a Gomoku game

`on_everyone_prepared` writes all of `user_id_to_is_black` when two players start. When one
player starts against the algorithm, the colour of the second entry is left as it is, and a game
between two players has left it black.

- `startGomoku_assigns`: what a start does to the entries;
- `assigned_iff`: the colours are right at every start exactly when nobody starts alone after a
  game between two players.
-/

namespace UnoppServer

open Assoc FindIf Runs Room

namespace Room

/-- `user_id_to_is_black` of a Gomoku room. -/
def colors (r : Room) : Option Colors :=
  match r.game with
  | .gomoku _ colors _ => some colors
  | _ => none

theorem colors_of_game {r : Room} {g : Gomoku} {colors : Colors} {updates : Nat}
    (hgame : r.game = .gomoku g colors updates) : r.colors = some colors := by
  unfold Room.colors
  rw [hgame]

/-- One entry is black, two players have an entry each, and a single player is black and the
algorithm white. -/
structure Assigned (users : Multiset Int) (colors : Colors) : Prop where
  oneBlack : [colors.1, colors.2].countP Prod.snd = 1
  two : Multiset.card users = 2 → users = {colors.1.1, colors.2.1}
  alone : ∀ id, users = {id} → colors = ((id, true), (0, false))

/-- `Assigns users colors colors'`: what a start makes of the entries. -/
inductive Assigns (users : Multiset Int) (colors : Colors) : Colors → Prop where
  | alone {id : Int} (h : users = {id}) : Assigns users colors ((id, true), (0, colors.2.2))
  | pair {i j : Int} (h : users = {i, j}) : Assigns users colors ((i, false), (j, true))

section Assigns

variable {users : Multiset Int} {colors colors' : Colors}

/-- The second entry is black afterwards when it was before, or when there are two players. -/
theorem Assigns.black_iff (h : Assigns users colors colors') :
    colors'.2.2 = true ↔ Multiset.card users = 2 ∨ colors.2.2 = true := by
  cases h with
  | alone h =>
    rw [h, Multiset.card_singleton]
    exact (or_iff_right (by decide)).symm
  | pair h =>
    rw [h]
    exact iff_of_true rfl (.inl (Multiset.card_pair _ _))

/-- A single player needs the second entry to be white. -/
theorem Assigns.assigned_users_iff (h : Assigns users colors colors') :
    Assigned users colors' ↔ (Multiset.card users = 1 → colors.2.2 = false) := by
  cases h with
  | @alone id h =>
    subst h
    rw [Multiset.card_singleton, imp_iff_right rfl]
    constructor
    · intro hassigned
      exact congrArg (fun colors : Colors => colors.2.2) (hassigned.alone id rfl)
    · intro hwhite
      rw [hwhite]
      refine ⟨rfl, fun htwo => ?_, fun id' hid => ?_⟩
      · exact absurd htwo (by rw [Multiset.card_singleton]; decide)
      · rw [Multiset.singleton_inj.mp hid]
  | @pair i j h =>
    subst h
    refine iff_of_true ⟨rfl, fun _ => rfl, fun id hid => ?_⟩ fun hone => ?_
    · have hcard := congrArg Multiset.card hid
      rw [Multiset.card_pair, Multiset.card_singleton] at hcard
      cases hcard
    · rw [Multiset.card_pair] at hone
      cases hone

end Assigns

theorem users_eq_members (env : Env) (r : Room) :
    r.users = ((r.members env).map fun p => p.2.userId : List Int) := by
  have hperm : (r.members env).Perm (r.connections.entries.map fun e => (e.1, e.2)) :=
    hashOrder_perm ..
  rw [users, values, Multiset.map_coe, Multiset.coe_eq_coe.mpr (hperm.map fun p => p.2.userId),
    List.map_map, List.map_map]
  rfl

theorem users_clearPrepared (r : Room) : r.clearPrepared.users = r.users := by
  unfold users values clearPrepared mapValues
  rw [Multiset.map_coe, Multiset.map_coe, List.map_map, List.map_map, List.map_map]
  rfl

/-- **A start** with one member or two. -/
theorem startGomoku_assigns (env : Env) {r : Room} (g : Gomoku) (colors : Colors) (updates : Nat)
    (hsome : r.connections.entries ≠ []) (hfew : r.connections.entries.length ≤ 2) :
    (r.startGomoku env g colors updates).2.users = r.users ∧ ∃ g' colors',
      (r.startGomoku env g colors updates).2.game = .gomoku g' colors' updates ∧
        Assigns r.users colors colors' := by
  have hlen : (r.members env).length = r.connections.entries.length := length_ranked ..
  have husers := users_eq_members env r
  unfold startGomoku
  dsimp only
  rw [if_neg (by omega)]
  refine ⟨users_clearPrepared _, ?_⟩
  match hmembers : r.members env with
  | [] =>
    rw [hmembers] at hlen
    exact absurd (List.length_eq_zero_iff.mp hlen.symm) hsome
  | [(_, p)] =>
    rw [hmembers] at husers
    exact ⟨_, _, rfl, .alone husers⟩
  | [(_, p), (_, q)] =>
    rw [hmembers] at husers
    refine ⟨_, _, rfl, ?_⟩
    -- `rand() % 2` says which of the two is written first
    cases decide (env.draw 0 % 2 = 1) with
    | true => exact .pair (husers.trans (Multiset.pair_comm p.userId q.userId))
    | false => exact .pair husers
  | _ :: _ :: _ :: _ =>
    rw [hmembers] at hlen
    simp only [List.length_cons] at hlen
    omega

end Room

namespace RoomState

section Steps

variable {env : Env} {s s' : RoomState} {g : Gomoku} {colors : Colors} {updates : Nat}
  {out : Outbox} {e : RoomEvent}

/-- Nothing but a start assigns colours. -/
theorem colors_cases (hgame : s.room.game = .gomoku g colors updates)
    (h : s.step (env, e) = .ok (out, s')) :
    ∃ g' colors' updates', s'.room.game = .gomoku g' colors' updates' ∧
      ((¬ s.room.Starts e ∧ colors' = colors) ∨
        (s.room.Starts e ∧ Assigns s'.room.users colors colors')) := by
  cases gomoku_cases hgame h with
  | quiet hstarts _ hgame' _ _ => exact ⟨g, colors, updates, hgame', .inl ⟨hstarts, rfl⟩⟩
  | drop _ _ hgame' _ => exact ⟨_, colors, _, hgame', .inl ⟨(fun h => nomatch h.1), rfl⟩⟩
  | update _ hgame' _ => exact ⟨_, colors, _, hgame', .inl ⟨id, rfl⟩⟩
  | start hstarts _ _ _ =>
    cases e with
    | message c messageType payload =>
      obtain ⟨rfl, info', prepared', -, -, -, hnumber⟩ := id hstarts
      have hout : PrepareOutcome env s g colors updates c payload s'.room :=
        ensures_step_prepare hgame _ h
      rcases hout with ⟨-, hno⟩ | ⟨info, prepared, hroom⟩
      · exact absurd hstarts hno
      · have hfew : (s.room.setPrepared c.connId info prepared).connections.entries.length ≤ 2 := by
          rw [length_setPrepared s.room c.connId info info' prepared prepared']
          unfold AdmitsNumber at hnumber
          rwa [show (s.room.setPrepared c.connId info' prepared').game = .gomoku g colors updates
            from hgame] at hnumber
        have hsome : (s.room.setPrepared c.connId info prepared).connections.entries ≠ [] := by
          show (s.room.connections.insert _ _).entries ≠ []
          rw [AList.entries_insert]
          exact List.cons_ne_nil _ _
        obtain ⟨husers, g', colors', hgame', hassigns⟩ :=
          startGomoku_assigns env g colors updates hsome hfew
        rw [← hroom] at hgame' husers
        exact ⟨g', colors', updates, hgame', .inr ⟨hstarts, husers ▸ hassigns⟩⟩
    | _ => exact hstarts.elim

end Steps

/-- The room is one for Gomoku. -/
def IsGomoku (s : RoomState) : Prop :=
  ∃ g colors updates, s.room.game = .gomoku g colors updates

/-- The second entry is black. -/
def SecondBlack (s : RoomState) : Prop :=
  ∃ colors, s.room.colors = some colors ∧ colors.2.2 = true

/-- A game starts with one member. -/
def StartsAlone (e : Entry RoomState (Env × RoomEvent) Outbox) : Prop :=
  StartsAt e ∧ Multiset.card e.post.room.users = 1

/-- A game starts with two members. -/
def StartsPair (e : Entry RoomState (Env × RoomEvent) Outbox) : Prop :=
  StartsAt e ∧ Multiset.card e.post.room.users = 2

/-- The colours are right after the step. -/
def AssignedAt (e : Entry RoomState (Env × RoomEvent) Outbox) : Prop :=
  ∃ colors, e.post.room.colors = some colors ∧ Assigned e.post.room.users colors

section Run

variable {s₀ s : RoomState} {h : RoomHistory}

theorem gomoku_of_run (h₀ : s₀.FreshGomoku) (hr : RoomRun s₀ h s) : s.IsGomoku := by
  have hfresh : s₀.IsGomoku := ⟨_, _, _, h₀.game⟩
  refine hr.invariant hfresh fun s e out s' hs _ hstep => ?_
  obtain ⟨g, colors, updates, hgame⟩ := hs
  obtain ⟨g', colors', updates', hgame', -⟩ := colors_cases hgame hstep
  exact ⟨g', colors', updates', hgame'⟩

/-- What is known of the colours in the steps of a run. -/
theorem colors_of_run (h₀ : s₀.FreshGomoku) (hr : RoomRun s₀ h s) : ∀ e ∈ h,
    ∃ colors colors', e.pre.room.colors = some colors ∧ e.post.room.colors = some colors' ∧
      ((¬ StartsAt e ∧ colors' = colors) ∨
        (StartsAt e ∧ Assigns e.post.room.users colors colors')) := by
  intro e he
  obtain ⟨⟨l, hl⟩, -, hstep⟩ := hr.mem_entry e he
  obtain ⟨g, colors, updates, hgame⟩ := gomoku_of_run h₀ hl
  obtain ⟨g', colors', updates', hgame', hcases⟩ := colors_cases hgame hstep
  have hstarts : StartsAt e ↔ e.pre.room.Starts e.act.2 := (spec_of_run h₀.1 hr e he).2.start
  rw [← hstarts] at hcases
  exact ⟨colors, colors', colors_of_game hgame, colors_of_game hgame', hcases⟩

/-- A game between two players makes the second entry black, and it stays so. -/
theorem secondBlack_post_iff (h₀ : s₀.FreshGomoku) (hr : RoomRun s₀ h s) :
    ∀ e ∈ h, (e.post.SecondBlack ↔ StartsPair e ∨ (True ∧ e.pre.SecondBlack)) := by
  intro e he
  obtain ⟨colors, colors', hpre, hpost, hcases⟩ := colors_of_run h₀ hr e he
  have hblack {s : RoomState} {colors : Colors} (h : s.room.colors = some colors) :
      s.SecondBlack ↔ colors.2.2 = true := by
    unfold SecondBlack
    rw [h]
    exact ⟨fun ⟨_, hsame, hb⟩ => Option.some.inj hsame ▸ hb, fun hb => ⟨colors, rfl, hb⟩⟩
  rw [true_and, hblack hpre, hblack hpost, StartsPair]
  rcases hcases with ⟨hno, rfl⟩ | ⟨hyes, hassigns⟩
  · exact (or_iff_right fun h => hno h.1).symm
  · rw [hassigns.black_iff, and_iff_right hyes]

/-- The colours are right at every start if and only if a single player finds the second
entry white. -/
theorem assignedAt_iff (h₀ : s₀.FreshGomoku) (hr : RoomRun s₀ h s) :
    ∀ e ∈ h, ((StartsAt e → AssignedAt e) ↔ (e.pre.SecondBlack → ¬ StartsAlone e)) := by
  intro e he
  obtain ⟨colors, colors', hpre, hpost, hcases⟩ := colors_of_run h₀ hr e he
  unfold AssignedAt SecondBlack StartsAlone
  rw [hpre, hpost]
  simp only [Option.some.injEq, exists_eq_left']
  rcases hcases with ⟨hno, -⟩ | ⟨hyes, hassigns⟩
  · exact iff_of_true (fun h => absurd h hno) fun _ h => hno h.1
  · rw [hassigns.assigned_users_iff, imp_iff_right hyes, and_iff_right hyes]
    constructor
    · intro hwhite hblack hone
      exact Bool.false_ne_true ((hwhite hone).symm.trans hblack)
    · intro halone hone
      exact Bool.eq_false_of_not_eq_true fun hblack => halone hblack hone

theorem FreshGomoku.not_secondBlack (h : s₀.FreshGomoku) : ¬ s₀.SecondBlack := by
  rintro ⟨colors, hcolors, hblack⟩
  obtain rfl := Option.some.inj ((colors_of_game h.game).symm.trans hcolors)
  cases hblack

/-- **Colours** are assigned consistently at every start if and only if nobody starts alone after
a game between two players. -/
theorem assigned_iff (h₀ : s₀.FreshGomoku) (hr : RoomRun s₀ h s) :
    (∀ e ∈ h, StartsAt e → AssignedAt e) ↔
      ∀ h₁ x h₂ y h₃, h = h₁ ++ x :: (h₂ ++ y :: h₃) → StartsPair x → ¬ StartsAlone y := by
  have hbetween := hr.forall_between_iff (R := fun e => ¬ StartsAlone e) h₀.not_secondBlack
    (secondBlack_post_iff h₀ hr)
  simp only [implies_true, forall_const] at hbetween
  rw [hbetween]
  exact forall₂_congr (assignedAt_iff h₀ hr)

end Run

/-- Nobody starts a game alone. -/
def notAlone (e : Entry RoomState (Env × RoomEvent) Outbox) : Bool :=
  !announces startTypes e.out || decide (Multiset.card e.post.room.users ≠ 1)

theorem exec_pairStarts : (execAll step notAlone gomokuRoom
    (twoJoin ++ [prepares 1, prepares 2])).any (fun s => s.room.isGameOn) = true := by
  decide +kernel

/-- Two players start twice, and the colours are given both times. -/
theorem assigned_iff_pairStarts : ∃ h s, RoomRun gomokuRoom h s ∧ s.Playing ∧
    ∀ e ∈ h, StartsAt e → AssignedAt e := by
  obtain ⟨h, s, hr, -, hall, hon⟩ := exists_run_of_execAll (fun _ _ _ => trivial) exec_pairStarts
  refine ⟨h, s, hr, hon, (assigned_iff freshGomoku_gomokuRoom hr).mpr ?_⟩
  rintro h₁ x h₂ y h₃ rfl - ⟨hstarts, hone⟩
  have hy : notAlone y = true :=
    hall y (List.mem_append_right _ (List.mem_cons_of_mem _ (List.mem_append_right _ (.head _))))
  unfold notAlone at hy
  rw [show announces startTypes y.out = true from hstarts, hone] at hy
  cases hy

/-- User 2 wins as black against user 1 and leaves. -/
def blackLeaves : List (Env × RoomEvent) := fiveDropped ++ [task, (plainEnv, .close 2)]

theorem exec_blackLeaves : execTo step gomokuRoom blackLeaves (fun s =>
    stepTo step s (prepares 1) fun out s' => announces startTypes out &&
      decide (s'.room.colors = some ((1, true), (0, true)))) = true := by
  decide +kernel

/-- When user 1 goes on alone, the algorithm is black as well. -/
theorem both_black : ∃ h s, RoomRun gomokuRoom h s ∧
    h.map Entry.act = blackLeaves ++ [prepares 1] ∧ ¬ ∀ e ∈ h, StartsAt e → AssignedAt e := by
  obtain ⟨h, s, hr, hacts, hnext⟩ := exists_run_of_execTo exec_blackLeaves
  obtain ⟨out, s', hstep, hcheck⟩ := exists_of_stepTo hnext
  rw [Bool.and_eq_true, decide_eq_true_iff] at hcheck
  refine ⟨_, s', hr.snoc trivial hstep, by rw [List.map_append, hacts]; rfl, fun hall => ?_⟩
  obtain ⟨colors, hcolors, hassigned⟩ :=
    hall _ (List.mem_append_right _ List.mem_cons_self) hcheck.1
  obtain rfl := Option.some.inj (hcheck.2.symm.trans hcolors)
  exact absurd hassigned.oneBlack (by decide)

end RoomState

end UnoppServer
