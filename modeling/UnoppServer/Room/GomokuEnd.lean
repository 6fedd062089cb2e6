import UnoppServer.Gomoku.Draws
import UnoppServer.Room.Phases

/-!
# Rooms: the end of a Gomoku game

An accepted drop starts a thread that runs `update` later, so between a winning drop
and its task the status is still `NOT_END`, and several tasks can be pending when the
first of them finds the five.

- `GomokuChange`, `gomoku_cases`: what a step does to the game of a Gomoku room;
- `firstFive_iff`: between two players, no stone is placed on a five and no end is
  announced twice exactly when the steps are `Orderly`;
- `draw_unnoticed`: a full board without a five ends no game.
-/

namespace UnoppServer

open Assoc Runs Room Gomoku

/-- The board of a Gomoku room. -/
def Room.board (r : Room) : Option Board :=
  match r.game with
  | .gomoku g _ _ => some g.board
  | _ => none

namespace RoomState

/-- `GomokuChange env s g colors updates e s'`: what the event does to a room with this
game. -/
inductive GomokuChange (env : Env) (s : RoomState) (g : Gomoku) (colors : Colors)
    (updates : Nat) : RoomEvent → RoomState → Prop where
  | quiet {e : RoomEvent} {s' : RoomState} (hstarts : ¬ s.room.Starts e)
      (hends : ¬ s.room.Ends env e) (hgame : s'.room.game = .gomoku g colors updates)
      (hplaying : s'.Playing ↔ s.Playing)
      (hrefused : ∀ c payload y x, e = .message c "GOMOKU_DROP" payload →
        dropRequest payload = .ok (y, x) → g.canDrop y x (isBlack colors c.userId) ≠ true) :
      GomokuChange env s g colors updates e s'
  | start {e : RoomEvent} {s' : RoomState} {ai : Bool} {colors' : Colors}
      (hstarts : s.room.Starts e)
      (hgame : s'.room.game = .gomoku (g.clear.enableAi ai) colors' updates)
      (hai : ai = true → g.useAi = true ∨ s'.room.connections.entries.length = 1)
      (hplaying : s'.Playing) :
      GomokuChange env s g colors updates e s'
  | drop {c : Caller} {payload : Json} {y x : Int} {s' : RoomState}
      (hop : dropRequest payload = .ok (y, x))
      (hcan : g.canDrop y x (isBlack colors c.userId) = true)
      (hgame : s'.room.game =
        .gomoku (g.drop y x (isBlack colors c.userId)).2 colors (updates + 1))
      (hplaying : s'.Playing ↔ s.Playing) :
      GomokuChange env s g colors updates (.message c "GOMOKU_DROP" payload) s'
  | update {n : Nat} {s' : RoomState} (hpending : updates = n + 1)
      (hgame : s'.room.game = .gomoku (s.room.updated env g) colors n)
      (hplaying : s'.Playing ↔ s.Playing ∧ (s.room.updated env g).status = .notEnd) :
      GomokuChange env s g colors updates .update s'

section Cases

variable {env : Env} {s s' : RoomState} {g : Gomoku} {colors : Colors} {updates : Nat}
  {c : Caller} {payload : Json} {out : Outbox} {e : RoomEvent}

/-- A `GOMOKU_DROP`. -/
theorem drop_cases (hgame : s.room.game = .gomoku g colors updates)
    (h : s.step (env, .message c "GOMOKU_DROP" payload) = .ok (out, s')) :
    GomokuChange env s g colors updates (.message c "GOMOKU_DROP" payload) s' := by
  have hmsg : s.room.isGameMessage "GOMOKU_DROP" = true := by
    unfold isGameMessage
    rw [hgame]
    rfl
  have hens : Ensures (s.step (env, .message c "GOMOKU_DROP" payload)) fun r =>
      GomokuChange env s g colors updates (.message c "GOMOKU_DROP" payload) r.2 := by
    show Ensures (s.room.receive env s.userRooms c "GOMOKU_DROP" payload >>= _) _
    unfold receive
    rw [if_pos hmsg]
    unfold gameMessage
    rw [hgame]
    refine Ensures.bind (P := fun r => GomokuChange env s g colors updates
      (.message c "GOMOKU_DROP" payload) ⟨r.2.1, r.2.2⟩) ?_ fun r hr => .ok hr
    refine (ensures_gomokuDrop g colors updates payload).bind fun r hr => .ok ?_
    obtain ⟨y, x, hop, hr⟩ := hr
    rw [drop_fst] at hr
    by_cases hcan : g.canDrop y x (isBlack colors c.userId) = true
    · rw [if_pos hcan] at hr
      refine .drop hop hcan (by rw [hr]) ?_
      unfold Playing
      rw [hr]
    · rw [if_neg hcan] at hr
      refine .quiet (not_starts_of_isGameMessage hmsg) (not_ends_gomoku hgame) ?_ ?_ ?_
      · rw [hr, hgame]
      · unfold Playing
        rw [hr]
      · rintro c' payload' y' x' ⟨⟩ hop'
        obtain ⟨rfl, rfl⟩ := Prod.mk.inj (Except.ok.inj (hop.symm.trans hop'))
        exact hcan
  exact hens _ h

/-- What a `GAME_PREPARE` leaves: the game as it is when none starts, or what becomes of the room
when everyone is prepared. -/
def PrepareOutcome (env : Env) (s : RoomState) (g : Gomoku) (colors : Colors) (updates : Nat)
    (c : Caller) (payload : Json) (r : Room) : Prop :=
  (r.game = .gomoku g colors updates ∧ ¬ s.room.Starts (.message c "GAME_PREPARE" payload)) ∨
    ∃ info prepared,
      r = ((s.room.setPrepared c.connId info prepared).startGomoku env g colors updates).2

/-- A `GAME_PREPARE` starts a cleared game with two colours, or leaves the board alone. -/
theorem ensures_receive_prepare (hgame : s.room.game = .gomoku g colors updates) :
    Ensures (s.room.receive env s.userRooms c "GAME_PREPARE" payload) fun r =>
      PrepareOutcome env s g colors updates c payload r.2.2 := by
  have hmsg : s.room.isGameMessage "GAME_PREPARE" = false :=
    s.room.isGameMessage_eq_false (by decide)
  unfold receive
  rw [if_neg (Bool.eq_false_iff.mp hmsg)]
  refine Ensures.bind (P := fun r => PrepareOutcome env s g colors updates c payload r.2.2)
    ?_ fun r hr => ?_
  · unfold processMessage
    rw [if_neg (by decide)]
    cases hinfo : s.room.connections.lookup c.connId with
    | none =>
      refine .ok (.inl ⟨hgame, ?_⟩)
      rintro ⟨-, info, prepared, hinfo', -⟩
      exact nomatch hinfo.symm.trans hinfo'
    | some info =>
      dsimp only
      rw [if_neg (by decide), if_pos rfl]
      unfold gamePrepare
      refine Ensures.bind (P := fun r => PrepareOutcome env s g colors updates c payload r.2)
        (.bind' fun v hv => .bind' fun prepared hread => .ite (fun _ => ?_) fun hno => ?_)
        fun r hr => .ok hr
      · have hstart : onEveryonePrepared env (s.room.setPrepared c.connId info prepared) =
            .ok ((s.room.setPrepared c.connId info prepared).startGomoku env g colors updates) := by
          unfold onEveryonePrepared
          rw [show (s.room.setPrepared c.connId info prepared).game = .gomoku g colors updates from
            hgame]
        rw [hstart]
        exact .ok (.inr ⟨info, prepared, rfl⟩)
      · refine .ok (.inl ⟨hgame, ?_⟩)
        rintro ⟨-, info', prepared', hinfo', hread', hall, -⟩
        obtain rfl := Option.some.inj (hinfo.symm.trans hinfo')
        obtain rfl := Json.Reads.unique ⟨v, hv, hread⟩ hread'
        exact hno hall
  · exact .ite (fun _ => .bind' fun _ _ => .ok hr) fun _ => .ok hr

theorem ensures_step_prepare (hgame : s.room.game = .gomoku g colors updates) :
    Ensures (s.step (env, .message c "GAME_PREPARE" payload)) fun r =>
      PrepareOutcome env s g colors updates c payload r.2.room :=
  (ensures_receive_prepare hgame).bind fun _ hr => .ok hr

theorem length_setPrepared (r : Room) (connId : Nat) (info info' : UserInfo)
    (prepared prepared' : Bool) :
    (r.setPrepared connId info prepared).connections.entries.length =
      (r.setPrepared connId info' prepared').connections.entries.length := by
  unfold setPrepared
  rw [AList.entries_insert, AList.entries_insert]
  rfl

/-- A task ends the game when the status is another one after it. -/
theorem ends_update {n : Nat} (hgame : s.room.game = .gomoku g colors (n + 1)) :
    s.room.Ends env .update ↔ (s.room.updated env g).status ≠ .notEnd := by
  simp only [Ends, hgame]

/-- Only a single player plays against the algorithm. -/
theorem useAi_startGomoku {r : Room} {game : Gomoku} {colors' : Colors} {n : Nat}
    (hr : r.game = .gomoku g colors updates)
    (h : (r.startGomoku env g colors updates).2.game = .gomoku game colors' n) :
    game = g ∨ (game.useAi = true → r.connections.entries.length = 1) := by
  have hlen : (r.members env).length = r.connections.entries.length := length_ranked ..
  unfold startGomoku at h
  dsimp only at h
  split at h
  · rw [hr] at h
    cases h
    exact .inl rfl
  · refine .inr fun hai => ?_
    split at h
    · rename_i hmembers
      rw [← hlen, hmembers]
      rfl
    · cases h
      exact absurd hai Bool.false_ne_true

/-- The algorithm was on, or it is started for somebody who is alone in the room. -/
theorem useAi_prepare {ai : Bool} {colors' : Colors}
    (hgame : s.room.game = .gomoku g colors updates)
    (h : s.step (env, .message c "GAME_PREPARE" payload) = .ok (out, s'))
    (hgame' : s'.room.game = .gomoku (g.clear.enableAi ai) colors' updates) (hai : ai = true) :
    g.useAi = true ∨ ∃ info prepared,
      (s.room.setPrepared c.connId info prepared).connections.entries.length = 1 := by
  rcases ensures_step_prepare hgame _ h with ⟨hsame, -⟩ | ⟨info, prepared, hstart⟩
  · have hg : g.clear.enableAi ai = g := (GameSlot.gomoku.inj (hgame'.symm.trans hsame)).1
    exact .inl (by rw [← hg]; exact hai)
  · rw [hstart] at hgame'
    have hr : (s.room.setPrepared c.connId info prepared).game = .gomoku g colors updates := hgame
    rcases useAi_startGomoku hr hgame' with hsame | hone
    · exact .inl (by rw [← hsame]; exact hai)
    · exact .inr ⟨info, prepared, hone hai⟩

/-- A step of the game that is not a drop is that of a task. -/
theorem eq_update_of_gameStep {slot : GameSlot} (hop : GameStep env s.room e slot)
    (hgame : s.room.game = .gomoku g colors updates)
    (hdrop : ¬ ∃ c payload, e = .message c "GOMOKU_DROP" payload) :
    ∃ n, e = .update ∧ updates = n + 1 ∧ slot = .gomoku (s.room.updated env g) colors n := by
  cases hop with
  | uno hslot => exact nomatch hgame.symm.trans hslot
  | splendor hslot => exact nomatch hgame.symm.trans hslot
  | drop => exact absurd ⟨_, _, rfl⟩ hdrop
  | update hslot =>
    obtain ⟨rfl, rfl, rfl⟩ := GameSlot.gomoku.inj (hgame.symm.trans hslot)
    exact ⟨_, rfl, rfl, rfl⟩

/-- **A step of a Gomoku room.** -/
theorem gomoku_cases (hgame : s.room.game = .gomoku g colors updates)
    (h : s.step (env, e) = .ok (out, s')) : GomokuChange env s g colors updates e s' := by
  have hchange : Change env s e s' := (step_cases h).change
  by_cases hdrop : ∃ c payload, e = .message c "GOMOKU_DROP" payload
  · obtain ⟨c, payload, rfl⟩ := hdrop
    exact drop_cases hgame h
  have hrefused : ∀ c payload y x, e = .message c "GOMOKU_DROP" payload →
      dropRequest payload = .ok (y, x) → g.canDrop y x (isBlack colors c.userId) ≠ true :=
    fun c payload _ _ he => absurd ⟨c, payload, he⟩ hdrop
  cases hchange with
  | stays _ hstarts hends => exact .quiet hstarts hends hgame Iff.rfl hrefused
  | elsewhere => exact .quiet id id hgame Iff.rfl hrefused
  | offline | leaves => exact .quiet id id hgame Iff.rfl hrefused
  | joins hadmits =>
    refine .quiet (fun h => nomatch h.1)
      (not_ends_of_isGameMessage (s.room.isGameMessage_eq_false (by decide))) ?_ ?_ hrefused
    · rw [hadmits.room]
      exact hgame
    · unfold Playing
      rw [hadmits.room]
      rfl
  | prepares _ _ hstarts =>
    exact .quiet hstarts (not_ends_of_isGameMessage (s.room.isGameMessage_eq_false (by decide)))
      hgame Iff.rfl hrefused
  | @starts c payload info prepared game hinfo hstarts hnew =>
    cases hnew with
    | uno hslot => exact nomatch hgame.symm.trans hslot
    | splendor hslot => exact nomatch hgame.symm.trans hslot
    | @gomoku _ _ colors' _ ai hslot =>
      obtain ⟨rfl, rfl, rfl⟩ := GameSlot.gomoku.inj (hgame.symm.trans hslot)
      refine .start hstarts rfl (fun hai => ?_) rfl
      rcases useAi_prepare hgame h rfl hai with huse | ⟨info', prepared', hone⟩
      · exact .inl huse
      · refine .inr (Eq.trans ?_ hone)
        exact (List.length_map _).trans (length_setPrepared s.room c.connId info info' _ _)
  | plays hop hends =>
    obtain ⟨n, rfl, rfl, rfl⟩ := eq_update_of_gameStep hop hgame hdrop
    have hstatus : (s.room.updated env g).status = .notEnd := by
      by_contra hne
      exact hends ((ends_update hgame).mpr hne)
    exact .update rfl rfl (and_iff_left hstatus).symm
  | finishes hop hends =>
    obtain ⟨n, rfl, rfl, rfl⟩ := eq_update_of_gameStep hop hgame hdrop
    have hstatus := (ends_update hgame).mp hends
    exact .update rfl rfl (iff_of_false Bool.false_ne_true fun h => hstatus h.2)

end Cases

/-! ## Two players -/

/-- Nobody can drop: black is to move, and no user has black. -/
def Unstarted (g : Gomoku) (colors : Colors) : Prop :=
  g.currentIsBlack = true ∧ (∀ userId, isBlack colors userId = false) ∧ NoFive g.board

/-- Between two players: while the status is `NOT_END`, a five on the board has its task
pending, and a game that has stones is on. -/
def TwoPlayer (s : RoomState) : Prop :=
  ∃ g colors updates, s.room.game = .gomoku g colors updates ∧ g.useAi = false ∧
    (g.status = .notEnd →
      (NoFive g.board ∨ 0 < updates) ∧ (s.Playing ∨ Unstarted g colors))

section Steps

variable {env : Env} {s s' : RoomState} {g : Gomoku} {colors : Colors} {updates : Nat}
  {out : Outbox} {e : RoomEvent}

theorem updated_eq (r : Room) (hai : g.useAi = false) : r.updated env g = g.judged := by
  unfold updated
  dsimp only
  split
  · rw [update_eq_judged hai]
    exact (update_eq_judged (g := g.judged) hai _ _).trans (judged_judged g)
  · exact update_eq_judged hai _ _

/-- A game that starts with two members is one between two players. -/
theorem TwoPlayer.step (hs : s.TwoPlayer) (h : s.step (env, e) = .ok (out, s'))
    (htwo : s.room.Starts e → s'.room.connections.entries.length = 2) : s'.TwoPlayer := by
  obtain ⟨g, colors, updates, hgame, hai, hopen⟩ := hs
  cases gomoku_cases hgame h with
  | quiet _ _ hgame' hplaying _ =>
    refine ⟨g, colors, updates, hgame', hai, fun hstatus => ?_⟩
    rw [hplaying]
    exact hopen hstatus
  | @start _ _ ai colors' hstarts hgame' hone hplaying =>
    have hoff : ai = false := by
      cases hon : ai with
      | false => rfl
      | true =>
        rcases hone hon with h | h
        · exact absurd (hai.symm.trans h) Bool.false_ne_true
        · exact absurd ((htwo hstarts).symm.trans h) (by decide)
    exact ⟨_, colors', updates, hgame', hoff, fun _ => ⟨.inl noFive_empty, .inl hplaying⟩⟩
  | @drop c payload y x _ hop hcan hgame' hplaying =>
    obtain ⟨-, hcolor, -, -, hstatus⟩ := canDrop_iff.mp hcan
    have hon : s.Playing := by
      refine (hopen hstatus).2.resolve_right fun h => ?_
      rw [h.1, h.2.1 c.userId] at hcolor
      cases hcolor
    refine ⟨_, colors, updates + 1, hgame', ?_, fun _ => ?_⟩
    · rw [drop_useAi]
      exact hai
    · exact ⟨.inr (Nat.succ_pos updates), .inl (hplaying.mpr hon)⟩
  | @update n _ hpending hgame' hplaying =>
    rw [updated_eq _ hai] at hgame' hplaying
    refine ⟨_, colors, n, hgame', hai, fun hstatus => ?_⟩
    have hsame : g.status = .notEnd := by
      by_contra hne
      rw [judged_of_ne hne] at hstatus
      exact hne hstatus
    have hno : NoFive g.board :=
      (scan_eq_notEnd_iff hsame).mp ((judged_status hsame).symm.trans hstatus)
    refine ⟨.inl hno, (hopen hsame).2.imp_left fun hon => hplaying.mpr ⟨hon, hstatus⟩⟩

end Steps

section Run

variable {s₀ s : RoomState} {h : RoomHistory}

/-- A Gomoku room that has just been created. -/
def FreshGomoku (s : RoomState) : Prop := s.Fresh ∧ ∃ b, s.room.board = some b

/-- Every game starts with two members. -/
def OfTwo (h : RoomHistory) : Prop :=
  ∀ e ∈ h, StartsAt e → e.post.room.connections.entries.length = 2

/-- A fresh room has a new board. -/
theorem FreshGomoku.game (h : s.FreshGomoku) :
    s.room.game = .gomoku Gomoku.new ((0, false), (0, false)) 0 := by
  obtain ⟨⟨id, creator, creatorId, name, password, roomType, slot, hslot, hroom⟩, b, hb⟩ := h
  rw [hroom] at hb ⊢
  unfold Manager.newSlot at hslot
  split at hslot
  · cases hslot
    cases hb
  · split at hslot
    · cases hslot
      cases hb
    · split at hslot
      · exact (Option.some.inj hslot).symm
      · cases hslot

theorem FreshGomoku.twoPlayer (h : s.FreshGomoku) : s.TwoPlayer := by
  refine ⟨Gomoku.new, ((0, false), (0, false)), 0, h.game, rfl, fun _ => ?_⟩
  refine ⟨.inl noFive_empty, .inr ⟨rfl, fun userId => ?_, noFive_empty⟩⟩
  unfold isBlack
  split <;> rfl

/-- A run with two players keeps the algorithm off. -/
theorem twoPlayer_of_run (h₀ : s₀.FreshGomoku) (hr : RoomRun s₀ h s) (htwo : OfTwo h) :
    s.TwoPlayer := by
  induction hr with
  | nil => exact h₀.twoPlayer
  | @snoc l s s' a b _ _ hstep ih =>
    have hlast := htwo _ (List.mem_append_right _ List.mem_cons_self)
    exact (ih fun e he => htwo e (List.mem_append_left _ he)).step hstep fun hstarts =>
      hlast ((step_cases hstep).start.mpr hstarts)

/-- What is known of a step between two players. -/
structure StepOfTwo (g : Gomoku) (colors : Colors) (updates : Nat)
    (e : Entry RoomState (Env × RoomEvent) Outbox) : Prop where
  game : e.pre.room.game = .gomoku g colors updates
  useAi : g.useAi = false
  opened : g.status = .notEnd →
    (NoFive g.board ∨ 0 < updates) ∧ (e.pre.Playing ∨ Unstarted g colors)
  change : GomokuChange e.act.1 e.pre g colors updates e.act.2 e.post
  starts : StartsAt e ↔ e.pre.room.Starts e.act.2
  ends : OverAt e ↔ e.pre.room.Ends e.act.1 e.act.2 ∧ e.pre.room.isEmpty = false

/-- Each step of such a run is one of the cases of `StepOfTwo`. -/
theorem exists_stepOfTwo (h₀ : s₀.FreshGomoku) (hr : RoomRun s₀ h s) (htwo : OfTwo h) :
    ∀ e ∈ h, ∃ g colors updates, StepOfTwo g colors updates e := by
  intro e he
  obtain ⟨l, l', rfl⟩ := List.append_of_mem he
  obtain ⟨g, colors, updates, hgame, hai, hopen⟩ :=
    twoPlayer_of_run h₀ hr.take fun x hx => htwo x (List.mem_append_left _ hx)
  have hstep : e.pre.step (e.act.1, e.act.2) = .ok (e.out, e.post) := (hr.mem_entry e he).2.2
  have hcases := step_cases hstep
  exact ⟨g, colors, updates, hgame, hai, hopen, gomoku_cases hgame hstep, hcases.start,
    hcases.isOver⟩

/-! ## No stone after a five -/

/-- No stone is placed on a board with a five. -/
def StopsAtFive (h : RoomHistory) : Prop :=
  ∀ e ∈ h, ∀ b, e.pre.room.board = some b → ¬ NoFive b → ¬ StartsAt e →
    e.post.room.board = some b

/-- A drop that the game accepts finds no pending task, or no five. -/
def DropsInTime (e : Entry RoomState (Env × RoomEvent) Outbox) : Prop :=
  ∀ g colors updates, e.pre.room.game = .gomoku g colors updates → ∀ c payload y x,
    e.act.2 = .message c "GOMOKU_DROP" payload → dropRequest payload = .ok (y, x) →
    g.canDrop y x (isBlack colors c.userId) = true → updates = 0 ∨ NoFive g.board

theorem board_of_game {r : Room} {g : Gomoku} {colors : Colors} {updates : Nat}
    (hgame : r.game = .gomoku g colors updates) : r.board = some g.board := by
  unfold Room.board
  rw [hgame]

/-- A successful drop changes the board. -/
theorem board_drop_ne {g : Gomoku} {i j : Int} {isBlack : Bool}
    (hcan : g.canDrop i j isBlack = true) : (g.drop i j isBlack).2.board ≠ g.board := by
  obtain ⟨-, -, hin, hfree, -⟩ := canDrop_iff.mp hcan
  intro hsame
  have hat : (g.drop i j isBlack).2.board.at i.toNat j.toNat = g.toMove := by
    unfold Gomoku.drop
    rw [if_pos hcan]
    exact Board.at_put_self _ (by omega) (by omega)
  rw [hsame, hfree] at hat
  unfold toMove at hat
  split at hat <;> cases hat

/-- **No stone comes after a five** exactly when each accepted drop finds no pending task or no
five. -/
theorem stopsAtFive_iff (h₀ : s₀.FreshGomoku) (hr : RoomRun s₀ h s) (htwo : OfTwo h) :
    StopsAtFive h ↔ ∀ e ∈ h, DropsInTime e := by
  refine forall₂_congr fun e he => ?_
  obtain ⟨g, colors, updates, htold⟩ := exists_stepOfTwo h₀ hr htwo e he
  obtain ⟨s, ⟨env, ev⟩, out, s'⟩ := e
  obtain ⟨hgame, hai, hopen, hcases, hstarts, -⟩ := htold
  dsimp only at hgame hopen hcases hstarts
  constructor
  · intro hstops g' colors' updates' hgame' c payload y x hact hop hcan
    obtain rfl : ev = .message c "GOMOKU_DROP" payload := hact
    obtain ⟨rfl, rfl, rfl⟩ := GameSlot.gomoku.inj (hgame.symm.trans hgame')
    by_contra hbad
    rw [not_or] at hbad
    have hno : ¬ s.room.Starts (.message c "GOMOKU_DROP" payload) := fun h => nomatch h.1
    have hsame := hstops _ (board_of_game hgame) hbad.2 fun h => hno (hstarts.mp h)
    cases hcases with
    | quiet _ _ _ _ hrefused => exact hrefused c payload y x rfl hop hcan
    | start h _ _ _ => exact hno h
    | drop hop' hcan' hgame' _ =>
      have hnew := (board_of_game hgame').symm.trans hsame
      exact board_drop_ne hcan' (Option.some.inj hnew)
  · intro hintime b hb hfive hnostart
    obtain rfl : g.board = b := Option.some.inj ((board_of_game hgame).symm.trans hb)
    cases hcases with
    | quiet _ _ hgame' _ _ => exact board_of_game hgame'
    | start h _ _ _ => exact absurd (hstarts.mpr h) hnostart
    | @drop c payload y x _ hop hcan _ _ =>
      obtain ⟨-, -, -, -, hstatus⟩ := canDrop_iff.mp hcan
      refine absurd ?_ hfive
      rcases hintime g colors updates hgame c payload y x rfl hop hcan with hzero | hno
      · exact (hopen hstatus).1.resolve_right (by omega)
      · exact hno
    | update hpending hgame' _ =>
      rw [updated_eq _ hai] at hgame'
      show s'.room.board = some g.judged.board
      exact board_of_game hgame'

/-! ## One announcement -/

/-- Between two announcements of an end a game starts. -/
def OverOnce (h : RoomHistory) : Prop :=
  ∀ h₁ x h₂ y h₃, h = h₁ ++ x :: (h₂ ++ y :: h₃) → OverAt x → (∀ z ∈ h₂, ¬ StartsAt z) → ¬ OverAt y

/-- No task runs when the game is over, or nobody is there to be told. -/
def UpdatesInTime (e : Entry RoomState (Env × RoomEvent) Outbox) : Prop :=
  ∀ g colors updates, e.pre.room.game = .gomoku g colors updates → e.act.2 = .update →
    0 < updates → g.status = .notEnd ∨ e.pre.room.isEmpty = true

/-- A five has been found. -/
def Decided (s : RoomState) : Prop :=
  ∃ g colors updates, s.room.game = .gomoku g colors updates ∧ g.status ≠ .notEnd

/-- A game is decided when its status is no longer `NOT_END`. -/
theorem decided_of_game {s : RoomState} {g : Gomoku} {colors : Colors} {updates : Nat}
    (hgame : s.room.game = .gomoku g colors updates) : s.Decided ↔ g.status ≠ .notEnd := by
  constructor
  · rintro ⟨g', colors', updates', hgame', hstatus⟩
    obtain ⟨rfl, -, -⟩ := GameSlot.gomoku.inj (hgame.symm.trans hgame')
    exact hstatus
  · intro hstatus
    exact ⟨g, colors, updates, hgame, hstatus⟩

/-- A five has been found since an end has been announced and no start. -/
theorem decided_post_iff (h₀ : s₀.FreshGomoku) (hr : RoomRun s₀ h s) (htwo : OfTwo h) :
    ∀ e ∈ h, (e.post.Decided ↔ OverAt e ∨ (¬ StartsAt e ∧ e.pre.Decided)) := by
  intro e he
  obtain ⟨g, colors, updates, htold⟩ := exists_stepOfTwo h₀ hr htwo e he
  have hocc := (spec_of_run h₀.1 hr e he).1
  rw [htold.starts, htold.ends, decided_of_game htold.game]
  obtain ⟨s, ⟨env, ev⟩, out, s'⟩ := e
  obtain ⟨hgame, hai, hopen, hcases, -, -⟩ := htold
  dsimp only at hgame hopen hcases hocc ⊢
  cases hcases with
  | quiet hno hends hgame' _ _ =>
    rw [decided_of_game hgame', or_iff_right fun h => hends h.1, and_iff_right hno]
  | start hyes hgame' _ _ =>
    rw [decided_of_game hgame']
    refine iff_of_false (fun h => h rfl) ?_
    rintro (h | h)
    · exact h.1.not_starts hyes
    · exact h.1 hyes
  | @drop c payload y x _ hop hcan hgame' _ =>
    rw [decided_of_game hgame', drop_status, or_iff_right fun h => not_ends_gomoku hgame h.1,
      and_iff_right fun h => nomatch h.1]
  | @update n _ hpending hgame' hplaying =>
    subst hpending
    rw [decided_of_game hgame', ends_update hgame, updated_eq _ hai,
      and_iff_right (show ¬ s.room.Starts .update from id)]
    by_cases hstatus : g.status = .notEnd
    · -- the game is on, so that there is somebody to be told
      rw [or_iff_left fun h => h hstatus]
      refine (and_iff_left_of_imp fun hne => hocc ?_).symm
      refine (hopen hstatus).2.resolve_right fun hun => hne ?_
      rw [judged_status hstatus]
      exact (scan_eq_notEnd_iff hstatus).mpr hun.2.2
    · rw [judged_of_ne hstatus]
      exact iff_of_true hstatus (.inr hstatus)

theorem FreshGomoku.not_decided (h : s.FreshGomoku) : ¬ s.Decided := by
  rw [decided_of_game h.game]
  exact fun hne => hne rfl

/-- **A game is over once** exactly when no task runs after its end. -/
theorem overOnce_iff (h₀ : s₀.FreshGomoku) (hr : RoomRun s₀ h s) (htwo : OfTwo h) :
    OverOnce h ↔ ∀ e ∈ h, UpdatesInTime e := by
  refine (hr.forall_between_iff (R := fun e => ¬ OverAt e) h₀.not_decided
    (decided_post_iff h₀ hr htwo)).trans (forall₂_congr fun e he => ?_)
  obtain ⟨g, colors, updates, htold⟩ := exists_stepOfTwo h₀ hr htwo e he
  rw [htold.ends, decided_of_game htold.game]
  obtain ⟨s, ⟨env, ev⟩, out, s'⟩ := e
  obtain ⟨hgame, hai, -, hcases, -, -⟩ := htold
  dsimp only at hgame hcases ⊢
  constructor
  · intro hquiet g' colors' updates' hgame' hact hpos
    obtain rfl : ev = .update := hact
    obtain ⟨rfl, rfl, rfl⟩ := GameSlot.gomoku.inj (hgame.symm.trans hgame')
    obtain ⟨n, rfl⟩ : ∃ n, updates = n + 1 := ⟨updates - 1, by omega⟩
    by_contra hbad
    rw [not_or, Bool.not_eq_true] at hbad
    refine hquiet hbad.1 ⟨(ends_update hgame).mpr ?_, hbad.2⟩
    rw [updated_eq _ hai, judged_of_ne hbad.1]
    exact hbad.1
  · rintro hintime hstatus ⟨hends, hsome⟩
    cases hcases with
    | quiet _ hno _ _ _ => exact hno hends
    | start hyes _ _ _ => exact hends.not_starts hyes
    | drop => exact not_ends_gomoku hgame hends
    | update hpending _ _ =>
      rcases hintime g colors updates hgame rfl (by omega) with h | h
      · exact hstatus h
      · exact Bool.false_ne_true (hsome.symm.trans h)

/-- A step finds no task that comes too late, or too early. -/
def Orderly (e : Entry RoomState (Env × RoomEvent) Outbox) : Prop := DropsInTime e ∧ UpdatesInTime e

/-- **Gomoku stops at the first five** exactly when no drop is accepted while the task of
a five is pending, and no task runs when the game is over. -/
theorem firstFive_iff (h₀ : s₀.FreshGomoku) (hr : RoomRun s₀ h s) (htwo : OfTwo h) :
    StopsAtFive h ∧ OverOnce h ↔ ∀ e ∈ h, Orderly e := by
  rw [stopsAtFive_iff h₀ hr htwo, overOnce_iff h₀ hr htwo]
  constructor
  · rintro ⟨hdrops, hupdates⟩ e he
    exact ⟨hdrops e he, hupdates e he⟩
  · intro h
    exact ⟨fun e he => (h e he).1, fun e he => (h e he).2⟩

end Run

/-! ## Full boards -/

/-- A task does nothing on a full board without a five. -/
theorem updated_full {env : Env} {r : Room} {g : Gomoku} (hs : g.status = .notEnd)
    (hfull : Full g.board) (hno : NoFive g.board) : (r.updated env g).status = .notEnd := by
  have hupdate {g : Gomoku} (hs : g.status = .notEnd) (hfull : Full g.board)
      (hno : NoFive g.board) (eval : Evaluator) :
      (g.update eval 0).status = .notEnd ∧ (g.update eval 0).board = g.board := by
    rw [← InPlace.update_eq]
    exact update_full hs hfull hno eval 0
  unfold updated
  dsimp only
  split
  · obtain ⟨hs', hboard⟩ := hupdate hs hfull hno (noisy (env.noise 0))
    exact (hupdate hs' (hboard ▸ hfull) (hboard ▸ hno) _).1
  · exact (hupdate hs hfull hno _).1

/-- **A draw goes unnoticed**: `update` never sets `TIED`, and the room goes on. -/
theorem draw_unnoticed {h : List (Entry Gomoku Gomoku.Event (Option (Nat × Nat)))} {g : Gomoku}
    (hr : BoardRun h g) (hfull : Full g.board) (hno : NoFive g.board) :
    (∀ eval k, (InPlace.update g eval k).status = .notEnd) ∧
      ∀ env (r : Room) colors updates,
        announces overTypes (r.gomokuUpdate env g colors updates).1 = false ∧
          (r.gomokuUpdate env g colors updates).2.isGameOn = r.isGameOn := by
  have hs : g.status = .notEnd := (told_of_run hr).notEnd hno
  refine ⟨fun eval k => (update_full hs hfull hno eval k).1, fun env r colors updates => ?_⟩
  have houtcome : Outcome r ((r.updated env g).status ≠ .notEnd)
      (r.gomokuUpdate env g colors updates) := (gomokuUpdate_outcome g colors updates).1
  obtain ⟨hon, hover⟩ := houtcome.goesOn fun hne => hne (updated_full hs hfull hno)
  exact ⟨hover, hon⟩

theorem draw_unnoticed_turns : ∃ h g, BoardRun h g ∧ h.map Entry.act = plays true turns ∧
    Full g.board ∧ (InPlace.update g (noisy fun _ => 0) 0).status = .notEnd := by
  obtain ⟨h, g, hr, hacts, hfull, hno⟩ := exists_full
  exact ⟨h, g, hr, hacts, hfull, (draw_unnoticed hr hfull hno).1 _ 0⟩

/-- 225 turns lead to a draw that `update` does not see. -/
theorem exists_draw : ∃ h g, BoardRun h g ∧ h.map Entry.act = plays true turns ∧
    Full g.board ∧ NoFive g.board ∧ (InPlace.update g (noisy fun _ => 0) 0).status ≠ .tied := by
  obtain ⟨h, g, hr, hacts, hfull, hno⟩ := exists_full
  refine ⟨h, g, hr, hacts, hfull, hno, ?_⟩
  rw [(update_full ((told_of_run hr).notEnd hno) hfull hno _ 0).1]
  decide

/-! ## Late tasks -/

/-- A new Gomoku room. -/
def gomokuRoom : RoomState := roomOf (.gomoku Gomoku.new ((0, false), (0, false)) 0)

theorem freshGomoku_gomokuRoom : gomokuRoom.FreshGomoku :=
  ⟨⟨0, "a", 1, "", "", "GOMOKU", _, rfl, rfl⟩, Board.empty, rfl⟩

/-- A drop of a user. -/
def drops (k : Nat) (y x : Int) : Env × RoomEvent :=
  sends k "GOMOKU_DROP" [("y", .int y), ("x", .int x)]

/-- A pending task. -/
def task : Env × RoomEvent := (plainEnv, .update)

/-- A start has two members. -/
def startsTwo (e : Entry RoomState (Env × RoomEvent) Outbox) : Bool :=
  !announces startTypes e.out || decide (e.post.room.connections.entries.length = 2)

theorem ofTwo_of_startsTwo {h : RoomHistory} (hall : ∀ e ∈ h, startsTwo e = true) : OfTwo h := by
  intro e he hstarts
  have hcheck := hall e he
  unfold startsTwo at hcheck
  rw [show announces startTypes e.out = true from hstarts] at hcheck
  exact of_decide_eq_true hcheck

/-- Black opens, and the task runs. -/
theorem exec_firstTask : (execAll step startsTwo gomokuRoom
    (twoJoin ++ [prepares 1, prepares 2, drops 2 7 7, task])).any (fun s => s.room.isGameOn) =
      true := by
  decide +kernel

theorem firstFive_iff_firstTask : ∃ h s, RoomRun gomokuRoom h s ∧ s.Playing ∧
    (StopsAtFive h ∧ OverOnce h ↔ ∀ e ∈ h, Orderly e) := by
  obtain ⟨h, s, hr, -, hall, hon⟩ :=
    exists_run_of_execAll (fun _ _ _ => trivial) exec_firstTask
  exact ⟨h, s, hr, hon, firstFive_iff freshGomoku_gomokuRoom hr (ofTwo_of_startsTwo hall)⟩

/-- User 2 has black and puts five stones in the first row, and no task runs. -/
def fiveDropped : List (Env × RoomEvent) :=
  twoJoin ++ [prepares 1, prepares 2] ++
    [0, 1, 2, 3].flatMap (fun x => [drops 2 0 x, drops 1 1 x]) ++ [drops 2 0 4]

/-- White can drop, though black has five, and two tasks are pending at least. -/
def fivePending (s : RoomState) : Bool :=
  match s.room.game with
  | .gomoku g colors updates =>
    decide (2 ≤ updates) && [0, 1, 2, 3, 4].all (fun j => decide (g.board.at 0 j = .black)) &&
      g.canDrop 14 14 (isBlack colors 1) && !s.room.isEmpty &&
      stepTo step s (drops 1 14 14) fun _ s₁ => !s₁.room.isEmpty
  | _ => false

theorem exec_fiveDropped :
    (execAll step startsTwo gomokuRoom fiveDropped).any fivePending = true := by
  decide +kernel

theorem hasFive_of_row {b : Board} (h : [0, 1, 2, 3, 4].all (fun j => decide (b.at 0 j = .black))) :
    HasFive b .black := by
  refine ⟨(0, 0), mem_cells.mpr (by decide), (0, 1), by decide, fun k hk => ⟨by omega, ?_⟩⟩
  rw [List.all_eq_true] at h
  have hat := of_decide_eq_true (h k (by simp; omega))
  simpa using hat

/-- A pending task always runs. -/
theorem exists_task (s : RoomState) : ∃ out s', s.step task = .ok (out, s') := by
  unfold step task
  dsimp only
  split
  · exact ⟨_, _, rfl⟩
  · exact ⟨_, _, rfl⟩

/-- A task that finds a five ends the game. -/
theorem task_decides {env : Env} {s s' : RoomState} {g : Gomoku} {colors : Colors} {n : Nat}
    {out : Outbox} (hgame : s.room.game = .gomoku g colors (n + 1)) (hai : g.useAi = false)
    (hfive : ¬ NoFive g.board) (h : s.step (env, .update) = .ok (out, s')) :
    s'.room.game = .gomoku g.judged colors n ∧ g.judged.status ≠ .notEnd := by
  have hstatus : g.judged.status ≠ .notEnd := by
    by_cases hs : g.status = .notEnd
    · rw [judged_status hs]
      exact fun hscan => hfive ((scan_eq_notEnd_iff hs).mp hscan)
    · rwa [judged_of_ne hs]
  refine ⟨?_, hstatus⟩
  cases gomoku_cases hgame h with
  | quiet _ hends _ _ _ =>
    refine absurd ((ends_update hgame).mpr ?_) hends
    rwa [updated_eq _ hai]
  | start h _ _ _ => exact absurd h id
  | update hpending hgame' _ =>
    obtain rfl := Nat.succ.inj hpending
    rwa [updated_eq _ hai] at hgame'

/-- A drop that is accepted leaves a five on the board. -/
theorem drop_on_five {env : Env} {s s' : RoomState} {g : Gomoku} {colors : Colors} {n : Nat}
    {out : Outbox} {c : Caller} {payload : Json} {y x : Int}
    (hgame : s.room.game = .gomoku g colors n) (hfive : ¬ NoFive g.board)
    (hop : dropRequest payload = .ok (y, x)) (hcan : g.canDrop y x (isBlack colors c.userId) = true)
    (h : s.step (env, .message c "GOMOKU_DROP" payload) = .ok (out, s')) :
    s'.room.game = .gomoku (g.drop y x (isBlack colors c.userId)).2 colors (n + 1) ∧
      ¬ NoFive (g.drop y x (isBlack colors c.userId)).2.board := by
  have hstay := ((Kept.refl g).of_effect (drop_effect g y x (isBlack colors c.userId))).stay
  refine ⟨?_, fun hno => hfive fun p hp h => hno p hp (h.mono hp hstay)⟩
  cases gomoku_cases hgame h with
  | quiet _ _ _ _ hrefused => exact absurd hcan (hrefused c payload y x rfl hop)
  | start h _ _ _ => exact nomatch h.1
  | drop hop' _ hgame' _ =>
    obtain ⟨rfl, rfl⟩ := Prod.mk.inj (Except.ok.inj (hop'.symm.trans hop))
    exact hgame'

theorem isEmpty_task {env : Env} {s s' : RoomState} {out : Outbox}
    (h : s.step (env, .update) = .ok (out, s')) : s'.room.isEmpty = s.room.isEmpty := by
  have hchange : Change env s .update s' := (step_cases h).change
  cases hchange <;> rfl

/-- White is still let in after black's five, and two tasks find it. -/
theorem late_tasks : ∃ h s, RoomRun gomokuRoom h s ∧ OfTwo h ∧
    h.map Entry.act = fiveDropped ++ [drops 1 14 14] ++ [task] ++ [task] ∧
    ¬ StopsAtFive h ∧ ¬ OverOnce h := by
  obtain ⟨l, s, hr, hacts, hall, hcheck⟩ :=
    exists_run_of_execAll (fun _ _ _ => trivial) exec_fiveDropped
  obtain ⟨g, colors, updates, hgame, hai, hopen⟩ :=
    twoPlayer_of_run freshGomoku_gomokuRoom hr (ofTwo_of_startsTwo hall)
  unfold fivePending at hcheck
  simp only [hgame, Bool.and_eq_true, decide_eq_true_eq] at hcheck
  obtain ⟨⟨⟨⟨hpending, hrow⟩, hcan⟩, -⟩, hnext⟩ := hcheck
  have hfive : ¬ NoFive g.board := fun hno => hno .black (by decide) (hasFive_of_row hrow)
  obtain ⟨out, s₁, hstep, hsome⟩ := exists_of_stepTo hnext
  obtain ⟨hgame₁, hfive₁⟩ := drop_on_five hgame hfive (y := 14) (x := 14) rfl hcan hstep
  obtain ⟨out₂, s₂, hstep₂⟩ := exists_task s₁
  have hai₁ : (g.drop 14 14 (isBlack colors 1)).2.useAi = false :=
    (drop_useAi g 14 14 _).trans hai
  obtain ⟨hgame₂, hstatus₂⟩ := task_decides hgame₁ hai₁ hfive₁ hstep₂
  obtain ⟨out₃, s₃, hstep₃⟩ := exists_task s₂
  have hr' := ((hr.snoc trivial hstep).snoc trivial hstep₂).snoc trivial hstep₃
  have htwo : OfTwo (l ++ [⟨s, drops 1 14 14, out, s₁⟩] ++ [⟨s₁, task, out₂, s₂⟩] ++
      [⟨s₂, task, out₃, s₃⟩]) := by
    unfold OfTwo
    simp only [List.forall_mem_append, List.forall_mem_singleton]
    refine ⟨⟨⟨ofTwo_of_startsTwo hall, fun h => ?_⟩, fun h => ?_⟩, fun h => ?_⟩
    · exact nomatch ((step_cases hstep).start.mp h).1
    · exact ((step_cases hstep₂).start.mp h).elim
    · exact ((step_cases hstep₃).start.mp h).elim
  refine ⟨_, s₃, hr', htwo, by simp [hacts], ?_, ?_⟩
  · rw [stopsAtFive_iff freshGomoku_gomokuRoom hr' htwo]
    intro hall'
    have hin := hall' ⟨s, drops 1 14 14, out, s₁⟩ (by simp) g colors updates hgame (guest 1) _ 14 14
      rfl rfl hcan
    exact hin.elim (fun hzero => by omega) hfive
  · rw [overOnce_iff freshGomoku_gomokuRoom hr' htwo]
    intro hall'
    have hin := hall' ⟨s₂, task, out₃, s₃⟩ (by simp) _ colors updates hgame₂ rfl (by omega)
    refine hin.elim hstatus₂ fun hempty => ?_
    rw [isEmpty_task hstep₂] at hempty
    simp [hempty] at hsome

end RoomState

end UnoppServer
