import UnoppServer.Lib.Rotation
import UnoppServer.Uno.Turn

/-!
# Uno: the flags of a turn

`drawn_one` and `said_uno` are meant for one turn. `drawn_one` is: every way out of
a turn after a draw clears it (`DrawnOnce`). `said_uno` is cleared by `play` and
`draw_one`, but not by `skip_after_drawing_one`, `dissuspect` and a `suspect` that
fails, which also end the turn. `Op.Timely` is that no announcement is standing
when one of these is accepted.

- `announced_step`: a call keeps the announcements in order iff it is timely;
- `flags_iff`: the flags are in order throughout a run iff all its calls are timely;
- `announcement_outlives_turn`: a game in which one is not.
-/

namespace UnoppServer.Uno

open FindIf Runs

/-! ## Flags -/

/-- Only the next player can have the flag. -/
def OnlyNext (flag : Player → Bool) (u : Uno) : Prop :=
  ∀ (i : Nat) (p : Player), u.players[i]? = some p → flag p = true → i = u.nextPlayerIdx

/-- No player has the flag. -/
def Unset (flag : Player → Bool) (u : Uno) : Prop :=
  ∀ (i : Nat) (p : Player), u.players[i]? = some p → flag p = false

section Flag

variable {flag : Player → Bool} {u u' : Uno}

/-- The value of a flag at a position. -/
theorem flag_at (hflag : u'.players.map flag = u.players.map flag) {i : Nat} {p : Player}
    (hp : u'.players[i]? = some p) : ∃ q, u.players[i]? = some q ∧ flag q = flag p := by
  have hget : (u'.players.map flag)[i]? = (u.players.map flag)[i]? := congrArg (·[i]?) hflag
  rw [List.getElem?_map, List.getElem?_map, hp] at hget
  exact Option.map_eq_some_iff.mp hget.symm

theorem OnlyNext.of_eq (h : OnlyNext flag u) (hflag : u'.players.map flag = u.players.map flag)
    (hnext : u'.nextPlayerIdx = u.nextPlayerIdx) : OnlyNext flag u' := by
  intro i p hp hset
  obtain ⟨q, hq, heq⟩ := flag_at hflag hp
  rw [hnext]
  exact h i q hq (heq.trans hset)

theorem Unset.of_eq (h : Unset flag u) (hflag : u'.players.map flag = u.players.map flag) :
    Unset flag u' := by
  intro i p hp
  obtain ⟨q, hq, heq⟩ := flag_at hflag hp
  exact heq.symm.trans (h i q hq)

theorem Unset.onlyNext (h : Unset flag u) : OnlyNext flag u := by
  intro i p hp hset
  rw [h i p hp] at hset
  cases hset

theorem Unset.player (h : Unset flag u) : flag u.player = false :=
  h _ _ (getElem?_nextPlayerIdx u)

/-- When the flag of the player to move is not set, none is. -/
theorem OnlyNext.unset (h : OnlyNext flag u) (hplayer : flag u.player = false) :
    Unset flag u := by
  intro i p hp
  by_contra hset
  obtain rfl := h i p hp (Bool.eq_true_of_not_eq_false hset)
  rw [getElem?_nextPlayerIdx] at hp
  obtain rfl := Option.some.inj hp
  exact hset hplayer

/-- The next player can be changed. -/
theorem OnlyNext.modify (h : OnlyNext flag u) (f : Player → Player) :
    OnlyNext flag (u.modifyPlayer u.nextPlayerIdx f) := by
  intro i p hp hset
  by_contra hi
  have hi' : u.nextPlayerIdx ≠ i := fun he => hi he.symm
  have hp' : (u.players.modify u.nextPlayerIdx f)[i]? = some p := hp
  rw [List.getElem?_modify_ne _ _ hi'] at hp'
  exact hi (h i p hp' hset)

/-- The next player can lose the flag. -/
theorem OnlyNext.clear (h : OnlyNext flag u) {f : Player → Player}
    (hf : ∀ p, flag (f p) = false) : Unset flag (u.modifyPlayer u.nextPlayerIdx f) := by
  refine (h.modify f).unset ?_
  rw [player_modifyPlayer]
  exact hf u.player

end Flag

/-! ## Having drawn -/

/-- `drawn_one` is a flag of the next player, and not while an answer to WILD_DRAW_4 is
awaited. -/
structure DrawnOnce (u : Uno) : Prop where
  drawn : OnlyNext Player.drawnOne u
  waiting : u.waitSuspect = true → Unset Player.drawnOne u

theorem DrawnOnce.of_unset {u : Uno} (h : Unset Player.drawnOne u) : DrawnOnce u :=
  ⟨h.onlyNext, fun _ => h⟩

/-- A call that deals cards and moves no flag. -/
theorem DrawnOnce.of_eq {u u' : Uno} (h : DrawnOnce u)
    (hflag : u'.players.map Player.drawnOne = u.players.map Player.drawnOne)
    (hnext : u'.nextPlayerIdx = u.nextPlayerIdx) (hwait : u'.waitSuspect = u.waitSuspect) :
    DrawnOnce u' := by
  refine ⟨h.drawn.of_eq hflag hnext, fun hw => ?_⟩
  rw [hwait] at hw
  exact (h.waiting hw).of_eq hflag

theorem map_drawnOne_dealt (u : Uno) (i k : Nat) :
    (u.dealt i k).players.map Player.drawnOne = u.players.map Player.drawnOne :=
  map_dealt (fun _ _ => rfl) u i k

theorem map_drawnOne_hushed (u : Uno) :
    u.hushed.players.map Player.drawnOne = u.players.map Player.drawnOne := by
  rw [hushed, unannounced_dealt, map_drawnOne_dealt]
  exact map_announcement (fun _ _ => rfl) u false

theorem map_drawnOne_punished (u : Uno) :
    u.punished.players.map Player.drawnOne = u.players.map Player.drawnOne := by
  rw [punished, unannounced_dealt, map_drawnOne_dealt]
  exact map_announcement (fun _ _ => rfl) u false

/-- Each call keeps the flag of a drawn card with the player to move. -/
theorem DrawnOnce.effect {u u' : Uno} {op : Op} {b : Bool} (h : DrawnOnce u)
    (he : Effect u op b u') : DrawnOnce u' := by
  cases he with
  | @play playerId card hacc specifiedColor =>
    have hput : Unset Player.drawnOne (u.putCard card) :=
      OnlyNext.clear (u := { u with deck := u.deck ++ [card] }) h.drawn fun _ => rfl
    have hpunished := hput.of_eq (map_drawnOne_punished _)
    exact .of_unset (hpunished.of_eq (map_applied (fun _ _ => rfl) _ card))
  | drawOne hmay card =>
    have hhushed : OnlyNext Player.drawnOne u.hushed := h.drawn.of_eq (map_drawnOne_hushed u) rfl
    have hdrawing : OnlyNext Player.drawnOne u.drawing := hhushed.modify _
    have hdealt : OnlyNext Player.drawnOne (u.drawing.dealt u.nextPlayerIdx 1) :=
      hdrawing.of_eq (map_drawnOne_dealt ..) rfl
    refine ⟨hdealt.modify _, fun hw => ?_⟩
    exact absurd (hmay.noSuspect.symm.trans hw) Bool.false_ne_true
  | skip hmay =>
    have hskipped : Unset Player.drawnOne
        (u.modifyPlayer u.nextPlayerIdx fun p => { p with drawnOne := false }) :=
      h.drawn.clear fun _ => rfl
    exact .of_unset hskipped
  | announce hmay => exact h.of_eq (map_announcement (fun _ _ => rfl) u true) rfl rfl
  | interrupt hseat => exact h.of_eq (map_drawnOne_dealt ..) rfl rfl
  | missay hseat hmany => exact h.of_eq (map_drawnOne_dealt ..) rfl rfl
  | suspect hmay =>
    exact .of_unset ((h.waiting hmay.suspect).of_eq (map_penalised (fun _ _ => rfl) u _))
  | dissuspect hmay => exact .of_unset ((h.waiting hmay.suspect).of_eq (map_drawnOne_dealt ..))

/-- **Step lemma**: every call keeps `drawn_one` with the next player. -/
theorem DrawnOnce.step {u u' : Uno} {op : Op} {b : Bool} (h : DrawnOnce u)
    (hs : u.step op = .ok (b, u')) : DrawnOnce u' := by
  rcases step_cases hs with ⟨-, rfl, -⟩ | he
  · exact h
  · exact h.effect he

/-! ## Having said UNO -/

/-- `said_uno` is a flag of the next player, who has two cards then. -/
structure Announced (u : Uno) : Prop where
  seats : 1 < u.players.length
  said : OnlyNext Player.saidUno u
  two : u.player.saidUno = true → u.player.cardsInHand.length = 2

theorem Announced.of_unset {u : Uno} (hseats : 1 < u.players.length)
    (h : Unset Player.saidUno u) : Announced u := by
  refine ⟨hseats, h.onlyNext, fun hset => ?_⟩
  rw [h.player] at hset
  cases hset

theorem map_saidUno_dealt (u : Uno) (i k : Nat) :
    (u.dealt i k).players.map Player.saidUno = u.players.map Player.saidUno :=
  map_dealt (fun _ _ => rfl) u i k

/-- The next player's announcement ends with either penalty. -/
theorem unset_unannounced_dealt {u : Uno} (h : OnlyNext Player.saidUno u) (k : Nat) :
    Unset Player.saidUno (u.dealt u.nextPlayerIdx k).unannounced := by
  have hdealt : OnlyNext Player.saidUno (u.dealt u.nextPlayerIdx k) :=
    h.of_eq (map_saidUno_dealt ..) rfl
  exact hdealt.clear fun _ => rfl

/-- Dealing to another player. -/
theorem Announced.dealt_ne {u : Uno} (h : Announced u) {i : Nat} (hi : u.nextPlayerIdx ≠ i)
    (k : Nat) : Announced (u.dealt i k) := by
  refine ⟨?_, h.said.of_eq (map_saidUno_dealt ..) rfl, ?_⟩
  · show 1 < (u.players.modify i _).length
    rw [List.length_modify]
    exact h.seats
  · rw [player_dealt_ne hi]
    exact h.two

/-- The turn passes to somebody else. -/
theorem nextPlayerIdx_next_ne {u : Uno} (hseats : 1 < u.players.length) :
    u.next.nextPlayerIdx ≠ u.nextPlayerIdx := by
  have hlt := u.nextPlayerIdx_lt
  show (if u.reversed then (u.nextPlayerIdx + 1) % u.players.length
    else (u.nextPlayerIdx + u.players.length - 1) % u.players.length) ≠ u.nextPlayerIdx
  rw [Rotation.succ_mod hlt, Rotation.pred_mod hlt]
  split
  · split <;> omega
  · split <;> omega

/-- The turn does not depend on the hands and the flags. -/
theorem nextPlayerIdx_next_modify (u : Uno) (i : Nat) (f : Player → Player) :
    (u.modifyPlayer i f).next.nextPlayerIdx = u.next.nextPlayerIdx := by
  unfold next modifyPlayer
  simp only [List.length_modify]

theorem nextPlayerIdx_next_dealt (u : Uno) (i k : Nat) :
    (u.dealt i k).next.nextPlayerIdx = u.next.nextPlayerIdx :=
  nextPlayerIdx_next_modify { u with deck := u.deck.drop k } i _

/-- The last player is somebody else. -/
theorem lastPlayerIdx_ne {u : Uno} (hseats : 1 < u.players.length) :
    u.nextPlayerIdx ≠ u.lastPlayerIdx := by
  have hlt := u.nextPlayerIdx_lt
  show u.nextPlayerIdx ≠ (if u.reversed then (u.nextPlayerIdx + u.players.length - 1) %
    u.players.length else (u.nextPlayerIdx + 1) % u.players.length)
  rw [Rotation.succ_mod hlt, Rotation.pred_mod hlt]
  split
  · split <;> omega
  · split <;> omega

/-- **Passing the turn on** keeps the announcements in order iff none is standing. -/
theorem Announced.passed_iff {u u' : Uno} (h : Announced u)
    (hflag : u'.players.map Player.saidUno = u.players.map Player.saidUno)
    (hnext : u'.nextPlayerIdx = u.next.nextPlayerIdx) :
    Announced u' ↔ u.player.saidUno = false := by
  constructor
  · intro h'
    by_contra hset
    -- the announcement is still there, and its player is not the next one any more
    obtain ⟨p, hp, hsaid⟩ := flag_at hflag.symm (getElem?_nextPlayerIdx u)
    have hi := h'.said _ p hp (hsaid.trans (Bool.eq_true_of_not_eq_false hset))
    exact nextPlayerIdx_next_ne h.seats (hnext.symm.trans hi.symm)
  · intro hclear
    refine .of_unset ?_ ((h.said.unset hclear).of_eq hflag)
    have hlen := congrArg List.length hflag
    rw [List.length_map, List.length_map] at hlen
    rw [hlen]
    exact h.seats

/-- The call does not end a turn with an announcement standing. -/
def Op.Timely (u : Uno) : Op → Prop
  | .skipAfterDrawingOne playerId => u.MaySkip playerId → u.player.saidUno = false
  | .suspect playerId =>
    u.MayAnswer playerId → u.isGuilty u.lastPlayer = false → u.player.saidUno = false
  | .dissuspect playerId => u.MayAnswer playerId → u.player.saidUno = false
  | _ => True

theorem Op.timely_of_refused {u : Uno} {op : Op} (h : op.Refused u) : op.Timely u := by
  cases op with
  | skipAfterDrawingOne => exact fun hmay => absurd hmay h
  | suspect => exact fun hmay => absurd hmay h
  | dissuspect => exact fun hmay => absurd hmay h
  | play | drawOne | sayUno => trivial

theorem length_players_step {u u' : Uno} {op : Op} {b : Bool} (h : u.step op = .ok (b, u')) :
    u'.players.length = u.players.length := by
  have hlen := congrArg List.length (ids_step h)
  unfold ids at hlen
  rwa [List.length_map, List.length_map] at hlen

/-- The player found by the loop of `say_uno` is another one. -/
theorem seatOf_ne {u : Uno} {playerId : Int} {i : Nat} {p : Player}
    (h : u.seatOf playerId = some (i, p)) : u.nextPlayerIdx ≠ i := by
  unfold seatOf at h
  split at h
  · rename_i hne
    obtain ⟨hget, hid⟩ := findIf_eq_some h
    rintro rfl
    rw [getElem?_nextPlayerIdx] at hget
    obtain rfl := Option.some.inj hget
    exact hne (of_decide_eq_true hid).symm
  · cases h

/-- Each call but an untimely one keeps the flags of Uno where they belong: one case for each
effect. -/
theorem Announced.effect_iff {u u' : Uno} {op : Op} {b : Bool} (h : Announced u)
    (hseats : 1 < u'.players.length) (he : Effect u op b u') : Announced u' ↔ op.Timely u := by
  cases he with
  | @play playerId card hacc specifiedColor =>
    have hput : OnlyNext Player.saidUno (u.putCard card) :=
      OnlyNext.modify (u := { u with deck := u.deck ++ [card] }) h.said _
    have hpunished : Unset Player.saidUno (u.putCard card).punished :=
      unset_unannounced_dealt hput _
    exact iff_of_true (.of_unset hseats (hpunished.of_eq (map_applied (fun _ _ => rfl) _ card)))
      trivial
  | drawOne hmay card =>
    have hhushed : Unset Player.saidUno u.hushed := unset_unannounced_dealt h.said _
    have hdrawing : Unset Player.saidUno u.drawing :=
      hhushed.of_eq (map_modifyPlayer (f := fun p => { p with drawnOne := true }) fun _ => rfl)
    have hdealt : Unset Player.saidUno (u.drawing.dealt u.nextPlayerIdx 1) :=
      hdrawing.of_eq (map_saidUno_dealt ..)
    have hdrew : Unset Player.saidUno (u.drew card) :=
      hdealt.of_eq (map_modifyPlayer (f := fun p => { p with lastDrew := card }) fun _ => rfl)
    exact iff_of_true (.of_unset hseats hdrew) trivial
  | skip hmay =>
    have hflag : u.skipped.players.map Player.saidUno = u.players.map Player.saidUno :=
      map_modifyPlayer (f := fun p => { p with drawnOne := false }) fun _ => rfl
    have hpassed := h.passed_iff hflag (nextPlayerIdx_next_modify u _ _)
    exact hpassed.trans (imp_iff_right hmay).symm
  | announce hmay =>
    refine iff_of_true ⟨hseats, h.said.modify _, fun _ => ?_⟩ trivial
    rw [announced, player_modifyPlayer]
    exact hmay.two
  | interrupt hseat => exact iff_of_true (h.dealt_ne (seatOf_ne hseat) 2) trivial
  | missay hseat hmany =>
    -- the next player has not two cards, and so has not said UNO
    have hunset : Unset Player.saidUno u :=
      h.said.unset (Bool.eq_false_iff.mpr fun hset => hmany (h.two hset))
    exact iff_of_true (.of_unset hseats (hunset.of_eq (map_saidUno_dealt ..))) trivial
  | suspect hmay =>
    unfold Op.Timely
    cases hguilty : u.isGuilty u.lastPlayer with
    | true =>
      have hdealt := h.dealt_ne (lastPlayerIdx_ne h.seats) 4
      exact iff_of_true ⟨hdealt.seats, hdealt.said, hdealt.two⟩ fun _ => nofun
    | false =>
      have hpassed : (u.penalised false).settled.Announced ↔ u.player.saidUno = false :=
        h.passed_iff (map_penalised (fun _ _ => rfl) u false) (nextPlayerIdx_next_dealt u _ 6)
      exact hpassed.trans ((imp_iff_right hmay).trans (imp_iff_right rfl)).symm
  | dissuspect hmay =>
    have hpassed : (u.dealt u.nextPlayerIdx 4).next.settled.Announced ↔ u.player.saidUno = false :=
      h.passed_iff (map_saidUno_dealt ..) (nextPlayerIdx_next_dealt u _ 4)
    exact hpassed.trans (imp_iff_right hmay).symm

/-- **Step lemma**: a call keeps the announcements in order iff it is timely. -/
theorem announced_step {u u' : Uno} {op : Op} {b : Bool} (h : Announced u)
    (hs : u.step op = .ok (b, u')) : Announced u' ↔ op.Timely u := by
  rcases step_cases hs with ⟨-, rfl, href⟩ | he
  · exact iff_of_true h (Op.timely_of_refused href)
  · refine h.effect_iff ?_ he
    rw [length_players_step hs]
    exact h.seats

/-! ## Runs -/

/-- Dealing clears the flags. -/
theorem flags_deal {players players' : List Player} {deck deck' : List Card}
    (h : deal players deck = .ok (players', deck')) :
    ∀ p ∈ players', p.drawnOne = false ∧ p.saidUno = false := by
  induction players generalizing players' deck deck' with
  | nil =>
    cases h
    intro p hp
    exact absurd hp List.not_mem_nil
  | cons p rest ih =>
    obtain ⟨rest', hrest, rfl⟩ := deal_cons h
    intro q hq
    rcases List.mem_cons.mp hq with rfl | hq
    · exact ⟨rfl, rfl⟩
    · exact ih hrest q hq

/-- In a new game no flag is set. -/
theorem flags_new {users : List Int} {hne : users ≠ []} {draw : Nat → Nat} :
    Ensures (Uno.new users hne draw) fun u =>
      Unset Player.drawnOne u ∧ Unset Player.saidUno u := by
  intro u h
  obtain ⟨rest, start, hc⟩ := constructed_new u h
  have hflags := flags_deal hc.deal
  refine ⟨fun i p hp => ?_, fun i p hp => ?_⟩
  · exact (hflags p (List.mem_of_getElem? hp)).1
  · exact (hflags p (List.mem_of_getElem? hp)).2

/-- The flags belong to the turn. -/
structure Flags (u : Uno) : Prop where
  drawn : OnlyNext Player.drawnOne u
  said : OnlyNext Player.saidUno u
  two : u.player.saidUno = true → u.player.cardsInHand.length = 2

/-- **The flags of a turn** are in order in all states of a run iff all its calls are
timely. -/
theorem flags_iff {users : List Int} {hne : users ≠ []} (hlen : 1 < users.length)
    {draw : Nat → Nat} {u₀ u : Uno} {h : List (Entry Uno Op Bool)}
    (hnew : Uno.new users hne draw = .ok u₀) (hr : Run step (fun _ _ => True) u₀ h u) :
    (∀ s ∈ u₀ :: h.map Entry.post, Flags s) ↔ ∀ e ∈ h, Op.Timely e.pre e.act := by
  obtain ⟨hdrawn₀, hsaid₀⟩ := flags_new _ hnew
  have hseats {s : Uno} (hs : Reachable step (fun _ _ => True) u₀ s) : 1 < s.players.length := by
    obtain ⟨l, hl⟩ := hs
    have hperm := (ids_run hnew hl).length_eq
    unfold ids at hperm
    rw [List.length_map] at hperm
    omega
  have hdrawn {s : Uno} (hs : Reachable step (fun _ _ => True) u₀ s) : DrawnOnce s :=
    hs.invariant (.of_unset hdrawn₀) fun _ _ _ _ h _ hs => h.step hs
  have hannounced₀ : Announced u₀ := .of_unset (hseats .refl) hsaid₀
  have hreach : ∀ e ∈ h, Reachable step (fun _ _ => True) u₀ e.post := by
    intro e he
    obtain ⟨hpre, hok, hs⟩ := hr.mem_entry e he
    exact hpre.tail hok hs
  rw [← Run.safe_iff (fun _ _ _ _ hu hs => announced_step hu hs) hannounced₀ hr]
  constructor
  · intro hall e he
    have hflags := hall e.post (List.mem_cons_of_mem _ (List.mem_map.mpr ⟨e, he, rfl⟩))
    exact ⟨hseats (hreach e he), hflags.said, hflags.two⟩
  · intro hall s hs
    rcases List.mem_cons.mp hs with rfl | hs
    · exact ⟨hdrawn₀.onlyNext, hannounced₀.said, hannounced₀.two⟩
    · obtain ⟨e, he, rfl⟩ := List.mem_map.mp hs
      exact ⟨(hdrawn (hreach e he)).drawn, (hall e he).said, (hall e he).two⟩

/-- In a game of three, users 2 and 1 get down to two cards, say UNO and play. User 2,
with one card left, draws one, says UNO and passes the turn on. -/
def passing : List Op :=
  [.play 2 ⟨0, 1⟩ 0, .play 1 ⟨0, 8⟩ 0, .play 3 ⟨0, 5⟩ 0,
    .play 2 ⟨0, 2⟩ 0, .play 1 ⟨0, 9⟩ 0, .play 3 ⟨0, 5⟩ 0,
    .play 2 ⟨0, 2⟩ 0, .play 1 ⟨0, 9⟩ 0, .play 3 ⟨0, 6⟩ 0,
    -- user 1 skips user 3
    .play 2 ⟨0, 3⟩ 0, .play 1 ⟨0, skip⟩ 0, .play 2 ⟨0, 3⟩ 0, .play 1 ⟨0, skip⟩ 0,
    .sayUno 2, .play 2 ⟨0, 4⟩ 0, .sayUno 1, .play 1 ⟨0, draw2⟩ 0,
    .drawOne 2, .sayUno 2, .skipAfterDrawingOne 2]

/-- The calls of `passing` can be made one after the other. -/
theorem run_passing : ∃ u₀ h u, Uno.new [1, 2, 3] (by decide) (fun _ => 0) = .ok u₀ ∧
    Run step (fun _ _ => True) u₀ h u ∧ h.map Entry.act = passing ∧ u.player.userId = 1 ∧
    ∃ (i : Nat) (p : Player), u.players[i]? = some p ∧ p.userId = 2 ∧ p.saidUno = true := by
  have hcheck : playsOut [1, 2, 3] (by decide) (fun _ => 0) passing (fun _ u =>
      decide (u.player.userId = 1) && (findIf Player.saidUno u.players).any fun r =>
        decide (r.2.userId = 2)) = true := by
    decide +kernel
  obtain ⟨u₀, h, u, hnew, hr, hacts, hlast⟩ := run_of_playsOut hcheck
  obtain ⟨hone, hsays⟩ := Bool.and_eq_true_iff.mp hlast
  obtain ⟨⟨i, p⟩, hfind, htwo⟩ := (Option.any_eq_true _ _).mp hsays
  obtain ⟨hget, hsaid⟩ := findIf_eq_some hfind
  exact ⟨u₀, h, u, hnew, hr, hacts, of_decide_eq_true hone, i, p, hget, of_decide_eq_true htwo,
    hsaid⟩

/-- It is the turn of user 1, and user 2 has still said UNO. -/
theorem announcement_outlives_turn : ∃ u₀ h u,
    Uno.new [1, 2, 3] (by decide) (fun _ => 0) = .ok u₀ ∧ Run step (fun _ _ => True) u₀ h u ∧
      h.map Entry.act = passing ∧ u.player.userId = 1 ∧
      (∃ (i : Nat) (p : Player), u.players[i]? = some p ∧ p.userId = 2 ∧ p.saidUno = true) ∧
      ¬ Flags u := by
  obtain ⟨u₀, h, u, hnew, hr, hacts, hone, i, p, hget, htwo, hsaid⟩ := run_passing
  refine ⟨u₀, h, u, hnew, hr, hacts, hone, ⟨i, p, hget, htwo, hsaid⟩, fun hflags => ?_⟩
  -- else user 2 would be the next player
  obtain rfl := hflags.said i p hget hsaid
  rw [getElem?_nextPlayerIdx] at hget
  obtain rfl := Option.some.inj hget
  rw [hone] at htwo
  exact absurd htwo (by decide)

theorem flags_iff_three : ∃ u₀ h u, Uno.new [1, 2, 3] (by decide) (fun _ => 0) = .ok u₀ ∧
    Run step (fun _ _ => True) u₀ h u ∧ h.map Entry.act = passing ∧
    ((∀ s ∈ u₀ :: h.map Entry.post, Flags s) ↔ ∀ e ∈ h, Op.Timely e.pre e.act) := by
  obtain ⟨u₀, h, u, hnew, hr, hacts, -⟩ := run_passing
  exact ⟨u₀, h, u, hnew, hr, hacts, flags_iff (by decide) hnew hr⟩

end UnoppServer.Uno
