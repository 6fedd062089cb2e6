import UnoppServer.Lib.Rotation
import UnoppServer.Splendor.Cards

/-!
# Splendor: whose turn it is

The six operations each carry their own copy of the hand-over, some of them
depending on the limit of ten mines, and one hand-over is made up for later by
`return_mine`. `TokenAt g it` says that all players wait but the one at position
`it`. Every successful call is made by that player and leaves the token where it
is or moves it one position on, so the turns go round in the order of the
players map.

- `TokenAt.effect`: the step lemma;
- `run_turns`: the turns of a run are a walk around the players;
- `turns_rotate`: one token, used by its holder only, and a fair rotation.
-/

namespace UnoppServer.Splendor

open FindIf Runs Rotation

namespace Game

/-- The player whose turn it is: the first one in iteration order who does not
wait. -/
def holder (g : Game) : Option Int :=
  (g.players.find? fun e => decide (e.2.status ≠ .waiting)).map Prod.fst

/-- All players wait but the one at a position. -/
structure TokenAt (g : Game) (it : Nat) : Prop where
  lt : it < g.players.length
  view : ∃ s, (s = .action ∨ s = .needReturnMine) ∧
    g.view Player.status = (List.replicate g.players.length .waiting).set it s

@[simp] theorem length_view {β : Type} (π : Player → β) (g : Game) :
    (g.view π).length = g.players.length := List.length_map ..

theorem TokenAt.congr {g g' : Game} {it : Nat} (h : TokenAt g it)
    (hv : g'.view Player.status = g.view Player.status) : TokenAt g' it := by
  have hlen : g'.players.length = g.players.length := by
    rw [← length_view Player.status g', hv, length_view]
  obtain ⟨hlt, s, hs, hview⟩ := h
  exact ⟨hlen ▸ hlt, s, hs, by rw [hv, hview, hlen]⟩

/-- A player who does not wait has the token. -/
theorem TokenAt.eq_of_at {g : Game} {it j : Nat} {id : Int} {p : Player} (h : TokenAt g it)
    (hp : g.At j id p) (hs : p.status ≠ .waiting) : j = it := by
  obtain ⟨hlt, s, -, hview⟩ := h
  have hj : (g.view Player.status)[j]? = some p.status := by
    rw [Game.view, List.getElem?_map, hp]
    rfl
  by_contra hne
  rw [hview, List.getElem?_set_ne (Ne.symm hne), List.getElem?_replicate] at hj
  split at hj
  · exact hs (Option.some.inj hj).symm
  · cases hj

/-- The token is held by the player at its place. -/
theorem TokenAt.holder {g : Game} {it : Nat} (h : TokenAt g it) : g.holder = g.ids[it]? := by
  obtain ⟨hlt, s, hs, hview⟩ := h
  have hstatus (j : Nat) (hj : j < g.players.length) :
      g.players[j].2.status = if it = j then s else .waiting := by
    have hget := List.getElem_of_eq hview (by simpa using hj)
    rw [List.getElem_set, List.getElem_replicate] at hget
    simpa [Game.view] using hget
  have hfind : g.players.find? (fun e => decide (e.2.status ≠ .waiting)) = some g.players[it] := by
    rw [List.find?_eq_some_iff_getElem]
    refine ⟨?_, it, hlt, rfl, fun j hj => ?_⟩
    · rw [hstatus it hlt, if_pos rfl]
      rcases hs with rfl | rfl <;> rfl
    · rw [hstatus j (by omega), if_neg (by omega)]
      rfl
  rw [Game.holder, hfind, ids, List.getElem?_map, List.getElem?_eq_getElem hlt]

/-! ## The hand-over -/

/-- The statuses after one of them has been set. -/
theorem view_status_modify {g : Game} {it : Nat} {s : Status} :
    (g.modifyPlayer it fun p => { p with status := s }).view Player.status =
      (g.view Player.status).set it s := by
  apply List.ext_getElem?
  intro i
  unfold Game.view Game.modifyPlayer
  rw [List.getElem?_map, List.getElem?_modify, List.getElem?_set, List.getElem?_map]
  by_cases hi : it = i
  · subst hi
    cases hget : g.players[it]? with
    | none => simp [List.getElem?_eq_none_iff.mp hget]
    | some e => simp [(List.getElem?_eq_some_iff.mp hget).1]
  · simp [hi]

theorem next_eq {g : Game} {it : Nat} (h : it < g.players.length) :
    g.next it = (it + 1) % g.players.length := by
  unfold next
  by_cases heq : it + 1 = g.players.length
  · rw [if_pos heq, heq, Nat.mod_self]
  · rw [if_neg heq, Nat.mod_eq_of_lt (by omega)]

/-- The hand-over moves the token one position on. -/
theorem TokenAt.handOver {g : Game} {it : Nat} (h : TokenAt g it) :
    TokenAt (g.handOver it) ((it + 1) % g.players.length) := by
  obtain ⟨hlt, s, hs, hview⟩ := h
  have hlen : (g.handOver it).players.length = g.players.length := by simp [Game.handOver]
  refine ⟨hlen ▸ Nat.mod_lt _ (by omega), .action, .inl rfl, ?_⟩
  rw [hlen, Game.handOver, view_status_modify, view_status_modify, hview, List.set_set,
    List.set_replicate_self, next_eq (by simpa using hlt), length_modifyPlayer]

/-- A player over the limit keeps the token. -/
theorem TokenAt.handOverUnlessFull {g : Game} {it : Nat} (h : TokenAt g it) :
    TokenAt (g.handOverUnlessFull it) it ∨
      TokenAt (g.handOverUnlessFull it) ((it + 1) % g.players.length) := by
  unfold Game.handOverUnlessFull
  split
  · obtain ⟨hlt, s, hs, hview⟩ := h
    refine .inl ⟨by simpa using hlt, .needReturnMine, .inr rfl, ?_⟩
    rw [view_status_modify, hview, List.set_set, length_modifyPlayer]
  · exact .inr h.handOver

/-! ## One call -/

/-- The token stays or moves one position on. -/
def Passed (g g' : Game) (it : Nat) : Prop :=
  TokenAt g' it ∨ TokenAt g' ((it + 1) % g.players.length)

theorem Passed.congr {g g₁ g' g'' : Game} {it : Nat} (h : Passed g₁ g' it)
    (hlen : g₁.players.length = g.players.length)
    (hv : g''.view Player.status = g'.view Player.status) : Passed g g'' it := by
  unfold Passed at *
  rw [hlen] at h
  exact h.imp (·.congr hv) (·.congr hv)

/-- **Step lemma**: a successful call is made by the player with the token, who
keeps it or hands it on. -/
theorem TokenAt.effect {g g' : Game} {op : Op} {it : Nat} (h : TokenAt g it)
    (he : Effect g op g') : g.ids[it]? = some op.player ∧ Passed g g' it := by
  have hmines : ∀ (p : Player) (v : Vector Int 6),
      Player.status { p with mineCount := v } = p.status := fun _ _ => rfl
  have hrep : ∀ (p : Player) (r : Int),
      Player.status { p with reputation := r } = p.status := fun _ _ => rfl
  -- the caller of a successful call has the token
  have hcaller {j : Nat} {p : Player} {player : Int} (hf : g.find player = some (j, p))
      (hs : p.status ≠ .waiting) : j = it ∧ g.ids[it]? = some player := by
    have hp := find_at hf
    obtain rfl := h.eq_of_at hp hs
    exact ⟨rfl, hp.id_at⟩
  -- `g₁` is the game before the hand-over
  have hlen {g₁ : Game} (hv : g₁.view Player.status = g.view Player.status) :
      g₁.players.length = g.players.length := by
    rw [← length_view Player.status, hv, length_view]
  have hunless {g₁ g₂ : Game} (hv : g₁.view Player.status = g.view Player.status)
      (hv' : g₂.view Player.status = (g₁.handOverUnlessFull it).view Player.status) :
      Passed g g₂ it :=
    Passed.congr (h.congr hv).handOverUnlessFull (hlen hv) hv'
  have hover {g₁ g₂ : Game} (hv : g₁.view Player.status = g.view Player.status)
      (hv' : g₂.view Player.status = (g₁.handOver it).view Player.status) : Passed g g₂ it :=
    Passed.congr (.inr (h.congr hv).handOver) (hlen hv) hv'
  cases he with
  | take3 hf hs hd hstock hgold =>
    obtain ⟨rfl, hid⟩ := hcaller hf (by rw [hs]; decide)
    exact ⟨hid, hunless (view_setMines hmines _ _) (view_record _)⟩
  | take2 hf hs hstock hgold =>
    obtain ⟨rfl, hid⟩ := hcaller hf (by rw [hs]; decide)
    exact ⟨hid, hunless (view_setMines hmines _ _) (view_record _)⟩
  | @reserve j p slot c couponIdx player hf hs hroom hslot =>
    obtain ⟨rfl, hid⟩ := hcaller hf (by rw [hs]; decide)
    refine ⟨hid, hunless ?_ rfl⟩
    exact (view_afterReserve hmines ..).trans (view_modifyPlayer fun _ => rfl)
  | @buy j p slot c t couponIdx player hf hs hslot hafford ht =>
    obtain ⟨rfl, hid⟩ := hcaller hf (by rw [hs]; decide)
    refine ⟨hid, hover ?_ (view_checkAlly hrep)⟩
    rw [view_fillCoupon, view_of_players (players_afterBuy ..)]
    exact view_modifyPlayer fun _ => rfl
  | @buyReserved j p slot c t couponIdx player hf hs hslot hafford ht =>
    obtain ⟨rfl, hid⟩ := hcaller hf (by rw [hs]; decide)
    refine ⟨hid, hover ?_ (view_checkAlly hrep)⟩
    rw [view_of_players (players_afterBuy_dropReserved ..)]
    exact view_modifyPlayer fun _ => rfl
  | @returnMine j p k player hf hs hheld =>
    obtain ⟨rfl, hid⟩ := hcaller hf (by rw [hs]; decide)
    refine ⟨hid, ?_⟩
    simp only
    split
    · exact hover (view_setMines hmines _ _) rfl
    · exact .inl (h.congr (view_setMines hmines _ _))

/-- Some player has the token. -/
def HasToken (g : Game) : Prop := ∃ it, TokenAt g it

/-- One step of a run: the players stay, and the token is passed. -/
theorem TokenAt.step {g g' : Game} {op : Op} {b : Bool} {it : Nat} (h : TokenAt g it)
    (hs : g.step op = .ok (b, g')) :
    g'.ids = g.ids ∧ (b = true → g.ids[it]? = some op.player) ∧ Passed g g' it := by
  rcases step_cases hs with ⟨rfl, rfl⟩ | ⟨rfl, he⟩
  · exact ⟨rfl, fun h => (nomatch h), .inl h⟩
  · obtain ⟨hid, hpass⟩ := h.effect he
    exact ⟨ids_effect he, fun _ => hid, hpass⟩

theorem HasToken.step {g g' : Game} {op : Op} {b : Bool} (h : HasToken g)
    (hs : g.step op = .ok (b, g')) : HasToken g' := by
  obtain ⟨it, h⟩ := h
  rcases (h.step hs).2.2 with h | h <;> exact ⟨_, h⟩

/-- Exactly one player does not wait, and that player acts or has to return
mines. -/
structure OneToken (g : Game) : Prop where
  one : g.players.countP (fun e => decide (e.2.status ≠ .waiting)) = 1
  kind : ∀ e ∈ g.players,
    e.2.status = .waiting ∨ e.2.status = .action ∨ e.2.status = .needReturnMine

/-- A token that is at one place is the only one. -/
theorem HasToken.oneToken {g : Game} (h : HasToken g) : OneToken g := by
  obtain ⟨it, hlt, s, hs, hview⟩ := h
  constructor
  case one =>
    have hcount : g.players.countP (fun e => decide (e.2.status ≠ .waiting)) =
        (g.view Player.status).countP fun s => decide (s ≠ .waiting) := by
      rw [view, List.countP_map]
      rfl
    rw [hcount, hview, List.countP_set (by simpa using hlt), List.countP_replicate,
      List.getElem_replicate]
    rcases hs with rfl | rfl <;> rfl
  case kind =>
    intro e he
    have hmem : e.2.status ∈ g.view Player.status := List.mem_map.mpr ⟨e, he, rfl⟩
    rw [hview] at hmem
    rcases List.mem_or_eq_of_mem_set hmem with hmem | hmem
    · exact .inl (List.eq_of_mem_replicate hmem)
    · rw [hmem]
      exact .inr hs

/-! ## Runs -/

/-- Who has a turn in a run: the first holder, and every new one. -/
def turns (g₀ : Game) (h : List (Entry Game Op Bool)) : List (Option Int) :=
  g₀.holder ::
    (h.filter fun e => decide (e.post.holder ≠ e.pre.holder)).map fun e => e.post.holder

/-- A call after which somebody else has the token adds that player to the turns. -/
theorem turns_snoc (g₀ : Game) (h : List (Entry Game Op Bool)) (e : Entry Game Op Bool) :
    turns g₀ (h ++ [e]) =
      if e.post.holder = e.pre.holder then turns g₀ h else turns g₀ h ++ [e.post.holder] := by
  unfold turns
  rw [List.filter_append, List.map_append, ← List.cons_append]
  by_cases heq : e.post.holder = e.pre.holder
  · simp [heq]
  · simp [heq]

/-- **Run lemma**: the turns are a walk around the players. -/
theorem run_turns {g₀ g : Game} {t : Nat} {ok : Game → Op → Prop}
    {h : List (Entry Game Op Bool)} (hnd : g₀.ids.Nodup) (hn : 2 ≤ g₀.ids.length)
    (h₀ : TokenAt g₀ t) (hr : Run Game.step ok g₀ h g) :
    g.ids = g₀.ids ∧ ∃ k, turns g₀ h = around g₀.ids t (k + 1) ∧
      TokenAt g ((t + k) % g₀.ids.length) := by
  induction hr with
  | nil =>
    have hlt : t < g₀.ids.length := by simpa using h₀.lt
    refine ⟨rfl, 0, ?_, ?_⟩
    · rw [around_succ, turns, h₀.holder, Nat.add_zero, Nat.mod_eq_of_lt hlt]
      rfl
    · rwa [Nat.add_zero, Nat.mod_eq_of_lt hlt]
  | @snoc l g g' op b hl hok hs ih =>
    obtain ⟨hids, k, hturns, htok⟩ := ih
    obtain ⟨hids', -, hpass⟩ := htok.step hs
    refine ⟨hids'.trans hids, ?_⟩
    have hlen : g.players.length = g₀.ids.length := by rw [← hids, length_ids]
    have hlt : (t + k) % g₀.ids.length < g₀.ids.length := Nat.mod_lt _ (by omega)
    rw [turns_snoc]
    rcases hpass with hstay | hmove
    · refine ⟨k, ?_, hstay⟩
      rw [if_pos (by rw [hstay.holder, htok.holder, hids'])]
      exact hturns
    · rw [hlen, Nat.mod_add_mod] at hmove
      refine ⟨k + 1, ?_, hmove⟩
      have hhold : g'.holder = g₀.ids[(t + (k + 1)) % g₀.ids.length]? := by
        rw [hmove.holder, hids', hids, Nat.add_assoc]
      rw [if_neg, hturns, around_succ _ _ (k + 1), hhold]
      rw [hhold, htok.holder, hids]
      intro heq
      have hmod := mod_eq_of_getElem? hnd (by omega) heq
      rw [← Nat.add_assoc, ← Nat.mod_add_mod] at hmod
      rcases Nat.lt_or_ge ((t + k) % g₀.ids.length + 1) g₀.ids.length with hsmall | hwrap
      · rw [Nat.mod_eq_of_lt hsmall] at hmod
        omega
      · rw [show (t + k) % g₀.ids.length + 1 = g₀.ids.length by omega, Nat.mod_self] at hmod
        omega

/-- The constructor gives the token to a drawn player. -/
theorem hasToken_new {ids : List Int} (hids : ids ≠ []) (hnd : ids.Nodup) (draw : Nat → Nat)
    (rank : Int → Nat) : HasToken (new ids draw rank) := by
  have hlen : (seated ids draw rank).players.length = (hashOrder rank id ids.dedup).length :=
    List.length_map ..
  have hpos : 0 < (seated ids draw rank).players.length := by
    rw [hlen, (hashOrder_perm ..).length_eq, List.dedup_eq_self.mpr hnd]
    exact List.length_pos_iff.mpr hids
  refine ⟨beginner ids draw rank, ?_, .action, .inl rfl, ?_⟩
  · rw [new_eq, length_modifyPlayer]
    exact Nat.mod_lt _ hpos
  · rw [new_eq, length_modifyPlayer, view_status_modify, view_seated, List.map_const', hlen]
    rfl

/-- **One turn token and a fair rotation**: whatever well-behaved calls are made,
by players or by others, none faults; in every state exactly one player does not
wait; only that player's calls succeed; the token goes to the next player in the
order of the map; and between two turns of one player every other player has
exactly one. -/
theorem turns_rotate (ids : List Int) (hids : 2 ≤ ids.length ∧ ids.length ≤ 4) (hnd : ids.Nodup)
    (draw : Nat → Nat) (rank : Int → Nat) (ops : List Op) (hops : ∀ op ∈ ops, op.InRange) :
    ∃ h g, Run Game.step (fun _ op => op.InRange) (new ids draw rank) h g ∧
      h.map Entry.act = ops ∧
      (∀ s ∈ new ids draw rank :: h.map Entry.post, OneToken s) ∧
      (∀ e ∈ h, e.out = true → e.pre.holder = some e.act.player) ∧
      (∀ e ∈ h, e.post.ids = (new ids draw rank).ids ∧ (e.post.holder ≠ e.pre.holder →
        ∃ it, e.pre.holder = e.pre.ids[it]? ∧
          e.post.holder = e.post.ids[(it + 1) % e.post.ids.length]?)) ∧
      ∀ l₁ l₂ l₃ a, turns (new ids draw rank) h = l₁ ++ ((a :: l₂) ++ (a :: l₃)) → a ∉ l₂ →
        ∀ b ∈ ids, some b ≠ a → l₂.count (some b) = 1 := by
  have hne : ids ≠ [] := fun h => by simp [h] at hids
  have h₀ := hasToken_new hne hnd draw rank
  obtain ⟨h, g, hr, hacts, -⟩ := exists_run
    (fun _ _ h ha => CardsInv.step h ha.namesMines ha.namesCoupon) (cardsInv_new ids draw rank) hops
  have hperm := ids_new_perm draw rank hnd
  have hnd' : (new ids draw rank).ids.Nodup := hperm.nodup_iff.mpr hnd
  have hlen : (new ids draw rank).ids.length = ids.length := hperm.length_eq
  have htoken {s : Game} (hs : Reachable Game.step (fun _ op => op.InRange) (new ids draw rank) s) :
      HasToken s :=
    hs.invariant h₀ fun _ _ _ _ h _ hs => h.step hs
  refine ⟨h, g, hr, hacts, ?_, ?_, ?_, ?_⟩
  · intro s hs
    rcases List.mem_cons.mp hs with rfl | hs
    · exact h₀.oneToken
    · obtain ⟨e, he, rfl⟩ := List.mem_map.mp hs
      obtain ⟨hpre, hok, hstep⟩ := hr.mem_entry e he
      exact (htoken (hpre.tail hok hstep)).oneToken
  · intro e he hout
    obtain ⟨hpre, -, hstep⟩ := hr.mem_entry e he
    obtain ⟨it, hit⟩ := htoken hpre
    rw [hit.holder]
    exact (hit.step hstep).2.1 hout
  · intro e he
    obtain ⟨hpre, -, hstep⟩ := hr.mem_entry e he
    obtain ⟨l, hl⟩ := hpre
    obtain ⟨it, hit⟩ := htoken ⟨l, hl⟩
    obtain ⟨hids', -, hpass⟩ := hit.step hstep
    obtain ⟨t, ht⟩ := h₀
    refine ⟨hids'.trans (run_turns hnd' (by omega) ht hl).1, fun hchange => ⟨it, hit.holder, ?_⟩⟩
    rcases hpass with hstay | hmove
    · exact absurd (by rw [hstay.holder, hit.holder, hids']) hchange
    · rw [hmove.holder, hids', length_ids]
  · intro l₁ l₂ l₃ a hturns ha b hb hab
    obtain ⟨t, ht⟩ := h₀
    obtain ⟨-, k, hwalk, -⟩ := run_turns hnd' (by omega) ht hr
    exact count_of_around hnd' (by omega) (hwalk.symm.trans hturns) ha (hperm.mem_iff.mpr hb) hab

/-- Two players take their turns. -/
theorem turns_rotate_two :
    ∃ h g, Run Game.step (fun _ op => op.InRange) (new [1, 2] (fun _ => 0) Int.toNat) h g ∧
      h.map Entry.act = [.take2Mines 0 1, .take2Mines 1 2] ∧
      ∀ e ∈ h, e.out = true → e.pre.holder = some e.act.player := by
  obtain ⟨h, g, hr, hacts, -, hholder, -⟩ := turns_rotate [1, 2] (by decide) (by decide)
    (fun _ => 0) Int.toNat [.take2Mines 0 1, .take2Mines 1 2]
    (List.forall_mem_cons.mpr ⟨⟨.copper, rfl⟩, List.forall_mem_singleton.mpr ⟨.diamond, rfl⟩⟩)
  exact ⟨h, g, hr, hacts, hholder⟩

end Game

end UnoppServer.Splendor
