import Mathlib.Data.List.Dedup
import UnoppServer.Splendor.Effect

/-!
# Splendor: what each piece of an operation leaves alone

`view π g` reads one component `π` of every player, in iteration order. The
pieces the operations are made of (`setMines`, `handOver`, `fillCoupon`,
`record`, `acquire`, `checkAlly`) leave most components of most players alone;
the lemmas here say which, once for every `π` that does not look at the
component a piece writes.
-/

namespace UnoppServer.Splendor

open FindIf

universe u

namespace Game

/-- One component of every player. -/
def view {β : Type u} (π : Player → β) (g : Game) : List β := g.players.map fun e => π e.2

/-- The keys of the players map. -/
def ids (g : Game) : List Int := g.players.map Prod.fst

/-- The board and the deck. -/
def board (g : Game) : List Coupon × List Coupon := (g.coupons, g.couponsRest)

/-- The player at a position. -/
def At (g : Game) (it : Nat) (id : Int) (p : Player) : Prop := g.players[it]? = some (id, p)

/-- A player who is found is at the place. -/
theorem find_at {g : Game} {player : Int} {it : Nat} {p : Player}
    (h : g.find player = some (it, p)) : g.At it player p := by
  unfold find at h
  rw [Option.map_eq_some_iff] at h
  obtain ⟨⟨i, id, q⟩, hf, he⟩ := h
  obtain ⟨rfl, rfl⟩ := Prod.mk.inj he
  obtain ⟨hget, hid⟩ := findIf_eq_some hf
  obtain rfl : id = player := by simpa using hid
  exact hget

theorem At.mem {g : Game} {it : Nat} {id : Int} {p : Player} (h : g.At it id p) :
    (id, p) ∈ g.players :=
  List.mem_of_getElem? h

/-! ## Frame lemmas -/

section Frame

variable {β : Type u} {π : Player → β} {g : Game} {it : Nat}

/-- A component that an update does not write. -/
theorem view_modifyPlayer {f : Player → Player} (hf : ∀ p, π (f p) = π p) :
    (g.modifyPlayer it f).view π = g.view π :=
  map_modify_of_eq (fun e => hf e.2) g.players it

/-- Only the player at the position counts. -/
theorem At.view_modifyPlayer {id : Int} {p : Player} (h : g.At it id p) {f : Player → Player}
    (hf : π (f p) = π p) : (g.modifyPlayer it f).view π = g.view π := by
  apply List.ext_getElem?
  intro i
  unfold view Game.modifyPlayer
  rw [List.getElem?_map, List.getElem?_map]
  by_cases hi : it = i
  · subst hi
    rw [List.getElem?_modify_eq, h]
    exact congrArg some hf
  · rw [List.getElem?_modify_ne _ _ hi]

/-- Two changes that look the same leave the same view. -/
theorem view_modifyPlayer_congr {f f' : Player → Player} (hf : ∀ p, π (f p) = π (f' p)) :
    (g.modifyPlayer it f).view π = (g.modifyPlayer it f').view π := by
  apply List.ext_getElem?
  intro i
  unfold view Game.modifyPlayer
  rw [List.getElem?_map, List.getElem?_map, List.getElem?_modify, List.getElem?_modify]
  cases g.players[i]? with
  | none => rfl
  | some e => by_cases hi : it = i <;> simp [hi, hf]

/-- Two updates of one player are one. -/
theorem players_modifyPlayer_modifyPlayer (f f' : Player → Player) :
    ((g.modifyPlayer it f).modifyPlayer it f').players =
      (g.modifyPlayer it fun p => f' (f p)).players :=
  List.modify_modify_eq ..

theorem players_modifyPlayer_congr {g g' : Game} (h : g'.players = g.players)
    (f : Player → Player) : (g'.modifyPlayer it f).players = (g.modifyPlayer it f).players := by
  unfold Game.modifyPlayer
  rw [h]

theorem players_setMines (v b : Vector Int 6) :
    (g.setMines it v b).players = (g.modifyPlayer it fun p => { p with mineCount := v }).players :=
  rfl

@[simp] theorem ids_modifyPlayer (f : Player → Player) : (g.modifyPlayer it f).ids = g.ids :=
  map_modify_of_eq (f := Prod.fst) (g := fun e => (e.1, f e.2)) (fun _ => rfl) g.players it

@[simp] theorem length_modifyPlayer (f : Player → Player) :
    (g.modifyPlayer it f).players.length = g.players.length :=
  List.length_modify ..

theorem At.modifyPlayer {id : Int} {p : Player} (h : g.At it id p) (f : Player → Player) :
    (g.modifyPlayer it f).At it id (f p) := by
  unfold At Game.modifyPlayer
  rw [List.getElem?_modify_eq, h]
  rfl

theorem At.modifyPlayer_ne {j : Nat} {id : Int} {p : Player} (h : g.At it id p) (hne : j ≠ it)
    (f : Player → Player) : (g.modifyPlayer j f).At it id p := by
  unfold At Game.modifyPlayer
  rw [List.getElem?_modify_ne _ _ hne]
  exact h

theorem At.setMines {id : Int} {p : Player} (h : g.At it id p) (v b : Vector Int 6) :
    (g.setMines it v b).At it id { p with mineCount := v } :=
  At.modifyPlayer (g := { g with bank := b }) h fun p => { p with mineCount := v }

/-- A position of a game in which one player was changed. -/
theorem At.of_modifyPlayer {j : Nat} {id : Int} {p : Player} {f : Player → Player}
    (h : (g.modifyPlayer it f).At j id p) :
    (∃ q, g.At it id q ∧ p = f q) ∨ (j ≠ it ∧ g.At j id p) := by
  unfold At Game.modifyPlayer at h
  by_cases hj : it = j
  · subst hj
    rw [List.getElem?_modify_eq, Option.map_eq_map, Option.map_eq_some_iff] at h
    obtain ⟨⟨id', q⟩, hq, heq⟩ := h
    obtain ⟨rfl, rfl⟩ := Prod.mk.inj heq
    exact .inl ⟨q, hq, rfl⟩
  · rw [List.getElem?_modify_ne _ _ hj] at h
    exact .inr ⟨fun he => hj he.symm, h⟩

/-- A player after a change of one is an old one or the new one. -/
theorem mem_players_modify {f : Player → Player} {e : Int × Player}
    (he : e ∈ (g.modifyPlayer it f).players) :
    e ∈ g.players ∨ ∃ q, g.At it e.1 q ∧ e.2 = f q := by
  obtain ⟨j, hj⟩ := List.getElem?_of_mem he
  have hat : (g.modifyPlayer it f).At j e.1 e.2 := hj
  rcases hat.of_modifyPlayer with hq | ⟨-, hsame⟩
  · exact .inr hq
  · exact .inl hsame.mem

theorem mem_view_modify {id : Int} {p : Player} {f : Player → Player} {x : β} (hp : g.At it id p)
    (hx : x ∈ (g.modifyPlayer it f).view π) : x ∈ g.view π ∨ x = π (f p) := by
  obtain ⟨e, he, rfl⟩ := List.mem_map.mp hx
  rcases mem_players_modify he with he | ⟨q, hq, heq⟩
  · exact .inl (List.mem_map.mpr ⟨e, he, rfl⟩)
  · obtain ⟨-, rfl⟩ := Prod.mk.inj (Option.some.inj (hp.symm.trans hq))
    exact .inr (congrArg π heq)

theorem view_setMines (hπ : ∀ p v, π { p with mineCount := v } = π p) (v b : Vector Int 6) :
    (g.setMines it v b).view π = g.view π :=
  view_modifyPlayer (g := { g with bank := b }) fun p => hπ p v

/-- The buyer after a purchase. -/
def bought (p : Player) (c : Coupon) (t : Fin 5) (bank : Vector Int 6) (q : Player) : Player :=
  { q with mineCount := (pay p c bank).1, coupons := q.coupons ++ [c],
           couponCount := bump p.couponCount t 1, reputation := q.reputation + c.reputation }

theorem players_afterBuy (p : Player) (c : Coupon) (t : Fin 5) (label : String) (player : Int) :
    (g.afterBuy it p c t label player).players =
      (g.modifyPlayer it (bought p c t g.bank)).players := by
  unfold afterBuy record acquire setMines
  rw [players_modifyPlayer_modifyPlayer]
  rfl

theorem players_afterBuy_dropReserved (p : Player) (c : Coupon) (t : Fin 5) (label : String)
    (player : Int) (slot : Nat) :
    ((g.afterBuy it p c t label player).modifyPlayer it (dropReserved slot)).players =
      (g.modifyPlayer it fun q => dropReserved slot (bought p c t g.bank q)).players := by
  show List.modify (g.afterBuy it p c t label player).players it _ = _
  rw [players_afterBuy]
  exact players_modifyPlayer_modifyPlayer ..

theorem view_of_players {g g' : Game} (h : g'.players = g.players) : g'.view π = g.view π := by
  unfold view
  rw [h]

theorem view_handOver (hπ : ∀ p s, π { p with status := s } = π p) :
    (g.handOver it).view π = g.view π := by
  unfold handOver
  rw [view_modifyPlayer fun p => hπ p _, view_modifyPlayer fun p => hπ p _]

theorem view_handOverUnlessFull (hπ : ∀ p s, π { p with status := s } = π p) :
    (g.handOverUnlessFull it).view π = g.view π := by
  unfold handOverUnlessFull
  split
  · exact view_modifyPlayer fun p => hπ p _
  · exact view_handOver hπ

@[simp] theorem view_record (action : List (String × Json)) :
    (g.record action).view π = g.view π := rfl

@[simp] theorem players_fillCoupon (level : Int) (slot : Nat) :
    (g.fillCoupon level slot).players = g.players := by
  unfold fillCoupon
  split <;> rfl

theorem players_moveToReserve (slot : Nat) (c : Coupon) (player : Int) :
    (g.moveToReserve it slot c player).players =
      (g.modifyPlayer it fun p =>
        { p with reservedCoupons := p.reservedCoupons ++ [c] }).players :=
  players_fillCoupon ..

/-- A player who has reserved a coupon and now holds the mines `v`. -/
def reserved (c : Coupon) (v : Vector Int 6) (q : Player) : Player :=
  { q with reservedCoupons := q.reservedCoupons ++ [c], mineCount := v }

theorem players_moveToReserve_setMines (slot : Nat) (c : Coupon) (player : Int)
    (v b : Vector Int 6) :
    ((g.moveToReserve it slot c player).setMines it v b).players =
      (g.modifyPlayer it (reserved c v)).players := by
  rw [players_setMines, players_modifyPlayer_congr (players_moveToReserve ..)]
  exact players_modifyPlayer_modifyPlayer ..

@[simp] theorem view_fillCoupon (level : Int) (slot : Nat) :
    (g.fillCoupon level slot).view π = g.view π := by
  unfold view
  rw [players_fillCoupon]

/-- A reservation, for a component that does not count mines. -/
theorem view_afterReserve (hπ : ∀ p v, π { p with mineCount := v } = π p) (p : Player) (slot : Nat)
    (c : Coupon) (player : Int) :
    (g.afterReserve it p slot c player).view π = (g.modifyPlayer it fun p =>
      { p with reservedCoupons := p.reservedCoupons ++ [c] }).view π := by
  rw [← view_of_players (players_moveToReserve slot c player)]
  unfold afterReserve
  dsimp only
  split
  · exact view_setMines hπ _ _
  · rfl

/-- Offering an ally changes nothing but the reputation. -/
theorem map_offerAlly {γ : Type u} {f : Int × Player → γ}
    (hf : ∀ id p r, f (id, { p with reputation := r }) = f (id, p)) :
    ∀ (a : Ally) (actions : List Json) (players : List (Int × Player)),
      (offerAlly a actions players).2.2.map f = players.map f := by
  intro a actions players
  induction players generalizing a actions with
  | nil => rfl
  | cons e rest ih =>
    unfold offerAlly
    split
    · simp only [List.map_cons, hf, ih]
    · simp only [List.map_cons, ih]

/-- Offering all allies changes nothing but the reputation. -/
theorem map_offerAllies {γ : Type u} {f : Int × Player → γ}
    (hf : ∀ id p r, f (id, { p with reputation := r }) = f (id, p)) :
    ∀ (allies : List Ally) (actions : List Json) (players : List (Int × Player)),
      (offerAllies allies actions players).2.2.map f = players.map f := by
  intro allies
  induction allies with
  | nil => exact fun _ _ => rfl
  | cons a rest ih =>
    intro actions players
    unfold offerAllies
    split
    · exact ih actions players
    · simp only
      rw [ih, map_offerAlly hf]

/-- `check_ally` writes reputations only. -/
theorem view_checkAlly (hπ : ∀ p r, π { p with reputation := r } = π p) :
    g.checkAlly.view π = g.view π :=
  map_offerAllies (f := fun e => π e.2) (fun _ p r => hπ p r) ..

/-- A purchase from the board, for a component that is neither the status nor the
reputation. -/
theorem view_buy (hs : ∀ p s, π { p with status := s } = π p)
    (hr : ∀ p r, π { p with reputation := r } = π p) (p : Player) (c : Coupon) (t : Fin 5)
    (label : String) (player : Int) (slot : Nat) :
    (((g.afterBuy it p c t label player).fillCoupon c.level slot).handOver it).checkAlly.view π =
      (g.modifyPlayer it (bought p c t g.bank)).view π := by
  rw [view_checkAlly hr, view_handOver hs, view_fillCoupon, view_of_players (players_afterBuy ..)]

/-- The same for a purchase from the reserved coupons. -/
theorem view_buyReserved (hs : ∀ p s, π { p with status := s } = π p)
    (hr : ∀ p r, π { p with reputation := r } = π p) (p : Player) (c : Coupon) (t : Fin 5)
    (label : String) (player : Int) (slot : Nat) :
    (((g.afterBuy it p c t label player).modifyPlayer it
      (dropReserved slot)).handOver it).checkAlly.view π =
      (g.modifyPlayer it fun q => dropReserved slot (bought p c t g.bank q)).view π := by
  rw [view_checkAlly hr, view_handOver hs, view_of_players (players_afterBuy_dropReserved ..)]

@[simp] theorem ids_checkAlly : g.checkAlly.ids = g.ids :=
  map_offerAllies (f := Prod.fst) (fun _ _ _ => rfl) ..

/-! The keys of the players map. -/

theorem ids_of_players {g g' : Game} (h : g'.players = g.players) : g'.ids = g.ids := by
  unfold ids
  rw [h]

@[simp] theorem length_ids (g : Game) : g.ids.length = g.players.length := List.length_map ..

theorem At.id_at {id : Int} {p : Player} (h : g.At it id p) : g.ids[it]? = some id := by
  unfold ids
  rw [List.getElem?_map, h]
  rfl

/-- A key has one position. -/
theorem At.unique (hnd : g.ids.Nodup) {j : Nat} {id : Int} {p q : Player} (h : g.At it id p)
    (h' : g.At j id q) : it = j := by
  have hlt : it < g.ids.length := by
    rw [length_ids]
    exact (List.getElem?_eq_some_iff.mp h).1
  exact (List.getElem?_inj hlt hnd).mp (h.id_at.trans h'.id_at.symm)

/-- A player is found under the player's key. -/
theorem At.find {id : Int} {p : Player} (h : g.At it id p) (hnd : g.ids.Nodup) :
    g.find id = some (it, p) := by
  obtain ⟨i, ⟨id', q⟩, hfind⟩ := exists_findIf (p := fun e => e.1 == id) h.mem (beq_self_eq_true id)
  have hfind' : g.find id = some (i, q) := by
    unfold Game.find
    rw [hfind]
    rfl
  have hat := find_at hfind'
  obtain rfl := h.unique hnd hat
  obtain ⟨-, rfl⟩ := Prod.mk.inj (Option.some.inj (hat.symm.trans h))
  exact hfind'

@[simp] theorem ids_setMines (v b : Vector Int 6) : (g.setMines it v b).ids = g.ids :=
  ids_modifyPlayer (g := { g with bank := b }) _

@[simp] theorem ids_handOver : (g.handOver it).ids = g.ids := by
  unfold handOver
  rw [ids_modifyPlayer, ids_modifyPlayer]

@[simp] theorem ids_handOverUnlessFull : (g.handOverUnlessFull it).ids = g.ids := by
  unfold handOverUnlessFull
  split
  · exact ids_modifyPlayer _
  · exact ids_handOver

@[simp] theorem ids_record (action : List (String × Json)) : (g.record action).ids = g.ids := rfl

@[simp] theorem ids_fillCoupon (level : Int) (slot : Nat) :
    (g.fillCoupon level slot).ids = g.ids :=
  ids_of_players (players_fillCoupon level slot)

/-- Nobody joins or leaves a game. -/
theorem ids_effect {op : Op} {g' : Game} (h : Effect g op g') : g'.ids = g.ids := by
  cases h with
  | take3 => rw [ids_record, ids_handOverUnlessFull, after3, ids_setMines]
  | take2 => rw [ids_record, ids_handOverUnlessFull, ids_setMines]
  | reserve =>
    rw [ids_handOverUnlessFull, afterReserve]
    split
    · rw [ids_setMines, ids_of_players (players_moveToReserve ..), ids_modifyPlayer]
    · rw [ids_of_players (players_moveToReserve ..), ids_modifyPlayer]
  | buy =>
    rw [ids_checkAlly, ids_handOver, ids_fillCoupon, ids_of_players (players_afterBuy ..),
      ids_modifyPlayer]
  | buyReserved =>
    rw [ids_checkAlly, ids_handOver, ids_of_players (players_afterBuy_dropReserved ..),
      ids_modifyPlayer]
  | returnMine =>
    simp only
    split
    · rw [ids_handOver, ids_setMines]
    · rw [ids_setMines]

/-! The bank and the board. -/

@[simp] theorem bank_modifyPlayer (f : Player → Player) : (g.modifyPlayer it f).bank = g.bank :=
  rfl

@[simp] theorem bank_setMines (v b : Vector Int 6) : (g.setMines it v b).bank = b := rfl

@[simp] theorem bank_handOver : (g.handOver it).bank = g.bank := rfl

@[simp] theorem bank_handOverUnlessFull : (g.handOverUnlessFull it).bank = g.bank := by
  unfold handOverUnlessFull
  split <;> rfl

@[simp] theorem bank_record (action : List (String × Json)) : (g.record action).bank = g.bank :=
  rfl

@[simp] theorem bank_fillCoupon (level : Int) (slot : Nat) :
    (g.fillCoupon level slot).bank = g.bank := by
  unfold fillCoupon
  split <;> rfl

@[simp] theorem bank_moveToReserve (slot : Nat) (c : Coupon) (player : Int) :
    (g.moveToReserve it slot c player).bank = g.bank :=
  bank_fillCoupon ..

@[simp] theorem bank_checkAlly : g.checkAlly.bank = g.bank := rfl

@[simp] theorem board_modifyPlayer (f : Player → Player) :
    (g.modifyPlayer it f).board = g.board := rfl

@[simp] theorem board_setMines (v b : Vector Int 6) : (g.setMines it v b).board = g.board := rfl

/-- The board after a reservation is the one after the coupon has moved. -/
@[simp] theorem board_afterReserve (p : Player) (slot : Nat) (c : Coupon) (player : Int) :
    (g.afterReserve it p slot c player).board = (g.moveToReserve it slot c player).board := by
  unfold afterReserve
  dsimp only
  split <;> rfl

@[simp] theorem board_handOver : (g.handOver it).board = g.board := rfl

@[simp] theorem board_handOverUnlessFull : (g.handOverUnlessFull it).board = g.board := by
  unfold handOverUnlessFull
  split <;> rfl

@[simp] theorem board_record (action : List (String × Json)) :
    (g.record action).board = g.board := rfl

@[simp] theorem board_checkAlly : g.checkAlly.board = g.board := rfl

/-! The allies. -/

@[simp] theorem allies_modifyPlayer (f : Player → Player) :
    (g.modifyPlayer it f).allies = g.allies := rfl

@[simp] theorem allies_setMines (v b : Vector Int 6) : (g.setMines it v b).allies = g.allies := rfl

@[simp] theorem allies_handOver : (g.handOver it).allies = g.allies := rfl

@[simp] theorem allies_handOverUnlessFull : (g.handOverUnlessFull it).allies = g.allies := by
  unfold handOverUnlessFull
  split <;> rfl

@[simp] theorem allies_record (action : List (String × Json)) :
    (g.record action).allies = g.allies := rfl

@[simp] theorem allies_fillCoupon (level : Int) (slot : Nat) :
    (g.fillCoupon level slot).allies = g.allies := by
  unfold fillCoupon
  split <;> rfl

@[simp] theorem allies_moveToReserve (slot : Nat) (c : Coupon) (player : Int) :
    (g.moveToReserve it slot c player).allies = g.allies :=
  allies_fillCoupon ..

@[simp] theorem allies_afterReserve (p : Player) (slot : Nat) (c : Coupon) (player : Int) :
    (g.afterReserve it p slot c player).allies = g.allies := by
  unfold afterReserve
  dsimp only
  split
  · rw [allies_setMines, allies_moveToReserve]
  · exact allies_moveToReserve ..

@[simp] theorem allies_afterBuy (p : Player) (c : Coupon) (t : Fin 5) (label : String)
    (player : Int) : (g.afterBuy it p c t label player).allies = g.allies := rfl

end Frame

/-! ## The first state -/

/-- The first state before a player is drawn to begin. -/
def seated (ids : List Int) (draw : Nat → Nat) (rank : Int → Nat) : Game :=
  { new ids draw rank with
    players := (hashOrder rank id ids.dedup).map fun p => (p, Player.new) }

/-- The position of the player who begins. -/
def beginner (ids : List Int) (draw : Nat → Nat) (rank : Int → Nat) : Nat :=
  draw 0 % (seated ids draw rank).players.length

section New

variable (ids : List Int) (draw : Nat → Nat) (rank : Int → Nat)

theorem new_eq : new ids draw rank = (seated ids draw rank).modifyPlayer (beginner ids draw rank)
    fun p => { p with status := .action } :=
  rfl

theorem view_seated {β : Type u} (π : Player → β) :
    (seated ids draw rank).view π = (hashOrder rank id ids.dedup).map fun _ => π .new :=
  List.map_map ..

theorem view_new {β : Type u} {π : Player → β} (hπ : ∀ p s, π { p with status := s } = π p) :
    (new ids draw rank).view π = (hashOrder rank id ids.dedup).map fun _ => π .new := by
  rw [new_eq, view_modifyPlayer fun p => hπ p _, view_seated]

theorem ids_new : (new ids draw rank).ids = hashOrder rank id ids.dedup := by
  rw [new_eq, ids_modifyPlayer, Game.ids, seated, List.map_map]
  exact List.map_id' _

theorem ids_new_perm {ids : List Int} (hnd : ids.Nodup) : (new ids draw rank).ids.Perm ids := by
  rw [ids_new, List.dedup_eq_self.mpr hnd]
  exact hashOrder_perm ..

end New

end Game

end UnoppServer.Splendor
