import UnoppServer.Lib.Occupancy
import UnoppServer.Room.Frame
import UnoppServer.Room.MineRequests

/-!
# Rooms: the membership index

`user_2_room_id` is one static map over all rooms. It is written by a normal
join, by a member who comes back to a running game on a new connection, by a
connection that closes outside a game and by the destructor of a room, while the
tables of connections change in each room on their own.

`IndexInv` says that the map and the tables agree (`Occupancy.Exact`) and that
every entry of a table describes the owner of its connection. Every event keeps
it (`IndexInv.step`), so it holds in every state that is reached
(`membership_exact`). Events are `Consistent`: a connection belongs to one user
for its life, and users have names that are fixed and distinct.
-/

namespace UnoppServer

open Assoc FindIf Runs Occupancy

/-! ## Who sits where -/

/-- The connection `k` of the room belongs to the user `u`. -/
def Room.Seated (r : Room) (k : Nat) (u : Int) : Prop :=
  ∃ info, r.connections.lookup k = some info ∧ info.userId = u

/-- The connection `k` of the room `id` belongs to the user `u`. -/
def Manager.Seated (m : Manager) (id k : Nat) (u : Int) : Prop :=
  ∃ r, m.rooms.lookup id = some r ∧ r.Seated k u

/-- The seats after a room has changed are its new ones and those of the others. -/
theorem Manager.seated_insert {rooms : Map Nat Room} {index : UserRooms} {id : Nat} {r : Room}
    {id' k : Nat} {u : Int} :
    Manager.Seated ⟨rooms.insert id r, index⟩ id' k u ↔
      if id' = id then r.Seated k u else Manager.Seated ⟨rooms, index⟩ id' k u := by
  unfold Manager.Seated
  simp only [lookup_insert_eq]
  split
  · exact ⟨fun ⟨_, h, hk⟩ => Option.some.inj h ▸ hk, fun hk => ⟨r, rfl, hk⟩⟩
  · exact Iff.rfl

/-- The seats after a room has been removed are those of the others. -/
theorem Manager.seated_erase {rooms : Map Nat Room} {index : UserRooms} {id : Nat}
    {id' k : Nat} {u : Int} :
    Manager.Seated ⟨rooms.erase id, index⟩ id' k u ↔
      id' ≠ id ∧ Manager.Seated ⟨rooms, index⟩ id' k u := by
  unfold Manager.Seated
  simp only [lookup_erase_eq]
  by_cases h : id' = id
  · simp only [if_pos h]
    exact ⟨fun ⟨_, h', _⟩ => (nomatch h'), fun h' => absurd h h'.1⟩
  · simp only [if_neg h]
    exact (and_iff_right h).symm

theorem Manager.seated_of_lookup {m : Manager} {id k : Nat} {u : Int} {r : Room}
    (hr : m.rooms.lookup id = some r) : m.Seated id k u ↔ r.Seated k u := by
  unfold Manager.Seated
  rw [hr]
  exact ⟨fun ⟨_, h, hk⟩ => Option.some.inj h ▸ hk, fun hk => ⟨r, rfl, hk⟩⟩

namespace Room

/-- The same seats seat the same users. -/
theorem SameSeats.seated {r r' : Room} (h : SameSeats r r') (k : Nat) (u : Int) :
    r'.Seated k u ↔ r.Seated k u := by
  have hseated (s : Room) : s.Seated k u ↔
      ((s.connections.lookup k).map UserInfo.seat).map Prod.snd = some u := by
    unfold Seated
    cases s.connections.lookup k with
    | none => exact ⟨fun ⟨_, h, _⟩ => (nomatch h), fun h => (nomatch h)⟩
    | some info =>
      exact ⟨fun ⟨_, h, hu⟩ => Option.some.inj h ▸ congrArg some hu,
        fun h => ⟨info, rfl, Option.some.inj h⟩⟩
  rw [hseated, hseated, h.seat]

/-- An entry less is a seat less. -/
theorem seated_erase {r : Room} {connId k : Nat} {u : Int} :
    Room.Seated { r with connections := r.connections.erase connId } k u ↔
      k ≠ connId ∧ r.Seated k u := by
  unfold Seated
  dsimp only
  rw [lookup_erase_eq]
  by_cases hk : k = connId
  · rw [if_pos hk]
    exact iff_of_false (fun ⟨_, h, _⟩ => nomatch h) fun h => h.1 hk
  · rw [if_neg hk]
    exact (and_iff_right hk).symm

/-- Every entry of the table describes the owner of its connection. -/
def Owned (owner : Nat → Int) (nameOf : Int → String) (r : Room) : Prop :=
  ∀ k info, r.connections.lookup k = some info → info.seat = (nameOf (owner k), owner k)

variable {owner : Nat → Int} {nameOf : Int → String}

theorem Owned.seated {r : Room} (h : r.Owned owner nameOf) {k : Nat} {u : Int}
    (hk : r.Seated k u) : u = owner k := by
  obtain ⟨info, hinfo, rfl⟩ := hk
  exact congrArg Prod.snd (h k info hinfo)

/-- An entry less leaves the others with their owners. -/
theorem Owned.erase {r : Room} (h : r.Owned owner nameOf) (connId : Nat) :
    Room.Owned owner nameOf { r with connections := r.connections.erase connId } := by
  intro k info hinfo
  change (r.connections.erase connId).lookup k = some info at hinfo
  rw [lookup_erase_eq] at hinfo
  split at hinfo
  · cases hinfo
  · exact h k info hinfo

/-- The same seats have the same owners. -/
theorem SameSeats.owned {r r' : Room} (h : SameSeats r r') (ho : r.Owned owner nameOf) :
    r'.Owned owner nameOf := by
  intro k info hinfo
  have hseat := h.seat k
  rw [hinfo] at hseat
  cases hr : r.connections.lookup k with
  | none =>
    rw [hr] at hseat
    cases hseat
  | some info₀ =>
    rw [hr] at hseat
    exact (Option.some.inj hseat).trans (ho k info₀ hr)

end Room

/-! ## The invariant -/

/-- Connections and users as the events name them. -/
def Event.Consistent (owner : Nat → Int) (nameOf : Int → String) : Event → Prop
  | .message c _ _ => c.userId = owner c.connId ∧ c.userName = nameOf c.userId
  | .close connId userId => userId = owner connId
  | .visit _ | .update _ => True

/-- `user_2_room_id` agrees with the rooms. -/
structure IndexInv (owner : Nat → Int) (nameOf : Int → String) (m : Manager) : Prop where
  exact : Exact m.userRooms m.Seated
  room : ∀ {id r}, m.rooms.lookup id = some r → r.id = id ∧ r.Owned owner nameOf

namespace IndexInv

variable {owner : Nat → Int} {nameOf : Int → String} {m : Manager}

theorem new : IndexInv owner nameOf Manager.new :=
  ⟨Exact.empty.congr fun _ _ _ => iff_of_false (fun ⟨_, h, _⟩ => nomatch h) (fun h => h),
    fun h => nomatch h⟩

/-- A room is replaced, with the index updated to match. -/
theorem insert {index : UserRooms} {id : Nat} {r : Room} (h : IndexInv owner nameOf m)
    (hid : r.id = id) (hr : r.Owned owner nameOf)
    (hexact : Exact index (Manager.Seated ⟨m.rooms.insert id r, index⟩)) :
    IndexInv owner nameOf ⟨m.rooms.insert id r, index⟩ := by
  refine ⟨hexact, fun {id' r'} hr' => ?_⟩
  change (m.rooms.insert id r).lookup id' = some r' at hr'
  rw [lookup_insert_eq] at hr'
  by_cases he : id' = id
  · rw [if_pos he] at hr'
    obtain rfl := Option.some.inj hr'
    exact ⟨hid.trans he.symm, hr⟩
  · rw [if_neg he] at hr'
    exact h.room hr'

/-- A room is replaced by one with the same seats. -/
theorem insert_sameSeats {id : Nat} {r r' : Room} (h : IndexInv owner nameOf m)
    (hr : m.rooms.lookup id = some r) (hs : Room.SameSeats r r') :
    IndexInv owner nameOf ⟨m.rooms.insert id r', m.userRooms⟩ := by
  refine h.insert (hs.id.trans (h.room hr).1) (hs.owned (h.room hr).2) ?_
  refine h.exact.congr fun id' k u => Manager.seated_insert.trans ?_
  by_cases he : id' = id
  · rw [if_pos he, hs.seated, he, Manager.seated_of_lookup hr]
  · rw [if_neg he]

/-- The connection found by name is one of the caller's. -/
theorem seated_oldConnId (hinj : Function.Injective nameOf) {env : Env} {r : Room} {c : Caller}
    (ho : r.Owned owner nameOf) (hc : c.userName = nameOf c.userId) {k : Nat}
    (hk : r.oldConnId env c.userName = some k) : r.Seated k c.userId := by
  obtain ⟨info, hinfo, hname⟩ := Room.lookup_oldConnId hk
  obtain ⟨hn, hu⟩ := Prod.mk.inj (ho k info hinfo)
  exact ⟨info, hinfo, hinj (by rw [← hc, ← hname, hn, hu])⟩

variable {env : Env} {r r' : Room} {index : UserRooms} {id : Nat} {c : Caller}

/-- A caller who is admitted was in no room, or on the connection that the
admission replaces. -/
theorem oldConnId_of_seated (h : IndexInv owner nameOf m) (hinj : Function.Injective nameOf)
    (hr : m.rooms.lookup id = some r) (hn : c.userName = nameOf c.userId)
    (ha : r.Admits env m.userRooms c index r') {id' k : Nat} (hk : m.Seated id' k c.userId) :
    id' = id ∧ r.oldConnId env c.userName = some k := by
  have hindex := h.exact.sound hk
  cases hold : r.oldConnId env c.userName with
  | none =>
    rw [ha.free hold] at hindex
    cases hindex
  | some k₀ =>
    have hk₀ : m.Seated id k₀ c.userId :=
      (Manager.seated_of_lookup hr).mpr (seated_oldConnId hinj (h.room hr).2 hn hold)
    obtain rfl := Option.some.inj (hindex.symm.trans (h.exact.sound hk₀))
    exact ⟨rfl, congrArg some (h.exact.once hk₀ hk)⟩

/-- The seats after a successful `JOIN_ROOM`. -/
theorem seated_admits (h : IndexInv owner nameOf m) (hinj : Function.Injective nameOf)
    (hr : m.rooms.lookup id = some r) (hu : c.userId = owner c.connId)
    (hn : c.userName = nameOf c.userId) (ha : r.Admits env m.userRooms c index r')
    (k : Nat) (v : Int) :
    r'.Seated k v ↔ if v = c.userId then k = c.connId else r.Seated k v := by
  unfold Room.Seated
  rw [ha.room, Room.lookup_enter]
  by_cases hv : v = c.userId
  · rw [if_pos hv]
    constructor
    · rintro ⟨info, hi, he⟩
      by_contra hk
      rw [if_neg hk] at hi
      by_cases hold : r.oldConnId env c.userName = some k
      · rw [if_pos hold] at hi
        cases hi
      · -- another connection of the caller would be the one that is replaced
        rw [if_neg hold] at hi
        have hs : r.Seated k c.userId := ⟨info, hi, he.trans hv⟩
        exact hold (h.oldConnId_of_seated hinj hr hn ha ((Manager.seated_of_lookup hr).mpr hs)).2
    · intro hk
      exact ⟨_, if_pos hk, hv.symm⟩
  · rw [if_neg hv]
    constructor
    · rintro ⟨info, hi, he⟩
      split at hi
      · obtain rfl := Option.some.inj hi
        exact absurd he.symm hv
      · split at hi
        · cases hi
        · exact ⟨info, hi, he⟩
    · rintro ⟨info, hi, he⟩
      have hk : k ≠ c.connId := by
        rintro rfl
        exact hv (((h.room hr).2.seated ⟨info, hi, he⟩).trans hu.symm)
      have hold : r.oldConnId env c.userName ≠ some k := by
        intro hold
        obtain ⟨info', hi', he'⟩ := seated_oldConnId hinj (h.room hr).2 hn hold
        obtain rfl := Option.some.inj (hi.symm.trans hi')
        exact hv (he.symm.trans he')
      exact ⟨info, by rw [if_neg hk, if_neg hold, hi], he⟩

/-- A room admits a caller. -/
theorem insert_admits (h : IndexInv owner nameOf m) (hinj : Function.Injective nameOf)
    (hr : m.rooms.lookup id = some r) (hu : c.userId = owner c.connId)
    (hn : c.userName = nameOf c.userId) (ha : r.Admits env m.userRooms c index r') :
    IndexInv owner nameOf ⟨m.rooms.insert id r', index⟩ := by
  obtain ⟨hid, ho⟩ := h.room hr
  refine h.insert (by rw [ha.room]; exact hid) (fun k info hinfo => ?_) ?_
  · rw [ha.room, Room.lookup_enter] at hinfo
    by_cases hk : k = c.connId
    · rw [if_pos hk] at hinfo
      obtain rfl := Option.some.inj hinfo
      rw [hk, ← hu, ← hn]
      rfl
    · rw [if_neg hk] at hinfo
      split at hinfo
      · cases hinfo
      · exact ho k info hinfo
  · rw [ha.index, hid]
    refine h.exact.place (k := c.connId) fun id' k v => Manager.seated_insert.trans ?_
    by_cases he : id' = id
    · rw [if_pos he, h.seated_admits hinj hr hu hn ha]
      split
      · exact (and_iff_right he).symm
      · rw [he, Manager.seated_of_lookup hr]
    · rw [if_neg he]
      by_cases hv : v = c.userId
      · -- the caller sits in no other room
        rw [if_pos hv, hv]
        refine iff_of_false (fun hk => ?_) fun hk => he hk.1
        exact he (h.oldConnId_of_seated hinj hr hn ha hk).1
      · rw [if_neg hv]
        exact Iff.rfl

/-- The destructor forgets the members of the room. -/
theorem destroy_apply (r : Room) (index : UserRooms) (v : Int) :
    ((∃ k, r.Seated k v) → r.destroy index v = none) ∧
      ((∀ k, ¬ r.Seated k v) → r.destroy index v = index v) := by
  have hseated : (∃ k, r.Seated k v) ↔ ∃ e ∈ r.connections.entries, e.2.userId = v :=
    ⟨fun ⟨k, info, hi, hu⟩ => ⟨⟨k, info⟩, AList.mem_lookup_iff.mp hi, hu⟩,
      fun ⟨e, he, hu⟩ => ⟨e.1, e.2, AList.mem_lookup_iff.mpr he, hu⟩⟩
  rw [← not_exists, hseated]
  unfold Room.destroy
  generalize r.connections.entries = entries
  -- on the entries that are left, for any index
  induction entries generalizing index with
  | nil => exact ⟨fun ⟨_, he, _⟩ => absurd he List.not_mem_nil, fun _ => rfl⟩
  | cons e entries ih =>
    obtain ⟨ihgone, ihstay⟩ := ih (Function.update index e.2.userId none)
    rw [List.foldl_cons]
    constructor
    · rintro ⟨e', he', hu⟩
      by_cases hrest : ∃ e ∈ entries, e.2.userId = v
      · exact ihgone hrest
      · rcases List.mem_cons.mp he' with rfl | he'
        · rw [ihstay hrest, hu, Function.update_self]
        · exact absurd ⟨e', he', hu⟩ hrest
    · intro hno
      rw [ihstay fun ⟨e', he', hu⟩ => hno ⟨e', List.mem_cons_of_mem _ he', hu⟩]
      exact Function.update_of_ne (fun hv => hno ⟨e, List.mem_cons_self, hv.symm⟩) none index

/-- A room is erased, with its destructor. -/
theorem eraseRoom (h : IndexInv owner nameOf m) (hr : m.rooms.lookup id = some r) :
    IndexInv owner nameOf (m.eraseRoom id r) := by
  constructor
  · refine h.exact.clear (r := id) (fun k v hk => ?_) (fun v hv => ?_)
      fun _ _ _ => Manager.seated_erase
    · exact (destroy_apply r m.userRooms v).1 ⟨k, (Manager.seated_of_lookup hr).mp hk⟩
    · exact (destroy_apply r m.userRooms v).2 fun k hk =>
        hv k ((Manager.seated_of_lookup hr).mpr hk)
  · intro id' r' hr'
    unfold Manager.eraseRoom at hr'
    dsimp only at hr'
    rw [lookup_erase_eq] at hr'
    split at hr'
    · cases hr'
    · exact h.room hr'

/-- A connection is erased, and its user's index entry with it. -/
theorem insert_erase (h : IndexInv owner nameOf m) (hr : m.rooms.lookup id = some r) {connId : Nat}
    {info : UserInfo} (hinfo : r.connections.lookup connId = some info) :
    IndexInv owner nameOf
      ⟨m.rooms.insert id { r with connections := r.connections.erase connId },
        Function.update m.userRooms info.userId none⟩ := by
  obtain ⟨hid, ho⟩ := h.room hr
  have hseated : m.Seated id connId info.userId :=
    (Manager.seated_of_lookup hr).mpr ⟨info, hinfo, rfl⟩
  refine h.insert hid (ho.erase connId)
    (h.exact.leave fun id' k v => Manager.seated_insert.trans ?_)
  by_cases he : id' = id
  · rw [if_pos he, he, Manager.seated_of_lookup hr, Room.seated_erase]
    refine and_congr_left fun hk => not_congr ⟨?_, fun hv => ?_⟩
    · rintro rfl
      obtain ⟨info', hi, rfl⟩ := hk
      rw [Option.some.inj (hinfo.symm.trans hi)]
    · -- the user has no second connection in the room
      exact h.exact.once ((Manager.seated_of_lookup hr).mpr (hv ▸ hk)) hseated
  · rw [if_neg he]
    refine (and_iff_right_of_imp fun hk => ?_).symm
    rintro rfl
    exact he (Option.some.inj ((h.exact.sound hk).symm.trans (h.exact.sound hseated)))

/-- A connection closes: during a game its entry is marked, else it is erased. -/
theorem insert_close (h : IndexInv owner nameOf m) (hr : m.rooms.lookup id = some r) (env : Env)
    (connId : Nat) :
    IndexInv owner nameOf ⟨m.rooms.insert id (r.processClose env m.userRooms connId).2.2,
      (r.processClose env m.userRooms connId).2.1⟩ := by
  unfold Room.processClose
  cases hinfo : r.connections.lookup connId with
  | none => exact h.insert_sameSeats hr (.refl r)
  | some info =>
    dsimp only
    split
    · exact h.insert_sameSeats hr (Room.sameSeats_insert hinfo rfl)
    · exact h.insert_erase hr hinfo

/-- A closed connection keeps the index, as both forget the same seat. -/
theorem processClose (h : IndexInv owner nameOf m) (env : Env) (connId : Nat) (userId : Int) :
    IndexInv owner nameOf (m.processClose env connId userId).2 := by
  unfold Manager.processClose
  dsimp only
  cases hr : m.rooms.lookup (Room.getUsersRoomId m.userRooms userId) with
  | none => exact h
  | some r =>
    dsimp only
    have hclose := h.insert_close hr env connId
    split
    · exact hclose.eraseRoom (AList.lookup_insert _)
    · exact hclose

/-- A visit keeps the index, as an empty room seats nobody. -/
theorem visit (h : IndexInv owner nameOf m) (id : Nat) : IndexInv owner nameOf (m.visit id) := by
  unfold Manager.visit
  cases hr : m.rooms.lookup id with
  | none => exact h
  | some r =>
    dsimp only
    split
    · exact h.eraseRoom hr
    · exact h

/-- An update keeps the index. -/
theorem runUpdate (h : IndexInv owner nameOf m) (env : Env) (id : Nat) :
    IndexInv owner nameOf (m.runUpdate env id).2 := by
  unfold Manager.runUpdate
  cases hr : m.rooms.lookup id with
  | none => exact h
  | some r =>
    dsimp only
    split
    · exact h.insert_sameSeats hr (Room.gameOnly_gomokuUpdate _ _ _).sameSeats
    · exact h

/-- A `CREATE_ROOM` keeps the index. -/
theorem createRoom (h : IndexInv owner nameOf m) (c : Caller) (payload : Json) :
    Ensures (m.createRoom c payload) fun s => IndexInv owner nameOf s.2 := by
  unfold Manager.createRoom
  refine .bind' fun _ _ => .bind' fun roomId _ => .bind' fun _ _ => .bind' fun roomType _ => ?_
  refine .ite (fun _ => .ok h) fun hnone => ?_
  cases Manager.newSlot roomType with
  | none => exact .ok h
  | some slot =>
    refine .bind' fun _ _ => .bind' fun name _ => .bind' fun _ _ => .bind' fun password _ => .ok ?_
    have hempty (k : Nat) (info : UserInfo) : (∅ : Connections).lookup k ≠ some info :=
      fun h => nomatch h
    refine h.insert rfl (fun k info hi => absurd hi (hempty k info)) ?_
    refine h.exact.congr fun id k u => Manager.seated_insert.trans ?_
    by_cases he : id = roomId
    · -- nobody sits in a new room, and there was none under its id
      rw [if_pos he]
      refine iff_of_false (fun ⟨info, hi, _⟩ => hempty k info hi) fun ⟨r, hr, _⟩ => hnone ?_
      rw [← he]
      exact Option.isSome_of_eq_some hr
    · rw [if_neg he]

/-- A message to a room keeps the index, when users have names of their own. -/
theorem deliver (h : IndexInv owner nameOf m) (hinj : Function.Injective nameOf) (env : Env)
    (id : Nat) (hu : c.userId = owner c.connId) (hn : c.userName = nameOf c.userId)
    (messageType : String) (payload : Json) :
    Ensures (m.deliver env id c messageType payload) fun s => IndexInv owner nameOf s.2 := by
  unfold Manager.deliver
  cases hr : m.rooms.lookup id with
  | none => exact .ok h
  | some r =>
    refine (Room.ensures_receive m.userRooms messageType payload).bind fun s hs => .ok ?_
    rcases hs with ⟨hindex, hseats⟩ | hadmits
    · rw [hindex]
      exact h.insert_sameSeats hr hseats
    · exact h.insert_admits hinj hr hu hn hadmits

/-- Every event keeps the invariant. -/
theorem step (h : IndexInv owner nameOf m) (hinj : Function.Injective nameOf) {e : Env × Event}
    (he : e.2.Consistent owner nameOf) :
    Ensures (m.step e) fun s => IndexInv owner nameOf s.2 := by
  obtain ⟨env, event⟩ := e
  cases event with
  | message c messageType payload =>
    change Ensures (m.processMessage env c messageType payload) _
    unfold Manager.processMessage
    refine .ite (fun _ => h.createRoom c payload) fun _ => .ite (fun _ => .ok h) fun _ => ?_
    exact .bind' fun id _ => h.deliver hinj env id he.1 he.2 messageType payload
  | close connId userId => exact .ok (h.processClose env connId userId)
  | visit roomId => exact .ok (h.visit roomId)
  | update roomId => exact .ok (h.runUpdate env roomId)

end IndexInv

/-! ## The result -/

/-- The events of a run, all consistent. -/
abbrev ConsistentRun (owner : Nat → Int) (nameOf : Int → String) :
    List (Entry Manager (Env × Event) Outbox) → Manager → Prop :=
  Run Manager.step (fun _ e => e.2.Consistent owner nameOf) Manager.new

theorem IndexInv.of_run {owner : Nat → Int} {nameOf : Int → String}
    (hinj : Function.Injective nameOf) {h : List (Entry Manager (Env × Event) Outbox)}
    {m : Manager} (hr : ConsistentRun owner nameOf h m) : IndexInv owner nameOf m :=
  Run.invariant IndexInv.new (fun _ _ _ _ hm he hs => hm.step hinj he _ hs) hr

/-- **The membership index is exact**: in every state that is reached, a user is
mapped to a room iff the room exists and has one connection of the user, and no
other room has any; and whoever has a connection in a room is mapped to it. -/
theorem membership_exact {owner : Nat → Int} {nameOf : Int → String}
    (hinj : Function.Injective nameOf) {h : List (Entry Manager (Env × Event) Outbox)}
    {m : Manager} (hr : ConsistentRun owner nameOf h m) (u : Int) (id : Nat) :
    (m.userRooms u = some id ↔
      ∃ r, m.rooms.lookup id = some r ∧
        (∃! k, ∃ info, r.connections.lookup k = some info ∧ info.userId = u) ∧
        ∀ id' r', id' ≠ id → m.rooms.lookup id' = some r' →
          ∀ k info, r'.connections.lookup k = some info → info.userId ≠ u) ∧
    ∀ r k info, m.rooms.lookup id = some r → r.connections.lookup k = some info →
      info.userId = u → m.userRooms u = some id := by
  have hm := IndexInv.of_run hinj hr
  refine ⟨?_, fun r k info hid hk hu => hm.exact.sound ⟨r, hid, info, hk, hu⟩⟩
  rw [hm.exact.index_iff]
  constructor
  · rintro ⟨⟨k, ⟨r, hid, hk⟩, honce⟩, hother⟩
    refine ⟨r, hid, ⟨k, hk, fun k' hk' => honce k' ⟨r, hid, hk'⟩⟩, ?_⟩
    intro id' r' hne hid' k' info hk' hu
    exact hother id' hne k' ⟨r', hid', info, hk', hu⟩
  · rintro ⟨r, hid, ⟨k, hk, honce⟩, hother⟩
    refine ⟨⟨k, ⟨r, hid, hk⟩, fun k' hk' => ?_⟩, ?_⟩
    · exact honce k' ((Manager.seated_of_lookup hid).mp hk')
    · rintro id' hne k' ⟨r', hid', info, hk', hu⟩
      exact hother id' r' hne hid' k' info hk' hu

/-- Distinct names for all users. -/
def tally : Int → String
  | .ofNat n => String.ofList (List.replicate n 'a')
  | .negSucc n => String.ofList ('b' :: List.replicate n 'a')

/-- Each id has a name of its own length. -/
theorem tally_injective : Function.Injective tally := by
  intro u v h
  unfold tally at h
  cases u with
  | ofNat n =>
    cases v with
    | ofNat k => simpa using congrArg String.length h
    | negSucc k =>
      have hmem : 'b' ∈ List.replicate n 'a' := by
        rw [String.ofList_injective h]
        exact List.mem_cons_self
      exact absurd (List.eq_of_mem_replicate hmem) (by decide)
  | negSucc n =>
    cases v with
    | ofNat k =>
      have hmem : 'b' ∈ List.replicate k 'a' := by
        rw [← String.ofList_injective h]
        exact List.mem_cons_self
      exact absurd (List.eq_of_mem_replicate hmem) (by decide)
    | negSucc k => simpa using congrArg String.length h

/-- Users 1 and 2 start a game of Splendor in room 1; the connection of user 1
closes, and the user comes back on connection 3. -/
def rejoinRun : List (Env × Event) :=
  [.message ⟨1, tally 1, 1⟩ "CREATE_ROOM"
      (.obj [("room_id", .int 1), ("room_type", .str "SPLENDOR")]),
    .message ⟨1, tally 1, 1⟩ "JOIN_ROOM" (.obj [("room_id", .int 1)]),
    .message ⟨2, tally 2, 2⟩ "JOIN_ROOM" (.obj [("room_id", .int 1)]),
    .message ⟨1, tally 1, 1⟩ "GAME_PREPARE" (.obj [("prepare", .bool true)]),
    .message ⟨2, tally 2, 2⟩ "GAME_PREPARE" (.obj [("prepare", .bool true)]),
    .close 1 1,
    .message ⟨3, tally 1, 1⟩ "JOIN_ROOM" (.obj [("room_id", .int 1)])].map
  fun e => (Room.plainEnv, e)

theorem exec_rejoinRun : execTo Manager.step Manager.new rejoinRun
    (fun m => decide (m.userRooms 1 = some 1)) = true := by
  decide +kernel

/-- A user who comes back over another connection is seated once. -/
theorem membership_exact_rejoin : ∃ m r, exec Manager.step Manager.new rejoinRun = .ok m ∧
    m.rooms.lookup 1 = some r ∧
    ∃! k, ∃ info, r.connections.lookup k = some info ∧ info.userId = 1 := by
  obtain ⟨m, hm, hindex⟩ := exists_of_execTo exec_rejoinRun
  have hok : ∀ s : Manager, ∀ e ∈ rejoinRun,
      e.2.Consistent (fun k => if k = 2 then 2 else 1) tally := by
    simp [rejoinRun, Event.Consistent]
  obtain ⟨h, hr⟩ := reachable_of_exec hok .refl hm
  obtain ⟨r, hid, honce, -⟩ :=
    (membership_exact tally_injective hr 1 1).1.mp (of_decide_eq_true hindex)
  exact ⟨m, r, hm, hid, honce⟩

end UnoppServer
