import UnoppServer.Json.Writing

/-!
# What is written and read again

`FastWriter.parse_write`: the text that is written of a value is read without an error as the
value that it `reread`s to, as long as no more than `stackLimit` values are inside each other. This
second value is one that another trip leaves as it is, since its texts are UTF-8 and its integers
are held as the reader holds them.
-/

namespace UnoppServer.Jsoncpp

/-! ## UTF-8 -/

/-- The text consists of characters. -/
def Utf8 (s : Bytes) : Prop := ∃ cs : List Char, s = cs.flatMap String.utf8EncodeChar

section Utf8

variable {cp : Nat} {s t : Bytes}

theorem and_1f (x : Nat) : 0x1f &&& x = x % 32 :=
  (Nat.and_comm _ _).trans (Nat.and_two_pow_sub_one_eq_mod x 5)

theorem and_3f (x : Nat) : 0x3f &&& x = x % 64 :=
  (Nat.and_comm _ _).trans (Nat.and_two_pow_sub_one_eq_mod x 6)

theorem and_f (x : Nat) : 0xf &&& x = x % 16 :=
  (Nat.and_comm _ _).trans (Nat.and_two_pow_sub_one_eq_mod x 4)

theorem and_7 (x : Nat) : 0x7 &&& x = x % 8 :=
  (Nat.and_comm _ _).trans (Nat.and_two_pow_sub_one_eq_mod x 3)

/-- The bits of a byte after its marker are added to it. -/
theorem codePointToUTF8_eq (cp : Nat) :
    codePointToUTF8 cp =
      if cp ≤ 0x7f then [UInt8.ofNat cp]
      else if cp ≤ 0x7FF then [UInt8.ofNat (cp / 64 % 32 + 0xC0), UInt8.ofNat (cp % 64 + 0x80)]
      else if cp ≤ 0xFFFF then
        [UInt8.ofNat (cp / 4096 % 16 + 0xE0), UInt8.ofNat (cp / 64 % 64 + 0x80),
          UInt8.ofNat (cp % 64 + 0x80)]
      else if cp ≤ 0x10FFFF then
        [UInt8.ofNat (cp / 262144 % 8 + 0xF0), UInt8.ofNat (cp / 4096 % 64 + 0x80),
          UInt8.ofNat (cp / 64 % 64 + 0x80), UInt8.ofNat (cp % 64 + 0x80)]
      else [] := by
  have hor : ∀ n a b : Nat, b < 2 ^ n → (a * 2 ^ n) ||| b = b + a * 2 ^ n := fun n a b hb => by
    rw [← Nat.shiftLeft_eq, ← Nat.shiftLeft_add_eq_or_of_lt hb, Nat.add_comm]
  have h2 : ∀ x, 0xC0 ||| x % 32 = x % 32 + 0xC0 := fun x =>
    hor 5 6 _ (Nat.mod_lt _ (by decide))
  have h3 : ∀ x, 0xE0 ||| x % 16 = x % 16 + 0xE0 := fun x =>
    hor 4 14 _ (Nat.mod_lt _ (by decide))
  have h4 : ∀ x, 0xF0 ||| x % 8 = x % 8 + 0xF0 := fun x =>
    hor 3 30 _ (Nat.mod_lt _ (by decide))
  have h1 : ∀ x, 0x80 ||| x % 64 = x % 64 + 0x80 := fun x =>
    hor 6 2 _ (Nat.mod_lt _ (by decide))
  rw [codePointToUTF8, and_1f, and_3f, and_3f, and_3f, and_f, and_7, h1, h1, h1, h2, h3, h4]
  simp only [Nat.shiftRight_eq_div_pow]

/-- A character is written as the language's own encoding has it. -/
theorem codePointToUTF8_toNat (c : Char) : codePointToUTF8 c.toNat = String.utf8EncodeChar c := by
  have hmax : c.toNat ≤ 0x10FFFF := by
    obtain h | h := c.valid
    · exact (h.trans (by decide)).le
    · exact Nat.le_of_lt_succ h.2
  rw [codePointToUTF8_eq, if_pos hmax]
  rfl

theorem utf8_codePointToUTF8 (hcp : cp.isValidChar) : Utf8 (codePointToUTF8 cp) := by
  refine ⟨[Char.ofNat cp], ?_⟩
  have hnat : (Char.ofNat cp).toNat = cp := by
    rw [Char.ofNat, dif_pos hcp]
    rfl
  rw [List.flatMap_singleton, ← codePointToUTF8_toNat, hnat]

theorem Utf8.append (hs : Utf8 s) (ht : Utf8 t) : Utf8 (s ++ t) := by
  obtain ⟨cs, rfl⟩ := hs
  obtain ⟨ds, rfl⟩ := ht
  exact ⟨cs ++ ds, List.flatMap_append.symm⟩

/-- A byte that goes on with a character. -/
theorem low6_ofNat {x : Nat} (hx : x < 64) : low6 (UInt8.ofNat (x + 0x80)) = x := by
  rw [low6_eq, UInt8.toNat_ofNat_of_lt' (show x + 128 < 256 by omega)]
  omega

/-- **A character is decoded as itself.** -/
theorem utf8ToCodepoint_codePointToUTF8 (hcp : cp.isValidChar) (s : Bytes) :
    ∃ b t, codePointToUTF8 cp ++ s = b :: t ∧ utf8ToCodepoint b t = (cp, s) := by
  have hmax : cp ≤ 0x10FFFF := by
    obtain h | h := hcp
    · omega
    · omega
  have hsurrogate : ¬(0xD800 ≤ cp ∧ cp ≤ 0xDFFF) := by
    obtain h | h := hcp
    · omega
    · omega
  rw [codePointToUTF8_eq]
  split_ifs with h1 h2 h3
  · have hb : (UInt8.ofNat cp).toNat = cp := UInt8.toNat_ofNat_of_lt' (show cp < 256 by omega)
    refine ⟨_, _, rfl, ?_⟩
    rw [utf8ToCodepoint_ascii (by omega), hb]
    rfl
  · have hb : (UInt8.ofNat (cp / 64 % 32 + 0xC0)).toNat = cp / 64 % 32 + 0xC0 :=
      UInt8.toNat_ofNat_of_lt' (show _ < 256 by omega)
    have hlead : (cp / 64 % 32 + 0xC0) &&& 0x1F = cp / 64 := by
      rw [Nat.and_comm, and_1f]
      omega
    have hcalc : cp / 64 * 64 + cp % 64 = cp := Nat.div_add_mod' cp 64
    refine ⟨_, UInt8.ofNat (cp % 64 + 0x80) :: s, rfl, ?_⟩
    rw [utf8ToCodepoint, hb, if_neg (by omega), if_pos (by omega)]
    dsimp only
    rw [hlead, or_two, low6_ofNat (Nat.mod_lt _ (by decide)), hcalc, if_neg (by omega)]
  · have hb : (UInt8.ofNat (cp / 4096 % 16 + 0xE0)).toNat = cp / 4096 % 16 + 0xE0 :=
      UInt8.toNat_ofNat_of_lt' (show _ < 256 by omega)
    have hlead : (cp / 4096 % 16 + 0xE0) &&& 0x0F = cp / 4096 := by
      rw [Nat.and_comm, and_f]
      omega
    have hcalc : cp / 4096 * 4096 + (cp / 64 % 64 * 64 + cp % 64) = cp := by omega
    refine ⟨_, UInt8.ofNat (cp / 64 % 64 + 0x80) :: UInt8.ofNat (cp % 64 + 0x80) :: s, rfl, ?_⟩
    rw [utf8ToCodepoint, hb, if_neg (by omega), if_neg (by omega), if_pos (by omega)]
    dsimp only
    rw [hlead, or_three, low6_ofNat (Nat.mod_lt _ (by decide)),
      low6_ofNat (Nat.mod_lt _ (by decide)), hcalc, if_neg hsurrogate, if_neg (by omega)]
  · have hb : (UInt8.ofNat (cp / 262144 % 8 + 0xF0)).toNat = cp / 262144 % 8 + 0xF0 :=
      UInt8.toNat_ofNat_of_lt' (show _ < 256 by omega)
    have hlead : (cp / 262144 % 8 + 0xF0) &&& 0x07 = cp / 262144 := by
      rw [Nat.and_comm, and_7]
      omega
    have hcalc : cp / 262144 * 262144 + (cp / 4096 % 64 * 4096 + (cp / 64 % 64 * 64 + cp % 64)) =
        cp := by omega
    refine ⟨_, UInt8.ofNat (cp / 4096 % 64 + 0x80) :: UInt8.ofNat (cp / 64 % 64 + 0x80) ::
      UInt8.ofNat (cp % 64 + 0x80) :: s, rfl, ?_⟩
    rw [utf8ToCodepoint, hb, if_neg (by omega), if_neg (by omega), if_neg (by omega),
      if_pos (by omega)]
    dsimp only
    rw [hlead, or_four, low6_ofNat (Nat.mod_lt _ (by decide)),
      low6_ofNat (Nat.mod_lt _ (by decide)), low6_ofNat (Nat.mod_lt _ (by decide)), hcalc,
      if_neg (by omega)]

theorem rereadCodepoint_of_valid (hcp : cp.isValidChar) : rereadCodepoint cp = cp := by
  unfold rereadCodepoint
  split_ifs with h
  · rfl
  · obtain h' | h' := hcp
    · omega
    · omega

/-- A code point that has been read is a character. -/
theorem Decoded.valid (h : Decoded cp) : (rereadCodepoint cp).isValidChar := by
  have hlt := h.lt
  have hsurrogate := h.not_surrogate
  unfold rereadCodepoint
  split_ifs with hbasic
  · by_cases hlow : cp < 0xd800
    · exact .inl hlow
    · exact .inr ⟨by omega, by omega⟩
  · exact .inr ⟨by omega, by omega⟩

/-- **A text that is UTF-8 stays as it is.** -/
theorem rereadText_of_utf8 (hs : Utf8 s) : rereadText s = s := by
  obtain ⟨cs, rfl⟩ := hs
  induction cs with
  | nil => exact rereadText.eq_1
  | cons c cs ih =>
    rw [List.flatMap_cons, ← codePointToUTF8_toNat]
    have hc : c.toNat.isValidChar := c.valid
    obtain ⟨b, t, hbt, hdecode⟩ :=
      utf8ToCodepoint_codePointToUTF8 hc (cs.flatMap String.utf8EncodeChar)
    rw [hbt, rereadText, hdecode]
    dsimp only
    rw [rereadCodepoint_of_valid hc, ih]
    exact hbt

/-- **Every text is read again as UTF-8.** -/
theorem utf8_rereadText (s : Bytes) : Utf8 (rereadText s) := by
  fun_induction rereadText s with
  | case1 => exact ⟨[], rfl⟩
  | case2 c s ih => exact (utf8_codePointToUTF8 (decoded_utf8ToCodepoint c s).1.valid).append ih

end Utf8

/-! ## Members -/

section Members

variable {name : Bytes} {v : Value} {l : List (Bytes × Value)} {m : Bytes × Value}

/-- A member after an assignment is the new one or an old one. -/
theorem mem_assign (h : m ∈ Reader.assign name v l) : m = (name, v) ∨ m ∈ l := by
  induction l with
  | nil => exact .inl (List.mem_singleton.mp h)
  | cons m' l ih =>
    obtain ⟨k, w⟩ := m'
    rw [Reader.assign] at h
    split_ifs at h with hk hlt
    · obtain rfl | h := List.mem_cons.mp h
      · exact .inl (hk ▸ rfl)
      · exact .inr (List.mem_cons_of_mem _ h)
    · exact (List.mem_cons.mp h).imp id id
    · obtain rfl | h := List.mem_cons.mp h
      · exact .inr List.mem_cons_self
      · exact (ih h).imp id (List.mem_cons_of_mem _)

/-- A member that is assigned takes its place in the order. -/
theorem pairwise_assign (name : Bytes) (v : Value) (h : (l.map Prod.fst).Pairwise (· < ·)) :
    ((Reader.assign name v l).map Prod.fst).Pairwise (· < ·) := by
  induction l with
  | nil => exact List.pairwise_singleton _ _
  | cons m l ih =>
    obtain ⟨k, w⟩ := m
    obtain ⟨hfirst, hrest⟩ := List.pairwise_cons.mp h
    rw [Reader.assign]
    split_ifs with hk hlt
    · exact h
    · refine List.pairwise_cons.mpr ⟨fun k' hk' => ?_, h⟩
      obtain rfl | hk' := List.mem_cons.mp hk'
      · exact hlt
      · exact List.lt_trans hlt (hfirst k' hk')
    · refine List.pairwise_cons.mpr ⟨fun k' hk' => ?_, ih hrest⟩
      obtain ⟨m, hm, rfl⟩ := List.mem_map.mp hk'
      obtain rfl | hm := mem_assign hm
      · exact (List.le_iff_lt_or_eq.mp (List.not_lt.mp hlt)).resolve_right hk
      · exact hfirst _ (List.mem_map_of_mem hm)

/-- A member behind all the others goes to the end. -/
theorem assign_append (h : ∀ m ∈ l, m.1 < name) : Reader.assign name v l = l ++ [(name, v)] := by
  induction l with
  | nil => rfl
  | cons m l ih =>
    obtain ⟨k, w⟩ := m
    obtain ⟨hk, hl⟩ := List.forall_mem_cons.mp h
    have hne : k ≠ name := fun he => List.lt_irrefl name (he ▸ hk)
    rw [Reader.assign, if_neg hne, if_neg (List.lt_asymm hk), ih hl]
    rfl

end Members

namespace Value

section Collect

variable {members acc : List (Bytes × Value)} {P : Bytes × Value → Prop}

/-- The names of the collected members are in order, and none is there twice. -/
theorem pairwise_collect (members : List (Bytes × Value)) :
    ((collect members).map Prod.fst).Pairwise (· < ·) := by
  have h : ∀ acc : List (Bytes × Value), (acc.map Prod.fst).Pairwise (· < ·) →
      ((members.foldl (fun acc m => Reader.assign m.1 m.2 acc) acc).map Prod.fst).Pairwise
        (· < ·) := by
    induction members with
    | nil => exact fun acc h => h
    | cons m members ih => exact fun acc h => ih _ (pairwise_assign m.1 m.2 h)
  exact h [] List.Pairwise.nil

/-- What holds of all members holds of those that are collected. -/
theorem forall_mem_collect (h : ∀ m ∈ members, P m) : ∀ m ∈ collect members, P m := by
  have hfold : ∀ acc : List (Bytes × Value), (∀ m ∈ acc, P m) →
      ∀ m ∈ members.foldl (fun acc m => Reader.assign m.1 m.2 acc) acc, P m := by
    induction members with
    | nil => exact fun acc h => h
    | cons m members ih =>
      obtain ⟨hm, hmembers⟩ := List.forall_mem_cons.mp h
      refine fun acc hacc => ih hmembers _ fun m' hm' => ?_
      obtain rfl | hm' := mem_assign hm'
      · exact hm
      · exact hacc m' hm'
  exact hfold [] (List.forall_mem_nil _)

/-- Members that are in order stay as they are. -/
theorem collect_of_pairwise (h : (members.map Prod.fst).Pairwise (· < ·)) :
    collect members = members := by
  have hfold : ∀ acc : List (Bytes × Value), (∀ m ∈ acc, ∀ m' ∈ members, m.1 < m'.1) →
      members.foldl (fun acc m => Reader.assign m.1 m.2 acc) acc = acc ++ members := by
    induction members with
    | nil => exact fun acc _ => (List.append_nil acc).symm
    | cons m members ih =>
      obtain ⟨hfirst, hrest⟩ := List.pairwise_cons.mp h
      intro acc hacc
      have hm : ∀ m' ∈ acc, m'.1 < m.1 := fun m' hm' => hacc m' hm' m List.mem_cons_self
      rw [List.foldl_cons, assign_append hm, ih hrest, List.append_assoc, List.singleton_append]
      intro m' hm' m'' hm''
      obtain hm' | hm' := List.mem_append.mp hm'
      · exact hacc m' hm' m'' (List.mem_cons_of_mem _ hm'')
      · obtain rfl := List.mem_singleton.mp hm'
        exact hfirst _ (List.mem_map_of_mem hm'')
  exact hfold [] (List.forall_mem_nil _)

end Collect

/-! ## Values -/

/-- A value that the reader can have read from what the writer wrote: the integers up to the
greatest `int` are signed and the others are not, and the texts are UTF-8. -/
inductive Canonical : Value → Prop
  | null : Canonical .null
  | int {i : Int} : -(2 ^ 63) ≤ i → i ≤ Json.maxInt → Canonical (.int i)
  | uint {n : Nat} : Json.maxInt < n → n < 2 ^ 64 → Canonical (.uint n)
  | real {d : Double} : IsBinary64 d → Canonical (.real d)
  | str {s : Bytes} : Utf8 s → Canonical (.str s)
  | bool (b : Bool) : Canonical (.bool b)
  | arr {items : List Value} : (∀ v ∈ items, Canonical v) → Canonical (.arr items)
  | obj {members : List (Bytes × Value)} : (members.map Prod.fst).Pairwise (· < ·) →
      (∀ m ∈ members, Utf8 m.1) → (∀ m ∈ members, Canonical m.2) → Canonical (.obj members)

section Reread

variable {v : Value}

/-- A canonical value is well formed. -/
theorem Canonical.wellFormed (h : v.Canonical) : v.WellFormed IsDouble := by
  have hmax : Json.maxInt = 2147483647 := rfl
  induction h with
  | null => exact .null
  | int hlow hhigh => exact .int hlow (by omega)
  | uint hlow hhigh => exact .uint hhigh
  | real hd => exact .real (.inl hd)
  | str hs => exact .str _
  | bool b => exact .bool b
  | arr hitems ih => exact .arr ih
  | obj hsorted hnames hmembers ih => exact .obj hsorted ih

/-- **What is read again is canonical.** -/
theorem WellFormed.canonical_reread (h : v.WellFormed IsDouble) : v.reread.Canonical := by
  have hmax : Json.maxInt = 2147483647 := rfl
  induction h with
  | null => exact .null
  | @int i hlow hhigh =>
    rw [reread]
    split_ifs with hi
    · exact .int hlow hi
    · exact .uint (by omega) (by omega)
  | @uint n hn =>
    rw [reread]
    split_ifs with hi
    · exact .int (by omega) hi
    · exact .uint (by omega) hn
  | real hd =>
    obtain hd | rfl := hd
    · rw [reread_real hd]
      exact .real hd
    · exact .null
  | str s => exact .str (utf8_rereadText s)
  | bool b => exact .bool b
  | arr hitems ih =>
    rw [reread, rereadItems_eq]
    exact .arr (List.forall_mem_map.mpr ih)
  | obj hsorted hmembers ih =>
    rw [reread, rereadMembers_eq]
    refine .obj (pairwise_collect _) (forall_mem_collect ?_) (forall_mem_collect ?_)
    · exact List.forall_mem_map.mpr fun m _ => utf8_rereadText m.1
    · exact List.forall_mem_map.mpr ih

/-- **A canonical value is read again as itself.** -/
theorem Canonical.reread_eq (h : v.Canonical) : v.reread = v := by
  induction h with
  | int hlow hhigh => exact if_pos hhigh
  | uint hlow hhigh => exact if_neg (not_le.mpr hlow)
  | real hd => exact reread_real hd
  | str hs => exact congrArg Value.str (rereadText_of_utf8 hs)
  | @arr items hitems ih =>
    rw [reread, rereadItems_eq, List.map_congr_left ih, List.map_id']
  | @obj members hsorted hnames hmembers ih =>
    have hmap : members.map (fun m => (rereadText m.1, m.2.reread)) = members := by
      refine (List.map_congr_left fun m hm => ?_).trans (List.map_id members)
      rw [rereadText_of_utf8 (hnames m hm), ih m hm]
      rfl
    rw [reread, rereadMembers_eq, hmap, collect_of_pairwise hsorted]
  | _ => rfl

theorem depth_arr_le_iff {items : List Value} {n : Nat} :
    (Value.arr items).depth ≤ n + 1 ↔ ∀ v ∈ items, v.depth ≤ n := by
  rw [depth_arr, Nat.add_comm, Nat.succ_le_succ_iff, foldr_max_le_iff, List.forall_mem_map]

theorem depth_obj_le_iff {members : List (Bytes × Value)} {n : Nat} :
    (Value.obj members).depth ≤ n + 1 ↔ ∀ m ∈ members, m.2.depth ≤ n := by
  rw [depth_obj, Nat.add_comm, Nat.succ_le_succ_iff, foldr_max_le_iff, List.forall_mem_map]

theorem depth_pos (v : Value) : 1 ≤ v.depth := by
  cases v with
  | arr items => exact Nat.le_add_right 1 _
  | obj members => exact Nat.le_add_right 1 _
  | _ => exact le_rfl

/-- What is read again is no deeper. -/
theorem WellFormed.depth_reread_le (h : v.WellFormed IsDouble) {n : Nat} (hn : v.depth ≤ n) :
    v.reread.depth ≤ n := by
  induction h generalizing n with
  | arr hitems ih =>
    cases n with
    | zero => exact absurd (depth_pos _) (Nat.not_le.mpr (Nat.lt_succ_of_le hn))
    | succ n =>
      rw [depth_arr_le_iff] at hn
      rw [reread, rereadItems_eq, depth_arr_le_iff]
      exact List.forall_mem_map.mpr fun v hv => ih v hv (hn v hv)
  | obj hsorted hmembers ih =>
    cases n with
    | zero => exact absurd (depth_pos _) (Nat.not_le.mpr (Nat.lt_succ_of_le hn))
    | succ n =>
      rw [depth_obj_le_iff] at hn
      rw [reread, rereadMembers_eq, depth_obj_le_iff]
      exact forall_mem_collect (List.forall_mem_map.mpr fun m hm => ih m hm (hn m hm))
  | int =>
    rw [reread]
    split_ifs <;> exact hn
  | uint =>
    rw [reread]
    split_ifs <;> exact hn
  | real =>
    rw [reread]
    split_ifs <;> exact hn
  | _ => exact hn

end Reread

end Value

/-! ## Characters that are written -/

/-- An ASCII character from the space on. The last one, 0x7F, is written as it is. -/
def PlainAscii (c : UInt8) : Prop := 0x20 ≤ c.toNat ∧ c.toNat < 0x80

instance : DecidablePred PlainAscii := fun c =>
  inferInstanceAs (Decidable (0x20 ≤ c.toNat ∧ c.toNat < 0x80))

section PlainAscii

variable {c : UInt8} {s : Bytes} {v : Value}

theorem plainAscii_of_isDigit (hc : isDigit c = true) : PlainAscii c := by
  simp only [isDigit, Bool.and_eq_true, decide_eq_true_eq, UInt8.le_iff_toNat_le] at hc
  exact ⟨le_trans (by decide) hc.1, lt_of_le_of_lt hc.2 (by decide)⟩

theorem plainAscii_of_all (h : s.all (fun c => decide (PlainAscii c)) = true) :
    ∀ c ∈ s, PlainAscii c := fun c hc => of_decide_eq_true (List.all_eq_true.mp h c hc)

theorem plainAscii_append {t : Bytes} (hs : ∀ c ∈ s, PlainAscii c) (ht : ∀ c ∈ t, PlainAscii c) :
    ∀ c ∈ s ++ t, PlainAscii c := List.forall_mem_append.mpr ⟨hs, ht⟩

/-- The digits of an escape are plain. -/
theorem plainAscii_hex {x : Nat} : ∀ c ∈ hex x, PlainAscii c := by
  have hdigit : ∀ d < 16, PlainAscii (byte d.digitChar) := by decide
  have hlow : ∀ y, y &&& 0xff < 256 := fun y => and_ff y ▸ Nat.mod_lt _ (by decide)
  refine List.forall_mem_cons.mpr ⟨by decide, List.forall_mem_cons.mpr ⟨by decide, ?_⟩⟩
  refine List.forall_mem_map.mpr fun d hd => hdigit d ?_
  have h1 := hlow (x >>> 8)
  have h2 := hlow x
  simp only [List.mem_cons, List.not_mem_nil, or_false] at hd
  omega

/-- An escape is plain. -/
theorem plainAscii_escapeCodepoint (cp : Nat) : ∀ c ∈ escapeCodepoint cp, PlainAscii c := by
  unfold escapeCodepoint
  split_ifs with hcontrol hascii hbasic
  · exact plainAscii_hex
  · have hnat : (UInt8.ofNat cp).toNat = cp := UInt8.toNat_ofNat_of_lt' (show cp < 256 by omega)
    exact List.forall_mem_singleton.mpr ⟨by omega, by omega⟩
  · exact plainAscii_hex
  · exact plainAscii_append plainAscii_hex plainAscii_hex

theorem plainAscii_escaped (s : Bytes) : ∀ c ∈ escaped s, PlainAscii c := by
  fun_induction escaped s with
  | case1 => exact List.forall_mem_nil _
  | case9 c s _ _ _ _ _ _ _ ih => exact plainAscii_append (plainAscii_escapeCodepoint _) ih
  | _ => exact plainAscii_append (plainAscii_of_all rfl) ‹_›

theorem plainAscii_quoted (s : Bytes) : ∀ c ∈ valueToQuotedStringN s, PlainAscii c := by
  rw [valueToQuotedStringN_eq]
  refine List.forall_mem_cons.mpr ⟨by decide, plainAscii_append (plainAscii_escaped s) ?_⟩
  exact List.forall_mem_singleton.mpr (by decide)

theorem plainAscii_digits {l : Bytes} (hl : Digits l) : ∀ c ∈ l, PlainAscii c := fun c hc =>
  plainAscii_of_isDigit (hl.2 c hc)

/-- The text of a number. -/
theorem Numeral.plainAscii_text (t : Numeral) : ∀ c ∈ t.text, PlainAscii c := by
  have hfrac : ∀ c ∈ Numeral.fracText t.frac, PlainAscii c := by
    cases hf : t.frac with
    | none => exact List.forall_mem_nil _
    | some l => exact List.forall_mem_cons.mpr ⟨by decide, plainAscii_digits (t.frac_ok l hf)⟩
  have hexponent : ∀ c ∈ t.exponentText, PlainAscii c := by
    unfold Numeral.exponentText
    cases t.exponent with
    | none => exact List.forall_mem_nil _
    | some e =>
      refine List.forall_mem_cons.mpr ⟨?_, plainAscii_append ?_ (plainAscii_digits e.digits_ok)⟩
      · obtain he | he := e.letter_eq
        · exact he ▸ by decide
        · exact he ▸ by decide
      · obtain _ | _ | _ := e.sign <;> exact plainAscii_of_all rfl
  have hunsigned : ∀ c ∈ t.unsignedText, PlainAscii c :=
    plainAscii_append (plainAscii_digits t.whole_ok) (plainAscii_append hfrac hexponent)
  unfold Numeral.text
  split_ifs
  · exact List.forall_mem_cons.mpr ⟨by decide, hunsigned⟩
  · exact hunsigned

/-- The text of an integer. -/
theorem plainAscii_digitChars (negative : Bool) (n : Nat) :
    ∀ c ∈ (Binary64.withSign negative (Nat.toDigits 10 n)).map byte, PlainAscii c := by
  have hdigits : ∀ c ∈ (Nat.toDigits 10 n).map byte, PlainAscii c :=
    plainAscii_digits
      (Binary64.digits_map_byte (Binary64.allDigits_toDigits n) Nat.toDigits_ne_nil)
  unfold Binary64.withSign
  split_ifs
  · exact List.forall_mem_cons.mpr ⟨by decide, hdigits⟩
  · exact hdigits

/-- The items are written plainly, with commas between them. -/
theorem plainAscii_writeItems {items : List Value}
    (h : ∀ v ∈ items, ∀ c ∈ FastWriter.writeValue v, PlainAscii c) :
    ∀ c ∈ FastWriter.writeItems items, PlainAscii c := by
  induction items with
  | nil => exact List.forall_mem_nil _
  | cons v items ih =>
    obtain ⟨hv, hitems⟩ := List.forall_mem_cons.mp h
    exact List.forall_mem_cons.mpr ⟨by decide, plainAscii_append hv (ih hitems)⟩

theorem plainAscii_writeMember {m : Bytes × Value}
    (h : ∀ c ∈ FastWriter.writeValue m.2, PlainAscii c) :
    ∀ c ∈ FastWriter.writeMember m, PlainAscii c := by
  obtain ⟨name, v⟩ := m
  exact plainAscii_append (plainAscii_quoted name) (List.forall_mem_cons.mpr ⟨by decide, h⟩)

/-- The members are written plainly, with their names and colons. -/
theorem plainAscii_writeMembers {members : List (Bytes × Value)}
    (h : ∀ m ∈ members, ∀ c ∈ FastWriter.writeValue m.2, PlainAscii c) :
    ∀ c ∈ FastWriter.writeMembers members, PlainAscii c := by
  induction members with
  | nil => exact List.forall_mem_nil _
  | cons m members ih =>
    obtain ⟨hm, hmembers⟩ := List.forall_mem_cons.mp h
    exact List.forall_mem_cons.mpr
      ⟨by decide, plainAscii_append (plainAscii_writeMember hm) (ih hmembers)⟩

/-- **A value is written in ASCII characters from the space on**, whatever the bytes of its texts
are. -/
theorem Value.WellFormed.plainAscii_write (h : v.WellFormed IsDouble) :
    ∀ c ∈ FastWriter.writeValue v, PlainAscii c := by
  induction h with
  | null => exact plainAscii_of_all rfl
  | @int i hlow hhigh =>
    rw [FastWriter.writeValue, Value.ascii_toString_int]
    exact plainAscii_digitChars _ _
  | @uint n hn =>
    rw [FastWriter.writeValue, Value.ascii_toString_nat]
    exact plainAscii_digitChars false n
  | @real d hd =>
    obtain hd | rfl := hd
    · obtain ⟨t, htext, -⟩ := Binary64.exists_numeral d hd
      rw [FastWriter.writeValue, ← htext]
      exact t.plainAscii_text
    · exact plainAscii_of_all rfl
  | str s => exact plainAscii_quoted s
  | bool b => cases b <;> exact plainAscii_of_all rfl
  | @arr items hitems ih =>
    cases items with
    | nil => exact plainAscii_of_all rfl
    | cons v items =>
      obtain ⟨hv, hitems⟩ := List.forall_mem_cons.mp ih
      exact List.forall_mem_cons.mpr ⟨by decide, plainAscii_append hv
        (plainAscii_append (plainAscii_writeItems hitems) (plainAscii_of_all rfl))⟩
  | @obj members hsorted hmembers ih =>
    cases members with
    | nil => exact plainAscii_of_all rfl
    | cons m members =>
      obtain ⟨hm, hmembers⟩ := List.forall_mem_cons.mp ih
      exact List.forall_mem_cons.mpr ⟨by decide, plainAscii_append (plainAscii_writeMember hm)
        (plainAscii_append (plainAscii_writeMembers hmembers) (plainAscii_of_all rfl))⟩

end PlainAscii

/-! ## The trip -/

section Trip

variable {d : Nat} {t w rest : Bytes} {v : Value}

/-- The text is read if there is room for its depth. -/
theorem Reader.parse_append (h : Denotes d t v) (hw : Spaces w) (hrest : Ends rest)
    (root : Value) :
    Reader.parse (w ++ (t ++ rest)) root =
      if d ≤ Reader.stackLimit then .ok (true, v) else .error Reader.exceededStackLimit := by
  have hread := h.readsTo Reader.stackLimit w root rest hw hrest
  rw [Reader.parse, hread]
  dsimp only
  split_ifs <;> rfl

/-- A text denotes one value only, since with room enough the reader reads one. -/
theorem Denotes.unique {d' : Nat} {v' : Value} (h : Denotes d t v) (h' : Denotes d' t v') :
    d' = d ∧ v' = v := by
  have hread : ∀ n, (if d ≤ n then Except.ok (Reader.Parsed.mk true v []) else
      .error Reader.exceededStackLimit) =
      if d' ≤ n then .ok ⟨true, v', []⟩ else .error Reader.exceededStackLimit := fun n =>
    (h.readsTo n [] .null [] spaces_nil Reader.ends_nil).symm.trans
      (h'.readsTo n [] .null [] spaces_nil Reader.ends_nil)
  have hdepth : ∀ n, d ≤ n ↔ d' ≤ n := fun n => by
    have hn := hread n
    split_ifs at hn with hd hd' hd'
    · exact ⟨fun _ => hd', fun _ => hd⟩
    · exact ⟨fun hle => absurd hle hd, fun hle => absurd hle hd'⟩
  have hd : d' = d := le_antisymm ((hdepth d).mp le_rfl) ((hdepth d').mpr le_rfl)
  have hvalue := hread d
  rw [if_pos le_rfl, if_pos hd.le, Except.ok.injEq, Reader.Parsed.mk.injEq] at hvalue
  exact ⟨hd, hvalue.2.1.symm⟩

/-- **A text that denotes a value denotes no other one and is read as this value.** Spaces may
stand before it and anything behind it, as long as a number at the end does not go on. The reader
throws if and only if more than `stackLimit` values are inside each other. -/
theorem Reader.parse_denotes (h : Denotes d t v) (hw : Spaces w) (hrest : Ends rest)
    (root : Value) :
    (∀ d' v', Denotes d' t v' → d' = d ∧ v' = v) ∧
    Reader.parse (w ++ (t ++ rest)) root =
      if d ≤ Reader.stackLimit then .ok (true, v) else .error Reader.exceededStackLimit :=
  ⟨fun _ _ h' => h.unique h', Reader.parse_append h hw hrest root⟩

/-- A text with spaces before it and after its comma, and with a word behind it. -/
theorem Reader.parse_denotes_pair :
    Reader.parse (ascii " [true, null]\nrest") .null = .ok (true, .arr [.bool true, .null]) := by
  have hspace : Spaces [byte ' '] := List.forall_mem_singleton.mpr rfl
  have hdenotes : Denotes 2 (ascii "[true, null]") (.arr [.bool true, .null]) := by
    refine Denotes.array (l := [⟨[], ascii "true", [], 1, .bool true⟩,
      ⟨[byte ' '], ascii "null", [], 1, .null⟩]) (List.cons_ne_nil _ _) ?_ ?_
    · intro e he
      obtain rfl | rfl := List.mem_pair.mp he
      · exact ⟨spaces_nil, spaces_nil⟩
      · exact ⟨hspace, spaces_nil⟩
    · intro e he
      obtain rfl | rfl := List.mem_pair.mp he
      · exact .boolean true
      · exact .null
  have hrest : Ends (ascii "\nrest") := by
    intro c hc
    obtain rfl := Option.some.inj hc
    decide
  obtain ⟨-, hparse⟩ := Reader.parse_denotes hdenotes hspace hrest .null
  rw [if_pos (by decide)] at hparse
  exact hparse

theorem ends_newline : Ends [byte '\n'] := fun c hc => by
  obtain rfl := Option.some.inj hc
  decide

/-- What is written is read as what is reread. -/
theorem parse_write_of_wellFormed (h : v.WellFormed IsDouble) (root : Value) :
    Reader.parse (FastWriter.write v) root =
      if v.depth ≤ Reader.stackLimit then .ok (true, v.reread)
      else .error Reader.exceededStackLimit :=
  Reader.parse_append (w := []) h.denotes_write spaces_nil ends_newline root

/-- **What is written of a value and read again**: the line is ASCII from the space on, the
reader accepts it if no more than `stackLimit` values are inside each other, and what it reads is
canonical, so that a second trip brings it back unchanged. A canonical value comes back from the
first. -/
theorem FastWriter.parse_write (h : v.WellFormed IsDouble) (root : Value) :
    (∀ c ∈ FastWriter.writeValue v, PlainAscii c) ∧
    Reader.parse (FastWriter.write v) root =
      (if v.depth ≤ Reader.stackLimit then .ok (true, v.reread)
        else .error Reader.exceededStackLimit) ∧
    v.reread.Canonical ∧
    (v.Canonical → v.reread = v) ∧
    (v.depth ≤ Reader.stackLimit → ∀ root',
      Reader.parse (FastWriter.write v.reread) root' = .ok (true, v.reread)) := by
  have hcanonical := h.canonical_reread
  refine ⟨h.plainAscii_write, parse_write_of_wellFormed h root, hcanonical,
    fun hv => hv.reread_eq, fun hdepth root' => ?_⟩
  rw [parse_write_of_wellFormed hcanonical.wellFormed, if_pos (h.depth_reread_le hdepth),
    hcanonical.reread_eq]

/-- An unsigned integer comes back as a signed one, a byte that is not UTF-8 as the replacement
character, and NaN as null. -/
theorem FastWriter.parse_write_replaced :
    Reader.parse (FastWriter.write (.arr [.uint 5, .str [0xFF], .real .nan])) .null =
      .ok (true, .arr [.int 5, .str [0xEF, 0xBF, 0xBD], .null]) := by
  have hwell : (Value.arr [.uint 5, .str [0xFF], .real .nan]).WellFormed IsDouble := by
    refine .arr (List.forall_mem_cons.mpr ⟨.uint (by decide), List.forall_mem_cons.mpr
      ⟨.str _, List.forall_mem_singleton.mpr (.real (.inr rfl))⟩⟩)
  have htext : rereadText [0xFF] = [0xEF, 0xBF, 0xBD] := by
    rw [rereadText, rereadText.eq_def]
    rfl
  obtain ⟨-, hparse, -⟩ := FastWriter.parse_write hwell .null
  rw [if_pos (by decide)] at hparse
  rw [hparse, ← htext]
  rfl

end Trip

end UnoppServer.Jsoncpp
