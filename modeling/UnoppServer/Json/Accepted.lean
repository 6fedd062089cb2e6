import UnoppServer.Json.RoundTrip

/-!
# What the reader yields for any text

`Reader.parse_any`: whatever the bytes of a text are, and whether they can be read or not, the
reader ends with a value that `Json::Value` can hold and that has no more than `stackLimit` values
inside each other, unless the text has that many opening brackets. So what has been read can always
be written and read again.
-/

namespace UnoppServer.Jsoncpp

open Rounding

/-! ## Doubles -/

namespace Binary64

variable {q : ℚ}

/-- The mantissa at the last place has at most 53 bits, or is 2⁵³. -/
theorem mantissa_le (hq : 0 ≤ q) : mantissa q (lastPlace q) ≤ 2 ^ 53 := by
  have hpow : (0 : ℚ) < 2 ^ lastPlace q := zpow_pos (by norm_num) _
  have hbase : 1 < 2 := by decide
  have hlt := lt_lastPlace hbase 53 (-1074) q
  rw [Nat.cast_ofNat] at hlt
  have hquotient : q / 2 ^ lastPlace q < 2 ^ 53 := (div_lt_iff₀ hpow).mpr hlt
  have hround := (abs_le.mp (abs_mantissa_sub_le hq (lastPlace q))).2
  have hsucc : (mantissa q (lastPlace q) : ℚ) < (2 ^ 53 + 1 : ℕ) := by
    push_cast
    linarith
  exact Nat.lt_succ_iff.mp (Nat.cast_lt.mp hsucc)

/-- **A number is rounded to a double.** -/
theorem isBinary64_nearest (hq : 0 ≤ q) : IsBinary64 (nearest q) := by
  have hpow : (0 : ℚ) < 2 ^ lastPlace q := zpow_pos (by norm_num) _
  unfold nearest
  dsimp only
  split_ifs with hinf
  · trivial
  · obtain hzero | hpos := Nat.eq_zero_or_pos (mantissa q (lastPlace q))
    · exact .inl (by rw [hzero, Nat.cast_zero, zero_mul])
    · have habs : |(mantissa q (lastPlace q) : ℚ) * 2 ^ lastPlace q| =
          mantissa q (lastPlace q) * 2 ^ lastPlace q :=
        abs_of_nonneg (mul_nonneg (Nat.cast_nonneg _) hpow.le)
      refine .inr ?_
      rw [habs]
      refine ⟨not_le.mp hinf, ?_⟩
      obtain hlt | heq := (mantissa_le hq).lt_or_eq
      · exact ⟨_, lastPlace q, by rw [Nat.cast_ofNat], hpos, hlt, le_max_right _ _⟩
      · -- rounding has carried into another digit
        refine ⟨2 ^ 52, lastPlace q + 1, ?_, by decide, by decide,
          (le_max_right _ _).trans (Int.le_add_one le_rfl)⟩
        rw [heq, zpow_add_one₀ (by norm_num)]
        push_cast
        ring

/-- A sign does not take a number out of binary64. -/
theorem isBinary64_signed {d : Double} (hd : IsBinary64 d) (negative : Bool) :
    IsBinary64 (signed negative d) := by
  cases d with
  | finite q =>
    unfold signed
    dsimp only
    split_ifs with hneg hzero
    · trivial
    · obtain hq | ⟨hlt, hdigits⟩ := hd
      · exact absurd hq hzero
      · rw [← abs_neg q] at hlt hdigits
        exact .inr ⟨hlt, hdigits⟩
    · exact hd
  | negZero => trivial
  | inf b => trivial
  | nan => exact hd

end Binary64

namespace Reader

/-! ## Numbers -/

section Numbers

variable {text : Bytes} {v : Value}

/-- What `extractDouble` returns is a binary64 number. -/
theorem isBinary64_extractDouble {d : Double} (h : extractDouble text = some d) :
    IsBinary64 d := by
  unfold extractDouble at h
  dsimp only at h
  split_ifs at h
  obtain ⟨e, -, rfl⟩ := Option.map_eq_some_iff.mp h
  have hpow : (0 : ℚ) ≤ 10 ^ (e - ((fraction ((sign text).2.dropWhile isDigit)).length : Int)) :=
    (zpow_pos (by norm_num) _).le
  exact Binary64.isBinary64_signed
    (Binary64.isBinary64_nearest (mul_nonneg (Nat.cast_nonneg _) hpow)) _

/-- A decimal that is read as an integer is at most the limit. -/
theorem decodeDigits_le {max value n : Nat} (hvalue : value ≤ max)
    (h : decodeDigits max value text = some n) : n ≤ max := by
  induction text generalizing value with
  | nil => exact Option.some.inj h ▸ hvalue
  | cons c text ih =>
    rw [decodeDigits] at h
    split_ifs at h with hdigit hguard
    rw [Bool.not_eq_true', Bool.not_eq_false] at hdigit
    exact ih (le_of_not_guard (digit_lt hdigit) hguard) h

/-- A number is an integer in range or a double. -/
theorem wellFormed_decodeNumber (h : decodeNumber text = some v) :
    v.WellFormed IsBinary64 ∧ v.depth = 1 := by
  have hmax : Json.maxInt = 2147483647 := rfl
  unfold decodeNumber at h
  dsimp only at h
  split at h
  · obtain ⟨d, hd, rfl⟩ := Option.map_eq_some_iff.mp h
    exact ⟨.real (isBinary64_extractDouble hd), rfl⟩
  · rename_i n hn
    by_cases hneg : text.head? = some (byte '-')
    · rw [if_pos hneg, if_pos hneg] at hn
      rw [if_pos hneg] at h
      have hle := decodeDigits_le (Nat.zero_le _) hn
      have hint : maxLargestInt + 1 = 2 ^ 63 := rfl
      obtain rfl := Option.some.inj h
      exact ⟨.int (by omega) (by omega), rfl⟩
    · rw [if_neg hneg, if_neg hneg] at hn
      rw [if_neg hneg] at h
      have hle := decodeDigits_le (Nat.zero_le _) hn
      have huint : maxLargestUInt + 1 = 2 ^ 64 := rfl
      split_ifs at h with hint
      · obtain rfl := Option.some.inj h
        exact ⟨.int (by omega) (by omega), rfl⟩
      · obtain rfl := Option.some.inj h
        exact ⟨.uint (by omega), rfl⟩

end Numbers

/-! ## Brackets -/

/-- The characters that open a value. -/
def opens (c : UInt8) : Bool := c = byte '[' || c = byte '{'

section Brackets

variable {s t : Bytes}

theorem countP_le_of_suffix (h : s <:+ t) : s.countP opens ≤ t.countP opens :=
  h.sublist.countP_le

theorem tokenType_eq_objectBegin {c : UInt8} (h : tokenType c = .tokenObjectBegin) :
    c = byte '{' := by
  unfold tokenType at h
  split at h
  · rename_i hc
    exact eq_byte_of_ofUInt8 hc
  all_goals first | cases h | (split_ifs at h)

/-- Only one byte begins an array. -/
theorem tokenType_eq_arrayBegin {c : UInt8} (h : tokenType c = .tokenArrayBegin) :
    c = byte '[' := by
  unfold tokenType at h
  split at h
  · cases h
  · cases h
  · rename_i hc
    exact eq_byte_of_ofUInt8 hc
  all_goals first | cases h | (split_ifs at h)

/-- A bracket that opens a value is gone from what follows. -/
theorem countP_readToken_lt
    (h : (readToken s).type = .tokenObjectBegin ∨ (readToken s).type = .tokenArrayBegin) :
    (readToken s).rest.countP opens + 1 ≤ s.countP opens := by
  refine le_trans ?_ (countP_le_of_suffix (suffix_skipSpaces s))
  unfold readToken at h ⊢
  split at h
  · obtain h | h := h <;> cases h
  · rename_i c s' hs
    rw [hs]
    have hopens : opens c = true := by
      dsimp only at h
      split_ifs at h
      · obtain h | h := h
        · exact tokenType_eq_objectBegin h ▸ rfl
        · exact tokenType_eq_arrayBegin h ▸ rfl
      · obtain h | h := h <;> cases h
    rw [List.countP_cons_of_pos hopens]
    exact Nat.succ_le_succ (countP_le_of_suffix (suffix_readRest _ _))

theorem countP_skipCommentTokens_lt
    (h : (skipCommentTokens s).type = .tokenObjectBegin ∨
      (skipCommentTokens s).type = .tokenArrayBegin) :
    (skipCommentTokens s).rest.countP opens + 1 ≤ s.countP opens := by
  fun_induction skipCommentTokens s with
  | case1 s hs ih => exact (ih h).trans (countP_le_of_suffix (suffix_readToken s))
  | case2 s hs => exact countP_readToken_lt h

end Brackets

/-! ## Values -/

/-- A value with at most `n` values inside each other that `Json::Value` can hold. -/
structure Held (n : Nat) (v : Value) : Prop where
  wellFormed : v.WellFormed IsBinary64
  depth_le : v.depth ≤ n

/-- What a reader with room for `n` values does, when the current value is one of these or null. -/
structure Bounded (f : ValueReader) (n : Nat) : Prop where
  held : ∀ {v s p}, v = .null ∨ Held n v → f.read v s = .ok p → Held n p.value
  full : ∀ {v s e}, f.read v s = .error e → e = exceededStackLimit ∧ n ≤ s.countP opens

section Bounded

variable {f : ValueReader} {n : Nat} {v : Value} {s name : Bytes} {items : List Value}
  {members : List (Bytes × Value)} {e : Fault}

/-- The items are well formed and nested as deep as the stack allows. -/
theorem held_readItems {p : Parsed (List Value)} (hf : Bounded f n) (hitems : ∀ v ∈ items, Held n v)
    (h : readItems f items s = .ok p) : ∀ v ∈ p.value, Held n v := by
  have happend : ∀ {items' : List Value} {w : Value}, (∀ v ∈ items', Held n v) → Held n w →
      ∀ v ∈ items' ++ [w], Held n v := fun hitems' hw =>
    List.forall_mem_append.mpr ⟨hitems', List.forall_mem_singleton.mpr hw⟩
  fun_induction readItems f items s with
  | case1 items s e hs => cases h
  | case2 items s q hs items' hok =>
    obtain rfl := Except.ok.inj h
    exact happend hitems (hf.held (.inl rfl) hs)
  | case3 items s q hs items' hok token htoken ih =>
    exact ih (happend hitems (hf.held (.inl rfl) hs)) h
  | case4 items s q hs items' hok token htoken hend =>
    obtain rfl := Except.ok.inj h
    exact happend hitems (hf.held (.inl rfl) hs)
  | case5 items s q hs items' hok token htoken hend =>
    obtain rfl := Except.ok.inj h
    exact happend hitems (hf.held (.inl rfl) hs)

/-- An error in the items is the full stack, after that many opening brackets. -/
theorem full_readItems (hf : Bounded f n) (h : readItems f items s = .error e) :
    e = exceededStackLimit ∧ n ≤ s.countP opens := by
  fun_induction readItems f items s with
  | case1 items s e' hs =>
    obtain rfl := Except.error.inj h
    exact hf.full hs
  | case3 items s q hs items' hok token htoken ih =>
    refine (ih h).imp id fun hn => hn.trans (countP_le_of_suffix ?_)
    exact (suffix_skipCommentTokens _).trans (f.suffix hs)
  | _ => cases h

/-- The items of an array are well formed and nested as deep as the stack allows. -/
theorem held_readArray {p : Parsed (List Value)} (hf : Bounded f n) (h : readArray f s = .ok p) :
    ∀ v ∈ p.value, Held n v := by
  have hnil : ∀ v ∈ ([] : List Value), Held n v := List.forall_mem_nil _
  unfold readArray at h
  split at h
  · split_ifs at h
    · obtain rfl := Except.ok.inj h
      exact hnil
    · exact held_readItems hf hnil h
  · exact held_readItems hf hnil h

/-- An error in an array is the full stack, after that many opening brackets. -/
theorem full_readArray (hf : Bounded f n) (h : readArray f s = .error e) :
    e = exceededStackLimit ∧ n ≤ s.countP opens := by
  have hspaces := countP_le_of_suffix (suffix_skipSpaces s)
  unfold readArray at h
  split at h
  · rename_i hs
    split_ifs at h
    exact (full_readItems hf h).imp id fun hn => hn.trans (hs ▸ hspaces)
  · rename_i hs
    exact (full_readItems hf h).imp id fun hn => hn.trans (hs ▸ hspaces)

/-- The value that a name has already is one of those that have been read. -/
theorem held_lookup (hmembers : ∀ m ∈ members, Held n m.2) (name : Bytes) :
    (members.lookup name).getD .null = .null ∨ Held n ((members.lookup name).getD .null) := by
  cases hlookup : members.lookup name with
  | none => exact .inl rfl
  | some v =>
    obtain ⟨before, after, rfl, -⟩ := List.lookup_eq_some_iff.mp hlookup
    exact .inr (hmembers (name, v) (List.mem_append_right _ List.mem_cons_self))

theorem held_assign (hmembers : ∀ m ∈ members, Held n m.2) (name : Bytes) (hv : Held n v) :
    ∀ m ∈ assign name v members, Held n m.2 := fun m hm => by
  obtain rfl | hm := mem_assign hm
  · exact hv
  · exact hmembers m hm

/-- The members are sorted, well formed and nested as deep as the stack allows. -/
theorem held_readMembers {p : Parsed (List (Bytes × Value))} (hf : Bounded f n)
    (hsorted : (members.map Prod.fst).Pairwise (· < ·)) (hmembers : ∀ m ∈ members, Held n m.2)
    (h : readMembers f name members s = .ok p) :
    (p.value.map Prod.fst).Pairwise (· < ·) ∧ ∀ m ∈ p.value, Held n m.2 := by
  fun_induction readMembers f name members s with
  | case4 => cases h
  | case5 name members s tokenName hend hstring name' hname colon hcolon q hs members' hok =>
    obtain rfl := Except.ok.inj h
    have hv := hf.held (held_lookup hmembers name') hs
    exact ⟨pairwise_assign name' q.value hsorted, held_assign hmembers name' hv⟩
  | case6 name members s tokenName hend hstring name' hname colon hcolon q hs members' hok =>
    obtain rfl := Except.ok.inj h
    have hv := hf.held (held_lookup hmembers name') hs
    exact ⟨pairwise_assign name' q.value hsorted, held_assign hmembers name' hv⟩
  | case7 name members s tokenName hend hstring name' hname colon hcolon q hs members' hok =>
    obtain rfl := Except.ok.inj h
    have hv := hf.held (held_lookup hmembers name') hs
    exact ⟨pairwise_assign name' q.value hsorted, held_assign hmembers name' hv⟩
  | case8 name members s tokenName hend hstring name' hname colon hcolon q hs members' hok hcomma
      comma hclose ih =>
    have hv := hf.held (held_lookup hmembers name') hs
    exact ih (pairwise_assign name' q.value hsorted) (held_assign hmembers name' hv) h
  | _ =>
    obtain rfl := Except.ok.inj h
    exact ⟨hsorted, hmembers⟩

/-- An error in the members is the full stack, after that many opening brackets. -/
theorem full_readMembers (hf : Bounded f n) (h : readMembers f name members s = .error e) :
    e = exceededStackLimit ∧ n ≤ s.countP opens := by
  fun_induction readMembers f name members s with
  | case4 name members s tokenName hend hstring name' hname colon hcolon e' hs =>
    obtain rfl := Except.error.inj h
    refine (hf.full hs).imp id fun hn => hn.trans (countP_le_of_suffix ?_)
    exact (suffix_readToken _).trans (suffix_skipCommentTokens s)
  | case8 name members s tokenName hend hstring name' hname colon hcolon q hs members' hok hcomma
      comma hclose ih =>
    have hvalue := f.suffix hs
    have hcolon := suffix_readToken tokenName.rest
    have hname := suffix_skipCommentTokens s
    refine (ih h).imp id fun hn => hn.trans (countP_le_of_suffix ?_)
    exact (suffix_readComma _).trans (hvalue.trans (hcolon.trans hname))
  | _ => cases h

/-- A scalar is well formed, also where the token could not be decoded. -/
theorem held_scalar {decoded : Option Value} (hv : v = .null ∨ Held (n + 1) v)
    (h : ∀ v', decoded = some v' → v'.WellFormed IsBinary64 ∧ v'.depth = 1) (rest : Bytes) :
    Held (n + 1) (scalar v decoded rest).value := by
  cases decoded with
  | none =>
    obtain rfl | hv := hv
    · exact ⟨.null, Nat.le_add_left 1 n⟩
    · exact hv
  | some v' =>
    obtain ⟨hwf, hdepth⟩ := h v' rfl
    exact ⟨hwf, hdepth.trans_le (Nat.le_add_left 1 n)⟩

/-- A value is read with room for one more than the values in it. -/
theorem held_readValueWith {p : Parsed Value} (hf : Bounded f n) (hv : v = .null ∨ Held (n + 1) v)
    (h : readValueWith f v s = .ok p) : Held (n + 1) p.value := by
  have hone : ∀ v : Value, v.WellFormed IsBinary64 → v.depth = 1 → Held (n + 1) v :=
    fun v hwf hd => ⟨hwf, hd.trans_le (Nat.le_add_left 1 n)⟩
  unfold readValueWith readValueFrom at h
  split at h
  · obtain ⟨q, hq, rfl⟩ := map_eq_ok_iff.mp h
    have hnil : ∀ m ∈ ([] : List (Bytes × Value)), Held n m.2 := List.forall_mem_nil _
    obtain ⟨hsorted, hmembers⟩ := held_readMembers hf List.Pairwise.nil hnil hq
    exact ⟨.obj hsorted fun m hm => (hmembers m hm).wellFormed,
      Value.depth_obj_le_iff.mpr fun m hm => (hmembers m hm).depth_le⟩
  · obtain ⟨q, hq, rfl⟩ := map_eq_ok_iff.mp h
    have hitems := held_readArray hf hq
    exact ⟨.arr fun v hv => (hitems v hv).wellFormed,
      Value.depth_arr_le_iff.mpr fun v hv => (hitems v hv).depth_le⟩
  · obtain rfl := Except.ok.inj h
    exact held_scalar hv (fun _ h => wellFormed_decodeNumber h) _
  · obtain rfl := Except.ok.inj h
    refine held_scalar hv (fun _ h => ?_) _
    obtain ⟨text, -, rfl⟩ := Option.map_eq_some_iff.mp h
    exact ⟨.str text, rfl⟩
  · obtain rfl := Except.ok.inj h
    exact hone _ (.bool true) rfl
  · obtain rfl := Except.ok.inj h
    exact hone _ (.bool false) rfl
  · obtain rfl := Except.ok.inj h
    exact hone _ .null rfl
  · obtain rfl := Except.ok.inj h
    have hnone : ∀ v', (none : Option Value) = some v' → v'.WellFormed IsBinary64 ∧ v'.depth = 1 :=
      fun _ h => nomatch h
    exact held_scalar hv hnone []

/-- An error in a value is the full stack, after one more opening bracket than below. -/
theorem full_readValueWith (hf : Bounded f n) (h : readValueWith f v s = .error e) :
    e = exceededStackLimit ∧ n + 1 ≤ s.countP opens := by
  have herror : ∀ {α β : Type} {g : α → β} {x : Except Fault α}, x.map g = .error e →
      x = .error e := fun {α β g x} hx => by
    cases x with
    | error e' =>
      obtain rfl := Except.error.inj hx
      rfl
    | ok a => cases hx
  unfold readValueWith readValueFrom at h
  split at h
  · rename_i htype
    have hopen := countP_skipCommentTokens_lt (.inl htype)
    exact (full_readMembers hf (herror h)).imp id fun hn =>
      (Nat.succ_le_succ hn).trans hopen
  · rename_i htype
    have hopen := countP_skipCommentTokens_lt (.inr htype)
    exact (full_readArray hf (herror h)).imp id fun hn =>
      (Nat.succ_le_succ hn).trans hopen
  all_goals cases h

/-- **The reader keeps to its room**, by induction on it. -/
theorem bounded_readValue (n : Nat) : Bounded (readValue n) n := by
  induction n with
  | zero =>
    refine ⟨fun _ h => (nomatch h), fun h => ?_⟩
    obtain rfl := Except.error.inj h
    exact ⟨rfl, Nat.zero_le _⟩
  | succ n ih => exact ⟨held_readValueWith ih, full_readValueWith ih⟩

end Bounded

/-- **Every text is read as a value that can be held, written and read again**, whether it can be
read to its end or not, and the reader throws only if `stackLimit` brackets are opened. -/
theorem parse_any (document : Bytes) :
    (∃ ok v, parse document .null = .ok (ok, v) ∧ v.WellFormed IsBinary64 ∧ v.depth ≤ stackLimit ∧
      parse (FastWriter.write v) .null = .ok (true, v.reread)) ∨
    parse document .null = .error exceededStackLimit ∧ stackLimit ≤ document.countP opens := by
  have hbounded := bounded_readValue stackLimit
  unfold parse
  cases hread : (readValue stackLimit).read .null document with
  | ok p =>
    have hheld := hbounded.held (.inl rfl) hread
    refine .inl ⟨p.ok, p.value, rfl, hheld.wellFormed, hheld.depth_le, ?_⟩
    exact (parse_write_of_wellFormed (hheld.wellFormed.mono fun _ => .inl) .null).trans (if_pos hheld.depth_le)
  | error e =>
    obtain ⟨rfl, hfull⟩ := hbounded.full hread
    exact .inr ⟨rfl, hfull⟩

end Reader

end UnoppServer.Jsoncpp
