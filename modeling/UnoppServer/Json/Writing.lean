import UnoppServer.Json.Reading
import UnoppServer.Json.Doubles

/-!
# The writer writes JSON

`Value.denotes_write`: what `FastWriter` writes of a value denotes the value that it `reread`s to,
at the same depth. Four things change on the way: an integer above the greatest `int` comes back
as unsigned, and an unsigned one up to it as signed; NaN comes back as null; what is not UTF-8 in
a text is replaced; and two names that are replaced by the same one are merged.
-/

namespace UnoppServer.Jsoncpp

/-! ## Texts -/

/-- The code point that is read from what `escapeCodepoint` writes. -/
def rereadCodepoint (cp : Nat) : Nat :=
  if cp < 0x10000 then cp else 0x10000 + (cp - 0x10000) % 0x100000

/-- The text that is read from what `escaped` writes. -/
def rereadText : Bytes → Bytes
  | [] => []
  | c :: s =>
    codePointToUTF8 (rereadCodepoint (utf8ToCodepoint c s).1) ++ rereadText (utf8ToCodepoint c s).2
termination_by s => s.length
decreasing_by simp only [List.length_cons, Nat.lt_succ_iff, length_utf8ToCodepoint_le]

section Texts

variable {c : UInt8} {s t : Bytes} {x cp : Nat}

theorem hexDigit_digitChar {d : Nat} (hd : d < 16) :
    Reader.hexDigit (byte d.digitChar) = some d := by
  have hall : ∀ d < 16, Reader.hexDigit (byte d.digitChar) = some d := by decide
  exact hall d hd

theorem and_ff (x : Nat) : x &&& 0xff = x % 256 := Nat.and_two_pow_sub_one_eq_mod x 8

theorem and_3ff (x : Nat) : x &&& 0x3ff = x % 1024 := Nat.and_two_pow_sub_one_eq_mod x 10

/-- The four digits of a code unit stand for it. -/
theorem hex_toHex16Bit (hx : x < 0x10000) : Hex (toHex16Bit x) x := by
  refine ⟨rfl, ?_⟩
  have hhi : (x >>> 8 &&& 0xff) = x / 256 := by
    rw [and_ff, Nat.shiftRight_eq_div_pow]
    omega
  unfold toHex16Bit
  dsimp only
  rw [hhi, and_ff]
  simp only [List.map_cons, List.map_nil, List.mapM_cons, List.mapM_nil]
  rw [hexDigit_digitChar (by omega), hexDigit_digitChar (by omega), hexDigit_digitChar (by omega),
    hexDigit_digitChar (by omega)]
  simp only [Option.bind_eq_bind, Option.bind_some, Option.pure_def, Option.map_some,
    List.foldl_cons, List.foldl_nil, Option.some.injEq]
  omega

/-! The parts of a code point do not overlap. -/

theorem low6_eq (c : UInt8) : low6 c = c.toNat % 64 := Nat.and_two_pow_sub_one_eq_mod c.toNat 6

theorem low6_lt (c : UInt8) : low6 c < 64 := low6_eq c ▸ Nat.mod_lt _ (by decide)

theorem shiftLeft_or {n a b : Nat} (hb : b < 2 ^ n) : a <<< n ||| b = a * 2 ^ n + b := by
  rw [← Nat.shiftLeft_add_eq_or_of_lt hb, Nat.shiftLeft_eq]

theorem or_two (a : Nat) (s1 : UInt8) : a <<< 6 ||| low6 s1 = a * 64 + low6 s1 :=
  shiftLeft_or (low6_lt s1)

theorem or_three (a : Nat) (s1 s2 : UInt8) :
    a <<< 12 ||| low6 s1 <<< 6 ||| low6 s2 = a * 4096 + (low6 s1 * 64 + low6 s2) := by
  have h1 := low6_lt s1
  have h2 := low6_lt s2
  rw [Nat.or_assoc, or_two, shiftLeft_or (n := 12) (show _ < 4096 by omega)]
  rfl

/-- The bits of a sequence of four bytes do not overlap. -/
theorem or_four (a : Nat) (s1 s2 s3 : UInt8) :
    a <<< 18 ||| low6 s1 <<< 12 ||| low6 s2 <<< 6 ||| low6 s3 =
      a * 262144 + (low6 s1 * 4096 + (low6 s2 * 64 + low6 s3)) := by
  have h1 := low6_lt s1
  have h2 := low6_lt s2
  have h3 := low6_lt s3
  rw [Nat.or_assoc, Nat.or_assoc, or_two, shiftLeft_or (n := 12) (show _ < 4096 by omega),
    shiftLeft_or (n := 18) (show _ < 262144 by omega)]
  rfl

/-- A code point that `utf8ToCodepoint` yields. -/
structure Decoded (cp : Nat) : Prop where
  lt : cp < 0x200000
  not_surrogate : ¬(0xD800 ≤ cp ∧ cp ≤ 0xDFFF)

/-- **What is decoded**: a code point that is no surrogate, and an ASCII character from one only. -/
theorem decoded_utf8ToCodepoint (c : UInt8) (s : Bytes) :
    Decoded (utf8ToCodepoint c s).1 ∧
      (¬c.toNat < 0x80 → 0x80 ≤ (utf8ToCodepoint c s).1) := by
  have hreplacement : Decoded replacementCharacter ∧
      (¬c.toNat < 0x80 → 0x80 ≤ replacementCharacter) := ⟨⟨by decide, by decide⟩, fun _ => by decide⟩
  fun_cases utf8ToCodepoint c s with
  | case1 =>
    rename_i firstByte h
    exact ⟨⟨h.trans (by decide), fun hs => absurd h (by dsimp only at hs; omega)⟩,
      fun hc => absurd h hc⟩
  | case2 firstByte h₁ h₂ s1 rest calculated =>
    have hcalc : calculated = (c.toNat % 32) * 64 + low6 s1 := by
      rw [← Nat.and_two_pow_sub_one_eq_mod c.toNat 5]
      exact or_two _ s1
    have hs1 := low6_lt s1
    dsimp only
    split_ifs with hlow
    · exact hreplacement
    · exact ⟨⟨by omega, by omega⟩, fun _ => by omega⟩
  | case4 firstByte h₁ h₂ h₃ s1 s2 rest calculated =>
    have hcalc : calculated = (c.toNat % 16) * 4096 + (low6 s1 * 64 + low6 s2) := by
      rw [← Nat.and_two_pow_sub_one_eq_mod c.toNat 4]
      exact or_three _ s1 s2
    have hs1 := low6_lt s1
    have hs2 := low6_lt s2
    dsimp only
    split_ifs with hsurrogate hlow
    · exact hreplacement
    · exact hreplacement
    · exact ⟨⟨by omega, hsurrogate⟩, fun _ => by omega⟩
  | case6 firstByte h₁ h₂ h₃ h₄ s1 s2 s3 rest calculated =>
    have hcalc : calculated =
        (c.toNat % 8) * 262144 + (low6 s1 * 4096 + (low6 s2 * 64 + low6 s3)) := by
      rw [← Nat.and_two_pow_sub_one_eq_mod c.toNat 3]
      exact or_four _ s1 s2 s3
    have hs1 := low6_lt s1
    have hs2 := low6_lt s2
    have hs3 := low6_lt s3
    dsimp only
    split_ifs with hlow
    · exact hreplacement
    · exact ⟨⟨by omega, by omega⟩, fun _ => by omega⟩
  | _ => exact hreplacement

theorem utf8ToCodepoint_ascii (hc : c.toNat < 0x80) (s : Bytes) :
    utf8ToCodepoint c s = (c.toNat, s) := by
  unfold utf8ToCodepoint
  exact if_pos hc

/-- A code point is read back from what is written of it. -/
theorem chars_escapeCodepoint (hcp : Decoded cp) (hquote : cp ≠ 0x22) (hback : cp ≠ 0x5C)
    (h : Chars t s) :
    Chars (escapeCodepoint cp ++ t) (codePointToUTF8 (rereadCodepoint cp) ++ s) := by
  have hhex : cp < 0x10000 →
      Chars (hex cp ++ t) (codePointToUTF8 (rereadCodepoint cp) ++ s) := fun hlt => by
    rw [rereadCodepoint, if_pos hlt]
    exact .unicode (hex_toHex16Bit hlt) hcp.not_surrogate h
  unfold escapeCodepoint
  split_ifs with hcontrol hascii hbasic
  · exact hhex (by omega)
  · have hnat : (UInt8.ofNat cp).toNat = cp := UInt8.toNat_ofNat_of_lt' (show cp < 256 by omega)
    rw [rereadCodepoint, if_pos (by omega), codePointToUTF8, if_pos (by omega)]
    refine .raw (fun he => hquote ?_) (fun he => hback ?_) h
    · rw [← hnat, he]
      rfl
    · rw [← hnat, he]
      rfl
  · exact hhex hbasic
  · have hhigh : (cp - 0x10000) >>> 10 &&& 0x3ff = (cp - 0x10000) / 1024 % 1024 := by
      rw [and_3ff, Nat.shiftRight_eq_div_pow]
    have hpair : rereadCodepoint cp =
        0x10000 + (cp - 0x10000) / 1024 % 1024 * 0x400 + (cp - 0x10000) % 1024 := by
      rw [rereadCodepoint, if_neg hbasic]
      omega
    dsimp only
    rw [hhigh, and_3ff, hpair, List.append_assoc]
    refine .surrogates (hex_toHex16Bit ?_) (hex_toHex16Bit ?_) ?_ ?_ h <;> omega

/-- A character that is escaped on its own. -/
theorem chars_escape {e : UInt8} (he : (e, c) ∈ escapes) (hc : c.toNat < 0x80)
    (h : Chars t (rereadText s)) : Chars (byte '\\' :: e :: t) (rereadText (c :: s)) := by
  have hcp : codePointToUTF8 (rereadCodepoint c.toNat) = [c] := by
    rw [rereadCodepoint, if_pos (by omega), codePointToUTF8, if_pos (by omega), UInt8.ofNat_toNat]
  rw [rereadText, utf8ToCodepoint_ascii hc, hcp]
  exact .escape he h

theorem eq_byte_of_ofUInt8 {ch : Char} (h : Char.ofUInt8 c = ch) : c = byte ch := by
  rw [← h]
  exact (UInt8.toUInt8_toUInt32 c).symm

/-- A character that is not escaped on its own. -/
theorem codepoint_ne {ch : Char} (hch : (byte ch).toNat < 0x80) (hbyte : Char.ofUInt8 (byte ch) = ch)
    (hc : Char.ofUInt8 c ≠ ch) (s : Bytes) : (utf8ToCodepoint c s).1 ≠ (byte ch).toNat := by
  intro he
  by_cases hascii : c.toNat < 0x80
  · rw [utf8ToCodepoint_ascii hascii] at he
    exact hc (UInt8.toNat_inj.mp he ▸ hbyte)
  · have hle := (decoded_utf8ToCodepoint c s).2 hascii
    omega

/-- **An escaped text stands for the one it is read back as.** -/
theorem chars_escaped (s : Bytes) : Chars (escaped s) (rereadText s) := by
  fun_induction escaped s with
  | case1 =>
    rw [rereadText]
    exact .nil
  | case2 c s hc ih =>
    obtain rfl := eq_byte_of_ofUInt8 hc
    exact chars_escape (by decide) (by decide) ih
  | case3 c s hc ih =>
    obtain rfl := eq_byte_of_ofUInt8 hc
    exact chars_escape (by decide) (by decide) ih
  | case4 c s hc ih =>
    obtain rfl := eq_byte_of_ofUInt8 hc
    exact chars_escape (by decide) (by decide) ih
  | case5 c s hc ih =>
    obtain rfl := eq_byte_of_ofUInt8 hc
    exact chars_escape (by decide) (by decide) ih
  | case6 c s hc ih =>
    obtain rfl := eq_byte_of_ofUInt8 hc
    exact chars_escape (by decide) (by decide) ih
  | case7 c s hc ih =>
    obtain rfl := eq_byte_of_ofUInt8 hc
    exact chars_escape (by decide) (by decide) ih
  | case8 c s hc ih =>
    obtain rfl := eq_byte_of_ofUInt8 hc
    exact chars_escape (by decide) (by decide) ih
  | case9 c s hquote hback _ _ _ _ _ ih =>
    rw [rereadText]
    exact chars_escapeCodepoint (decoded_utf8ToCodepoint c s).1
      (codepoint_ne (by decide) rfl hquote s) (codepoint_ne (by decide) rfl hback s) ih

/-- Characters that are written as they are. -/
theorem escaped_eq (h : doesAnyCharRequireEscaping s = false) : escaped s = s := by
  induction s with
  | nil => exact escaped.eq_1
  | cons c s ih =>
    obtain ⟨hc, hs⟩ := Bool.or_eq_false_iff.mp (List.any_cons.symm.trans h)
    simp only [Bool.or_eq_false_iff, decide_eq_false_iff_not] at hc
    obtain ⟨⟨⟨hback, hquote⟩, hlow⟩, hhigh⟩ := hc
    have hlow : ¬c.toNat < 0x20 := fun hlt => hlow (UInt8.lt_iff_toNat_lt.mpr hlt)
    have hhigh : ¬0x7F < c.toNat := fun hlt => hhigh (UInt8.lt_iff_toNat_lt.mpr hlt)
    have hcontrol : ∀ ch : Char, (byte ch).toNat < 0x20 → Char.ofUInt8 c ≠ ch := fun ch hch he =>
      hlow (eq_byte_of_ofUInt8 he ▸ hch)
    rw [escaped.eq_def]
    dsimp only
    split
    · rename_i he
      exact absurd (eq_byte_of_ofUInt8 he) hquote
    · rename_i he
      exact absurd (eq_byte_of_ofUInt8 he) hback
    · rename_i he
      exact absurd he (hcontrol _ (by decide))
    · rename_i he
      exact absurd he (hcontrol _ (by decide))
    · rename_i he
      exact absurd he (hcontrol _ (by decide))
    · rename_i he
      exact absurd he (hcontrol _ (by decide))
    · rename_i he
      exact absurd he (hcontrol _ (by decide))
    · rw [utf8ToCodepoint_ascii (by omega), escapeCodepoint, if_neg hlow, if_pos (by omega),
        UInt8.ofNat_toNat, ih hs]
      rfl

theorem valueToQuotedStringN_eq (s : Bytes) :
    valueToQuotedStringN s = byte '"' :: (escaped s ++ [byte '"']) := by
  unfold valueToQuotedStringN
  split_ifs with h
  · rw [escaped_eq (by simpa using h)]
  · rfl

end Texts

/-! ## Values -/

namespace Value

mutual

/-- How many values there are inside each other. -/
def depth : Value → Nat
  | .arr items => 1 + depthItems items
  | .obj members => 1 + depthMembers members
  | _ => 1

/-- The greatest depth of some items. -/
def depthItems : List Value → Nat
  | [] => 0
  | v :: items => max v.depth (depthItems items)

/-- The depth of a member. -/
def depthMember : Bytes × Value → Nat
  | (_, v) => v.depth

/-- The greatest depth of some members. -/
def depthMembers : List (Bytes × Value) → Nat
  | [] => 0
  | m :: members => max (depthMember m) (depthMembers members)

end

/-- The members that are read when these are written. -/
def collect (members : List (Bytes × Value)) : List (Bytes × Value) :=
  members.foldl (fun acc m => Reader.assign m.1 m.2 acc) []

mutual

/-- The value that is read when a value is written. -/
def reread : Value → Value
  | .int i => if i ≤ Json.maxInt then .int i else .uint i.toNat
  | .uint n => if (n : Int) ≤ Json.maxInt then .int n else .uint n
  | .real d => if d = .nan then .null else .real d
  | .str s => .str (rereadText s)
  | .arr items => .arr (rereadItems items)
  | .obj members => .obj (collect (rereadMembers members))
  | v => v

/-- The items that are read when some are written. -/
def rereadItems : List Value → List Value
  | [] => []
  | v :: items => v.reread :: rereadItems items

/-- The member that is read when one is written. -/
def rereadMember : Bytes × Value → Bytes × Value
  | (name, v) => (rereadText name, v.reread)

/-- The members that are read when some are written, one by one. -/
def rereadMembers : List (Bytes × Value) → List (Bytes × Value)
  | [] => []
  | m :: members => rereadMember m :: rereadMembers members

end

/-- A value that `Json::Value` can hold, with doubles in `D`: integers in range, and members in the
order of their keys. -/
inductive WellFormed (D : Double → Prop) : Value → Prop
  | null : WellFormed D .null
  | int {i : Int} : -(2 ^ 63) ≤ i → i < 2 ^ 63 → WellFormed D (.int i)
  | uint {n : Nat} : n < 2 ^ 64 → WellFormed D (.uint n)
  | real {d : Double} : D d → WellFormed D (.real d)
  | str (s : Bytes) : WellFormed D (.str s)
  | bool (b : Bool) : WellFormed D (.bool b)
  | arr {items : List Value} : (∀ v ∈ items, WellFormed D v) → WellFormed D (.arr items)
  | obj {members : List (Bytes × Value)} : (members.map Prod.fst).Pairwise (· < ·) →
      (∀ m ∈ members, WellFormed D m.2) → WellFormed D (.obj members)

section Write

variable {v : Value} {items : List Value} {members : List (Bytes × Value)}

/-- An array is one deeper than its deepest item. -/
theorem depth_arr (items : List Value) : (Value.arr items).depth = 1 + (items.map depth).foldr max 0 := by
  have h : depthItems items = (items.map depth).foldr max 0 := by
    induction items with
    | nil => rfl
    | cons v items ih =>
      rw [depthItems, ih]
      rfl
  rw [depth, h]

/-- An object is one deeper than its deepest member. -/
theorem depth_obj (members : List (Bytes × Value)) :
    (Value.obj members).depth = 1 + (members.map fun m => m.2.depth).foldr max 0 := by
  have h : depthMembers members = (members.map fun m => m.2.depth).foldr max 0 := by
    induction members with
    | nil => rfl
    | cons m members ih =>
      obtain ⟨name, v⟩ := m
      rw [depthMembers, ih]
      rfl
  rw [depth, h]

theorem rereadItems_eq (items : List Value) : rereadItems items = items.map reread := by
  induction items with
  | nil => rfl
  | cons v items ih =>
    rw [rereadItems, ih]
    rfl

/-- The members are read back one by one. -/
theorem rereadMembers_eq (members : List (Bytes × Value)) :
    rereadMembers members = members.map fun m => (rereadText m.1, m.2.reread) := by
  induction members with
  | nil => rfl
  | cons m members ih =>
    obtain ⟨name, v⟩ := m
    rw [rereadMembers, ih]
    rfl

/-- The text of an item. -/
def elem (v : Value) : Elem := ⟨[], FastWriter.writeValue v, [], v.depth, v.reread⟩

/-- The text of a member. -/
def memberText (m : Bytes × Value) : MemberText := ⟨[], escaped m.1, [], rereadText m.1, elem m.2⟩

/-- The items of an array are written as the grammar joins them. -/
theorem joined_elems (v : Value) (items : List Value) :
    Elem.joined ((v :: items).map elem) =
      FastWriter.writeValue v ++ FastWriter.writeItems items := by
  induction items generalizing v with
  | nil => simp [Elem.joined, Elem.spaced, elem, FastWriter.writeItems]
  | cons v' items ih =>
    rw [FastWriter.writeItems, ← ih v']
    simp [Elem.joined, Elem.spaced, elem]

theorem spaced_memberText (m : Bytes × Value) :
    (memberText m).spaced = FastWriter.writeMember m := by
  obtain ⟨name, v⟩ := m
  rw [FastWriter.writeMember, valueToQuotedStringN_eq]
  simp [MemberText.spaced, memberText, Elem.spaced, elem]

/-- The members of an object are written as the grammar joins them. -/
theorem joined_members (m : Bytes × Value) (members : List (Bytes × Value)) :
    MemberText.joined ((m :: members).map memberText) =
      FastWriter.writeMember m ++ FastWriter.writeMembers members := by
  induction members generalizing m with
  | nil => simp [MemberText.joined, spaced_memberText, FastWriter.writeMembers]
  | cons m' members ih =>
    rw [FastWriter.writeMembers, ← ih m', ← spaced_memberText]
    simp [MemberText.joined]

/-- The digits of an integer denote it. -/
theorem denotes_integer {negative : Bool} {n : Nat} (hn : n ≤ Numeral.bound negative) :
    Denotes 1 ((Binary64.withSign negative (Nat.toDigits 10 n)).map byte)
      (Numeral.integer negative n) := by
  have hdigits := Binary64.allDigits_toDigits n
  have hnumber : number ((Nat.toDigits 10 n).map byte) = n := by
    rw [Binary64.number_map_byte hdigits, Nat.ofDigitChars_ten_toDigits]
  let t : Binary64.Printed :=
    ⟨negative, Nat.toDigits 10 n, none, none, ⟨hdigits, Nat.toDigits_ne_nil⟩, nofun⟩
  have htext : t.numeral.text = (Binary64.withSign negative (Nat.toDigits 10 n)).map byte := by
    rw [Binary64.Printed.text_numeral]
    exact congrArg _ (congrArg _ (List.append_nil _))
  have hle : number t.numeral.whole ≤ Numeral.bound t.numeral.negative := hnumber.le.trans hn
  have hvalue : t.numeral.value = Numeral.integer negative n := by
    rw [Numeral.value, if_pos ⟨rfl, rfl, hle⟩]
    exact congrArg (Numeral.integer negative) hnumber
  rw [← htext, ← hvalue]
  exact .number t.numeral

theorem ascii_toString_nat (n : Nat) : ascii (toString n) = (Nat.toDigits 10 n).map byte := by
  rw [ascii, Nat.toString_eq_repr, Nat.toList_repr]

/-- The digits of an `int`, with its sign. -/
theorem ascii_toString_int (i : Int) :
    ascii (toString i) =
      (Binary64.withSign (decide (i < 0)) (Nat.toDigits 10 i.natAbs)).map byte := by
  rw [Int.toString_eq_repr, Int.repr_eq_if]
  split_ifs with hi
  · have hnat : i.toNat = i.natAbs := by omega
    rw [decide_eq_false (by omega), ascii, Nat.toList_repr, hnat]
    rfl
  · have hnat : (-i).toNat = i.natAbs := by omega
    rw [decide_eq_true (by omega), ascii, String.toList_append, Nat.toList_repr, hnat]
    rfl

/-- The numeral of an `int` stands for the value that is read back. -/
theorem integer_eq_reread {i : Int} :
    Numeral.integer (decide (i < 0)) i.natAbs = (Value.int i).reread := by
  have hmax : Json.maxInt = 2147483647 := rfl
  unfold Numeral.integer reread
  by_cases hi : i < 0
  · have hneg : -(i.natAbs : Int) = i := by omega
    rw [decide_eq_true hi, if_pos rfl, if_pos (by omega), hneg]
  · have hnat : (i.natAbs : Int) = i := by omega
    have htoNat : i.natAbs = i.toNat := by omega
    rw [decide_eq_false hi, if_neg (by decide), hnat, htoNat]

/-- A value that is well formed for some doubles is so for more of them. -/
theorem WellFormed.mono {D D' : Double → Prop} (hD : ∀ d, D d → D' d) (h : v.WellFormed D) :
    v.WellFormed D' := by
  induction h with
  | null => exact .null
  | int hlow hhigh => exact .int hlow hhigh
  | uint hn => exact .uint hn
  | real hd => exact .real (hD _ hd)
  | str s => exact .str s
  | bool b => exact .bool b
  | arr _ ih => exact .arr ih
  | obj hsorted _ ih => exact .obj hsorted ih

theorem reread_real {d : Double} (hd : IsBinary64 d) : (Value.real d).reread = .real d := by
  have hnan : d ≠ .nan := by
    rintro rfl
    exact hd
  rw [reread, if_neg hnan]

/-- **What the writer writes denotes what is read.** -/
theorem WellFormed.denotes_write (h : v.WellFormed IsDouble) :
    Denotes v.depth (FastWriter.writeValue v) v.reread := by
  induction h with
  | null => exact .null
  | @int i hlow hhigh =>
    rw [← integer_eq_reread, FastWriter.writeValue, ascii_toString_int]
    refine denotes_integer ?_
    unfold Numeral.bound
    split_ifs with hi
    · omega
    · rw [decide_eq_true_eq] at hi
      omega
  | @uint n hn =>
    rw [FastWriter.writeValue, ascii_toString_nat]
    have hle : n ≤ Numeral.bound false := Nat.le_pred_of_lt hn
    exact denotes_integer hle
  | @real d hd =>
    obtain hd | rfl := hd
    · obtain ⟨t, htext, hvalue⟩ := Binary64.exists_numeral d hd
      have ht := Denotes.number t
      rw [htext, hvalue] at ht
      rw [reread_real hd]
      exact ht
    · exact .null
  | str s =>
    rw [FastWriter.writeValue, valueToQuotedStringN_eq]
    exact .string (chars_escaped s)
  | bool b => exact .boolean b
  | @arr items hitems ih =>
    cases items with
    | nil => exact .emptyArray spaces_nil
    | cons v items =>
      have hspaces : ∀ e ∈ (v :: items).map elem, Spaces e.before ∧ Spaces e.after :=
        List.forall_mem_map.mpr fun _ _ => ⟨spaces_nil, spaces_nil⟩
      have hitems : ∀ e ∈ (v :: items).map elem, Denotes e.depth e.text e.value :=
        List.forall_mem_map.mpr ih
      have hdenotes := Denotes.array (l := (v :: items).map elem) (List.cons_ne_nil _ _) hspaces hitems
      rw [joined_elems, List.append_assoc, Elem.depths, List.map_map, List.map_map] at hdenotes
      rw [depth_arr, reread, rereadItems_eq]
      exact hdenotes
  | @obj members hsorted hmembers ih =>
    cases members with
    | nil => exact .emptyObject spaces_nil
    | cons m members =>
      have hnames : ∀ t ∈ (m :: members).map memberText,
          Spaces t.before ∧ Spaces t.after ∧ Chars t.quoted t.name :=
        List.forall_mem_map.mpr fun m _ => ⟨spaces_nil, spaces_nil, chars_escaped m.1⟩
      have hspaces : ∀ t ∈ (m :: members).map memberText,
          Spaces t.elem.before ∧ Spaces t.elem.after :=
        List.forall_mem_map.mpr fun _ _ => ⟨spaces_nil, spaces_nil⟩
      have hvalues : ∀ t ∈ (m :: members).map memberText,
          Denotes t.elem.depth t.elem.text t.elem.value := List.forall_mem_map.mpr ih
      have hdenotes := Denotes.object (l := (m :: members).map memberText) (List.cons_ne_nil _ _) hnames hspaces
        hvalues
      rw [joined_members, List.append_assoc, Elem.depths, List.map_map, List.map_map] at hdenotes
      rw [depth_obj, reread, rereadMembers_eq, collect, List.foldl_map]
      rw [MemberText.collect, List.foldl_map] at hdenotes
      exact hdenotes

end Write

end Value

end UnoppServer.Jsoncpp
