import Mathlib.Tactic.Ring
import UnoppServer.Json.Syntax

/-!
# The reader reads JSON

`read_denotes`: a text that denotes a value is read as this value, if there is room for the values
that it opens, and else the reader throws. The proof is an induction on `Denotes`; the loops of
`readArray` and `readObject` take an item at a time.
-/

namespace UnoppServer.Jsoncpp

/-- What follows does not go on with a number. -/
def Ends (rest : Bytes) : Prop :=
  ∀ c ∈ rest.head?, isDigit c = false ∧ c ≠ byte '.' ∧ c ≠ byte 'e' ∧ c ≠ byte 'E'

/-! ## Runs of characters -/

section Runs

variable {p : UInt8 → Bool} {l rest : Bytes}

theorem dropWhile_append_of_forall (hl : ∀ c ∈ l, p c = true) (hrest : ∀ c ∈ rest.head?, p c = false) :
    (l ++ rest).dropWhile p = rest := by
  rw [List.dropWhile_append_of_pos hl]
  cases rest with
  | nil => rfl
  | cons c rest => exact List.dropWhile_cons_of_neg (by simp [hrest c rfl])

theorem takeWhile_append_of_forall (hl : ∀ c ∈ l, p c = true) (hrest : ∀ c ∈ rest.head?, p c = false) :
    (l ++ rest).takeWhile p = l := by
  rw [List.takeWhile_append_of_pos hl]
  cases rest with
  | nil => exact List.append_nil l
  | cons c rest => rw [List.takeWhile_cons_of_neg (by simp [hrest c rfl]), List.append_nil]

end Runs

namespace Reader

/-! ## Tokens -/

section Tokens

variable {w rest t s : Bytes} {c : UInt8}

theorem skipSpaces_append (hw : Spaces w) (hc : isSpace c = false) :
    skipSpaces (w ++ c :: rest) = c :: rest :=
  dropWhile_append_of_forall hw fun c' hc' => by
    obtain rfl := Option.some.inj hc'
    exact hc

/-- A token after spaces, given what the rest of it is. -/
theorem readToken_append (hw : Spaces w) (hc : isSpace c = false)
    (h : readRest (tokenType c) (t ++ rest) = (true, rest)) :
    readToken (w ++ c :: (t ++ rest)) = ⟨tokenType c, c :: t, rest⟩ := by
  unfold readToken
  rw [skipSpaces_append hw hc]
  dsimp only
  rw [h, List.length_append, Nat.add_sub_cancel, List.take_left]
  rfl

/-- A token of one character. -/
theorem readToken_single (hw : Spaces w) (hc : isSpace c = false)
    (h : readRest (tokenType c) rest = (true, rest)) :
    readToken (w ++ c :: rest) = ⟨tokenType c, [c], rest⟩ :=
  readToken_append (t := []) hw hc h

theorem skipCommentTokens_eq {token : Token} (h : readToken s = token)
    (hc : token.type ≠ .tokenComment) : skipCommentTokens s = token := by
  rw [skipCommentTokens, dif_neg (h ▸ hc), h]

end Tokens

/-! ## Texts -/

section Texts

variable {h t s rest : Bytes} {c : UInt8} {x : Nat}

theorem readString_raw (hquote : c ≠ byte '"') (hback : c ≠ byte '\\') :
    readString (c :: s) = readString s := by
  rw [readString.eq_def]
  exact (if_neg hback).trans (if_neg hquote)

theorem readString_escape : readString (byte '\\' :: c :: s) = readString s := rfl

theorem readString_plain (hh : ∀ c ∈ h, c ≠ byte '"' ∧ c ≠ byte '\\') :
    readString (h ++ s) = readString s := by
  induction h with
  | nil => rfl
  | cons c h ih =>
    rw [List.forall_mem_cons] at hh
    exact (readString_raw hh.1.1 hh.1.2).trans (ih hh.2)

theorem hexDigit_ne (h : hexDigit c = some x) : c ≠ byte '"' ∧ c ≠ byte '\\' := by
  refine ⟨?_, ?_⟩
  · rintro rfl
    exact nomatch (show hexDigit (byte '"') = none from rfl).symm.trans h
  · rintro rfl
    exact nomatch (show hexDigit (byte '\\') = none from rfl).symm.trans h

/-- The digits of a number and their values. -/
theorem exists_digits_of_hex (hh : Hex h x) :
    ∃ a b c d p q r s, h = [a, b, c, d] ∧ hexDigit a = some p ∧ hexDigit b = some q ∧
      hexDigit c = some r ∧ hexDigit d = some s ∧ x = ((p * 16 + q) * 16 + r) * 16 + s := by
  obtain ⟨hlen, hx⟩ := hh
  obtain ⟨ds, hds, rfl⟩ := Option.map_eq_some_iff.mp hx
  match h, hlen with
  | [a, b, c, d], _ =>
    simp only [List.mapM_cons, List.mapM_nil, Option.bind_eq_bind, Option.bind_eq_some_iff,
      Option.pure_def, Option.some.injEq] at hds
    obtain ⟨p, hp, l, ⟨q, hq, l₁, ⟨r, hr, l₂, ⟨s, hs, l₃, rfl, rfl⟩, rfl⟩, rfl⟩, rfl⟩ := hds
    exact ⟨a, b, c, d, p, q, r, s, rfl, hp, hq, hr, hs, by simp⟩

/-- The digits of an escape do not end a string. -/
theorem readString_hex (hh : Hex h x) : readString (h ++ s) = readString s := by
  obtain ⟨a, b, c, d, p, q, r, s, rfl, ha, hb, hc, hd, -⟩ := exists_digits_of_hex hh
  refine readString_plain fun c' hc' => ?_
  simp only [List.mem_cons, List.not_mem_nil, or_false] at hc'
  obtain rfl | rfl | rfl | rfl := hc'
  · exact hexDigit_ne ha
  · exact hexDigit_ne hb
  · exact hexDigit_ne hc
  · exact hexDigit_ne hd

theorem decodeUnicodeEscapeSequence_hex (hh : Hex h x) :
    decodeUnicodeEscapeSequence (h ++ s) = some (x, s) := by
  obtain ⟨a, b, c, d, p, q, r, s, rfl, ha, hb, hc, hd, rfl⟩ := exists_digits_of_hex hh
  simp only [List.cons_append, List.nil_append, decodeUnicodeEscapeSequence, ha, hb, hc, hd,
    Option.bind_eq_bind, Option.bind_some, Option.pure_def]

theorem decodeUnicodeCodePoint_hex (hh : Hex h x) (hx : ¬(0xD800 ≤ x ∧ x ≤ 0xDFFF)) :
    decodeUnicodeCodePoint (h ++ s) = some (x, s) := by
  unfold decodeUnicodeCodePoint
  rw [decodeUnicodeEscapeSequence_hex hh]
  exact if_neg fun hx' => hx ⟨hx'.1, hx'.2.trans (by decide)⟩

/-- The ten low bits of each half are put together. -/
theorem surrogatePair_eq {x y : Nat} (hx : x < 0x400) (hy : y < 0x400) :
    0x10000 + (((0xD800 + x) &&& 0x3FF) <<< 10) + ((0xDC00 + y) &&& 0x3FF) =
      0x10000 + x * 0x400 + y := by
  have hlow : ∀ a z : Nat, z < 0x400 → (a * 0x400 + z) &&& 0x3FF = z := fun a z hz => by
    rw [show (0x3FF : Nat) = 2 ^ 10 - 1 from rfl, Nat.and_two_pow_sub_one_eq_mod]
    omega
  rw [hlow 0x36 x hx, hlow 0x37 y hy, Nat.shiftLeft_eq]

/-- A pair of surrogates is one code point. -/
theorem decodeUnicodeCodePoint_surrogates {l : Bytes} {y : Nat} (hh : Hex h (0xD800 + x))
    (hl : Hex l (0xDC00 + y)) (hx : x < 0x400) (hy : y < 0x400) :
    decodeUnicodeCodePoint (h ++ byte '\\' :: byte 'u' :: (l ++ s)) =
      some (0x10000 + x * 0x400 + y, s) := by
  unfold decodeUnicodeCodePoint
  rw [decodeUnicodeEscapeSequence_hex hh]
  have hhigh : 0xD800 ≤ 0xD800 + x ∧ 0xD800 + x ≤ 0xDBFF := by omega
  refine (if_pos hhigh).trans ((if_pos ⟨rfl, rfl⟩).trans ?_)
  rw [decodeUnicodeEscapeSequence_hex hl, ← surrogatePair_eq hx hy]
  rfl

/-- A string ends at the first quote that is not escaped. -/
theorem readString_chars (h : Chars t s) : readString (t ++ byte '"' :: rest) = (true, rest) := by
  induction h with
  | nil =>
    rw [List.nil_append, readString.eq_def]
    exact (if_neg (by decide)).trans (if_pos rfl)
  | raw hquote hback h ih => exact (readString_raw hquote hback).trans ih
  | escape he h ih => exact readString_escape.trans ih
  | unicode hh hx h ih =>
    rw [List.cons_append, List.cons_append, readString_escape, List.append_assoc, readString_hex hh]
    exact ih
  | surrogates hh hl hx hy h ih =>
    rw [List.cons_append, List.cons_append, readString_escape, List.append_assoc,
      readString_hex hh, List.cons_append, List.cons_append, readString_escape, List.append_assoc,
      readString_hex hl]
    exact ih

theorem decodeString_raw (hquote : c ≠ byte '"') (hback : c ≠ byte '\\') :
    decodeString (c :: s) = (decodeString s).map (c :: ·) := by
  rw [decodeString.eq_def]
  exact (if_neg hquote).trans (if_neg hback)

/-- An escape of one character is decoded as this character. -/
theorem decodeString_escape {e : UInt8} (he : (e, c) ∈ escapes) :
    decodeString (byte '\\' :: e :: s) = (decodeString s).map (c :: ·) := by
  simp only [escapes, List.mem_cons, Prod.mk.injEq, List.not_mem_nil, or_false] at he
  obtain ⟨rfl, rfl⟩ | ⟨rfl, rfl⟩ | ⟨rfl, rfl⟩ | ⟨rfl, rfl⟩ | ⟨rfl, rfl⟩ | ⟨rfl, rfl⟩ | ⟨rfl, rfl⟩ |
    ⟨rfl, rfl⟩ := he
  all_goals
    rw [decodeString.eq_def]
    rfl

/-- An escape with digits is decoded as its code point in UTF-8. -/
theorem decodeString_unicode (hx : decodeUnicodeCodePoint t = some (x, rest)) :
    decodeString (byte '\\' :: byte 'u' :: t) =
      (decodeString rest).map (codePointToUTF8 x ++ ·) := by
  rw [decodeString.eq_def]
  refine (if_neg (by decide)).trans ((if_pos rfl).trans ?_)
  show (decodeUnicodeCodePoint t).pbind (fun r _ =>
    (decodeString r.2).map (codePointToUTF8 r.1 ++ ·)) = _
  rw [Option.pbind_eq_bind, hx]
  rfl

/-- The characters of a string are decoded one after the other. -/
theorem decodeString_chars (h : Chars t s) : decodeString t = some s := by
  induction h with
  | nil => exact decodeString.eq_1
  | raw hquote hback h ih => rw [decodeString_raw hquote hback, ih]; rfl
  | escape he h ih => rw [decodeString_escape he, ih]; rfl
  | unicode hh hx h ih =>
    rw [decodeString_unicode (decodeUnicodeCodePoint_hex hh hx), ih]
    rfl
  | surrogates hh hl hx hy h ih =>
    rw [decodeString_unicode (decodeUnicodeCodePoint_surrogates hh hl hx hy), ih]
    rfl

end Texts

/-! ## Numbers -/

section Numbers

variable {l l' rest : Bytes} {c : UInt8} {max value : Nat}

theorem number_foldl (v : Nat) (l : Bytes) :
    l.foldl (fun value c => value * 10 + digit c) v = v * 10 ^ l.length + number l := by
  induction l generalizing v with
  | nil => simp [number]
  | cons c l ih =>
    rw [number, List.foldl_cons, List.foldl_cons, ih, ih, List.length_cons, pow_succ]
    ring

theorem number_cons (c : UInt8) (l : Bytes) :
    number (c :: l) = digit c * 10 ^ l.length + number l := by
  rw [number, List.foldl_cons, number_foldl, Nat.zero_mul, Nat.zero_add]

theorem digit_lt (h : isDigit c = true) : digit c < 10 := by
  have hle : c ≤ byte '9' := of_decide_eq_true (Bool.and_eq_true_iff.mp h).2
  have hnat : c.toNat ≤ 57 := UInt8.le_iff_toNat_le.mp hle
  unfold digit
  omega

/-- A number with another character in it is not decoded. -/
theorem decodeDigits_eq_none (h : ∃ c ∈ l, isDigit c = false) :
    decodeDigits max value l = none := by
  induction l generalizing value with
  | nil =>
    obtain ⟨c, hc, -⟩ := h
    exact absurd hc List.not_mem_nil
  | cons c l ih =>
    rw [decodeDigits]
    split_ifs with hc hmax
    · rfl
    · rfl
    · refine ih ?_
      obtain ⟨c', hc', hd⟩ := h
      obtain rfl | hc' := List.mem_cons.mp hc'
      · simp [hd] at hc
      · exact ⟨c', hc', hd⟩

/-- What the check of the threshold rejects is too great, whatever digits follow. -/
theorem not_le_of_guard {d : Nat} (hmax : 10 < max)
    (h : max / 10 ≤ value ∧ (max / 10 < value ∨ l ≠ [] ∨ max % 10 < d)) :
    ¬(value * 10 + d) * 10 ^ l.length + number l ≤ max := by
  have hpos : ∀ n, 0 < 10 ^ n := fun n => Nat.pow_pos (by decide)
  obtain ⟨hthreshold, habove | hrest | hdigit⟩ := h
  · have hpow := Nat.le_mul_of_pos_right (value * 10 + d) (hpos l.length)
    omega
  · have hpow : (value * 10 + d) * 10 ≤ (value * 10 + d) * 10 ^ l.length :=
      Nat.mul_le_mul_left _ (Nat.le_self_pow (List.length_pos_iff.mpr hrest).ne' 10)
    omega
  · have hpow := Nat.le_mul_of_pos_right (value * 10 + d) (hpos l.length)
    omega

/-- Where the guard against overflow lets a digit through, the number stays within the limit. -/
theorem le_of_not_guard {d : Nat} (hd : d < 10)
    (h : ¬(max / 10 ≤ value ∧ (max / 10 < value ∨ l ≠ [] ∨ max % 10 < d))) :
    value * 10 + d ≤ max := by
  by_cases hthreshold : max / 10 ≤ value
  · have habove : ¬max / 10 < value := fun ha => h ⟨hthreshold, .inl ha⟩
    have hdigit : ¬max % 10 < d := fun hd => h ⟨hthreshold, .inr (.inr hd)⟩
    omega
  · omega

/-- **The check of the threshold is exact**: digits are decoded if and only if the number is not
too great. -/
theorem decodeDigits_eq (hmax : 10 < max) (hl : ∀ c ∈ l, isDigit c = true) (hvalue : value ≤ max) :
    decodeDigits max value l =
      if value * 10 ^ l.length + number l ≤ max then some (value * 10 ^ l.length + number l)
      else none := by
  induction l generalizing value with
  | nil => simp [decodeDigits, number, hvalue]
  | cons c l ih =>
    rw [List.forall_mem_cons] at hl
    have hc := digit_lt hl.1
    have hsum : value * 10 ^ (c :: l).length + number (c :: l) =
        (value * 10 + digit c) * 10 ^ l.length + number l := by
      rw [number_cons, List.length_cons, pow_succ]
      ring
    have hdigit : ¬(!isDigit c) = true := by simp [hl.1]
    rw [decodeDigits, if_neg hdigit, hsum]
    split_ifs with hguard hle hle
    · exact absurd hle (not_le_of_guard hmax hguard)
    · rfl
    · rw [ih hl.2 (le_of_not_guard hc hguard), if_pos hle]
    · rw [ih hl.2 (le_of_not_guard hc hguard), if_neg hle]

end Numbers

section Numerals

variable {l rest : Bytes} {c : UInt8}

theorem isDigit_ne {d : UInt8} (hc : isDigit c = true) (hd : isDigit d = false) : c ≠ d := by
  rintro rfl
  exact Bool.noConfusion (hc.symm.trans hd)

theorem sign_minus : sign (byte '-' :: l) = (true, l) := by
  rw [sign, if_pos rfl]

theorem sign_plus : sign (byte '+' :: l) = (false, l) := by
  rw [sign, if_neg (by decide), if_pos rfl]

theorem sign_digits (hl : Digits l) : sign (l ++ rest) = (false, l ++ rest) := by
  match l, hl with
  | c :: l, hl =>
    have hc := hl.2 c List.mem_cons_self
    rw [List.cons_append, sign, if_neg (isDigit_ne hc rfl), if_neg (isDigit_ne hc rfl)]

/-- The sign of an exponent is read back, and the digits are left. -/
theorem sign_signText (s : Option Bool) (hl : Digits l) (rest : Bytes) :
    sign (Exponent.signText s ++ (l ++ rest)) = (decide (s = some true), l ++ rest) := by
  cases s with
  | none =>
    show sign (l ++ rest) = _
    exact sign_digits hl
  | some down =>
    cases down with
    | false => exact sign_plus
    | true => exact sign_minus

/-- What follows the point is not a digit, and not another point. -/
theorem head_exponentText (t : Numeral) (hrest : Ends rest) :
    ∀ c ∈ (t.exponentText ++ rest).head?, isDigit c = false ∧ c ≠ byte '.' := by
  unfold Numeral.exponentText
  cases t.exponent with
  | none => exact fun c hc => ⟨(hrest c hc).1, (hrest c hc).2.1⟩
  | some e =>
    intro c hc
    obtain rfl := Option.some.inj hc
    obtain h | h := e.letter_eq
    all_goals
      rw [h]
      exact ⟨rfl, by decide⟩

/-- What follows the integer digits of a numeral is no digit. -/
theorem head_fracText (t : Numeral) (hrest : Ends rest) :
    ∀ c ∈ (Numeral.fracText t.frac ++ (t.exponentText ++ rest)).head?, isDigit c = false := by
  cases t.frac with
  | none => exact fun c hc => (head_exponentText t hrest c hc).1
  | some l =>
    intro c hc
    obtain rfl := Option.some.inj hc
    rfl

/-- The fraction is skipped as a whole, and its digits are found. -/
theorem skipFraction_fracText (t : Numeral) (hrest : Ends rest) :
    skipFraction (Numeral.fracText t.frac ++ (t.exponentText ++ rest)) = t.exponentText ++ rest ∧
      fraction (Numeral.fracText t.frac ++ (t.exponentText ++ rest)) = t.frac.getD [] := by
  have hhead := head_exponentText t hrest
  cases hfrac : t.frac with
  | some l =>
    have hl := (t.frac_ok l hfrac).2
    have hdigit := fun c hc => (hhead c hc).1
    show skipFraction (byte '.' :: (l ++ (t.exponentText ++ rest))) = _ ∧
      fraction (byte '.' :: (l ++ (t.exponentText ++ rest))) = l
    rw [skipFraction, fraction, if_pos rfl, if_pos rfl]
    exact ⟨dropWhile_append_of_forall hl hdigit, takeWhile_append_of_forall hl hdigit⟩
  | none =>
    show skipFraction (t.exponentText ++ rest) = _ ∧ fraction (t.exponentText ++ rest) = _
    generalize t.exponentText ++ rest = s at hhead
    cases s with
    | nil => exact ⟨rfl, rfl⟩
    | cons c s => exact ⟨if_neg (hhead c rfl).2, if_neg (hhead c rfl).2⟩

/-- The exponent is skipped as a whole. -/
theorem skipExponent_exponentText (t : Numeral) (hrest : Ends rest) :
    skipExponent (t.exponentText ++ rest) = rest := by
  unfold Numeral.exponentText
  cases t.exponent with
  | some e =>
    show skipExponent (e.letter :: (Exponent.signText e.sign ++ e.digits) ++ rest) = rest
    rw [List.cons_append, List.append_assoc]
    refine (if_pos e.letter_eq).trans ?_
    rw [sign_signText e.sign e.digits_ok]
    exact dropWhile_append_of_forall e.digits_ok.2 fun c hc => (hrest c hc).1
  | none =>
    show skipExponent rest = rest
    cases rest with
    | nil => rfl
    | cons c rest => exact if_neg (not_or.mpr (hrest c rfl).2.2)

/-- The exponent is read back, or is zero where there is none. -/
theorem exponent_exponentText (t : Numeral) :
    exponent t.exponentText = some ((t.exponent.map Exponent.value).getD 0) := by
  unfold Numeral.exponentText
  cases t.exponent with
  | none => rfl
  | some e =>
    have hsign : sign (Exponent.signText e.sign ++ e.digits) =
        (decide (e.sign = some true), e.digits) := by
      have h := sign_signText e.sign e.digits_ok []
      rwa [List.append_nil] at h
    show exponent (e.letter :: (Exponent.signText e.sign ++ e.digits)) = some e.value
    rw [exponent, hsign]
    refine (if_neg e.digits_ok.1).trans (congrArg some ?_)
    simp only [decide_eq_true_eq, Exponent.value]

theorem ends_nil : Ends [] := fun _ hc => nomatch hc

/-- What the reader takes for a number is the text of the number. -/
theorem readNumber_unsignedText (t : Numeral) (hl : ∀ c ∈ l, isDigit c = true)
    (hrest : Ends rest) :
    readNumber (l ++ (Numeral.fracText t.frac ++ (t.exponentText ++ rest))) = rest := by
  unfold readNumber
  rw [dropWhile_append_of_forall hl (head_fracText t hrest), (skipFraction_fracText t hrest).1,
    skipExponent_exponentText t hrest]

/-- The digits, one by one. -/
theorem eq_ofNat_digit (hc : isDigit c = true) : c = UInt8.ofNat (48 + digit c) := by
  have hle : byte '0' ≤ c := of_decide_eq_true (Bool.and_eq_true_iff.mp hc).1
  have hnat : 48 ≤ c.toNat := UInt8.le_iff_toNat_le.mp hle
  rw [digit, Nat.add_sub_cancel' hnat, UInt8.ofNat_toNat]

theorem tokenType_digit (hc : isDigit c = true) :
    tokenType c = .tokenNumber ∧ isSpace c = false := by
  have hall : ∀ d < 10, tokenType (UInt8.ofNat (48 + d)) = .tokenNumber ∧
      isSpace (UInt8.ofNat (48 + d)) = false := by decide
  rw [eq_ofNat_digit hc]
  exact hall (digit c) (digit_lt hc)

theorem text_append (t : Numeral) (rest : Bytes) :
    t.unsignedText ++ rest = t.whole ++ (Numeral.fracText t.frac ++ (t.exponentText ++ rest)) := by
  rw [Numeral.unsignedText, List.append_assoc, List.append_assoc]

/-- A number without its sign begins with a digit. -/
theorem exists_digit_text (t : Numeral) : ∃ c s, t.unsignedText = c :: s ∧ isDigit c = true ∧
    ∀ rest, Ends rest → readNumber (s ++ rest) = rest := by
  match h : t.whole, t.whole_ok with
  | c :: l, hwhole =>
    obtain ⟨hc, hl⟩ := List.forall_mem_cons.mp hwhole.2
    refine ⟨c, l ++ (Numeral.fracText t.frac ++ t.exponentText), ?_, hc, fun rest hrest => ?_⟩
    · rw [Numeral.unsignedText, h, List.cons_append]
    · rw [List.append_assoc, List.append_assoc]
      exact readNumber_unsignedText t hl hrest

/-- A number is one token. -/
theorem readToken_numeral {w : Bytes} (hw : Spaces w) (t : Numeral) (hrest : Ends rest) :
    readToken (w ++ (t.text ++ rest)) = ⟨.tokenNumber, t.text, rest⟩ := by
  unfold Numeral.text
  split
  · refine readToken_append hw rfl (Prod.ext rfl ?_)
    rw [text_append]
    exact readNumber_unsignedText t t.whole_ok.2 hrest
  · obtain ⟨c, s, htext, hc, hs⟩ := exists_digit_text t
    rw [htext, List.cons_append, ← (tokenType_digit hc).1]
    refine readToken_append hw (tokenType_digit hc).2 ?_
    rw [(tokenType_digit hc).1]
    exact Prod.ext rfl (hs rest hrest)

theorem sign_text (t : Numeral) : sign t.text = (t.negative, t.unsignedText) := by
  unfold Numeral.text
  split
  · rename_i hneg
    rw [sign_minus, hneg]
  · rename_i hneg
    rw [Numeral.unsignedText, sign_digits t.whole_ok, Bool.eq_false_of_not_eq_true hneg]

/-- A numeral is read as the double nearest to its value. -/
theorem extractDouble_numeral (t : Numeral) :
    extractDouble t.text = some (Binary64.signed t.negative (Binary64.nearest t.magnitude)) := by
  have htext : t.unsignedText = t.whole ++ (Numeral.fracText t.frac ++ (t.exponentText ++ [])) := by
    rw [← text_append, List.append_nil]
  have hfrac := skipFraction_fracText t ends_nil
  have hhead := head_fracText t ends_nil
  unfold extractDouble
  rw [sign_text]
  dsimp only
  rw [htext, takeWhile_append_of_forall t.whole_ok.2 hhead,
    dropWhile_append_of_forall t.whole_ok.2 hhead, hfrac.1, hfrac.2, List.append_nil,
    exponent_exponentText, if_neg fun h => t.whole_ok.1 (List.append_eq_nil_iff.mp h).1]
  rfl

/-- A numeral begins with a minus when it is negative. -/
theorem head_text (t : Numeral) : t.text.head? = some (byte '-') ↔ t.negative = true := by
  unfold Numeral.text
  split
  · rename_i hneg
    exact iff_of_true rfl hneg
  · rename_i hneg
    obtain ⟨c, s, htext, hc, -⟩ := exists_digit_text t
    rw [htext]
    exact iff_of_false (fun he => isDigit_ne hc rfl (Option.some.inj he)) hneg

/-- What is not an integer has a character that is not a digit. -/
theorem exists_not_isDigit (t : Numeral) (h : ¬(t.frac = none ∧ t.exponent = none)) :
    ∃ c ∈ t.unsignedText, isDigit c = false := by
  rw [Numeral.unsignedText, Numeral.exponentText]
  cases hfrac : t.frac with
  | some l =>
    refine ⟨byte '.', ?_, rfl⟩
    rw [Numeral.fracText, List.cons_append]
    exact List.mem_append_right _ List.mem_cons_self
  | none =>
    cases hexp : t.exponent with
    | none => exact absurd ⟨hfrac, hexp⟩ h
    | some e =>
      refine ⟨e.letter, List.mem_append_right _ (List.mem_append_right _ List.mem_cons_self), ?_⟩
      obtain h | h := e.letter_eq
      all_goals
        rw [h]
        rfl

/-- An integer is decoded digit by digit, and nothing else is. -/
theorem decodeDigits_unsignedText (t : Numeral) {max : Nat} (hmax : 10 < max) :
    decodeDigits max 0 t.unsignedText =
      if t.frac = none ∧ t.exponent = none ∧ number t.whole ≤ max then some (number t.whole)
      else none := by
  by_cases hint : t.frac = none ∧ t.exponent = none
  · have htext : t.unsignedText = t.whole := by
      simp [Numeral.unsignedText, Numeral.fracText, Numeral.exponentText, hint.1, hint.2]
    rw [htext, decodeDigits_eq hmax t.whole_ok.2 (Nat.zero_le _), Nat.zero_mul, Nat.zero_add]
    simp only [hint.1, hint.2, true_and]
  · rw [if_neg fun h => hint ⟨h.1, h.2.1⟩, decodeDigits_eq_none (exists_not_isDigit t hint)]

/-- **Numbers are decoded to their values.** -/
theorem decodeNumber_numeral (t : Numeral) : decodeNumber t.text = some t.value := by
  have hmax : (if t.text.head? = some (byte '-') then maxLargestInt + 1 else maxLargestUInt) =
      Numeral.bound t.negative := if_congr (head_text t) rfl rfl
  have hunsigned : (if t.text.head? = some (byte '-') then t.text.tail else t.text) =
      t.unsignedText := by
    rw [if_congr (head_text t) rfl rfl, Numeral.text]
    split <;> rfl
  have hbound : 10 < Numeral.bound t.negative := by
    unfold Numeral.bound
    split <;> decide
  have hdigits := decodeDigits_unsignedText t hbound
  unfold decodeNumber
  dsimp only
  rw [hmax, hunsigned, hdigits, extractDouble_numeral, Numeral.value]
  by_cases hint : t.frac = none ∧ t.exponent = none ∧ number t.whole ≤ Numeral.bound t.negative
  · rw [if_pos hint, if_pos hint]
    show (if t.text.head? = some (byte '-') then some (.int (-(number t.whole : Int)))
      else if (number t.whole : Int) ≤ Json.maxInt then some (.int (number t.whole))
      else some (.uint (number t.whole))) = some (Numeral.integer t.negative (number t.whole))
    rw [if_congr (head_text t) rfl rfl, Numeral.integer]
    split_ifs <;> rfl
  · rw [if_neg hint, if_neg hint]
    rfl

end Numerals

/-! ## Values -/

section Values

variable {w t s rest text : Bytes} {type : TokenType} {f : ValueReader} {v cur : Value} {n d : Nat}

/-- A text between quotes is one token. -/
theorem readToken_string (hw : Spaces w) (h : Chars t s) (rest : Bytes) :
    readToken (w ++ byte '"' :: (t ++ byte '"' :: rest)) =
      ⟨.tokenString, byte '"' :: (t ++ [byte '"']), rest⟩ := by
  have hlong : t ++ byte '"' :: rest = (t ++ [byte '"']) ++ rest := by
    rw [List.append_assoc, List.singleton_append]
  rw [hlong]
  refine readToken_append hw rfl ?_
  rw [← hlong]
  exact readString_chars h

/-- Blanks and a separator end a number. -/
theorem ends_append {c : UInt8} (hw : Spaces w) (hc : c = byte ',' ∨ c = byte ']' ∨ c = byte '}') :
    Ends (w ++ c :: rest) := by
  cases w with
  | nil =>
    intro c' hc'
    obtain rfl := Option.some.inj hc'
    obtain rfl | rfl | rfl := hc <;> exact ⟨rfl, by decide, by decide, by decide⟩
  | cons x w =>
    intro c' hc'
    obtain rfl := Option.some.inj hc'
    have hspace := hw x List.mem_cons_self
    simp only [isSpace, Bool.or_eq_true, decide_eq_true_eq] at hspace
    obtain ((rfl | rfl) | rfl) | rfl := hspace <;> exact ⟨rfl, by decide, by decide, by decide⟩

/-- A value is read by `f` if its depth is at most `n`, and else there is no room for it. -/
def ReadsTo (f : ValueReader) (n : Nat) (e : Elem) : Prop :=
  ∀ w cur rest, Spaces w → Ends rest → f.read cur (w ++ (e.text ++ rest)) =
    if e.depth ≤ n then .ok ⟨true, e.value, rest⟩ else .error exceededStackLimit

end Values

/-! ## Arrays -/

section Arrays

variable {w rest : Bytes} {f : ValueReader} {n : Nat} {e : Elem} {l : List Elem}

/-- What follows an item. -/
def following (l : List Elem) (rest : Bytes) : Bytes :=
  match l with
  | [] => byte ']' :: rest
  | e :: l => byte ',' :: (Elem.joined (e :: l) ++ byte ']' :: rest)

theorem joined_cons (e : Elem) (l : List Elem) (rest : Bytes) :
    Elem.joined (e :: l) ++ byte ']' :: rest =
      e.before ++ (e.text ++ (e.after ++ following l rest)) := by
  cases l with
  | nil => simp [Elem.joined, Elem.spaced, following]
  | cons e' l => simp [Elem.joined, Elem.spaced, following]

theorem ends_following (hw : Spaces w) (l : List Elem) (rest : Bytes) :
    Ends (w ++ following l rest) := by
  cases l with
  | nil => exact ends_append hw (.inr (.inl rfl))
  | cons e l => exact ends_append hw (.inl rfl)

/-- The comma or the bracket after an item. -/
theorem skipCommentTokens_following (hw : Spaces w) (l : List Elem) (rest : Bytes) :
    skipCommentTokens (w ++ following l rest) =
      match l with
      | [] => ⟨.tokenArrayEnd, [byte ']'], rest⟩
      | e :: l => ⟨.tokenArraySeparator, [byte ','], Elem.joined (e :: l) ++ byte ']' :: rest⟩ := by
  cases l with
  | nil =>
    have h : readToken (w ++ byte ']' :: rest) = ⟨.tokenArrayEnd, [byte ']'], rest⟩ :=
      readToken_single hw rfl rfl
    show skipCommentTokens (w ++ byte ']' :: rest) = _
    exact skipCommentTokens_eq h fun hc => nomatch hc
  | cons e l =>
    have h : readToken (w ++ byte ',' :: (Elem.joined (e :: l) ++ byte ']' :: rest)) =
        ⟨.tokenArraySeparator, [byte ','], Elem.joined (e :: l) ++ byte ']' :: rest⟩ :=
      readToken_single hw rfl rfl
    show skipCommentTokens (w ++ byte ',' :: _) = _
    exact skipCommentTokens_eq h fun hc => nomatch hc

/-- An error in an item is the error of the array. -/
theorem readItems_error {fault : Fault} {items : List Value} {s : Bytes}
    (h : f.read .null s = .error fault) : readItems f items s = .error fault := by
  rw [readItems]
  split
  · rename_i fault' h'
    exact congrArg _ (Except.error.inj (h'.symm.trans h))
  · rename_i p h'
    cases h'.symm.trans h

/-- After an item there is a comma, the end of the array, or an error. -/
theorem readItems_ok {p : Parsed Value} {items : List Value} {s : Bytes}
    (h : f.read .null s = .ok p) (hok : p.ok = true) :
    readItems f items s =
      if (skipCommentTokens p.rest).type = .tokenArraySeparator then
        readItems f (items ++ [p.value]) (skipCommentTokens p.rest).rest
      else if (skipCommentTokens p.rest).type = .tokenArrayEnd then
        .ok ⟨true, items ++ [p.value], (skipCommentTokens p.rest).rest⟩
      else .ok ⟨false, items ++ [p.value],
        recoverFromError .tokenArrayEnd (skipCommentTokens p.rest).rest⟩ := by
  rw [readItems]
  split
  · rename_i fault h'
    cases h'.symm.trans h
  · rename_i p' h'
    obtain rfl := Except.ok.inj (h'.symm.trans h)
    rw [hok]
    rfl

/-- The items of an array are read one after the other. -/
theorem readItems_joined (hl : ∀ e ∈ l, Spaces e.before ∧ Spaces e.after)
    (he : Spaces w ∧ Spaces e.after) (hread : ∀ e' ∈ e :: l, ReadsTo f n e')
    (items : List Value) (rest : Bytes) :
    readItems f items (w ++ (e.text ++ (e.after ++ following l rest))) =
      if ∀ e' ∈ e :: l, e'.depth ≤ n then
        .ok ⟨true, items ++ (e :: l).map Elem.value, rest⟩
      else .error exceededStackLimit := by
  induction l generalizing e w items with
  | nil =>
    have hfirst := hread e List.mem_cons_self w .null _ he.1 (ends_following he.2 [] rest)
    simp only [List.forall_mem_singleton]
    split_ifs at hfirst ⊢ with hd
    · rw [readItems_ok hfirst rfl]
      dsimp only
      rw [skipCommentTokens_following he.2]
      rfl
    · exact readItems_error hfirst
  | cons e' l ih =>
    have hfirst := hread e List.mem_cons_self w .null _ he.1 (ends_following he.2 (e' :: l) rest)
    rw [List.forall_mem_cons] at hl
    have hnext := ih hl.2 hl.1 (fun x hx => hread x (List.mem_cons_of_mem e hx))
      (items ++ [e.value])
    by_cases hd : e.depth ≤ n
    · rw [if_pos hd] at hfirst
      rw [readItems_ok hfirst rfl]
      dsimp only
      rw [skipCommentTokens_following he.2]
      dsimp only
      rw [if_pos rfl, joined_cons, hnext]
      refine if_congr ?_ ?_ rfl
      · rw [List.forall_mem_cons (a := e), and_iff_right hd]
      · rw [List.append_assoc]
        rfl
    · rw [if_neg hd] at hfirst
      rw [readItems_error hfirst, if_neg fun h => hd (h e List.mem_cons_self)]

/-- An array with items. The spaces before the first are passed over beforehand. -/
theorem readArray_joined (hne : l ≠ []) (hl : ∀ e ∈ l, Spaces e.before ∧ Spaces e.after)
    (hhead : ∀ e ∈ l, ∃ c s, e.text = c :: s ∧ isSpace c = false ∧ c ≠ byte ']')
    (hread : ∀ e ∈ l, ReadsTo f n e) (rest : Bytes) :
    readArray f (Elem.joined l ++ byte ']' :: rest) =
      if ∀ e ∈ l, e.depth ≤ n then .ok ⟨true, l.map Elem.value, rest⟩
      else .error exceededStackLimit := by
  obtain ⟨e, l, rfl⟩ := List.exists_cons_of_ne_nil hne
  rw [List.forall_mem_cons] at hl hhead
  obtain ⟨c, s, htext, hspace, hbracket⟩ := hhead.1
  have hitems := readItems_joined hl.2 ⟨spaces_nil, hl.1.2⟩ hread [] rest
  rw [List.nil_append, htext, List.cons_append] at hitems
  rw [joined_cons, readArray, htext, List.cons_append, skipSpaces_append hl.1.1 hspace]
  exact (if_neg hbracket).trans hitems

end Arrays

/-! ## Objects -/

section Objects

variable {w after quoted name' s' : Bytes} {f : ValueReader} {n : Nat} {p : Parsed Value}
  {members : List (Bytes × Value)} {m : MemberText} {l : List MemberText}

/-- The loop of `readObject` at a name and a colon. -/
theorem readMembers_name (hw : Spaces w) (hafter : Spaces after) (hq : Chars quoted name')
    (name : Bytes) (members : List (Bytes × Value)) :
    readMembers f name members
        (w ++ byte '"' :: (quoted ++ byte '"' :: (after ++ byte ':' :: s'))) =
      match f.read ((members.lookup name').getD .null) s' with
      | .error e => .error e
      | .ok p =>
        if !p.ok then
          .ok ⟨false, assign name' p.value members, recoverFromError .tokenObjectEnd p.rest⟩
        else if (readToken p.rest).type ≠ .tokenObjectEnd ∧
            (readToken p.rest).type ≠ .tokenArraySeparator ∧
            (readToken p.rest).type ≠ .tokenComment then
          .ok ⟨false, assign name' p.value members,
            recoverFromError .tokenObjectEnd (readToken p.rest).rest⟩
        else if (readComma p.rest).type = .tokenObjectEnd then
          .ok ⟨true, assign name' p.value members, (readComma p.rest).rest⟩
        else readMembers f name' (assign name' p.value members) (readComma p.rest).rest := by
  have hname := skipCommentTokens_eq (readToken_string hw hq (after ++ byte ':' :: s'))
    fun hc => nomatch hc
  have hcolon : readToken (after ++ byte ':' :: s') = ⟨.tokenMemberSeparator, [byte ':'], s'⟩ :=
    readToken_single hafter rfl rfl
  have hdecode : decodeString (byte '"' :: (quoted ++ [byte '"'])).tail.dropLast = some name' := by
    rw [List.tail_cons, List.dropLast_concat]
    exact decodeString_chars hq
  rw [readMembers, hname]
  dsimp only
  rw [hdecode]
  dsimp only
  rw [hcolon]
  dsimp only
  rw [if_neg (fun h => nomatch h.1), dif_pos rfl, if_neg (fun h => h rfl)]
  split
  · rename_i fault h
    rw [h]
  · rename_i p h
    rw [h]

/-- What follows a member. -/
def followingMember (l : List MemberText) (rest : Bytes) : Bytes :=
  match l with
  | [] => byte '}' :: rest
  | m :: l => byte ',' :: (MemberText.joined (m :: l) ++ byte '}' :: rest)

theorem joined_member_cons (m : MemberText) (l : List MemberText) (rest : Bytes) :
    MemberText.joined (m :: l) ++ byte '}' :: rest =
      m.before ++ byte '"' :: (m.quoted ++ byte '"' :: (m.after ++ byte ':' ::
        (m.elem.before ++ (m.elem.text ++ (m.elem.after ++ followingMember l rest))))) := by
  cases l with
  | nil => simp [MemberText.joined, MemberText.spaced, Elem.spaced, followingMember]
  | cons m' l => simp [MemberText.joined, MemberText.spaced, Elem.spaced, followingMember]

theorem ends_followingMember (hw : Spaces w) (l : List MemberText) (rest : Bytes) :
    Ends (w ++ followingMember l rest) := by
  cases l with
  | nil => exact ends_append hw (.inr (.inr rfl))
  | cons m l => exact ends_append hw (.inl rfl)

/-- The comma or the brace after a member. -/
theorem readToken_followingMember (hw : Spaces w) (l : List MemberText) (rest : Bytes) :
    readToken (w ++ followingMember l rest) =
      match l with
      | [] => ⟨.tokenObjectEnd, [byte '}'], rest⟩
      | m :: l => ⟨.tokenArraySeparator, [byte ','], MemberText.joined (m :: l) ++ byte '}' :: rest⟩ := by
  cases l with
  | nil => exact readToken_single hw rfl rfl
  | cons m l => exact readToken_single hw rfl rfl

/-- The members of an object are read one after the other. -/
theorem readMembers_joined
    (hl : ∀ m ∈ l, Spaces m.before ∧ Spaces m.after ∧ Chars m.quoted m.name)
    (hl' : ∀ m ∈ l, Spaces m.elem.before ∧ Spaces m.elem.after) (hne : l ≠ [])
    (hread : ∀ m ∈ l, ReadsTo f n m.elem) (name : Bytes) (members : List (Bytes × Value))
    (rest : Bytes) :
    readMembers f name members (MemberText.joined l ++ byte '}' :: rest) =
      if ∀ m ∈ l, m.elem.depth ≤ n then .ok ⟨true, MemberText.collect members l, rest⟩
      else .error exceededStackLimit := by
  induction l generalizing name members with
  | nil => exact absurd rfl hne
  | cons m l ih =>
    rw [List.forall_mem_cons] at hl hl' hread
    have hfirst := hread.1 m.elem.before ((members.lookup m.name).getD .null) _ hl'.1.1
      (ends_followingMember hl'.1.2 l rest)
    rw [joined_member_cons, readMembers_name hl.1.1 hl.1.2.1 hl.1.2.2, hfirst]
    by_cases hd : m.elem.depth ≤ n
    · rw [if_pos hd]
      dsimp only
      have hcomma := readToken_followingMember hl'.1.2 l rest
      have hcomma' : readComma (m.elem.after ++ followingMember l rest) =
          readToken (m.elem.after ++ followingMember l rest) := by
        unfold readComma
        rw [hcomma]
        cases l <;> rfl
      rw [hcomma', hcomma]
      cases l with
      | nil =>
        have hone : ∀ m' ∈ [m], m'.elem.depth ≤ n := List.forall_mem_singleton.mpr hd
        rw [if_pos hone]
        rfl
      | cons m' l =>
        have hnext := ih hl.2 hl'.2 (List.cons_ne_nil m' l) hread.2 m.name
          (assign m.name m.elem.value members)
        refine Eq.trans (b := readMembers f m.name (assign m.name m.elem.value members)
          (MemberText.joined (m' :: l) ++ byte '}' :: rest)) rfl (hnext.trans ?_)
        refine if_congr ?_ rfl rfl
        rw [List.forall_mem_cons (a := m), and_iff_right hd]
    · rw [if_neg hd, if_neg fun h => hd (h m List.mem_cons_self)]

end Objects

end Reader

/-! ## Every text -/

section Denotes

open Reader

variable {d n : Nat} {t w rest : Bytes} {v cur : Value} {f : ValueReader}

theorem foldr_max_le_iff (l : List Nat) : l.foldr max 0 ≤ n ↔ ∀ d ∈ l, d ≤ n := by
  induction l with
  | nil => simp
  | cons d l ih => rw [List.foldr_cons, max_le_iff, ih, List.forall_mem_cons]

theorem depths_le_iff {l : List Elem} : Elem.depths l ≤ n + 1 ↔ ∀ e ∈ l, e.depth ≤ n := by
  rw [Elem.depths, Nat.add_comm, Nat.succ_le_succ_iff, foldr_max_le_iff, List.forall_mem_map]

theorem Denotes.depth_pos (h : Denotes d t v) : 1 ≤ d := by
  cases h with
  | array => exact Nat.le_add_right 1 _
  | object => exact Nat.le_add_right 1 _
  | _ => exact le_rfl

/-- A text begins with a character that is neither a space nor a bracket that closes. -/
theorem Denotes.exists_head (h : Denotes d t v) :
    ∃ c s, t = c :: s ∧ isSpace c = false ∧ c ≠ byte ']' := by
  cases h with
  | number t =>
    obtain ⟨c, s, htext, hc, -⟩ := exists_digit_text t
    unfold Numeral.text
    split
    · exact ⟨_, _, rfl, rfl, by decide⟩
    · exact ⟨c, s, htext, (tokenType_digit hc).2, isDigit_ne hc rfl⟩
  | boolean b => cases b <;> exact ⟨_, _, rfl, rfl, by decide⟩
  | _ => exact ⟨_, _, rfl, rfl, by decide⟩

theorem matches_append (pattern : String) (rest : Bytes) :
    matches_ pattern (ascii pattern ++ rest) = (true, rest) := by
  rw [matches_, if_pos (List.prefix_append _ _), List.drop_left]

/-- It is enough to look at the call with room for one value more. -/
theorem readsTo_of (hd : 1 ≤ d) (h : ∀ n w cur rest, Spaces w → Ends rest →
      readValueWith (readValue n) cur (w ++ (t ++ rest)) =
        if d ≤ n + 1 then .ok ⟨true, v, rest⟩ else .error exceededStackLimit) (n : Nat) :
    ReadsTo (readValue n) n ⟨[], t, [], d, v⟩ := by
  intro w cur rest hw hrest
  cases n with
  | zero => exact (if_neg (Nat.not_le.mpr hd)).symm
  | succ n => exact h n w cur rest hw hrest

/-- A text with no value in it. -/
theorem readsTo_scalar (h : ∀ f w cur rest, Spaces w → Ends rest →
      readValueWith f cur (w ++ (t ++ rest)) = .ok ⟨true, v, rest⟩) (n : Nat) :
    ReadsTo (readValue n) n ⟨[], t, [], 1, v⟩ :=
  readsTo_of le_rfl (fun n w cur rest hw hrest => by
    rw [h (readValue n) w cur rest hw hrest, if_pos (Nat.le_add_left 1 n)]) n

theorem readValueWith_eq {s : Bytes} {token : Token} (h : readToken s = token)
    (hc : token.type ≠ .tokenComment) : readValueWith f cur s = readValueFrom f cur token := by
  rw [readValueWith, skipCommentTokens_eq h hc]

/-- A word stands for a value. -/
theorem readToken_word {c : UInt8} (pattern : String) (hw : Spaces w) (hc : isSpace c = false)
    (h : ∀ s, readRest (tokenType c) s = matches_ pattern s) (rest : Bytes) :
    readToken (w ++ (c :: ascii pattern ++ rest)) = ⟨tokenType c, c :: ascii pattern, rest⟩ := by
  rw [List.cons_append]
  exact readToken_append hw hc ((h _).trans (matches_append pattern rest))

/-- **The reader reads every text that denotes a value**, if there is room for its depth. -/
theorem Denotes.readsTo (h : Denotes d t v) (n : Nat) :
    ReadsTo (readValue n) n ⟨[], t, [], d, v⟩ := by
  induction h generalizing n with
  | null =>
    refine readsTo_scalar (fun f w cur rest hw _ => ?_) n
    have htoken := readToken_word (c := byte 'n') "ull" hw rfl (fun _ => rfl) rest
    exact readValueWith_eq htoken fun hc => nomatch hc
  | boolean b =>
    refine readsTo_scalar (fun f w cur rest hw _ => ?_) n
    cases b with
    | true =>
      have htoken := readToken_word (c := byte 't') "rue" hw rfl (fun _ => rfl) rest
      exact readValueWith_eq htoken fun hc => nomatch hc
    | false =>
      have htoken := readToken_word (c := byte 'f') "alse" hw rfl (fun _ => rfl) rest
      exact readValueWith_eq htoken fun hc => nomatch hc
  | number t =>
    refine readsTo_scalar (fun f w cur rest hw hrest => ?_) n
    have htoken := readToken_numeral hw t hrest
    rw [readValueWith_eq htoken fun hc => nomatch hc]
    show Except.ok (scalar cur (decodeNumber t.text) rest) = _
    rw [decodeNumber_numeral]
    rfl
  | @string t s ht =>
    refine readsTo_scalar (fun f w cur rest hw _ => ?_) n
    have htoken := readToken_string hw ht rest
    rw [List.cons_append, List.append_assoc, List.singleton_append,
      readValueWith_eq htoken fun hc => nomatch hc]
    show Except.ok (scalar cur ((decodeString (t ++ [byte '"']).dropLast).map .str) rest) = _
    rw [List.dropLast_concat, decodeString_chars ht]
    rfl
  | @emptyArray w' hw' =>
    refine readsTo_scalar (fun f w cur rest hw _ => ?_) n
    have htoken : readToken (w ++ byte '[' :: (w' ++ byte ']' :: rest)) =
        ⟨.tokenArrayBegin, [byte '['], w' ++ byte ']' :: rest⟩ := readToken_single hw rfl rfl
    rw [List.cons_append, List.append_assoc, List.singleton_append,
      readValueWith_eq htoken fun hc => nomatch hc]
    show (readArray f (w' ++ byte ']' :: rest)).map _ = _
    rw [readArray, skipSpaces_append hw' rfl]
    rfl
  | @array l hne hspaces hitems ih =>
    refine readsTo_of (d := Elem.depths l) (Nat.le_add_right 1 _) (fun n w cur rest hw _ => ?_) n
    have htoken : readToken (w ++ byte '[' :: (Elem.joined l ++ byte ']' :: rest)) =
        ⟨.tokenArrayBegin, [byte '['], Elem.joined l ++ byte ']' :: rest⟩ :=
      readToken_single hw rfl rfl
    rw [List.cons_append, List.append_assoc, List.singleton_append,
      readValueWith_eq htoken fun hc => nomatch hc]
    show (readArray (readValue n) (Elem.joined l ++ byte ']' :: rest)).map _ = _
    rw [readArray_joined hne hspaces (fun e he => (hitems e he).exists_head)
      (fun e he => ih e he n) rest]
    rw [if_congr depths_le_iff rfl rfl]
    split_ifs <;> rfl
  | @emptyObject w' hw' =>
    refine readsTo_scalar (fun f w cur rest hw _ => ?_) n
    have htoken : readToken (w ++ byte '{' :: (w' ++ byte '}' :: rest)) =
        ⟨.tokenObjectBegin, [byte '{'], w' ++ byte '}' :: rest⟩ := readToken_single hw rfl rfl
    have hend : readToken (w' ++ byte '}' :: rest) = ⟨.tokenObjectEnd, [byte '}'], rest⟩ :=
      readToken_single hw' rfl rfl
    rw [List.cons_append, List.append_assoc, List.singleton_append,
      readValueWith_eq htoken fun hc => nomatch hc]
    show (readMembers f [] [] (w' ++ byte '}' :: rest)).map _ = _
    rw [readMembers, skipCommentTokens_eq hend fun hc => nomatch hc]
    rfl
  | @object l hne hnames hspaces hitems ih =>
    refine readsTo_of (d := Elem.depths (l.map MemberText.elem)) (Nat.le_add_right 1 _)
      (fun n w cur rest hw _ => ?_) n
    have htoken : readToken (w ++ byte '{' :: (MemberText.joined l ++ byte '}' :: rest)) =
        ⟨.tokenObjectBegin, [byte '{'], MemberText.joined l ++ byte '}' :: rest⟩ :=
      readToken_single hw rfl rfl
    rw [List.cons_append, List.append_assoc, List.singleton_append,
      readValueWith_eq htoken fun hc => nomatch hc]
    show (readMembers (readValue n) [] [] (MemberText.joined l ++ byte '}' :: rest)).map _ = _
    rw [readMembers_joined hnames hspaces hne (fun m hm => ih m hm n) [] [] rest,
      if_congr (depths_le_iff.trans List.forall_mem_map) rfl rfl]
    split_ifs <;> rfl

end Denotes

end UnoppServer.Jsoncpp
