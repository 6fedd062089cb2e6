import Mathlib.Algebra.Order.Field.Power
import Mathlib.Data.Rat.Lemmas
import UnoppServer.Json.Syntax

/-!
# Doubles survive as texts

`valueToString` prints a double with 17 significant digits, and `extractDouble` rounds what it
reads to the nearest double. Since 17 digits are more precise than 53 bits, the double that is read
is the one that was printed (`exists_numeral`): `Rounding.exists_multiple` at the bases 2 and 10.
-/

namespace UnoppServer.Jsoncpp

open Rounding

/-- The values that a `double` has, other than NaN. -/
def IsBinary64 : Double → Prop
  | .finite q => q = 0 ∨ |q| < 2 ^ 1024 ∧ ∃ m a, HasDigits 2 53 (-1074) |q| m a
  | .negZero | .inf _ => True
  | .nan => False

/-- The values that a `double` has. -/
def IsDouble (d : Double) : Prop := IsBinary64 d ∨ d = .nan

namespace Binary64

/-! ## Rounding -/

section Rounding

variable {n d m : Nat} {a e : Int} {x y q : ℚ}

/-- A quotient is rounded to a nearest integer. -/
theorem roundHalfEven_bounds (n : Nat) (hd : 0 < d) :
    2 * (Double.roundHalfEven n d * d) ≤ 2 * n + d ∧
      2 * n ≤ 2 * (Double.roundHalfEven n d * d) + d := by
  have hn := Nat.div_add_mod n d
  have hlt := Nat.mod_lt n hd
  have hsucc : (n / d + 1) * d = d * (n / d) + d := by ring
  have hmul : n / d * d = d * (n / d) := Nat.mul_comm _ _
  unfold Double.roundHalfEven
  dsimp only
  split_ifs <;> omega

/-- Rounding is off by half a unit at most. -/
theorem abs_roundHalfEven_sub_le (hd : 0 < d) :
    |(Double.roundHalfEven n d : ℚ) - (n : ℚ) / d| ≤ 1 / 2 := by
  have hd' : (0 : ℚ) < d := Nat.cast_pos.mpr hd
  obtain ⟨hle, hge⟩ := roundHalfEven_bounds n hd
  have hle' : 2 * ((Double.roundHalfEven n d : ℚ) * d) ≤ 2 * n + d := by exact_mod_cast hle
  have hge' : 2 * (n : ℚ) ≤ 2 * ((Double.roundHalfEven n d : ℚ) * d) + d := by exact_mod_cast hge
  have hn : (n : ℚ) = (n : ℚ) / d * d := (div_mul_cancel₀ _ hd'.ne').symm
  rw [abs_le]
  constructor
  · refine le_of_mul_le_mul_right ?_ hd'
    linarith
  · refine le_of_mul_le_mul_right ?_ hd'
    linarith

/-- A fraction is scaled by a power with a natural exponent above or below the line. -/
theorem scaled_div (n : Nat) (x y : ℚ) (e : Int) :
    x * (n : ℚ) ^ (-e).toNat / (y * (n : ℚ) ^ e.toNat) = x / y / (n : ℚ) ^ e := by
  obtain ⟨k, rfl | rfl⟩ := e.eq_nat_or_neg
  · simp [div_div]
  · simp only [neg_neg, Int.toNat_natCast, zpow_neg, zpow_natCast]
    have hzero : (-(k : Int)).toNat = 0 := by omega
    rw [hzero, pow_zero, mul_one, div_inv_eq_mul, div_mul_eq_mul_div]

/-- The mantissa is off by half a unit in the last place at most. -/
theorem abs_mantissa_sub_le (hq : 0 ≤ q) (e : Int) :
    |(mantissa q e : ℚ) - q / 2 ^ e| ≤ 1 / 2 := by
  have hnum : (q.num.natAbs : ℚ) = q.num := by
    rw [Nat.cast_natAbs, abs_of_nonneg (Rat.num_nonneg.mpr hq)]
  have hscaled := scaled_div 2 (q.num.natAbs : ℚ) q.den e
  have hround := abs_roundHalfEven_sub_le (n := q.num.natAbs * 2 ^ (-e).toNat)
    (d := q.den * 2 ^ e.toNat) (Nat.mul_pos q.den_pos (Nat.pow_pos (by decide)))
  push_cast at hround hscaled
  rw [hscaled, hnum, Rat.num_div_den] at hround
  exact hround

/-- **A number close to a double is rounded to it.** -/
theorem nearest_eq (hx : HasDigits 2 53 (-1074) x m a) (hlt : x < 2 ^ 1024) (hy : 0 < y)
    (hclose : 2 * |y - x| * 2 ^ 53 ≤ x) (hclose' : 2 * |y - x| * 2 ^ 53 ≤ y) :
    nearest y = .finite x := by
  obtain ⟨k, hk, hnear⟩ := exists_multiple (by decide) hx hy (by exact_mod_cast hclose)
    (by exact_mod_cast hclose')
  rw [Nat.cast_ofNat] at hk hnear
  have hmantissa : mantissa y (lastPlace y) = k :=
    eq_of_nearest (abs_mantissa_sub_le hy.le (lastPlace y)) hnear
  unfold nearest
  dsimp only
  rw [hmantissa, lastPlace, ← hk, if_neg (not_le.mpr hlt)]

theorem nearest_zero : nearest 0 = .finite 0 := by
  have hmantissa : mantissa 0 (lastPlace 0) = 0 :=
    eq_of_nearest (abs_mantissa_sub_le le_rfl (lastPlace 0)) (by simp)
  unfold nearest
  dsimp only
  rw [hmantissa, Nat.cast_zero, zero_mul, if_neg (by norm_num)]

/-- What is too great is rounded to infinity. -/
theorem nearest_eq_inf (hq : 2 ^ 1024 ≤ q) : nearest q = .inf false := by
  have hq0 : 0 < q := lt_of_lt_of_le (by norm_num) hq
  have hlog : 1024 ≤ Int.log 2 q :=
    (Int.zpow_le_iff_le_log (by decide) hq0).mp (by exact_mod_cast hq)
  have hplace : lastPlace q = Int.log 2 q - 52 := by
    unfold lastPlace Rounding.lastPlace
    omega
  have hround := (abs_le.mp (abs_mantissa_sub_le hq0.le (lastPlace q))).1
  have hpow : (0 : ℚ) < 2 ^ lastPlace q := zpow_pos (by norm_num) _
  have hlarge : (2 : ℚ) ^ 52 ≤ q / 2 ^ lastPlace q := by
    rw [le_div_iff₀ hpow, ← zpow_natCast, ← zpow_add₀ (by norm_num), hplace]
    have hself := Int.zpow_log_le_self (b := 2) (by decide) hq0
    rw [Nat.cast_ofNat] at hself
    refine le_trans (le_of_eq ?_) hself
    congr 1
    omega
  have hmantissa : 2 ^ 52 ≤ mantissa q (lastPlace q) := by
    have hlt : ((2 ^ 52 : ℕ) : ℚ) < (mantissa q (lastPlace q) + 1 : ℕ) := by
      push_cast
      linarith
    exact Nat.lt_succ_iff.mp (Nat.cast_lt.mp hlt)
  have hvalue : 2 ^ 1024 ≤ (mantissa q (lastPlace q) : ℚ) * 2 ^ lastPlace q := by
    calc (2 : ℚ) ^ 1024 = 2 ^ 52 * 2 ^ (972 : Int) := by
          rw [← zpow_natCast, ← zpow_natCast, ← zpow_add₀ (by norm_num)]
          rfl
      _ ≤ (mantissa q (lastPlace q) : ℚ) * 2 ^ lastPlace q := by
        refine mul_le_mul (by exact_mod_cast hmantissa) ?_ (by positivity) (Nat.cast_nonneg _)
        exact zpow_le_zpow_right₀ (by norm_num) (by omega)
  unfold nearest
  exact if_pos hvalue

end Rounding

/-! ## Seventeen digits -/

section Printing

variable {n d m : Nat} {a e : Int} {x y : ℚ}

/-- The exponent of a fraction is that of its first digit. -/
theorem decimalExponent_spec (hn : 0 < n) (hd : 0 < d) :
    (10 : ℚ) ^ Double.decimalExponent n d ≤ (n : ℚ) / d ∧
      (n : ℚ) / d < 10 ^ (Double.decimalExponent n d + 1) := by
  have hd' : (0 : ℚ) < d := Nat.cast_pos.mpr hd
  have hnlow : ((10 ^ Nat.log 10 n : ℕ) : ℚ) ≤ n :=
    Nat.cast_le.mpr (Nat.pow_log_le_self 10 hn.ne')
  have hnhigh : (n : ℚ) < (10 ^ (Nat.log 10 n + 1) : ℕ) :=
    Nat.cast_lt.mpr (Nat.lt_pow_succ_log_self (by decide) n)
  have hdlow : ((10 ^ Nat.log 10 d : ℕ) : ℚ) ≤ d :=
    Nat.cast_le.mpr (Nat.pow_log_le_self 10 hd.ne')
  have hdhigh : (d : ℚ) < (10 ^ (Nat.log 10 d + 1) : ℕ) :=
    Nat.cast_lt.mpr (Nat.lt_pow_succ_log_self (by decide) d)
  set f : Int := (Nat.log 10 n : Int) - (Nat.log 10 d : Int) with hf
  have hhigh : (n : ℚ) / d < 10 ^ (f + 1) := by
    rw [div_lt_iff₀ hd']
    calc (n : ℚ) < (10 ^ (Nat.log 10 n + 1) : ℕ) := hnhigh
      _ = 10 ^ (f + 1) * (10 ^ Nat.log 10 d : ℕ) := by
        push_cast
        rw [← zpow_natCast, ← zpow_natCast, ← zpow_add₀ (by norm_num)]
        congr 1
        push_cast
        omega
      _ ≤ 10 ^ (f + 1) * d := by gcongr
  have hlow : (10 : ℚ) ^ (f - 1) < n / d := by
    rw [lt_div_iff₀ hd']
    calc (10 : ℚ) ^ (f - 1) * d < 10 ^ (f - 1) * (10 ^ (Nat.log 10 d + 1) : ℕ) := by gcongr
      _ = (10 ^ Nat.log 10 n : ℕ) := by
        push_cast
        rw [← zpow_natCast, ← zpow_natCast, ← zpow_add₀ (by norm_num)]
        congr 1
        push_cast
        omega
      _ ≤ n := hnlow
  have hcond : 10 ^ f.toNat * d ≤ n * 10 ^ (-f).toNat ↔ (10 : ℚ) ^ f ≤ n / d := by
    have hscaled := scaled_div 10 (n : ℚ) d f
    have hpos : (0 : ℚ) < 10 ^ f := zpow_pos (by norm_num) f
    have hpos' : (0 : ℚ) < d * 10 ^ f.toNat := by positivity
    push_cast at hscaled
    rw [← one_le_div hpos, ← hscaled, one_le_div hpos', mul_comm]
    exact_mod_cast Iff.rfl
  unfold Double.decimalExponent
  dsimp only
  rw [← hf]
  split_ifs with h
  · exact ⟨hcond.mp h, hhigh⟩
  · rw [hcond, not_le] at h
    rw [sub_add_cancel]
    exact ⟨hlow.le, h⟩

/-- **Seventeen digits are enough**: the double nearest to what they say is the one they were
made from. -/
theorem nearest_digits (hx : HasDigits 2 53 (-1074) x m a) (hlt : x < 2 ^ 1024)
    (he : (10 : ℚ) ^ e ≤ x) (hy : |y - x| ≤ 10 ^ (e - 16) / 2) : nearest y = .finite x := by
  have hscale : (10 : ℚ) ^ (e - 16) * 10 ^ 16 = 10 ^ e := by
    rw [← zpow_natCast, ← zpow_add₀ (by norm_num)]
    congr 1
    push_cast
    omega
  have hdelta : 2 * |y - x| * 10 ^ 16 ≤ x := by
    calc 2 * |y - x| * 10 ^ 16 ≤ 2 * (10 ^ (e - 16) / 2) * 10 ^ 16 := by gcongr
      _ = 10 ^ e := by rw [← hscale]; ring
      _ ≤ x := he
  have habs := abs_nonneg (y - x)
  have hle := neg_abs_le (y - x)
  have hpos : 0 < (10 : ℚ) ^ e := zpow_pos (by norm_num) e
  refine nearest_eq hx hlt ?_ ?_ ?_
  · linarith
  · linarith
  · linarith

end Printing

/-! ## Digits -/

section Digits

variable {l whole frac : List Char} {c : Char} {n : Nat}

/-- The characters are digits. -/
def AllDigits (l : List Char) : Prop := ∀ c ∈ l, c.isDigit = true

/-- A digit is the same digit as a byte. -/
theorem isDigit_byte (hc : c.isDigit = true) :
    isDigit (byte c) = true ∧ digit (byte c) = c.toNat - 48 := by
  obtain ⟨hlow, hhigh⟩ := Char.isDigit_iff_toNat.mp hc
  have hlow : 48 ≤ c.toNat := hlow
  have hhigh : c.toNat ≤ 57 := hhigh
  have hnat : (byte c).toNat = c.toNat := by
    show c.val.toUInt8.toNat = c.val.toNat
    rw [UInt32.toNat_toUInt8]
    exact Nat.mod_eq_of_lt (hhigh.trans_lt (by decide))
  refine ⟨Bool.and_eq_true_iff.mpr ⟨?_, ?_⟩, by rw [digit, hnat]⟩
  · exact decide_eq_true (UInt8.le_iff_toNat_le.mpr (hnat ▸ hlow))
  · exact decide_eq_true (UInt8.le_iff_toNat_le.mpr (hnat ▸ hhigh))

/-- The number of the bytes is the number of the characters. -/
theorem number_map_byte (hl : AllDigits l) : number (l.map byte) = Nat.ofDigitChars 10 l 0 := by
  have h : ∀ v, (l.map byte).foldl (fun value c => value * 10 + digit c) v =
      Nat.ofDigitChars 10 l v := by
    induction l with
    | nil => exact fun v => rfl
    | cons c l ih =>
      intro v
      have hc := (isDigit_byte (hl c List.mem_cons_self)).2
      rw [List.map_cons, List.foldl_cons, ih (fun c hc => hl c (List.mem_cons_of_mem _ hc)),
        Nat.ofDigitChars_cons, hc, Nat.mul_comm]
      rfl
  exact h 0

theorem digits_map_byte (hl : AllDigits l) (hne : l ≠ []) : Digits (l.map byte) := by
  refine ⟨fun h => hne (List.map_eq_nil_iff.mp h), fun c hc => ?_⟩
  obtain ⟨c', hc', rfl⟩ := List.mem_map.mp hc
  exact (isDigit_byte (hl c' hc')).1

theorem allDigits_toDigits (n : Nat) : AllDigits (Nat.toDigits 10 n) := fun _ hc =>
  Nat.isDigit_of_mem_toDigits (by decide) (by decide) hc

/-- Digits with zeros before them. -/
theorem padded_spec (width n : Nat) :
    AllDigits (Double.padded width n) ∧ Nat.ofDigitChars 10 (Double.padded width n) 0 = n ∧
      (0 < width → n < 10 ^ width → (Double.padded width n).length = width) := by
  have hpadded : Double.padded width n =
      List.replicate (width - (Nat.toDigits 10 n).length) '0' ++ Nat.toDigits 10 n := by
    unfold Double.padded
    rw [Nat.toString_eq_repr, Nat.toList_repr]
  rw [hpadded]
  refine ⟨fun c hc => ?_, ?_, fun hwidth hn => ?_⟩
  · obtain hc | hc := List.mem_append.mp hc
    · rw [List.eq_of_mem_replicate hc]
      rfl
    · exact allDigits_toDigits n c hc
  · rw [Nat.ofDigitChars_append, Nat.ofDigitChars_replicate_zero, Nat.mul_zero,
      Nat.ofDigitChars_ten_toDigits]
  · have hlen := (Nat.length_toDigits_le_iff (by decide) hwidth).mpr hn
    rw [List.length_append, List.length_replicate]
    omega

/-- Zeros at the end are stripped. -/
theorem exists_stripZeros (l : List Char) :
    ∃ z, l = Double.stripZeros l ++ List.replicate z '0' := by
  refine ⟨(l.reverse.takeWhile (· == '0')).length, ?_⟩
  have hzeros : (l.reverse.takeWhile (· == '0')).reverse =
      List.replicate (l.reverse.takeWhile (· == '0')).length '0' := by
    rw [← List.length_reverse]
    refine List.eq_replicate_of_mem fun c hc => ?_
    exact eq_of_beq (List.all_eq_true.mp List.all_takeWhile c (List.mem_reverse.mp hc))
  rw [Double.stripZeros, ← hzeros, ← List.reverse_append, List.takeWhile_append_dropWhile,
    List.reverse_reverse]

/-- Zeros at the end of a fraction do not count. -/
theorem magnitude_append_zeros (hwhole : AllDigits whole) (hfrac : AllDigits frac) (z : Nat)
    (x : Int) :
    (number ((whole ++ (frac ++ List.replicate z '0')).map byte) : ℚ) *
        10 ^ (x - ((frac ++ List.replicate z '0').length : Int)) =
      number ((whole ++ frac).map byte) * 10 ^ (x - (frac.length : Int)) := by
  have hall : AllDigits (whole ++ frac) := List.forall_mem_append.mpr ⟨hwhole, hfrac⟩
  have hzeros : AllDigits (List.replicate z '0') := fun c hc => by
    rw [List.eq_of_mem_replicate hc]
    rfl
  have hnumber : number ((whole ++ (frac ++ List.replicate z '0')).map byte) =
      10 ^ z * number ((whole ++ frac).map byte) := by
    rw [← List.append_assoc, number_map_byte (List.forall_mem_append.mpr ⟨hall, hzeros⟩),
      Nat.ofDigitChars_append, Nat.ofDigitChars_replicate_zero, number_map_byte hall]
  rw [hnumber, List.length_append, List.length_replicate]
  push_cast
  rw [mul_comm ((10 : ℚ) ^ z), mul_assoc, ← zpow_natCast, ← zpow_add₀ (by norm_num)]
  congr 2
  omega

end Digits

/-! ## Printed numbers -/

section Printed

variable {whole frac : List Char} {negative : Bool} {n d : Nat} {e : Int}

/-- The sign before a number. -/
def withSign (negative : Bool) (text : List Char) : List Char :=
  if negative then '-' :: text else text

/-- The text of an exponent. -/
def exponentChars (e : Int) : List Char :=
  'e' :: (if e < 0 then '-' else '+') :: Double.padded 2 e.natAbs

theorem padded_ne_nil (n : Nat) : Double.padded 2 n ≠ [] := fun h => by
  have hdigits := (List.append_eq_nil_iff.mp (h : _ ++ (toString n).toList = [])).2
  rw [Nat.toString_eq_repr, Nat.toList_repr] at hdigits
  exact Nat.toDigits_ne_nil hdigits

/-- An exponent as it is printed. -/
def exponentOf (e : Int) : Exponent :=
  ⟨byte 'e', some (decide (e < 0)), (Double.padded 2 e.natAbs).map byte, .inl rfl,
    digits_map_byte (padded_spec 2 e.natAbs).1 (padded_ne_nil e.natAbs)⟩

/-- The exponent that is printed has its value. -/
theorem value_exponentOf (e : Int) : (exponentOf e).value = e := by
  have hnumber : number ((Double.padded 2 e.natAbs).map byte) = e.natAbs := by
    rw [number_map_byte (padded_spec 2 e.natAbs).1, (padded_spec 2 e.natAbs).2.1]
  unfold Exponent.value exponentOf
  dsimp only
  rw [hnumber]
  by_cases he : e < 0
  · rw [decide_eq_true he, if_pos rfl]
    omega
  · rw [decide_eq_false he, if_neg (by decide)]
    omega

theorem text_exponentOf (e : Int) : (exponentOf e).text = (exponentChars e).map byte := by
  unfold Exponent.text exponentOf exponentChars
  by_cases he : e < 0
  · rw [decide_eq_true he, if_pos he]
    rfl
  · rw [decide_eq_false he, if_neg he]
    rfl

/-- A number of characters. -/
structure Printed where
  negative : Bool
  whole : List Char
  frac : Option (List Char)
  exponent : Option Int
  whole_ok : AllDigits whole ∧ whole ≠ []
  frac_ok : ∀ l, frac = some l → AllDigits l ∧ l ≠ []

namespace Printed

/-- The number that is printed. -/
def numeral (t : Printed) : Numeral :=
  ⟨t.negative, t.whole.map byte, t.frac.map fun l => l.map byte, t.exponent.map exponentOf,
    digits_map_byte t.whole_ok.1 t.whole_ok.2, fun l hl => by
      obtain ⟨l', hl', rfl⟩ := Option.map_eq_some_iff.mp hl
      exact digits_map_byte (t.frac_ok l' hl').1 (t.frac_ok l' hl').2⟩

/-- The characters of a number. -/
def chars (t : Printed) : List Char :=
  withSign t.negative (t.whole ++ (((t.frac.map fun l => '.' :: l).getD []) ++
    (t.exponent.map exponentChars).getD []))

/-- A printed number, read as a numeral, has the text that was printed. -/
theorem text_numeral (t : Printed) : t.numeral.text = t.chars.map byte := by
  have hfrac : Numeral.fracText (t.frac.map fun l => l.map byte) =
      ((t.frac.map fun l => '.' :: l).getD []).map byte := by
    cases t.frac <;> rfl
  have hexp : t.numeral.exponentText = ((t.exponent.map exponentChars).getD []).map byte := by
    unfold Numeral.exponentText numeral
    cases t.exponent with
    | none => rfl
    | some e => exact text_exponentOf e
  have hunsigned : t.numeral.unsignedText =
      (t.whole ++ (((t.frac.map fun l => '.' :: l).getD []) ++
        (t.exponent.map exponentChars).getD [])).map byte := by
    rw [List.map_append, List.map_append, ← hfrac, ← hexp]
    rfl
  unfold Numeral.text chars withSign
  rw [hunsigned]
  show (if t.negative = true then _ else _) = _
  split_ifs <;> rfl

/-- The magnitude of a printed number, as its digits and a power of ten. -/
theorem magnitude_numeral (t : Printed) :
    t.numeral.magnitude = number ((t.whole ++ t.frac.getD []).map byte) *
      10 ^ (t.exponent.getD 0 - ((t.frac.getD []).length : Int)) := by
  have hfrac : (t.frac.map fun l => l.map byte).getD [] = (t.frac.getD []).map byte := by
    cases t.frac <;> rfl
  have hexp : ((t.exponent.map exponentOf).map Exponent.value).getD 0 = t.exponent.getD 0 := by
    cases t.exponent with
    | none => rfl
    | some e => exact value_exponentOf e
  unfold Numeral.magnitude numeral
  dsimp only
  rw [hfrac, hexp, ← List.map_append, List.length_map]

end Printed

/-- The digits before and after a point, if there are any after it. -/
def dotted (whole frac : List Char) : List Char :=
  if (Double.stripZeros frac).isEmpty then whole else whole ++ '.' :: Double.stripZeros frac

/-- What marks a number as a double. -/
def marked (text : List Char) : List Char :=
  if text.any (fun c => c == '.' || c == 'e') then text else text ++ ['.', '0']

theorem mem_withSign {c : Char} {text : List Char} (h : c ∈ text) : c ∈ withSign negative text := by
  unfold withSign
  split_ifs
  · exact List.mem_cons_of_mem _ h
  · exact h

theorem marked_of_mem {c : Char} {text : List Char} (h : c ∈ text) (hc : c = '.' ∨ c = 'e') :
    marked text = text := by
  refine if_pos (List.any_eq_true.mpr ⟨c, h, ?_⟩)
  obtain rfl | rfl := hc <;> rfl

/-- A number without a point is marked with one. -/
theorem marked_allDigits (h : AllDigits whole) :
    marked (withSign negative whole) = withSign negative (whole ++ ['.', '0']) := by
  have hdigits : whole.any (fun c => c == '.' || c == 'e') = false := by
    refine List.any_eq_false.mpr fun c hc hmark => ?_
    have hdigit := h c hc
    obtain hmark | hmark := Bool.or_eq_true_iff.mp hmark
    all_goals
      rw [eq_of_beq hmark] at hdigit
      exact Bool.noConfusion hdigit
  have hsigned : (withSign negative whole).any (fun c => c == '.' || c == 'e') = false := by
    unfold withSign
    split_ifs
    · rw [List.any_cons, hdigits]
      rfl
    · exact hdigits
  unfold marked
  rw [hsigned, if_neg (by decide)]
  unfold withSign
  split_ifs <;> rfl

theorem allDigits_stripZeros (h : AllDigits frac) : AllDigits (Double.stripZeros frac) := by
  obtain ⟨z, hz⟩ := exists_stripZeros frac
  rw [hz] at h
  exact (List.forall_mem_append.mp h).1

/-- The zeros that are stripped do not change the number. -/
theorem magnitude_stripZeros (hwhole : AllDigits whole) (hfrac : AllDigits frac) (x : Int) :
    (number ((whole ++ frac).map byte) : ℚ) * 10 ^ (x - (frac.length : Int)) =
      number ((whole ++ Double.stripZeros frac).map byte) *
        10 ^ (x - ((Double.stripZeros frac).length : Int)) := by
  obtain ⟨z, hz⟩ := exists_stripZeros frac
  have h := magnitude_append_zeros hwhole (allDigits_stripZeros hfrac) z x
  rwa [← hz] at h

/-- The digits before and after a point, and an exponent. -/
theorem exists_printed (negative : Bool) (hwhole : AllDigits whole) (hne : whole ≠ [])
    (hfrac : AllDigits frac) (e : Option Int) :
    ∃ t : Printed, t.negative = negative ∧ t.exponent = e ∧
      (t.frac = none ↔ Double.stripZeros frac = []) ∧
      t.chars = withSign negative (dotted whole frac ++ (e.map exponentChars).getD []) ∧
      t.numeral.magnitude =
        number ((whole ++ frac).map byte) * 10 ^ (e.getD 0 - (frac.length : Int)) := by
  have hstrip := allDigits_stripZeros hfrac
  have hmagnitude := magnitude_stripZeros hwhole hfrac (e.getD 0)
  by_cases hempty : Double.stripZeros frac = []
  · refine ⟨⟨negative, whole, none, e, ⟨hwhole, hne⟩, nofun⟩, rfl, rfl,
      iff_of_true rfl hempty, ?_, ?_⟩
    · unfold Printed.chars dotted
      rw [hempty]
      rfl
    · rw [Printed.magnitude_numeral, hmagnitude, hempty]
      rfl
  · refine ⟨⟨negative, whole, some (Double.stripZeros frac), e, ⟨hwhole, hne⟩,
      fun l hl => Option.some.inj hl ▸ ⟨hstrip, hempty⟩⟩, rfl, rfl, iff_of_false nofun hempty, ?_, ?_⟩
    · have hnot : ¬(Double.stripZeros frac).isEmpty = true := by simpa using hempty
      unfold Printed.chars dotted
      rw [if_neg hnot, List.append_assoc]
      rfl
    · rw [Printed.magnitude_numeral, hmagnitude]
      rfl

/-- A number that is printed without an exponent. -/
theorem exists_plain (negative : Bool) (hwhole : AllDigits whole) (hne : whole ≠ [])
    (hfrac : AllDigits frac) :
    ∃ t : Printed, t.negative = negative ∧ t.frac ≠ none ∧
      t.chars = marked (withSign negative (dotted whole frac)) ∧
      t.numeral.magnitude = number ((whole ++ frac).map byte) * 10 ^ (-(frac.length : Int)) := by
  obtain ⟨t, hneg, -, hnone, hchars, hmagnitude⟩ := exists_printed negative hwhole hne hfrac none
  have hmagnitude : t.numeral.magnitude =
      number ((whole ++ frac).map byte) * 10 ^ (-(frac.length : Int)) := by
    rw [hmagnitude, Option.getD_none, zero_sub]
  by_cases hempty : Double.stripZeros frac = []
  · have hzero : AllDigits ['0'] := fun c hc => List.mem_singleton.mp hc ▸ rfl
    refine ⟨⟨negative, whole, some ['0'], none, ⟨hwhole, hne⟩,
      fun l hl => Option.some.inj hl ▸ ⟨hzero, by decide⟩⟩, rfl, nofun, ?_, ?_⟩
    · unfold dotted
      rw [hempty]
      exact (marked_allDigits hwhole).symm
    · have hnil : AllDigits [] := List.forall_mem_nil _
      have hone := magnitude_append_zeros hwhole hnil 1 0
      have hstrip := magnitude_stripZeros hwhole hfrac 0
      rw [zero_sub, hempty] at hstrip
      rw [Printed.magnitude_numeral, hstrip]
      exact hone
  · refine ⟨t, hneg, fun h => hempty (hnone.mp h), ?_, hmagnitude⟩
    have hnot : ¬(Double.stripZeros frac).isEmpty = true := by simpa using hempty
    have hmem : '.' ∈ withSign negative (dotted whole frac) := by
      refine mem_withSign ?_
      rw [dotted, if_neg hnot]
      exact List.mem_append_right _ List.mem_cons_self
    rw [hchars, marked_of_mem hmem (.inl rfl)]
    exact congrArg _ (List.append_nil _)

/-- A number that is printed with an exponent. -/
theorem exists_scientific (negative : Bool) (hwhole : AllDigits whole) (hne : whole ≠ [])
    (hfrac : AllDigits frac) (e : Int) :
    ∃ t : Printed, t.negative = negative ∧ t.exponent ≠ none ∧
      t.chars = marked (withSign negative (dotted whole frac ++ exponentChars e)) ∧
      t.numeral.magnitude = number ((whole ++ frac).map byte) * 10 ^ (e - (frac.length : Int)) := by
  obtain ⟨t, hneg, hexp, -, hchars, hmagnitude⟩ :=
    exists_printed negative hwhole hne hfrac (some e)
  have hmem : 'e' ∈ withSign negative (dotted whole frac ++ exponentChars e) :=
    mem_withSign (List.mem_append_right _ List.mem_cons_self)
  refine ⟨t, hneg, ?_, ?_, hmagnitude⟩
  · rw [hexp]
    exact nofun
  · rw [hchars, marked_of_mem hmem (.inr rfl)]
    rfl

end Printed

/-! ## Printed doubles -/

section Doubles

variable {ds : List Char} {n d : Nat}

theorem formatG_eq (ds : List Char) (e : Int) :
    Double.formatG ds e =
      if e < -4 ∨ 17 ≤ e then dotted (ds.take 1) (ds.drop 1) ++ exponentChars e
      else if e < 0 then dotted ['0'] (List.replicate (e.natAbs - 1) '0' ++ ds)
      else dotted (ds.take (e.toNat + 1)) (ds.drop (e.toNat + 1)) := rfl

/-- Seventeen digits are printed as the number that they are with the exponent of the first. -/
theorem exists_formatG (negative : Bool) (hds : AllDigits ds) (hlen : ds.length = 17) (e : Int) :
    ∃ t : Printed, t.negative = negative ∧ (t.frac ≠ none ∨ t.exponent ≠ none) ∧
      t.chars = marked (withSign negative (Double.formatG ds e)) ∧
      t.numeral.magnitude = number (ds.map byte) * 10 ^ (e - 16) := by
  have htake : ∀ i, AllDigits (ds.take i) := fun i c hc => hds c (List.mem_of_mem_take hc)
  have hdrop : ∀ i, AllDigits (ds.drop i) := fun i c hc => hds c (List.mem_of_mem_drop hc)
  have hne : ∀ i, ds.take (i + 1) ≠ [] := fun i h => by
    have := congrArg List.length h
    rw [List.length_take, List.length_nil, hlen] at this
    omega
  rw [formatG_eq]
  split_ifs with hscientific hsmall
  · obtain ⟨t, hneg, hexp, hchars, hmagnitude⟩ :=
      exists_scientific negative (htake 1) (hne 0) (hdrop 1) e
    refine ⟨t, hneg, .inr hexp, hchars, ?_⟩
    rw [hmagnitude, List.take_append_drop, List.length_drop, hlen]
    rfl
  · have hzeros : AllDigits (List.replicate (e.natAbs - 1) '0') := fun c hc => by
      rw [List.eq_of_mem_replicate hc]
      rfl
    have hzero : AllDigits ['0'] := fun c hc => List.mem_singleton.mp hc ▸ rfl
    have hfrac : AllDigits (List.replicate (e.natAbs - 1) '0' ++ ds) :=
      List.forall_mem_append.mpr ⟨hzeros, hds⟩
    obtain ⟨t, hneg, hpoint, hchars, hmagnitude⟩ :=
      exists_plain negative hzero (by decide) hfrac
    refine ⟨t, hneg, .inl hpoint, hchars, ?_⟩
    have hnumber : number ((['0'] ++ (List.replicate (e.natAbs - 1) '0' ++ ds)).map byte) =
        number (ds.map byte) := by
      rw [number_map_byte (List.forall_mem_append.mpr ⟨hzero, hfrac⟩), number_map_byte hds,
        Nat.ofDigitChars_append, Nat.ofDigitChars_append, Nat.ofDigitChars_replicate_zero]
      congr 1
    rw [hmagnitude, hnumber, List.length_append, List.length_replicate, hlen]
    congr 2
    omega
  · obtain ⟨t, hneg, hpoint, hchars, hmagnitude⟩ :=
      exists_plain negative (htake _) (hne e.toNat) (hdrop _)
    refine ⟨t, hneg, .inl hpoint, hchars, ?_⟩
    rw [hmagnitude, List.take_append_drop, List.length_drop, hlen]
    congr 2
    omega

/-- A fraction is printed as a number that is nearest to it among those with 17 digits. -/
theorem exists_formatPositive (negative : Bool) (hn : 0 < n) (hd : 0 < d) :
    ∃ t : Printed, t.negative = negative ∧ (t.frac ≠ none ∨ t.exponent ≠ none) ∧
      t.chars = marked (withSign negative (Double.formatPositive n d)) ∧
      |t.numeral.magnitude - (n : ℚ) / d| ≤ 10 ^ (Double.decimalExponent n d - 16) / 2 := by
  obtain ⟨hlow, hhigh⟩ := decimalExponent_spec hn hd
  set e := Double.decimalExponent n d with he
  set k := Double.roundHalfEven (n * 10 ^ (16 - e).toNat) (d * 10 ^ (e - 16).toNat) with hk
  have hu : (0 : ℚ) < 10 ^ (e - 16) := zpow_pos (by norm_num) _
  have hround : |(k : ℚ) - (n : ℚ) / d / 10 ^ (e - 16)| ≤ 1 / 2 := by
    have h := abs_roundHalfEven_sub_le (n := n * 10 ^ (16 - e).toNat)
      (d := d * 10 ^ (e - 16).toNat) (Nat.mul_pos hd (Nat.pow_pos (by decide)))
    have hscaled := scaled_div 10 (n : ℚ) d (e - 16)
    rw [neg_sub] at hscaled
    push_cast at h hscaled
    rwa [hscaled] at h
  have hnear : |(k : ℚ) * 10 ^ (e - 16) - (n : ℚ) / d| ≤ 10 ^ (e - 16) / 2 := by
    have hfactor : (k : ℚ) * 10 ^ (e - 16) - (n : ℚ) / d =
        ((k : ℚ) - (n : ℚ) / d / 10 ^ (e - 16)) * 10 ^ (e - 16) := by
      rw [sub_mul, div_mul_cancel₀ _ hu.ne']
    rw [hfactor, abs_mul, abs_of_pos hu]
    calc |(k : ℚ) - (n : ℚ) / d / 10 ^ (e - 16)| * 10 ^ (e - 16)
        ≤ 1 / 2 * 10 ^ (e - 16) := mul_le_mul_of_nonneg_right hround hu.le
      _ = 10 ^ (e - 16) / 2 := by ring
  have hle : k ≤ 10 ^ 17 := by
    have hbound : (n : ℚ) / d / 10 ^ (e - 16) < 10 ^ 17 := by
      rw [div_lt_iff₀ hu, ← zpow_natCast, ← zpow_add₀ (by norm_num)]
      refine hhigh.trans_eq ?_
      congr 1
      push_cast
      omega
    have hlt : (k : ℚ) < (10 ^ 17 + 1 : ℕ) := by
      push_cast
      linarith [(abs_le.mp hround).2]
    exact Nat.lt_succ_iff.mp (Nat.cast_lt.mp hlt)
  unfold Double.formatPositive
  dsimp only
  rw [← he, ← hk]
  split_ifs with hcarry
  · have hpadded := padded_spec 17 (10 ^ 16)
    obtain ⟨t, hneg, hpoint, hchars, hmagnitude⟩ := exists_formatG negative hpadded.1
      (hpadded.2.2 (by decide) (by decide)) (e + 1)
    refine ⟨t, hneg, hpoint, hchars, ?_⟩
    have hvalue : t.numeral.magnitude = (k : ℚ) * 10 ^ (e - 16) := by
      have hstep : (10 : ℚ) ^ (e + 1 - 16) = 10 * 10 ^ (e - 16) := by
        rw [← zpow_one_add₀ (by norm_num)]
        congr 1
        omega
      rw [hmagnitude, number_map_byte hpadded.1, hpadded.2.1, hcarry, hstep]
      push_cast
      ring
    rw [hvalue]
    exact hnear
  · have hpadded := padded_spec 17 k
    obtain ⟨t, hneg, hpoint, hchars, hmagnitude⟩ := exists_formatG negative hpadded.1
      (hpadded.2.2 (by decide) (lt_of_le_of_ne hle hcarry)) e
    refine ⟨t, hneg, hpoint, hchars, ?_⟩
    rw [hmagnitude, number_map_byte hpadded.1, hpadded.2.1]
    exact hnear

theorem ascii_ofList (l : List Char) : ascii (String.ofList l) = l.map byte := by
  rw [ascii, String.toList_ofList]

/-- The value of a printed double. -/
theorem value_printed {t : Printed} (h : t.frac ≠ none ∨ t.exponent ≠ none) :
    t.numeral.value = .real (signed t.negative (nearest t.numeral.magnitude)) := by
  refine if_neg fun hint => ?_
  obtain h | h := h
  · exact h (Option.map_eq_none_iff.mp hint.1)
  · exact h (Option.map_eq_none_iff.mp hint.2.1)

theorem valueToString_finite (q : ℚ) :
    (Double.finite q).valueToString = String.ofList (marked (withSign (decide (q.num < 0))
      (if q.num = 0 then ['0'] else Double.formatPositive q.num.natAbs q.den))) := by
  unfold Double.valueToString marked withSign
  simp only [decide_eq_true_eq]

/-- **A double is read back from what is printed of it.** -/
theorem exists_numeral (d : Double) (hd : IsBinary64 d) :
    ∃ t : Numeral, t.text = ascii d.valueToString ∧ t.value = .real d := by
  have hzero : AllDigits ['0'] := fun c hc => List.mem_singleton.mp hc ▸ rfl
  have hnil : AllDigits [] := List.forall_mem_nil _
  cases d with
  | nan => exact hd.elim
  | negZero =>
    obtain ⟨t, hneg, hpoint, hchars, hmagnitude⟩ :=
      exists_plain true hzero (by decide) hnil
    refine ⟨t.numeral, by rw [Printed.text_numeral, hchars]; rfl, ?_⟩
    have hvalue : t.numeral.magnitude = 0 := by
      rw [hmagnitude]
      exact zero_mul _
    rw [value_printed (.inl hpoint), hneg, hvalue, nearest_zero]
    rfl
  | inf negative =>
    have hone : AllDigits ['1'] := fun c hc => List.mem_singleton.mp hc ▸ rfl
    obtain ⟨t, hneg, hexp, hchars, hmagnitude⟩ :=
      exists_scientific negative hone (by decide) hnil 9999
    refine ⟨t.numeral, ?_, ?_⟩
    · rw [Printed.text_numeral, hchars]
      cases negative <;> rfl
    · have hlarge : 2 ^ 1024 ≤ t.numeral.magnitude := by
        calc (2 : ℚ) ^ 1024 ≤ 10 ^ 1024 := pow_le_pow_left₀ (by norm_num) (by norm_num) _
          _ ≤ 10 ^ 9999 := pow_le_pow_right₀ (by norm_num) (by decide)
          _ = t.numeral.magnitude := by
            rw [hmagnitude, ← zpow_natCast]
            exact (one_mul _).symm
      rw [value_printed (.inr hexp), hneg, nearest_eq_inf hlarge]
      rfl
  | finite q =>
    rw [valueToString_finite, ascii_ofList]
    by_cases hq : q = 0
    · obtain ⟨t, hneg, hpoint, hchars, hmagnitude⟩ :=
        exists_plain false hzero (by decide) hnil
      refine ⟨t.numeral, ?_, ?_⟩
      · rw [Printed.text_numeral, hchars, hq]
        rfl
      · have hvalue : t.numeral.magnitude = 0 := by
          rw [hmagnitude]
          exact zero_mul _
        rw [value_printed (.inl hpoint), hneg, hvalue, nearest_zero, hq]
        rfl
    · have hnum : q.num ≠ 0 := Rat.num_ne_zero.mpr hq
      obtain ⟨hlt, m, a, hdigits⟩ := hd.resolve_left hq
      have habs : (q.num.natAbs : ℚ) / q.den = |q| := by
        rw [Nat.cast_natAbs, Int.cast_abs, ← Nat.abs_cast q.den, ← abs_div, Rat.num_div_den]
      obtain ⟨t, hneg, hpoint, hchars, hnear⟩ :=
        exists_formatPositive (decide (q.num < 0)) (Int.natAbs_pos.mpr hnum) q.den_pos
      have hlow := (decimalExponent_spec (Int.natAbs_pos.mpr hnum) q.den_pos).1
      rw [habs] at hnear hlow
      refine ⟨t.numeral, ?_, ?_⟩
      · rw [Printed.text_numeral, hchars, if_neg hnum]
      · rw [value_printed hpoint, hneg, nearest_digits hdigits hlt hlow hnear, signed]
        by_cases hsign : q < 0
        · rw [decide_eq_true (Rat.num_neg.mpr hsign), if_pos rfl, if_neg (abs_ne_zero.mpr hq),
            abs_of_neg hsign, neg_neg]
        · rw [decide_eq_false (fun h => hsign (Rat.num_neg.mp h)), if_neg (by decide),
            abs_of_nonneg (not_lt.mp hsign)]

end Doubles

end Binary64

end UnoppServer.Jsoncpp
