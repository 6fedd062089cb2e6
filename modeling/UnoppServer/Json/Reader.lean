import UnoppServer.Lib.Rounding
import UnoppServer.Json.Text

/-!
# The reader of JSON texts

`Reader.parse` is `Json::Reader::parse` with the default features: comments are allowed and
skipped, trailing commas and dropped values are not. The texts of the errors are not kept, since
the server never asks for them.

`readValue` calls itself through `readObject` and `readArray` and throws when more than
`stackLimit` values are open. `Reader.readValue n` is the call with room for `n` more of them, so
that the recursion is on `n`. Each loop below it ends since a `ValueReader` never goes back in the
text; `Reader.readValue` is built as one.

A text that cannot be read leaves the value with all that has been read of it.
-/

namespace UnoppServer.Jsoncpp

/-! ## Doubles -/

namespace Binary64

/-- `q` as a multiple of `2 ^ e`, rounded to the nearest, ties to even. -/
def mantissa (q : ℚ) (e : Int) : Nat :=
  Double.roundHalfEven (q.num.natAbs * 2 ^ (-e).toNat) (q.den * 2 ^ e.toNat)

/-- The exponent of the last place of the doubles around a positive `q`. -/
def lastPlace (q : ℚ) : Int := Rounding.lastPlace 2 53 (-1074) q

/-- The double nearest to a number that is not negative, and infinity from halfway above the
greatest on. -/
def nearest (q : ℚ) : Double :=
  let value : ℚ := mantissa q (lastPlace q) * 2 ^ lastPlace q
  if 2 ^ 1024 ≤ value then .inf false else .finite value

/-- The double with the sign before it. -/
def signed (negative : Bool) : Double → Double
  | .finite q => if negative then (if q = 0 then .negZero else .finite (-q)) else .finite q
  | .negZero => .negZero
  | .inf _ => .inf negative
  | .nan => .nan

end Binary64

/-- `c >= '0' && c <= '9'`. -/
def isDigit (c : UInt8) : Bool := byte '0' ≤ c && c ≤ byte '9'

/-- `c - '0'`. -/
def digit (c : UInt8) : Nat := c.toNat - 48

/-- The number with these decimal digits. -/
def number (digits : Bytes) : Nat := digits.foldl (fun value c => value * 10 + digit c) 0

/-- An optional sign: whether it is a minus, and what follows. -/
def sign : Bytes → Bool × Bytes
  | [] => (false, [])
  | c :: s => if c = byte '-' then (true, s) else if c = byte '+' then (false, s) else (false, c :: s)

/-- The digits after a point. -/
def fraction : Bytes → Bytes
  | [] => []
  | c :: s => if c = byte '.' then s.takeWhile isDigit else []

/-- What follows a point and the digits after it. -/
def skipFraction : Bytes → Bytes
  | [] => []
  | c :: s => if c = byte '.' then s.dropWhile isDigit else c :: s

/-- The value of what follows the mantissa of a number. An `e` needs a digit after it. -/
def exponent : Bytes → Option Int
  | [] => some 0
  | _ :: s =>
    let digits := (sign s).2
    if digits = [] then none
    else some (if (sign s).1 then -number digits else number digits)

/-- `is >> value` for a `double` and what `readNumber` passes over. The mantissa needs a digit, and
the value is rounded to the nearest double. -/
def extractDouble (text : Bytes) : Option Double :=
  let negative := (sign text).1
  let whole := (sign text).2.takeWhile isDigit
  let rest := (sign text).2.dropWhile isDigit
  let frac := fraction rest
  if whole ++ frac = [] then none
  else (exponent (skipFraction rest)).map fun e =>
    Binary64.signed negative
      (Binary64.nearest (number (whole ++ frac) * 10 ^ (e - (frac.length : Int))))

/-! ## Tokens -/

/-- `enum TokenType`. -/
inductive TokenType where
  | tokenEndOfStream
  | tokenObjectBegin
  | tokenObjectEnd
  | tokenArrayBegin
  | tokenArrayEnd
  | tokenString
  | tokenNumber
  | tokenTrue
  | tokenFalse
  | tokenNull
  | tokenArraySeparator
  | tokenMemberSeparator
  | tokenComment
  | tokenError
  deriving DecidableEq, Repr

/-- `class Token`: its type, its text from `start_` to `end_`, and what follows `current_`. -/
structure Token where
  type : TokenType
  text : Bytes
  rest : Bytes

namespace Reader

/-- The characters that `skipSpaces` passes over. -/
def isSpace (c : UInt8) : Bool :=
  c = byte ' ' || c = byte '\t' || c = byte '\r' || c = byte '\n'

/-- `Reader::skipSpaces`. -/
def skipSpaces (s : Bytes) : Bytes := s.dropWhile isSpace

/-- `Reader::match`. -/
def matches_ (pattern : String) (s : Bytes) : Bool × Bytes :=
  if ascii pattern <+: s then (true, s.drop (ascii pattern).length) else (false, s)

/-- `Reader::readCStyleComment`. A text that ends with a slash ends a comment as well. -/
def readCStyleComment : Bytes → Bool × Bytes
  | [] => (false, [])
  | [c] => (c = byte '/', [])
  | c :: d :: s => if c = byte '*' ∧ d = byte '/' then (true, s) else readCStyleComment (d :: s)

/-- `Reader::readCppStyleComment`. -/
def readCppStyleComment : Bytes → Bytes
  | [] => []
  | c :: s =>
    if c = byte '\n' then s
    else if c = byte '\r' then (if s.head? = some (byte '\n') then s.tail else s)
    else readCppStyleComment s

/-- `Reader::readComment`. -/
def readComment : Bytes → Bool × Bytes
  | [] => (false, [])
  | c :: s =>
    if c = byte '*' then readCStyleComment s
    else if c = byte '/' then (true, readCppStyleComment s)
    else (false, s)

/-- What follows an `e`, a sign and the digits after it. -/
def skipExponent : Bytes → Bytes
  | [] => []
  | c :: s => if c = byte 'e' ∨ c = byte 'E' then (sign s).2.dropWhile isDigit else c :: s

/-- `Reader::readNumber`, after the first character: the integral, the fractional and the
exponential part. -/
def readNumber (s : Bytes) : Bytes := skipExponent (skipFraction (s.dropWhile isDigit))

/-- `Reader::readString`, after the opening quote. -/
def readString : Bytes → Bool × Bytes
  | [] => (false, [])
  | c :: s =>
    if c = byte '\\' then
      match s with
      | [] => (false, [])
      | _ :: s => readString s
    else if c = byte '"' then (true, s)
    else readString s

/-- The type of the tokens that begin with a character. -/
def tokenType (c : UInt8) : TokenType :=
  match Char.ofUInt8 c with
  | '{' => .tokenObjectBegin
  | '}' => .tokenObjectEnd
  | '[' => .tokenArrayBegin
  | ']' => .tokenArrayEnd
  | '"' => .tokenString
  | '/' => .tokenComment
  | '-' => .tokenNumber
  | 't' => .tokenTrue
  | 'f' => .tokenFalse
  | 'n' => .tokenNull
  | ',' => .tokenArraySeparator
  | ':' => .tokenMemberSeparator
  | '\x00' => .tokenEndOfStream
  | _ => if isDigit c then .tokenNumber else .tokenError

/-- The rest of a token of the type: whether it is as it should be, and what follows. -/
def readRest (type : TokenType) (s : Bytes) : Bool × Bytes :=
  match type with
  | .tokenString => readString s
  | .tokenComment => readComment s
  | .tokenNumber => (true, readNumber s)
  | .tokenTrue => matches_ "rue" s
  | .tokenFalse => matches_ "alse" s
  | .tokenNull => matches_ "ull" s
  | .tokenError => (false, s)
  | _ => (true, s)

/-- `Reader::readToken`. It returns false if and only if the type is `tokenError`. -/
def readToken (s : Bytes) : Token :=
  match skipSpaces s with
  | [] => ⟨.tokenEndOfStream, [], []⟩
  | c :: s =>
    let type := tokenType c
    let tail := readRest type s
    ⟨if tail.1 then type else .tokenError, c :: s.take (s.length - tail.2.length), tail.2⟩

theorem suffix_skipSpaces (s : Bytes) : skipSpaces s <:+ s := List.dropWhile_suffix isSpace

theorem suffix_readCStyleComment (s : Bytes) : (readCStyleComment s).2 <:+ s := by
  fun_induction readCStyleComment s with
  | case1 => exact List.suffix_rfl
  | case2 c => exact List.nil_suffix
  | case3 c d s h => exact (List.suffix_cons d s).trans (List.suffix_cons c _)
  | case4 c d s h ih => exact ih.trans (List.suffix_cons c _)

theorem suffix_readCppStyleComment (s : Bytes) : readCppStyleComment s <:+ s := by
  fun_induction readCppStyleComment s with
  | case1 => exact List.suffix_rfl
  | case2 s => exact List.suffix_cons _ s
  | case3 s h h' => exact (List.tail_suffix s).trans (List.suffix_cons _ s)
  | case4 s h h' => exact List.suffix_cons _ s
  | case5 c s h h' ih => exact ih.trans (List.suffix_cons c s)

theorem suffix_readString (s : Bytes) : (readString s).2 <:+ s := by
  fun_induction readString s with
  | case1 => exact List.suffix_rfl
  | case2 => exact List.nil_suffix
  | case3 d s ih => exact ih.trans ((List.suffix_cons d s).trans (List.suffix_cons _ _))
  | case4 s => exact List.suffix_cons _ s
  | case5 c s h h' ih => exact ih.trans (List.suffix_cons c s)

theorem suffix_sign (s : Bytes) : (sign s).2 <:+ s := by
  fun_cases sign s with
  | case1 => exact List.suffix_rfl
  | case2 s => exact List.suffix_cons _ s
  | case3 s => exact List.suffix_cons _ s
  | case4 c s => exact List.suffix_rfl

theorem suffix_skipFraction (s : Bytes) : skipFraction s <:+ s := by
  fun_cases skipFraction s with
  | case1 => exact List.suffix_rfl
  | case2 s => exact (List.dropWhile_suffix isDigit).trans (List.suffix_cons _ s)
  | case3 c s => exact List.suffix_rfl

theorem suffix_skipExponent (s : Bytes) : skipExponent s <:+ s := by
  fun_cases skipExponent s with
  | case1 => exact List.suffix_rfl
  | case2 c s =>
    exact (List.dropWhile_suffix isDigit).trans ((suffix_sign s).trans (List.suffix_cons c s))
  | case3 c s => exact List.suffix_rfl

theorem suffix_readNumber (s : Bytes) : readNumber s <:+ s :=
  (suffix_skipExponent _).trans ((suffix_skipFraction _).trans (List.dropWhile_suffix isDigit))

theorem suffix_matches (pattern : String) (s : Bytes) : (matches_ pattern s).2 <:+ s := by
  fun_cases matches_ pattern s with
  | case1 => exact List.drop_suffix _ s
  | case2 => exact List.suffix_rfl

theorem suffix_readComment (s : Bytes) : (readComment s).2 <:+ s := by
  fun_cases readComment s with
  | case1 => exact List.suffix_rfl
  | case2 s => exact (suffix_readCStyleComment s).trans (List.suffix_cons _ s)
  | case3 s => exact (suffix_readCppStyleComment s).trans (List.suffix_cons _ s)
  | case4 c s => exact List.suffix_cons c s

/-- The rest of a token ends the text. -/
theorem suffix_readRest (type : TokenType) (s : Bytes) : (readRest type s).2 <:+ s := by
  cases type with
  | tokenString => exact suffix_readString s
  | tokenComment => exact suffix_readComment s
  | tokenNumber => exact suffix_readNumber s
  | tokenTrue => exact suffix_matches "rue" s
  | tokenFalse => exact suffix_matches "alse" s
  | tokenNull => exact suffix_matches "ull" s
  | _ => exact List.suffix_rfl

/-- What follows a token ends the text. -/
theorem suffix_readToken (s : Bytes) : (readToken s).rest <:+ s := by
  refine List.IsSuffix.trans ?_ (suffix_skipSpaces s)
  unfold readToken
  split
  · exact List.nil_suffix
  · rename_i c s' hs
    rw [hs]
    exact (suffix_readRest _ _).trans (List.suffix_cons c s')

/-- A token other than the end of the text has a character. -/
theorem length_readToken_lt {s : Bytes} (h : (readToken s).type ≠ .tokenEndOfStream) :
    (readToken s).rest.length < s.length := by
  refine lt_of_lt_of_le ?_ (suffix_skipSpaces s).length_le
  unfold readToken at h ⊢
  split at h
  · exact absurd rfl h
  · rename_i c s' hs
    rw [hs]
    exact Nat.lt_succ_of_le (suffix_readRest _ _).length_le

/-- `Reader::skipCommentTokens`. -/
def skipCommentTokens (s : Bytes) : Token :=
  if _h : (readToken s).type = .tokenComment then skipCommentTokens (readToken s).rest
  else readToken s
termination_by s.length
decreasing_by exact length_readToken_lt (by simp [_h])

theorem suffix_skipCommentTokens (s : Bytes) :
    (skipCommentTokens s).rest <:+ s := by
  fun_induction skipCommentTokens s with
  | case1 s h ih => exact ih.trans (suffix_readToken s)
  | case2 s h => exact suffix_readToken s

/-- A token from which a loop goes on is not the end of the text. -/
theorem length_skipCommentTokens_lt {s : Bytes}
    (h : (skipCommentTokens s).type ≠ .tokenEndOfStream) :
    (skipCommentTokens s).rest.length < s.length := by
  fun_induction skipCommentTokens s with
  | case1 s hs ih => exact (ih h).trans_le (suffix_readToken s).length_le
  | case2 s hs => exact length_readToken_lt h

/-- `Reader::recoverFromError`: what follows the first token of the type, or the text's end. -/
def recoverFromError (skipUntilToken : TokenType) (s : Bytes) : Bytes :=
  if _h : (readToken s).type = skipUntilToken ∨ (readToken s).type = .tokenEndOfStream then
    (readToken s).rest
  else recoverFromError skipUntilToken (readToken s).rest
termination_by s.length
decreasing_by exact length_readToken_lt fun he => _h (.inr he)

theorem suffix_recoverFromError (skipUntilToken : TokenType) (s : Bytes) :
    recoverFromError skipUntilToken s <:+ s := by
  fun_induction recoverFromError skipUntilToken s with
  | case1 s h => exact suffix_readToken s
  | case2 s h ih => exact ih.trans (suffix_readToken s)

/-! ## Scalars -/

/-- The loop of `decodeNumber`: none if the number has to be read as a double. -/
def decodeDigits (maxIntegerValue : Nat) : Nat → Bytes → Option Nat
  | value, [] => some value
  | value, c :: rest =>
    if !isDigit c then none
    -- the last digit may use what is left above the threshold
    else if maxIntegerValue / 10 ≤ value ∧
        (maxIntegerValue / 10 < value ∨ rest ≠ [] ∨ maxIntegerValue % 10 < digit c) then none
    else decodeDigits maxIntegerValue (value * 10 + digit c) rest

/-- `Value::maxLargestInt`. -/
def maxLargestInt : Nat := 2 ^ 63 - 1

/-- `Value::maxLargestUInt`. -/
def maxLargestUInt : Nat := 2 ^ 64 - 1

/-- `Reader::decodeNumber`. -/
def decodeNumber (text : Bytes) : Option Value :=
  let isNegative := text.head? = some (byte '-')
  let maxIntegerValue := if isNegative then maxLargestInt + 1 else maxLargestUInt
  match decodeDigits maxIntegerValue 0 (if isNegative then text.tail else text) with
  | none => (extractDouble text).map .real
  | some value =>
    if isNegative then some (.int (-value))
    else if (value : Int) ≤ Json.maxInt then some (.int value)
    else some (.uint value)

/-- The value of a hexadecimal digit. -/
def hexDigit (c : UInt8) : Option Nat :=
  if isDigit c then some (digit c)
  else if byte 'a' ≤ c ∧ c ≤ byte 'f' then some (c.toNat - 97 + 10)
  else if byte 'A' ≤ c ∧ c ≤ byte 'F' then some (c.toNat - 65 + 10)
  else none

/-- `Reader::decodeUnicodeEscapeSequence`. -/
def decodeUnicodeEscapeSequence : Bytes → Option (Nat × Bytes)
  | a :: b :: c :: d :: rest => do
    let a ← hexDigit a
    let b ← hexDigit b
    let c ← hexDigit c
    let d ← hexDigit d
    return (((a * 16 + b) * 16 + c) * 16 + d, rest)
  | _ => none

/-- `Reader::decodeUnicodeCodePoint`. The second half of a pair is not checked to be one. -/
def decodeUnicodeCodePoint (s : Bytes) : Option (Nat × Bytes) := do
  let (unicode, rest) ← decodeUnicodeEscapeSequence s
  if 0xD800 ≤ unicode ∧ unicode ≤ 0xDBFF then
    match rest with
    | backslash :: u :: rest =>
      if backslash = byte '\\' ∧ u = byte 'u' then
        let (surrogatePair, rest) ← decodeUnicodeEscapeSequence rest
        return (0x10000 + ((unicode &&& 0x3FF) <<< 10) + (surrogatePair &&& 0x3FF), rest)
      else none
    | _ => none
  else return (unicode, rest)

/-- The four digits are consumed. -/
theorem length_decodeUnicodeEscapeSequence {s rest : Bytes} {unicode : Nat}
    (h : decodeUnicodeEscapeSequence s = some (unicode, rest)) : rest.length < s.length := by
  unfold decodeUnicodeEscapeSequence at h
  split at h
  · simp only [Option.bind_eq_bind, Option.bind_eq_some_iff, Option.pure_def, Option.some.injEq,
      Prod.mk.injEq] at h
    obtain ⟨-, -, -, -, -, -, -, -, -, rfl⟩ := h
    simp only [List.length_cons]
    omega
  · cases h

/-- A code point consumes its escape, or the two of a pair. -/
theorem length_decodeUnicodeCodePoint {s rest : Bytes} {unicode : Nat}
    (h : decodeUnicodeCodePoint s = some (unicode, rest)) : rest.length < s.length := by
  obtain ⟨⟨first, rest'⟩, hfirst, h⟩ := Option.bind_eq_some_iff.mp h
  have hlt := length_decodeUnicodeEscapeSequence hfirst
  dsimp only at h
  split at h
  · split at h
    · split at h
      · obtain ⟨⟨second, rest''⟩, hsecond, h⟩ := Option.bind_eq_some_iff.mp h
        have hlt' := length_decodeUnicodeEscapeSequence hsecond
        obtain ⟨-, rfl⟩ := Prod.mk.inj (Option.some.inj h)
        simp only [List.length_cons] at hlt
        exact hlt'.trans ((Nat.lt_succ_self _).trans ((Nat.lt_succ_self _).trans hlt))
      · cases h
    · cases h
  · obtain ⟨-, rfl⟩ := Prod.mk.inj (Option.some.inj h)
    exact hlt

/-- `Reader::decodeString`, between the quotes. -/
def decodeString : Bytes → Option Bytes
  | [] => some []
  | c :: s =>
    if c = byte '"' then some []
    else if c = byte '\\' then
      match s with
      | [] => none
      | escape :: s =>
        match Char.ofUInt8 escape with
        | '"' => (decodeString s).map (byte '"' :: ·)
        | '/' => (decodeString s).map (byte '/' :: ·)
        | '\\' => (decodeString s).map (byte '\\' :: ·)
        | 'b' => (decodeString s).map (byte '\x08' :: ·)
        | 'f' => (decodeString s).map (byte '\x0c' :: ·)
        | 'n' => (decodeString s).map (byte '\n' :: ·)
        | 'r' => (decodeString s).map (byte '\r' :: ·)
        | 't' => (decodeString s).map (byte '\t' :: ·)
        | 'u' =>
          (decodeUnicodeCodePoint s).pbind fun r _h =>
            (decodeString r.2).map (codePointToUTF8 r.1 ++ ·)
        | _ => none
    else (decodeString s).map (c :: ·)
termination_by s => s.length
decreasing_by
  all_goals simp only [List.length_cons]
  any_goals omega
  have := length_decodeUnicodeCodePoint ‹_›
  omega

/-! ## Values -/

/-- What has been read, whether it is as it should be, and what follows. -/
structure Parsed (α : Type) where
  ok : Bool
  value : α
  rest : Bytes

/-- A reader of one value into the current one. It never goes back in the text. -/
structure ValueReader where
  read : Value → Bytes → Except Fault (Parsed Value)
  suffix : ∀ {v s p}, read v s = .ok p → p.rest <:+ s

/-- The members of the current value, with `currentValue()[name]` set. They are in the order of
their keys. -/
def assign (name : Bytes) (v : Value) : List (Bytes × Value) → List (Bytes × Value)
  | [] => [(name, v)]
  | (k, w) :: rest =>
    if k = name then (k, v) :: rest
    else if name < k then (name, v) :: (k, w) :: rest
    else (k, w) :: assign name v rest

/-- The loop of `readArray`. -/
def readItems (f : ValueReader) (items : List Value) (s : Bytes) :
    Except Fault (Parsed (List Value)) :=
  match _h : f.read .null s with
  | .error e => .error e
  | .ok p =>
    let items := items ++ [p.value]
    if !p.ok then .ok ⟨false, items, recoverFromError .tokenArrayEnd p.rest⟩
    else
      let token := skipCommentTokens p.rest
      if _h' : token.type = .tokenArraySeparator then readItems f items token.rest
      else if token.type = .tokenArrayEnd then .ok ⟨true, items, token.rest⟩
      else .ok ⟨false, items, recoverFromError .tokenArrayEnd token.rest⟩
termination_by s.length
decreasing_by
  have hvalue := f.suffix _h
  have hcomma := length_skipCommentTokens_lt (ne_of_eq_of_ne _h' (by decide))
  exact hcomma.trans_le hvalue.length_le

/-- `Reader::readArray`. -/
def readArray (f : ValueReader) (s : Bytes) : Except Fault (Parsed (List Value)) :=
  match skipSpaces s with
  | c :: rest => if c = byte ']' then .ok ⟨true, [], rest⟩ else readItems f [] (c :: rest)
  | [] => readItems f [] []

/-- The token after a member. A comment may stand before it, and then any token will do. -/
def readComma (s : Bytes) : Token :=
  if (readToken s).type = .tokenComment then skipCommentTokens (readToken s).rest else readToken s

theorem suffix_readComma (s : Bytes) : (readComma s).rest <:+ s := by
  unfold readComma
  split
  · exact (suffix_skipCommentTokens _).trans (suffix_readToken s)
  · exact suffix_readToken s

/-- The loop of `readObject`, with the last name that has been read. -/
def readMembers (f : ValueReader) (name : Bytes) (members : List (Bytes × Value)) (s : Bytes) :
    Except Fault (Parsed (List (Bytes × Value))) :=
  let tokenName := skipCommentTokens s
  -- an empty object, or one whose last name is empty
  if tokenName.type = .tokenObjectEnd ∧ name = [] then .ok ⟨true, members, tokenName.rest⟩
  else if _ht : tokenName.type = .tokenString then
    match decodeString tokenName.text.tail.dropLast with
    | none => .ok ⟨false, members, recoverFromError .tokenObjectEnd tokenName.rest⟩
    | some name =>
      let colon := readToken tokenName.rest
      if colon.type ≠ .tokenMemberSeparator then
        .ok ⟨false, members, recoverFromError .tokenObjectEnd colon.rest⟩
      else
        -- a name that has been read before has its value already
        match _h : f.read ((members.lookup name).getD .null) colon.rest with
        | .error e => .error e
        | .ok p =>
          let members := assign name p.value members
          if !p.ok then .ok ⟨false, members, recoverFromError .tokenObjectEnd p.rest⟩
          else if (readToken p.rest).type ≠ .tokenObjectEnd ∧
              (readToken p.rest).type ≠ .tokenArraySeparator ∧
              (readToken p.rest).type ≠ .tokenComment then
            .ok ⟨false, members, recoverFromError .tokenObjectEnd (readToken p.rest).rest⟩
          else
            let comma := readComma p.rest
            if comma.type = .tokenObjectEnd then .ok ⟨true, members, comma.rest⟩
            else readMembers f name members comma.rest
  else .ok ⟨false, members, recoverFromError .tokenObjectEnd tokenName.rest⟩
termination_by s.length
decreasing_by
  have hname := length_skipCommentTokens_lt (ne_of_eq_of_ne _ht (by decide))
  have hcolon := suffix_readToken (skipCommentTokens s).rest
  have hvalue := f.suffix _h
  have hcomma := suffix_readComma p.rest
  exact (hcomma.trans (hvalue.trans hcolon)).length_le.trans_lt hname

/-- `Reader::readObject`. -/
def readObject (f : ValueReader) (s : Bytes) : Except Fault (Parsed (List (Bytes × Value))) :=
  readMembers f [] [] s

/-- A value that a token is decoded to, or the current one if it cannot be. -/
def scalar (v : Value) (decoded : Option Value) (rest : Bytes) : Parsed Value :=
  ⟨decoded.isSome, decoded.getD v, rest⟩

/-- The value that begins with a token. -/
def readValueFrom (f : ValueReader) (v : Value) (token : Token) : Except Fault (Parsed Value) :=
  match token.type with
  | .tokenObjectBegin =>
    (readObject f token.rest).map fun p => ⟨p.ok, .obj p.value, p.rest⟩
  | .tokenArrayBegin =>
    (readArray f token.rest).map fun p => ⟨p.ok, .arr p.value, p.rest⟩
  | .tokenNumber => .ok (scalar v (decodeNumber token.text) token.rest)
  | .tokenString =>
    .ok (scalar v ((decodeString token.text.tail.dropLast).map .str) token.rest)
  | .tokenTrue => .ok ⟨true, .bool true, token.rest⟩
  | .tokenFalse => .ok ⟨true, .bool false, token.rest⟩
  | .tokenNull => .ok ⟨true, .null, token.rest⟩
  | _ => .ok ⟨false, v, token.rest⟩

/-- `Reader::readValue` with room for the values that `f` reads. -/
def readValueWith (f : ValueReader) (v : Value) (s : Bytes) : Except Fault (Parsed Value) :=
  readValueFrom f v (skipCommentTokens s)

/-- The items and what follows them are read forward. -/
theorem suffix_readItems {f : ValueReader} {items : List Value} {s : Bytes}
    {p : Parsed (List Value)} (h : readItems f items s = .ok p) : p.rest <:+ s := by
  fun_induction readItems f items s with
  | case1 items s e hf => cases h
  | case2 items s q hf items' hok =>
    obtain rfl := Except.ok.inj h
    exact (suffix_recoverFromError _ _).trans (f.suffix hf)
  | case3 items s q hf items' hok token htoken ih =>
    exact (ih h).trans ((suffix_skipCommentTokens _).trans (f.suffix hf))
  | case4 items s q hf items' hok token htoken hend =>
    obtain rfl := Except.ok.inj h
    exact (suffix_skipCommentTokens _).trans (f.suffix hf)
  | case5 items s q hf items' hok token htoken hend =>
    obtain rfl := Except.ok.inj h
    exact (suffix_recoverFromError _ _).trans
      ((suffix_skipCommentTokens _).trans (f.suffix hf))

/-- What follows an array ends the text. -/
theorem suffix_readArray {f : ValueReader} {s : Bytes} {p : Parsed (List Value)}
    (h : readArray f s = .ok p) : p.rest <:+ s := by
  refine List.IsSuffix.trans ?_ (suffix_skipSpaces s)
  unfold readArray at h
  split at h
  · rename_i c rest hs
    rw [hs]
    split at h
    · obtain rfl := Except.ok.inj h
      exact List.suffix_cons _ _
    · exact suffix_readItems h
  · rename_i hs
    rw [hs]
    exact suffix_readItems h

/-- What follows the members ends the text: through each name, colon, value and comma. -/
theorem suffix_readMembers {f : ValueReader} {name : Bytes} {members : List (Bytes × Value)}
    {s : Bytes} {p : Parsed (List (Bytes × Value))} (h : readMembers f name members s = .ok p) :
    p.rest <:+ s := by
  fun_induction readMembers f name members s with
  | case1 name members s tokenName hend =>
    obtain rfl := Except.ok.inj h
    exact suffix_skipCommentTokens s
  | case2 name members s tokenName hend hstring hname =>
    obtain rfl := Except.ok.inj h
    exact (suffix_recoverFromError _ _).trans (suffix_skipCommentTokens s)
  | case3 name members s tokenName hend hstring name' hname colon hcolon =>
    obtain rfl := Except.ok.inj h
    exact (suffix_recoverFromError _ _).trans
      ((suffix_readToken _).trans (suffix_skipCommentTokens s))
  | case4 name members s tokenName hend hstring name' hname colon hcolon e hf => cases h
  | case5 name members s tokenName hend hstring name' hname colon hcolon q hf members' hok =>
    obtain rfl := Except.ok.inj h
    have hvalue := f.suffix hf
    have hcolon := suffix_readToken tokenName.rest
    have hname := suffix_skipCommentTokens s
    exact (suffix_recoverFromError _ _).trans (hvalue.trans (hcolon.trans hname))
  | case6 name members s tokenName hend hstring name' hname colon hcolon q hf members' hok hcomma =>
    obtain rfl := Except.ok.inj h
    have hvalue := f.suffix hf
    have hcolon := suffix_readToken tokenName.rest
    have hname := suffix_skipCommentTokens s
    exact (suffix_recoverFromError _ _).trans
      ((suffix_readToken _).trans (hvalue.trans (hcolon.trans hname)))
  | case7 name members s tokenName hend hstring name' hname colon hcolon q hf members' hok hcomma
      comma hclose =>
    obtain rfl := Except.ok.inj h
    have hvalue := f.suffix hf
    have hcolon := suffix_readToken tokenName.rest
    have hname := suffix_skipCommentTokens s
    exact (suffix_readComma _).trans (hvalue.trans (hcolon.trans hname))
  | case8 name members s tokenName hend hstring name' hname colon hcolon q hf members' hok hcomma
      comma hclose ih =>
    have hvalue := f.suffix hf
    have hcolon := suffix_readToken tokenName.rest
    have hname := suffix_skipCommentTokens s
    exact (ih h).trans ((suffix_readComma _).trans (hvalue.trans (hcolon.trans hname)))
  | case9 name members s tokenName hend hstring =>
    obtain rfl := Except.ok.inj h
    exact (suffix_recoverFromError _ _).trans (suffix_skipCommentTokens s)

/-- What follows a value ends the text, whatever the value is. -/
theorem suffix_readValueWith {f : ValueReader} {v : Value} {s : Bytes} {p : Parsed Value}
    (h : readValueWith f v s = .ok p) : p.rest <:+ s := by
  refine List.IsSuffix.trans ?_ (suffix_skipCommentTokens s)
  unfold readValueWith readValueFrom at h
  split at h
  · obtain ⟨q, hq, rfl⟩ := map_eq_ok_iff.mp h
    exact suffix_readMembers hq
  · obtain ⟨q, hq, rfl⟩ := map_eq_ok_iff.mp h
    exact suffix_readArray hq
  all_goals
    obtain rfl := Except.ok.inj h
    exact List.suffix_rfl

/-- `stackLimit_g`. -/
def stackLimit : Nat := 1000

/-- The fault of a text with too many open values. -/
def exceededStackLimit : Fault := .exception "Exceeded stackLimit in readValue()."

/-- `Reader::readValue` with room for `n` open values. -/
def readValue : Nat → ValueReader
  | 0 => ⟨fun _ _ => .error exceededStackLimit, fun h => nomatch h⟩
  | n + 1 => ⟨readValueWith (readValue n), suffix_readValueWith⟩

/-- `Reader::parse`: whether the text could be read, and the value of the root. -/
def parse (document : Bytes) (root : Value) : Except Fault (Bool × Value) :=
  ((readValue stackLimit).read root document).map fun p => (p.ok, p.value)

end Reader

end UnoppServer.Jsoncpp
