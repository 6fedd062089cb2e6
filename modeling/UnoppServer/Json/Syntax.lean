import UnoppServer.Json.Reader

/-!
# The syntax of JSON

What a JSON text is and which value it denotes, said without the reader: `Chars` for what stands
between quotes, `Numeral` for numbers, and `Denotes d t v` for a text `t` of the value `v` with
`d` values inside each other. What the reader makes of such a
text is in `Json.Reading`.

An object in which a name occurs twice denotes the last value of the name.
-/

namespace UnoppServer.Jsoncpp

/-- Spaces between tokens. -/
def Spaces (w : Bytes) : Prop := ∀ c ∈ w, Reader.isSpace c = true

theorem spaces_nil : Spaces [] := List.forall_mem_nil _

/-! ## Texts -/

/-- The character that stands for itself or for a control character after a backslash. -/
def escapes : List (UInt8 × UInt8) :=
  [(byte '"', byte '"'), (byte '/', byte '/'), (byte '\\', byte '\\'), (byte 'b', byte '\x08'),
    (byte 'f', byte '\x0c'), (byte 'n', byte '\n'), (byte 'r', byte '\r'), (byte 't', byte '\t')]

/-- Four hexadecimal digits of a number. -/
def Hex (h : Bytes) (x : Nat) : Prop :=
  h.length = 4 ∧ (h.mapM Reader.hexDigit).map (fun ds => ds.foldl (fun x d => x * 16 + d) 0) = some x

/-- What stands between the quotes of a text. -/
inductive Chars : Bytes → Bytes → Prop
  | nil : Chars [] []
  | raw {c : UInt8} {t s : Bytes} : c ≠ byte '"' → c ≠ byte '\\' → Chars t s →
      Chars (c :: t) (c :: s)
  | escape {e c : UInt8} {t s : Bytes} : (e, c) ∈ escapes → Chars t s →
      Chars (byte '\\' :: e :: t) (c :: s)
  | unicode {h t s : Bytes} {x : Nat} : Hex h x → ¬(0xD800 ≤ x ∧ x ≤ 0xDFFF) → Chars t s →
      Chars (byte '\\' :: byte 'u' :: (h ++ t)) (codePointToUTF8 x ++ s)
  | surrogates {h l t s : Bytes} {x y : Nat} : Hex h (0xD800 + x) → Hex l (0xDC00 + y) →
      x < 0x400 → y < 0x400 → Chars t s →
      Chars (byte '\\' :: byte 'u' :: (h ++ byte '\\' :: byte 'u' :: (l ++ t)))
        (codePointToUTF8 (0x10000 + x * 0x400 + y) ++ s)

/-! ## Numbers -/

/-- A digit or more. -/
def Digits (l : Bytes) : Prop := l ≠ [] ∧ ∀ c ∈ l, isDigit c = true

/-- The exponent of a number: the letter, the sign and the digits. -/
structure Exponent where
  letter : UInt8
  sign : Option Bool
  digits : Bytes
  letter_eq : letter = byte 'e' ∨ letter = byte 'E'
  digits_ok : Digits digits

/-- A number: whether it is negative, its digits before and after the point, and its exponent. -/
structure Numeral where
  negative : Bool
  whole : Bytes
  frac : Option Bytes
  exponent : Option Exponent
  whole_ok : Digits whole
  frac_ok : ∀ l, frac = some l → Digits l

namespace Exponent

/-- The text of a sign. -/
def signText : Option Bool → Bytes
  | some true => [byte '-']
  | some false => [byte '+']
  | none => []

/-- The text of an exponent. -/
def text (e : Exponent) : Bytes := e.letter :: (signText e.sign ++ e.digits)

/-- The value of an exponent. -/
def value (e : Exponent) : Int := if e.sign = some true then -number e.digits else number e.digits

end Exponent

namespace Numeral

/-- The text of the point and the digits after it. -/
def fracText : Option Bytes → Bytes
  | some l => byte '.' :: l
  | none => []

/-- The text of the exponent, if there is one. -/
def exponentText (t : Numeral) : Bytes := (t.exponent.map Exponent.text).getD []

/-- The text without the sign. -/
def unsignedText (t : Numeral) : Bytes := t.whole ++ (fracText t.frac ++ t.exponentText)

/-- The text of a number. -/
def text (t : Numeral) : Bytes :=
  if t.negative then byte '-' :: t.unsignedText else t.unsignedText

/-- The number without its sign. -/
def magnitude (t : Numeral) : ℚ :=
  number (t.whole ++ t.frac.getD []) *
    10 ^ ((t.exponent.map Exponent.value).getD 0 - ((t.frac.getD []).length : Int))

/-- The greatest integer that is read as one. -/
def bound (negative : Bool) : Nat := if negative then 2 ^ 63 else 2 ^ 64 - 1

/-- The value of an integer. -/
def integer (negative : Bool) (n : Nat) : Value :=
  if negative then .int (-n) else if (n : Int) ≤ Json.maxInt then .int n else .uint n

/-- The value of a number: an integer if it is written like one and is not too great, and else the
nearest double. -/
def value (t : Numeral) : Value :=
  if t.frac = none ∧ t.exponent = none ∧ number t.whole ≤ bound t.negative then
    integer t.negative (number t.whole)
  else .real (Binary64.signed t.negative (Binary64.nearest t.magnitude))

end Numeral

/-! ## Values -/

/-- The text of a value with the spaces around it. -/
structure Elem where
  before : Bytes
  text : Bytes
  after : Bytes
  depth : Nat
  value : Value

/-- A member of an object: what stands before the colon, and the value. -/
structure MemberText where
  before : Bytes
  quoted : Bytes
  after : Bytes
  name : Bytes
  elem : Elem

namespace Elem

/-- The whole text of an item. -/
def spaced (e : Elem) : Bytes := e.before ++ (e.text ++ e.after)

/-- Items and the commas between them. -/
def joined : List Elem → Bytes
  | [] => []
  | [e] => e.spaced
  | e :: l => e.spaced ++ byte ',' :: joined l

/-- The depth of a value with these in it. -/
def depths (l : List Elem) : Nat := 1 + (l.map depth).foldr max 0

end Elem

namespace MemberText

/-- The whole text of a member. -/
def spaced (m : MemberText) : Bytes :=
  m.before ++ byte '"' :: (m.quoted ++ byte '"' :: (m.after ++ byte ':' :: m.elem.spaced))

/-- Members and the commas between them. -/
def joined : List MemberText → Bytes
  | [] => []
  | [m] => m.spaced
  | m :: l => m.spaced ++ byte ',' :: joined l

/-- The members of the object, where the last of a name counts. -/
def collect (acc : List (Bytes × Value)) (l : List MemberText) : List (Bytes × Value) :=
  l.foldl (fun acc m => Reader.assign m.name m.elem.value acc) acc

end MemberText

/-- **The text denotes the value**, with `d` values inside each other. -/
inductive Denotes : Nat → Bytes → Value → Prop
  | null : Denotes 1 (ascii "null") .null
  | boolean (b : Bool) : Denotes 1 (ascii (if b then "true" else "false")) (.bool b)
  | number (t : Numeral) : Denotes 1 t.text t.value
  | string {t s : Bytes} : Chars t s → Denotes 1 (byte '"' :: (t ++ [byte '"'])) (.str s)
  | emptyArray {w : Bytes} : Spaces w → Denotes 1 (byte '[' :: (w ++ [byte ']'])) (.arr [])
  | array {l : List Elem} : l ≠ [] → (∀ e ∈ l, Spaces e.before ∧ Spaces e.after) →
      (∀ e ∈ l, Denotes e.depth e.text e.value) →
      Denotes (Elem.depths l) (byte '[' :: (Elem.joined l ++ [byte ']']))
        (.arr (l.map Elem.value))
  | emptyObject {w : Bytes} : Spaces w → Denotes 1 (byte '{' :: (w ++ [byte '}'])) (.obj [])
  | object {l : List MemberText} : l ≠ [] →
      (∀ m ∈ l, Spaces m.before ∧ Spaces m.after ∧ Chars m.quoted m.name) →
      (∀ m ∈ l, Spaces m.elem.before ∧ Spaces m.elem.after) →
      (∀ m ∈ l, Denotes m.elem.depth m.elem.text m.elem.value) →
      Denotes (Elem.depths (l.map MemberText.elem)) (byte '{' :: (MemberText.joined l ++ [byte '}']))
        (.obj (MemberText.collect [] l))

end UnoppServer.Jsoncpp
