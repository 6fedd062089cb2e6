import Mathlib.Data.Rat.Floor
import Mathlib.Data.Nat.Log
import UnoppServer.Fault

/-!
# jsoncpp values

`Json` is `Json::Value` without comments and offsets. `Json.asInt`,
`Json.asUInt`, `Json.asString`, `Json.asBool`, `Json.isMember` and the two
`operator[]` (`Json.get` for a constant value, `Json.set` for an assignment)
follow `jsoncpp.cpp` with exceptions enabled.
-/

namespace UnoppServer

/-! ## Doubles

A double is its exact rational value, if it has one. `Json::Reader` never yields a NaN. -/

/-- The values of a `double`. -/
inductive Double where
  | finite (q : Rat)
  | negZero
  | inf (negative : Bool)
  | nan
  deriving DecidableEq, Repr

namespace Double

/-- `InRange(d, min, max)` of `jsoncpp.cpp`, for integer bounds that a double
represents exactly. -/
def inRange (d : Double) (min max : Int) : Bool :=
  match d with
  | .finite q => decide ((min : Rat) ≤ q) && decide (q ≤ (max : Rat))
  | .negZero => decide (min ≤ 0) && decide (0 ≤ max)
  | .inf _ | .nan => false

/-- Conversion of a double to an integer truncates towards zero. -/
def trunc : Double → Int
  | .finite q => q.num.tdiv q.den
  | .negZero | .inf _ | .nan => 0

/-- The decimal exponent of a positive fraction `n / d`: the greatest `e` with
`10 ^ e ≤ n / d`. -/
def decimalExponent (n d : Nat) : Int :=
  let e : Int := (Nat.log 10 n : Int) - (Nat.log 10 d : Int)
  if 10 ^ e.toNat * d ≤ n * 10 ^ (-e).toNat then e else e - 1

/-- `n / d` rounded to the nearest natural number, ties to even. -/
def roundHalfEven (n d : Nat) : Nat :=
  let k := n / d
  let r := n % d
  if 2 * r < d then k else if d < 2 * r then k + 1 else if k % 2 = 0 then k else k + 1

/-- The decimal digits of `k`, padded with zeros on the left to `width`. -/
def padded (width k : Nat) : List Char :=
  let ds := (toString k).toList
  List.replicate (width - ds.length) '0' ++ ds

/-- Drop trailing zeros of a fraction part. -/
def stripZeros (ds : List Char) : List Char :=
  (ds.reverse.dropWhile (· == '0')).reverse

/-- `%.17g` of a positive fraction, given its digits `ds` (17 of them) and its
decimal exponent `e`. -/
def formatG (ds : List Char) (e : Int) : List Char :=
  let dot (whole frac : List Char) :=
    let frac := stripZeros frac
    if frac.isEmpty then whole else whole ++ '.' :: frac
  if e < -4 ∨ 17 ≤ e then
    dot (ds.take 1) (ds.drop 1) ++ 'e' :: (if e < 0 then '-' else '+') :: padded 2 e.natAbs
  else if e < 0 then dot ['0'] (List.replicate (e.natAbs - 1) '0' ++ ds)
  else dot (ds.take (e.toNat + 1)) (ds.drop (e.toNat + 1))

/-- `%.17g` of the positive fraction `n / d`. -/
def formatPositive (n d : Nat) : List Char :=
  let e := decimalExponent n d
  let k := roundHalfEven (n * 10 ^ (16 - e).toNat) (d * 10 ^ (e - 16).toNat)
  -- rounding can carry into an eighteenth digit
  if k = 10 ^ 17 then formatG (padded 17 (10 ^ 16)) (e + 1) else formatG (padded 17 k) e

/-- `valueToString(double)` with the default precision of 17 significant
digits. -/
def valueToString : Double → String
  | .nan => "null"
  | .inf negative => if negative then "-1e+9999" else "1e+9999"
  | .negZero => "-0.0"
  | .finite q =>
    let text := if q.num = 0 then ['0'] else formatPositive q.num.natAbs q.den
    let text := if q.num < 0 then '-' :: text else text
    -- a number that prints like an integer is marked as a double
    String.ofList (if text.any (fun c => c == '.' || c == 'e') then text else text ++ ['.', '0'])

end Double

/-! ## Values -/

/-- A `Json::Value`. An object is its member list; every key occurs once in a
list built by `Json.set`, and the accessors do not depend on its order. -/
inductive Json where
  | null
  | int (i : Int)
  | uint (n : Nat)
  | real (d : Double)
  | str (s : String)
  | bool (b : Bool)
  | arr (items : List Json)
  | obj (members : List (String × Json))

namespace Json

/-- `Value::minInt`. -/
def minInt : Int := -2147483648
/-- `Value::maxInt`. -/
def maxInt : Int := 2147483647
/-- `Value::maxUInt`. -/
def maxUInt : Int := 4294967295

/-- `Value::asInt`. -/
def asInt : Json → Except Fault Int
  | .int i =>
    if minInt ≤ i ∧ i ≤ maxInt then .ok i else .error (.exception "LargestInt out of Int range")
  | .uint n =>
    if (n : Int) ≤ maxInt then .ok n else .error (.exception "LargestUInt out of Int range")
  | .real d =>
    if d.inRange minInt maxInt then .ok d.trunc
    else .error (.exception "double out of Int range")
  | .null => .ok 0
  | .bool b => .ok (if b then 1 else 0)
  -- a text is not parsed, not even one of digits
  | .str _ | .arr _ | .obj _ => .error (.exception "Value is not convertible to Int.")

/-- `Value::asUInt`. -/
def asUInt : Json → Except Fault Nat
  | .int i =>
    if 0 ≤ i ∧ i ≤ maxUInt then .ok i.toNat
    else .error (.exception "LargestInt out of UInt range")
  | .uint n =>
    if (n : Int) ≤ maxUInt then .ok n else .error (.exception "LargestUInt out of UInt range")
  | .real d =>
    if d.inRange 0 maxUInt then .ok d.trunc.toNat
    else .error (.exception "double out of UInt range")
  | .null => .ok 0
  | .bool b => .ok (if b then 1 else 0)
  | .str _ | .arr _ | .obj _ => .error (.exception "Value is not convertible to UInt.")

/-- `Value::asString`. -/
def asString : Json → Except Fault String
  | .null => .ok ""
  | .str s => .ok s
  | .bool b => .ok (if b then "true" else "false")
  | .int i => .ok (toString i)
  | .uint n => .ok (toString n)
  | .real d => .ok d.valueToString
  | .arr _ | .obj _ => .error (.exception "Type is not convertible to string")

/-- `Value::asBool`. -/
def asBool : Json → Except Fault Bool
  | .bool b => .ok b
  | .null => .ok false
  | .int i => .ok (decide (i ≠ 0))
  | .uint n => .ok (decide (n ≠ 0))
  -- zero and NaN count as false
  | .real d => .ok (decide (d ≠ .finite 0 ∧ d ≠ .negZero ∧ d ≠ .nan))
  | .str _ | .arr _ | .obj _ => .error (.exception "Value is not convertible to bool.")

/-- `Value::find`: the member of an object, if there is one. -/
def find (v : Json) (key : String) : Except Fault (Option Json) :=
  match v with
  | .null => .ok none
  | .obj members => .ok (members.lookup key)
  | _ => .error (.exception
      "in Json::Value::find(begin, end): requires objectValue or nullValue")

/-- `Value::isMember`. -/
def isMember (v : Json) (key : String) : Except Fault Bool := do
  return (← v.find key).isSome

/-- `Value::operator[](key) const`: a missing member reads as null. -/
def get (v : Json) (key : String) : Except Fault Json := do
  return (← v.find key).getD .null

/-- Replace the first member called `key`, or append one. -/
def upsert (members : List (String × Json)) (key : String) (value : Json) :
    List (String × Json) :=
  match members with
  | [] => [(key, value)]
  | (k, v) :: rest => if k = key then (k, value) :: rest else (k, v) :: upsert rest key value

/-- `v[key] = value` through `Value::resolveReference`. -/
def set (v : Json) (key : String) (value : Json) : Except Fault Json :=
  match v with
  | .null => .ok (.obj [(key, value)])
  | .obj members => .ok (.obj (upsert members key value))
  | _ => .error (.exception
      "in Json::Value::resolveReference(key, end): requires objectValue")

/-- `v[key]` on a value that is not constant: a missing member is made null. -/
def touch (v : Json) (key : String) : Except Fault Json :=
  match v with
  | .null => .ok (.obj [(key, .null)])
  | .obj members =>
    .ok (.obj (if (members.lookup key).isSome then members else members ++ [(key, .null)]))
  | _ => .error (.exception
      "in Json::Value::resolveReference(key, end): requires objectValue")

/-- `Value::append`. -/
def append (v : Json) (item : Json) : Except Fault Json :=
  match v with
  | .null => .ok (.arr [item])
  | .arr items => .ok (.arr (items ++ [item]))
  | _ => .error (.exception "in Json::Value::append: requires arrayValue")

/-- `Value::isArray`. -/
def isArray : Json → Bool
  | .arr _ => true
  | _ => false

/-- `Value::isNull`. -/
def isNull : Json → Bool
  | .null => true
  | _ => false

/-- `Value::size`. -/
def size : Json → Nat
  | .arr items => items.length
  | .obj members => members.length
  | _ => 0

/-- `Value::operator[](index) const`: a missing item reads as null. -/
def item (v : Json) (index : Nat) : Except Fault Json :=
  match v with
  | .null => .ok .null
  | .arr items => .ok (items[index]?.getD .null)
  | _ => .error (.exception
      "in Json::Value::operator[](ArrayIndex)const: requires arrayValue")

/-- The items of an array, as the server iterates over them. -/
def items : Json → List Json
  | .arr l => l
  | _ => []

@[simp] theorem get_obj (members : List (String × Json)) (key : String) :
    (Json.obj members).get key = .ok ((members.lookup key).getD .null) := rfl

/-- A member that was set has the new value. -/
theorem lookup_upsert (members : List (String × Json)) (key : String) (value : Json) :
    (upsert members key value).lookup key = some value := by
  induction members with
  | nil => exact List.lookup_cons_self
  | cons m members ih =>
    obtain ⟨k, v⟩ := m
    rw [upsert]
    split
    · rename_i hk
      rw [hk]
      exact List.lookup_cons_self
    · rename_i hk
      rw [List.lookup_cons, beq_eq_false_iff_ne.mpr fun he => hk he.symm]
      exact ih

/-- The other members are as they were. -/
theorem lookup_upsert_of_ne (members : List (String × Json)) {key key' : String} (value : Json)
    (h : key' ≠ key) : (upsert members key value).lookup key' = members.lookup key' := by
  induction members with
  | nil => rw [upsert, List.lookup_cons, beq_eq_false_iff_ne.mpr h]
  | cons m members ih =>
    obtain ⟨k, v⟩ := m
    rw [upsert]
    split
    · rename_i hk
      rw [List.lookup_cons, List.lookup_cons, hk, beq_eq_false_iff_ne.mpr h]
    · rw [List.lookup_cons, List.lookup_cons, ih]

/-- What has been assigned is read. -/
theorem get_of_set {v v' : Json} {key : String} {value : Json} (h : v.set key value = .ok v') :
    v'.get key = .ok value := by
  cases v with
  | null =>
    obtain rfl := Except.ok.inj h
    rw [get_obj, List.lookup_cons_self]
    rfl
  | obj members =>
    obtain rfl := Except.ok.inj h
    rw [get_obj, lookup_upsert]
    rfl
  | _ => cases h

/-- 2.5 prints with all its digits and no padding; an integral double keeps a
fraction part. -/
example : (Double.finite (5 / 2)).valueToString = "2.5" ∧
    (Double.finite 3).valueToString = "3.0" := by decide +kernel

end Json

end UnoppServer
