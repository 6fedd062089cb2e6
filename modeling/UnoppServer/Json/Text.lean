import Mathlib.Data.List.Basic
import UnoppServer.Json.Value

/-!
# JSON texts: bytes, values and the writer

A `std::string` is its bytes. `Value` is a `Json::Value` whose texts are bytes: what
`Json::Reader` reads and `Json::FastWriter` writes, without comments and offsets. The members of
an object are those of a `std::map`, in the order of their keys.

`FastWriter.write` escapes every byte from 0x80 on, through the code points that
`utf8ToCodepoint` decodes, so that a text that is not valid UTF-8 is written as one that is.
-/

namespace UnoppServer.Jsoncpp

/-- The bytes of a `std::string`. -/
abbrev Bytes := List UInt8

/-- The byte of an ASCII character. -/
def byte (c : Char) : UInt8 := c.toUInt8

/-- The bytes of a text of ASCII characters. -/
def ascii (s : String) : Bytes := s.toList.map byte

/-! ## UTF-8 -/

/-- `codePointToUTF8`. -/
def codePointToUTF8 (cp : Nat) : Bytes :=
  if cp ≤ 0x7f then [UInt8.ofNat cp]
  else if cp ≤ 0x7FF then
    [UInt8.ofNat (0xC0 ||| (0x1f &&& (cp >>> 6))), UInt8.ofNat (0x80 ||| (0x3f &&& cp))]
  else if cp ≤ 0xFFFF then
    [UInt8.ofNat (0xE0 ||| (0xf &&& (cp >>> 12))), UInt8.ofNat (0x80 ||| (0x3f &&& (cp >>> 6))),
      UInt8.ofNat (0x80 ||| (0x3f &&& cp))]
  else if cp ≤ 0x10FFFF then
    [UInt8.ofNat (0xF0 ||| (0x7 &&& (cp >>> 18))), UInt8.ofNat (0x80 ||| (0x3f &&& (cp >>> 12))),
      UInt8.ofNat (0x80 ||| (0x3f &&& (cp >>> 6))), UInt8.ofNat (0x80 ||| (0x3f &&& cp))]
  else []

/-- `REPLACEMENT_CHARACTER`. -/
def replacementCharacter : Nat := 0xFFFD

/-- The low six bits of a byte, whatever its two high bits are. -/
def low6 (c : UInt8) : Nat := c.toNat &&& 0x3F

/-- `utf8ToCodepoint` at the byte `first`, with the bytes `s` after it: the code point, and the
bytes after the last one that belongs to it. -/
def utf8ToCodepoint (first : UInt8) (s : Bytes) : Nat × Bytes :=
  let firstByte := first.toNat
  if firstByte < 0x80 then (firstByte, s)
  else if firstByte < 0xE0 then
    match s with
    | s1 :: rest =>
      let calculated := ((firstByte &&& 0x1F) <<< 6) ||| low6 s1
      -- oversized encoded characters are invalid
      (if calculated < 0x80 then replacementCharacter else calculated, rest)
    | s => (replacementCharacter, s)
  else if firstByte < 0xF0 then
    match s with
    | s1 :: s2 :: rest =>
      let calculated := ((firstByte &&& 0x0F) <<< 12) ||| (low6 s1 <<< 6) ||| low6 s2
      -- surrogates are not code points themselves
      (if 0xD800 ≤ calculated ∧ calculated ≤ 0xDFFF then replacementCharacter
        else if calculated < 0x800 then replacementCharacter else calculated, rest)
    | s => (replacementCharacter, s)
  else if firstByte < 0xF8 then
    match s with
    | s1 :: s2 :: s3 :: rest =>
      let calculated :=
        ((firstByte &&& 0x07) <<< 18) ||| (low6 s1 <<< 12) ||| (low6 s2 <<< 6) ||| low6 s3
      (if calculated < 0x10000 then replacementCharacter else calculated, rest)
    | s => (replacementCharacter, s)
  else (replacementCharacter, s)

theorem length_utf8ToCodepoint_le (first : UInt8) (s : Bytes) :
    (utf8ToCodepoint first s).2.length ≤ s.length := by
  fun_cases utf8ToCodepoint first s <;>
    simp only [List.length_cons, le_refl] <;> omega

/-! ## Quoted texts -/

/-- `doesAnyCharRequireEscaping`. -/
def doesAnyCharRequireEscaping (s : Bytes) : Bool :=
  s.any fun c => c = byte '\\' || c = byte '"' || c < 0x20 || 0x7F < c

/-- The two characters of `hex2` for each byte are its digits. -/
def toHex16Bit (x : Nat) : Bytes :=
  let hi := (x >>> 8) &&& 0xff
  let lo := x &&& 0xff
  [hi / 16, hi % 16, lo / 16, lo % 16].map fun d => byte d.digitChar

/-- `appendHex`. -/
def hex (ch : Nat) : Bytes := byte '\\' :: byte 'u' :: toHex16Bit ch

/-- A code point as the default case of `valueToQuotedStringN` writes it. -/
def escapeCodepoint (codepoint : Nat) : Bytes :=
  if codepoint < 0x20 then hex codepoint
  else if codepoint < 0x80 then [UInt8.ofNat codepoint]
  -- Basic Multilingual Plane
  else if codepoint < 0x10000 then hex codepoint
  -- Extended Unicode: 20 bits as a surrogate pair
  else
    let codepoint := codepoint - 0x10000
    hex (0xd800 + ((codepoint >>> 10) &&& 0x3ff)) ++ hex (0xdc00 + (codepoint &&& 0x3ff))

/-- The loop of `valueToQuotedStringN`. -/
def escaped : Bytes → Bytes
  | [] => []
  | c :: s =>
    match Char.ofUInt8 c with
    | '"' => ascii "\\\"" ++ escaped s
    | '\\' => ascii "\\\\" ++ escaped s
    | '\x08' => ascii "\\b" ++ escaped s
    | '\x0c' => ascii "\\f" ++ escaped s
    | '\n' => ascii "\\n" ++ escaped s
    | '\r' => ascii "\\r" ++ escaped s
    | '\t' => ascii "\\t" ++ escaped s
    | _ => escapeCodepoint (utf8ToCodepoint c s).1 ++ escaped (utf8ToCodepoint c s).2
termination_by s => s.length
decreasing_by
  all_goals simp only [List.length_cons, Nat.lt_succ_iff, le_refl, length_utf8ToCodepoint_le]

/-- `valueToQuotedStringN`. -/
def valueToQuotedStringN (value : Bytes) : Bytes :=
  if !doesAnyCharRequireEscaping value then byte '"' :: (value ++ [byte '"'])
  else byte '"' :: (escaped value ++ [byte '"'])

/-! ## Values -/

/-- A `Json::Value`. -/
inductive Value where
  | null
  | int (i : Int)
  | uint (n : Nat)
  | real (d : Double)
  | str (s : Bytes)
  | bool (b : Bool)
  | arr (items : List Value)
  | obj (members : List (Bytes × Value))

namespace FastWriter

mutual

/-- `FastWriter::writeValue`. -/
def writeValue : Value → Bytes
  | .null => ascii "null"
  | .int i => ascii (toString i)
  | .uint n => ascii (toString n)
  | .real d => ascii d.valueToString
  | .str s => valueToQuotedStringN s
  | .bool b => ascii (if b then "true" else "false")
  | .arr [] => ascii "[]"
  | .arr (v :: items) => byte '[' :: (writeValue v ++ (writeItems items ++ [byte ']']))
  | .obj [] => ascii "{}"
  | .obj (m :: members) => byte '{' :: (writeMember m ++ (writeMembers members ++ [byte '}']))

/-- The items after the first. -/
def writeItems : List Value → Bytes
  | [] => []
  | v :: items => byte ',' :: (writeValue v ++ writeItems items)

/-- A member of an object. -/
def writeMember : Bytes × Value → Bytes
  | (name, v) => valueToQuotedStringN name ++ byte ':' :: writeValue v

/-- The members after the first. -/
def writeMembers : List (Bytes × Value) → Bytes
  | [] => []
  | m :: members => byte ',' :: (writeMember m ++ writeMembers members)

end

/-- `FastWriter::write`. -/
def write (root : Value) : Bytes := writeValue root ++ [byte '\n']

end FastWriter

end UnoppServer.Jsoncpp
