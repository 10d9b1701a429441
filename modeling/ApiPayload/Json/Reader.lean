import ApiPayload.Json.Basic
import ApiPayload.Json.Cursor
import ApiPayload.Text.Hex

/-
Reading JSON text. Depth is limited, and every fault has the position of the byte that caused it.
A number keeps its digits while they fit 64 bits; beyond that only its size is kept.
-/
namespace ApiPayload.Json.Reader

def maxDepth : Nat := 127

def word64 : Nat := 18446744073709551616

/-- Digits are added while the sum fits 64 bits. -/
def accumulate (acc : Nat) : List Nat → Nat × List Nat
  | [] => (acc, [])
  | d :: ds => if acc * 10 + d < word64 then accumulate (acc * 10 + d) ds else (acc, d :: ds)

/-- `x * 10 ^ e` with one rounding for each power of ten in reach; `none` beyond the largest
number. Each round of `fuel` takes 308 from a negative exponent. -/
def scaled : Nat → Float → Int → Option Float
  | 0, _, _ => some 0.0
  | fuel + 1, x, e =>
    if e.natAbs ≤ 308 then
      if 0 ≤ e then
        let y := x * Float.ofScientific 1 false e.natAbs
        if y.isInf then none else some y
      else some (x / Float.ofScientific 1 false e.natAbs)
    else if x == 0.0 then some x
    else if 0 ≤ e then none
    else scaled fuel (x / Float.ofScientific 1 false 308) (e + 308)

def signed (negative : Bool) (x : Float) : Float := if negative then -x else x

def floatOf (negative : Bool) (significand : Nat) (e : Int) : Option Number :=
  (scaled (e.natAbs / 308 + 2) (Float.ofNat significand) e).map fun x => .float (signed negative x)

/-- Whole numbers without point or exponent. Zero has no negative among the whole numbers. -/
def wholeOf (negative : Bool) (digits : List Nat) : Option Number :=
  match accumulate 0 digits with
  | (n, []) =>
    if negative then
      if 0 < n ∧ n ≤ 9223372036854775808 then some (.int (-n))
      else some (.float (-(Float.ofNat n)))
    else some (.int n)
  | (n, left) => floatOf negative n left.length

/-- Significand and exponent of digits around a point: whole digits past 64 bits raise the
exponent, fraction digits past 64 bits are dropped. -/
def pointOf (whole fraction : List Nat) : Nat × Int :=
  let (n, left) := accumulate 0 whole
  let (m, dropped) := accumulate n fraction
  (m, (left.length : Int) - ((fraction.length - dropped.length : Nat) : Int))

def maxExponent : Nat := 2147483647

/-- The digits of an exponent; `none` with the place where it leaves 31 bits. -/
def exponentDigits (acc : Nat) (c : Cursor) : List Char → Option Nat × Cursor
  | [] => (some acc, c)
  | x :: rest =>
    if x.isDigit then
      let n := acc * 10 + (x.toNat - '0'.toNat)
      if n ≤ maxExponent then exponentDigits n c.advance rest else (none, c.advance)
    else (some acc, c)

def ofOption (c : Cursor) : Option Number → Except ReadError (Json × Cursor)
  | some n => .ok (.number n, c)
  | none => c.fail .numberOutOfRange

def exponentPart (negative : Bool) (significand : Nat) (scale : Int) (c : Cursor) :
    Except ReadError (Json × Cursor) :=
  let (down, c) := match c.peek? with
    | some '+' => (false, c.advance)
    | some '-' => (true, c.advance)
    | _ => (false, c)
  match c.peek? with
  | none => c.fail .endInValue
  | some x =>
    if x.isDigit then
      match exponentDigits 0 c c.rest with
      | (some e, c) =>
        ofOption c (floatOf negative significand (if down then scale - e else scale + e))
      | (none, c) =>
        if significand ≠ 0 ∧ ¬ down then c.fail .numberOutOfRange
        else .ok (.number (.float (signed negative 0.0)), c.digits.2)
    else c.failAhead .badNumber

def number (negative : Bool) (c : Cursor) : Except ReadError (Json × Cursor) :=
  let isExponent (c : Cursor) : Bool := c.peek? = some 'e' || c.peek? = some 'E'
  match c.digits with
  | ([], c) => if c.rest.isEmpty then c.fail .endInValue else c.failAhead .badNumber
  | (0 :: _ :: _, _) => c.advance.failAhead .badNumber
  | (whole, c) =>
    if c.peek? = some '.' then
      match c.advance.digits with
      | ([], c) => if c.rest.isEmpty then c.fail .endInValue else c.failAhead .badNumber
      | (fraction, c) =>
        let (m, e) := pointOf whole fraction
        if isExponent c then exponentPart negative m e c.advance
        else ofOption c (floatOf negative m e)
    else if isExponent c then
      let (m, e) := pointOf whole []
      exponentPart negative m e c.advance
    else ofOption c (wholeOf negative whole)

def hex4 (c : Cursor) : Except ReadError (Nat × Cursor) :=
  if Cursor.byteCount c.rest < 4 then
    .error ⟨.endInString, Cursor.passBytes (Cursor.byteCount c.rest) c.rest c.position⟩
  else
    match Text.hexNumber? (c.rest.take 4) with
    | some n => .ok (n, c.advance.advance.advance.advance)
    | none => .error ⟨.badEscape, Cursor.passBytes 4 c.rest c.position⟩

/-- A character written `\u`, as one unit or as a pair of surrogates. -/
def unicodeEscape (c : Cursor) : Except ReadError (Char × Cursor) := do
  let expect (x : Char) (c : Cursor) : Except ReadError Cursor :=
    match c.peek? with
    | none => c.fail .endInString
    | some y => if y = x then .ok c.advance else c.failAhead .openSurrogate
  let (n, c) ← hex4 c
  if 0xDC00 ≤ n ∧ n ≤ 0xDFFF then c.fail .loneSurrogate
  else if n < 0xD800 ∨ 0xDBFF < n then .ok (Char.ofNat n, c)
  else
    let c ← expect '\\' c
    let c ← expect 'u' c
    let (m, c) ← hex4 c
    if m < 0xDC00 ∨ 0xDFFF < m then c.fail .loneSurrogate
    else .ok (Char.ofNat ((n - 0xD800) * 0x400 + (m - 0xDC00) + 0x10000), c)

def escaped (c : Cursor) : Except ReadError (Char × Cursor) :=
  match c.peek? with
  | none => c.fail .endInString
  | some '"' => .ok ('"', c.advance)
  | some '\\' => .ok ('\\', c.advance)
  | some '/' => .ok ('/', c.advance)
  | some 'b' => .ok ('\x08', c.advance)
  | some 'f' => .ok ('\x0c', c.advance)
  | some 'n' => .ok ('\n', c.advance)
  | some 'r' => .ok ('\r', c.advance)
  | some 't' => .ok ('\t', c.advance)
  | some 'u' => unicodeEscape c.advance
  | some _ => c.failAhead .badEscape

/-- The characters up to the closing quote; `fuel` bounds how many there are. -/
def stringBody : Nat → Cursor → List Char → Except ReadError (String × Cursor)
  | 0, c, _ => c.fail .endInString
  | fuel + 1, c, acc =>
    match c.peek? with
    | none => c.fail .endInString
    | some x =>
      if x = '"' then .ok (String.ofList acc.reverse, c.advance)
      else if x = '\\' then
        match escaped c.advance with
        | .ok (y, c) => stringBody fuel c (y :: acc)
        | .error e => .error e
      else if x.toNat < 32 then c.failAhead .controlCharacter
      else stringBody fuel c.advance (x :: acc)

def string (c : Cursor) : Except ReadError (String × Cursor) :=
  stringBody (c.rest.length + 1) c []

def word (v : Json) : List Char → Cursor → Except ReadError (Json × Cursor)
  | [], c => .ok (v, c)
  | x :: xs, c =>
    match c.peek? with
    | none => c.fail .endInValue
    | some y => if y = x then word v xs c.advance else c.failAhead .expectedWord

/-- Items after `[`, each read by `item`; `fuel` bounds their number. -/
def items (item : Cursor → Except ReadError (Json × Cursor)) :
    Nat → Cursor → List Json → Except ReadError (Json × Cursor)
  | 0, c, _ => c.fail .endInArray
  | fuel + 1, c, acc => do
    let c := c.skipBlanks
    let more (c : Cursor) : Except ReadError (Json × Cursor) := do
      let (v, c) ← item c
      items item fuel c (v :: acc)
    match c.peek? with
    | none => c.fail .endInArray
    | some ']' => .ok (.array acc.reverse, c.advance)
    | some x =>
      if acc.isEmpty then more c
      else if x = ',' then
        let c := c.advance.skipBlanks
        match c.peek? with
        | none => c.fail .endInValue
        | some ']' => c.failAhead .trailingComma
        | some _ => more c
      else c.failAhead .expectedCommaOrBracket

/-- Members after `\x7b`; a repeated key keeps its first place and takes its last value. -/
def members (item : Cursor → Except ReadError (Json × Cursor)) :
    Nat → Cursor → Bool → List (String × Json) → Except ReadError (Json × Cursor)
  | 0, c, _, _ => c.fail .endInObject
  | fuel + 1, c, first, acc => do
    let c := c.skipBlanks
    let more (c : Cursor) : Except ReadError (Json × Cursor) := do
      let (key, c) ← string c.advance
      let c := c.skipBlanks
      match c.peek? with
      | none => c.fail .endInObject
      | some ':' =>
        let (v, c) ← item c.advance
        members item fuel c false (Entries.insert key v acc)
      | some _ => c.failAhead .expectedColon
    match c.peek? with
    | none => c.fail .endInObject
    | some '\x7d' => .ok (.object acc, c.advance)
    | some x =>
      if first then
        if x = '"' then more c else c.failAhead .expectedKey
      else if x = ',' then
        let c := c.advance.skipBlanks
        match c.peek? with
        | none => c.fail .endInValue
        | some '"' => more c
        | some '\x7d' => c.failAhead .trailingComma
        | some _ => c.failAhead .expectedKey
      else c.failAhead .expectedCommaOrBrace

/-- A value with at most `depth` containers around one another. -/
def value : Nat → Cursor → Except ReadError (Json × Cursor)
  | depth, c =>
    let c := c.skipBlanks
    match c.peek? with
    | none => c.fail .endInValue
    | some 'n' => word .null ['u', 'l', 'l'] c.advance
    | some 't' => word (.bool true) ['r', 'u', 'e'] c.advance
    | some 'f' => word (.bool false) ['a', 'l', 's', 'e'] c.advance
    | some '-' => number true c.advance
    | some '"' => do
      let (s, c) ← string c.advance
      .ok (.string s, c)
    | some '[' =>
      match depth with
      | 0 => c.failAhead .tooDeep
      | depth + 1 => items (value depth) (c.rest.length + 1) c.advance []
    | some '\x7b' =>
      match depth with
      | 0 => c.failAhead .tooDeep
      | depth + 1 => members (value depth) (c.rest.length + 1) c.advance true []
    | some x => if x.isDigit then number false c else c.failAhead .expectedValue

end ApiPayload.Json.Reader

namespace ApiPayload.Json

def read (text : String) : Except ReadError Json := do
  let (v, c) ← Reader.value Reader.maxDepth (.start text.toList)
  let c := c.skipBlanks
  if c.rest.isEmpty then .ok v else c.failAhead .trailingText

end ApiPayload.Json
