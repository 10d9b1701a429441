import ApiPayload.Calendar.Date
import ApiPayload.Validation.PatternReader

/-
Formats of texts that validation knows: dates and times, network names and addresses, patterns.
-/
namespace ApiPayload.Validation

inductive TextFormat where
  | date
  | dateTime
  | time
  | email
  | hostname
  | idnEmail
  | ipv4
  | ipv6
  | regex
  | uri
  deriving DecidableEq, Repr

namespace TextFormat

def name : TextFormat → String
  | date => "date"
  | dateTime => "date-time"
  | time => "time"
  | email => "email"
  | hostname => "hostname"
  | idnEmail => "idn-email"
  | ipv4 => "ipv4"
  | ipv6 => "ipv6"
  | regex => "regex"
  | uri => "uri"

def all : List TextFormat :=
  [date, dateTime, time, email, hostname, idnEmail, ipv4, ipv6, regex, uri]

def ofName? (s : String) : Option TextFormat := all.find? (·.name = s)

def number (ds : List Char) : Nat := ds.foldl (fun n d => n * 10 + (d.toNat - 48)) 0

def digits? (count : Nat) (s : List Char) : Option Nat :=
  if s.length = count ∧ s.all Char.isDigit then some (number s) else none

/-- Four, two and two digits with dashes between that name a real day. -/
def isDate (s : List Char) : Bool :=
  match s with
  | [a, b, c, d, '-', e, f, '-', g, h] =>
    match digits? 4 [a, b, c, d], digits? 2 [e, f], digits? 2 [g, h] with
    | some year, some month, some day => (Date.of? year month day).isSome
    | _, _, _ => false
  | _ => false

def offset? (s : List Char) : Option Int :=
  match s with
  | ['Z'] | ['z'] => some 0
  | [sign, a, b, ':', c, d] => do
    let hours ← digits? 2 [a, b]
    let minutes ← digits? 2 [c, d]
    if 23 < hours ∨ 59 < minutes then none
    else if sign = '+' then some (hours * 60 + minutes : Nat)
    else if sign = '-' then some (-(hours * 60 + minutes : Nat))
    else none
  | _ => none

/-- The offset after an optional fraction of at least one digit. -/
def fractionOffset? (s : List Char) : Option Int :=
  match s with
  | '.' :: r => if (r.takeWhile Char.isDigit).isEmpty then none else offset? (r.dropWhile Char.isDigit)
  | _ => offset? s

/-- A time of day with an offset; second 60 only at the end of a universal day. -/
def isTime (s : List Char) : Bool :=
  match s with
  | a :: b :: ':' :: c :: d :: ':' :: e :: f :: rest =>
    match digits? 2 [a, b], digits? 2 [c, d], digits? 2 [e, f], fractionOffset? rest with
    | some hour, some minute, some second, some offset =>
      decide (hour ≤ 23) && decide (minute ≤ 59) &&
        (decide (second ≤ 59) ||
          (decide (second = 60) &&
            decide (((hour * 60 + minute : Nat) - offset) % 1440 = 23 * 60 + 59)))
    | _, _, _, _ => false
  | _ => false

def isTimestamp (s : List Char) : Bool :=
  let day := s.takeWhile fun c => c ≠ 'T' && c ≠ 't'
  match s.drop day.length with
  | _ :: rest => isDate day && isTime rest
  | [] => false

def splitOn (sep : Char) : List Char → List (List Char)
  | [] => [[]]
  | c :: rest =>
    if c = sep then [] :: splitOn sep rest
    else match splitOn sep rest with
      | part :: parts => (c :: part) :: parts
      | [] => [[c]]

/-- A number up to 255 without needless zeros. -/
def isOctet (s : List Char) : Bool :=
  s.all Char.isDigit && decide (1 ≤ s.length) && decide (s.length ≤ 3) &&
    (decide (s.length = 1) || s.head? ≠ some '0') && decide (number s ≤ 255)

def isIpv4 (s : List Char) : Bool :=
  let parts := splitOn '.' s
  decide (parts.length = 4) && parts.all isOctet

def isHexGroup (s : List Char) : Bool :=
  decide (1 ≤ s.length) && decide (s.length ≤ 4) && s.all fun c => (Text.hexDigit? c).isSome

/-- The number of groups, an address of four octets at the end counting as two. -/
def groupCount? (parts : List (List Char)) (last : Bool) : Option Nat :=
  match parts with
  | [] => some 0
  | [p] =>
    if isHexGroup p then some 1 else if last && isIpv4 p then some 2 else none
  | p :: rest => if isHexGroup p then (groupCount? rest last).map (· + 1) else none

def splitGap : List Char → Option (List Char × List Char)
  | ':' :: ':' :: r => some ([], r)
  | c :: r => (splitGap r).map fun (a, b) => (c :: a, b)
  | [] => none

def groups (s : List Char) : List (List Char) := if s.isEmpty then [] else splitOn ':' s

def isIpv6 (s : List Char) : Bool :=
  match splitGap s with
  | none => groupCount? (splitOn ':' s) true = some 8
  | some (a, b) =>
    match groupCount? (groups a) false, groupCount? (groups b) true with
    | some m, some n => decide (m + n ≤ 7)
    | _, _ => false

/-- Letters, digits, dashes and dots; beyond ASCII every character passes for a letter. -/
def isHostname (s : List Char) : Bool :=
  !s.isEmpty && s.head? ≠ some '-' && s.getLast? ≠ some '-' && decide (s.length ≤ 255) &&
    (s.all fun c => c.isAlphanum || decide (128 ≤ c.toNat) || c = '-' || c = '.') &&
    (splitOn '.' s).all fun part => decide (part.length ≤ 63)

def stripEnds (opening closing : List Char) (s : List Char) : Option (List Char) :=
  if opening.isPrefixOf s && closing.isSuffixOf s &&
      decide (opening.length + closing.length ≤ s.length) then
    some ((s.drop opening.length).take (s.length - opening.length - closing.length))
  else none

def isMailDomain (s : List Char) : Bool :=
  match stripEnds ['[', 'I', 'P', 'v', '6', ':'] [']'] s with
  | some a => isIpv6 a
  | none =>
    match stripEnds ['['] [']'] s with
    | some a => isIpv4 a
    | none => isHostname s

def hasDoubleDot : List Char → Bool
  | '.' :: '.' :: _ => true
  | _ :: r => hasDoubleDot r
  | [] => false

def isEmail (s : List Char) : Bool :=
  let user := s.takeWhile (· ≠ '@')
  match s.drop user.length with
  | _ :: domain =>
    !user.isEmpty && user.head? ≠ some '.' && user.getLast? ≠ some '.' && !hasDoubleDot user &&
      isMailDomain domain
  | [] => false

def isUriChar (c : Char) : Bool :=
  c.isAlphanum || c ∈ ['-', '.', '_', '~', ':', '/', '?', '#', '[', ']', '@', '!', '$', '&', '\'',
    '(', ')', '*', '+', ',', ';', '=', '%']

def isUri (s : List Char) : Bool :=
  let scheme := s.takeWhile (· ≠ ':')
  match scheme, s.drop scheme.length with
  | c :: cs, _ :: rest =>
    c.isAlpha && (cs.all fun c => c.isAlphanum || c = '+' || c = '-' || c = '.') &&
      rest.all isUriChar
  | _, _ => false

def accepts (f : TextFormat) (s : String) : Bool :=
  let cs := s.toList
  match f with
  | date => isDate cs
  | dateTime => isTimestamp cs
  | time => isTime cs
  | email | idnEmail => isEmail cs
  | hostname => isHostname cs
  | ipv4 => isIpv4 cs
  | ipv6 => isIpv6 cs
  | regex => (Pattern.read? s).isSome
  | uri => isUri cs

end TextFormat
end ApiPayload.Validation
