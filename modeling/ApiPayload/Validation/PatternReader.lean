import ApiPayload.Validation.Pattern

/-
Reading patterns as they are written in schemas: the script dialect of regular expressions, with flags, with
properties of characters and with classes inside classes. A reader of a part gives the part and the text left after
it, or nothing when the part is malformed.
-/
namespace ApiPayload.Validation.Pattern

open Unicode (CodeSet)

/-- What flags say. One that says which attempts come first is read and changes no set of matches. -/
structure Flags where
  ignoreCase : Bool
  multiLine : Bool
  dotAll : Bool
  spaced : Bool
  deriving DecidableEq, Repr

/-- What the letters for digits, words and blanks stand for. -/
structure Letters where
  digit : CodeSet
  word : CodeSet
  blank : CodeSet
  deriving DecidableEq, Repr

namespace Letters

/-- A few characters each, as in scripts. -/
def script : Letters where
  digit := .range 48 57
  word := .codes [⟨65, 90, 1⟩, ⟨97, 122, 1⟩, ⟨48, 57, 1⟩, ⟨95, 95, 1⟩]
  blank := .codes
    [⟨32, 32, 1⟩, ⟨9, 13, 1⟩, ⟨0x2003, 0x2003, 1⟩, ⟨0xFEFF, 0xFEFF, 1⟩, ⟨0x2029, 0x2029, 1⟩, ⟨0xA0, 0xA0, 1⟩]

/-- All characters with the property. -/
def unicode : Letters := ⟨Unicode.decimalDigit, Unicode.wordPart, Unicode.whiteSpace⟩

/-- The set that a letter stands for, and whether it stands for all else; capitals do. -/
def set? (l : Letters) : Char → Option (Bool × CodeSet)
  | 'd' => some (false, l.digit)
  | 'D' => some (true, l.digit)
  | 'w' => some (false, l.word)
  | 'W' => some (true, l.word)
  | 's' => some (false, l.blank)
  | 'S' => some (true, l.blank)
  | _ => none

end Letters

structure Style extends Flags where
  letters : Letters
  deriving DecidableEq, Repr

def Style.plain (letters : Letters) : Style := ⟨⟨false, false, false, false⟩, letters⟩

/-- A set of characters as it is meant where case may be ignored. -/
def Style.set (f : Style) (k : CodeSet) : CodeSet := if f.ignoreCase then .folded k else k

def negated (negative : Bool) (k : CodeSet) : CodeSet := if negative then .invert k else k

def charOf? (n : Nat) : Option Char := if n.isValidChar then some (Char.ofNat n) else none

def hexEscape (count : Nat) (s : List Char) : Option (Char × List Char) := do
  if s.length < count then none
  else
    let c ← charOf? (← Text.hexNumber? (s.take count))
    return (c, s.drop count)

/-- What is written up to a closing brace, after the opening one. -/
def braced (s : List Char) : Option (List Char × List Char) :=
  match s.span (· ≠ '\x7d') with
  | (inner, _ :: rest) => some (inner, rest)
  | (_, []) => none

/-- A code point in so many digits or in braces. -/
def codePoint (count : Nat) : List Char → Option (Char × List Char)
  | '\x7b' :: r => do
    let (inner, r) ← braced r
    return (← charOf? (← Text.hexNumber? inner), r)
  | r => hexEscape count r

def isSign (c : Char) : Bool := !c.isAlphanum && c ≠ '<' && c ≠ '>' && c.toNat < 128

/-- A character after a backslash. -/
def escapedChar : List Char → Option (Char × List Char)
  | 'a' :: r => some ('\x07', r)
  | 'n' :: r => some ('\n', r)
  | 'r' :: r => some ('\r', r)
  | 't' :: r => some ('\t', r)
  | 'f' :: r => some ('\x0c', r)
  | 'v' :: r => some ('\x0b', r)
  | 'c' :: l :: r =>
    if l.isAlpha then (charOf? (l.toNat % 32)).map (·, r) else none
  | 'x' :: r => codePoint 2 r
  | 'u' :: r => codePoint 4 r
  | 'U' :: r => codePoint 8 r
  | c :: r => if isSign c then some (c, r) else none
  | [] => none

section Sets

/-- Name and value on both sides of the first such sign, if it is there. -/
def splitAt? (sign : List Char) : List Char → Option (List Char × List Char)
  | [] => none
  | c :: s =>
    if sign.isPrefixOf (c :: s) then some ([], (c :: s).drop sign.length)
    else (splitAt? sign s).map fun (before, after) => (c :: before, after)

def propertySet? (s : List Char) : Option CodeSet :=
  let valued (part : List Char × List Char) : Option CodeSet :=
    Unicode.valued? (String.ofList part.1) (String.ofList part.2)
  match splitAt? ['!', '='] s, splitAt? [':'] s, splitAt? ['='] s with
  | some part, _, _ => (valued part).map .invert
  | none, some part, _ | none, none, some part => valued part
  | none, none, none => Unicode.named? (String.ofList s)

/-- The property after its letter: one letter more, or a name in braces. -/
def property : List Char → Option (CodeSet × List Char)
  | '\x7b' :: r => do
    let (inner, r) ← braced r
    return (← propertySet? inner, r)
  | c :: r => if c = '\\' then none else (propertySet? [c]).map (·, r)
  | [] => none

/-- A set after a backslash. -/
def escapedSet (f : Style) : List Char → Option (CodeSet × List Char)
  | 'p' :: r => (property r).map fun (k, r) => (f.set k, r)
  | 'P' :: r => (property r).map fun (k, r) => (.invert (f.set k), r)
  | c :: r => (f.letters.set? c).map fun (negative, k) => (negated negative (f.set k), r)
  | [] => none

/-- Names of classes of characters below 128. -/
def asciiSet? (name : String) : Option CodeSet :=
  let text? := match name with
    | "alnum" => some "30-39 41-5A 61-7A"
    | "alpha" => some "41-5A 61-7A"
    | "ascii" => some "0-7F"
    | "blank" => some "9 20"
    | "cntrl" => some "0-1F 7F"
    | "digit" => some "30-39"
    | "graph" => some "21-7E"
    | "lower" => some "61-7A"
    | "print" => some "20-7E"
    | "punct" => some "21-2F 3A-40 5B-60 7B-7E"
    | "space" => some "9-D 20"
    | "upper" => some "41-5A"
    | "word" => some "30-39 41-5A 5F 61-7A"
    | "xdigit" => some "30-39 41-46 61-66"
    | _ => none
  text?.map fun text => .codes (Unicode.codes text)

/-- A named class between colons, after the opening bracket. -/
def namedClass (f : Style) (s : List Char) : Option (CodeSet × List Char) := do
  match s with
  | ':' :: r =>
    let (negative, r) := match r with
      | '^' :: r => (true, r)
      | r => (false, r)
    let (name, r) ← splitAt? [':', ']'] r
    let k ← asciiSet? (String.ofList name)
    return (negated negative (f.set k), r)
  | _ => none

end Sets

section Classes

inductive SetOp where
  | both
  | without
  | unlike
  deriving DecidableEq, Repr

def SetOp.apply : SetOp → CodeSet → CodeSet → CodeSet
  | both => .both
  | without => .without
  | unlike => .unlike

def setOp : List Char → Option (SetOp × List Char)
  | '&' :: '&' :: r => some (.both, r)
  | '-' :: '-' :: r => some (.without, r)
  | '~' :: '~' :: r => some (.unlike, r)
  | _ => none

/-- The members of a class that were read: those since the last operator, and what stands before it. -/
structure Members where
  before : Option (CodeSet × SetOp)
  since : CodeSet

namespace Members

def none : Members := ⟨.none, .empty⟩

def add (ms : Members) (k : CodeSet) : Members := { ms with since := .either k ms.since }

def whole (f : Style) (ms : Members) : CodeSet :=
  match ms.before with
  | .none => f.set ms.since
  | some (k, op) => op.apply k (f.set ms.since)

def operate (f : Style) (ms : Members) (op : SetOp) : Members := ⟨some (ms.whole f, op), .empty⟩

end Members

/-- One character of a class, as it is or after a backslash. -/
def classChar : List Char → Option (Char × List Char)
  | '\\' :: r => escapedChar r
  | c :: r => some (c, r)
  | [] => none

/-- A range, or the character that could begin one. -/
def classRange (s : List Char) : Option (CodeSet × List Char) := do
  let (lo, r) ← classChar s
  match r with
  | '-' :: ']' :: _ | '-' :: '-' :: _ => return (.single lo, r)
  | '-' :: r =>
    let (hi, r) ← classChar r
    if lo.toNat ≤ hi.toNat then return (.range lo.toNat hi.toNat, r) else none
  | r => return (.single lo, r)

/-- Dashes and then a bracket stand for themselves at the beginning of a class. -/
def classStart : List Char → Members → Members × List Char
  | '-' :: r, ms => classStart r (ms.add (.single '-'))
  | ']' :: r, ms => if ms.since = .empty then (ms.add (.single ']'), r) else (ms, ']' :: r)
  | r, ms => (ms, r)

mutual
/-- A class after its opening bracket; `fuel` bounds the nesting and length. -/
def charClass (f : Style) : Nat → List Char → Option (CodeSet × List Char)
  | 0, _ => none
  | fuel + 1, s => do
    let (negative, r) := match s with
      | '^' :: r => (true, r)
      | r => (false, r)
    let (ms, r) := classStart r .none
    let (ms, r) ← classBody f fuel ms r
    return (negated negative (ms.whole f), r)

/-- The members of a class up to its closing bracket. -/
def classBody (f : Style) : Nat → Members → List Char → Option (Members × List Char)
  | 0, _, _ => none
  | fuel + 1, ms, s =>
    match setOp s with
    | some (op, r) => classBody f fuel (ms.operate f op) r
    | none =>
      match s with
      | ']' :: r => some (ms, r)
      | '[' :: r => do
        let (k, r) ← namedClass f r <|> charClass f fuel r
        classBody f fuel (ms.add k) r
      | s => do
        let escaped := match s with
          | '\\' :: r => escapedSet f r
          | _ => none
        let (k, r) ← escaped <|> classRange s
        classBody f fuel (ms.add k) r
end

end Classes

section Counts

def decimal (s : List Char) : Option (Nat × List Char) :=
  let ds := s.takeWhile Char.isDigit
  if ds.isEmpty then none
  else some (ds.foldl (fun n d => n * 10 + (d.toNat - 48)) 0, s.drop ds.length)

/-- How often a part is repeated: at least so many times, and so many more at most. -/
abbrev Quantity := Nat × Option Nat

/-- A count in braces, after the opening one. -/
def braces (s : List Char) : Option (Quantity × List Char) := do
  let (least, r) ← decimal s
  match r with
  | '\x7d' :: r => return ((least, some 0), r)
  | ',' :: '\x7d' :: r => return ((least, none), r)
  | ',' :: r =>
    let (most, r) ← decimal r
    match r with
    | '\x7d' :: r => if least ≤ most then return ((least, some (most - least)), r) else none
    | _ => none
  | _ => none

/-- The count after a part, if there is one; nothing when its braces are malformed. -/
def quantity : List Char → Option (Option Quantity × List Char)
  | '*' :: r => some (some (0, none), r)
  | '+' :: r => some (some (1, none), r)
  | '?' :: r => some (some (0, some 1), r)
  | '\x7b' :: r => (braces r).map fun (q, r) => (some q, r)
  | r => some (none, r)

/-- A mark for the order of attempts, which changes no set of matches. -/
def skipOrder : List Char → List Char
  | '?' :: r => r
  | r => r

/-- Where texts are spaced, blanks and what stands between a number sign and the end of its line are for readers
only. -/
def skipSpace (f : Style) : List Char → List Char
  | [] => []
  | c :: r =>
    if !f.spaced then c :: r
    else if c = '#' then skipComment r
    else if c = ' ' || c = '\t' || c = '\n' || c = '\r' then skipSpace f r
    else c :: r
where
  skipComment : List Char → List Char
    | [] => []
    | c :: r => if c = '\n' then skipSpace f r else skipComment r

def isRepeatable : Pattern → Bool
  | empty | edge _ | ahead _ _ | behind _ _ => false
  | _ => true

def repeated (f : Style) (p : Pattern) (s : List Char) : Option (Pattern × List Char) := do
  match ← quantity (skipSpace f s) with
  | (some (least, more), r) =>
    if isRepeatable p then some (loop p least more, skipOrder (skipSpace f r)) else none
  | (none, r) => some (p, r)

end Counts

section Groups

/-- What flags in a text come to: `seen` are the signs before. None comes twice, one dash turns the flags after it
off, and there are some after it. -/
def flags (f : Style) (seen : List Char) : List Char → Option (Style × Char × List Char)
  | [] => none
  | c :: r =>
    let on := !seen.contains '-'
    if c = ':' || c = ')' then
      if seen.head? = some '-' || (c = ')' && seen.isEmpty) then none else some (f, c, r)
    else if seen.contains c then none
    else
      match c with
      | '-' | 'U' => flags f (c :: seen) r
      | 'u' => if on then flags f (c :: seen) r else none
      | 'i' => flags { f with ignoreCase := on } (c :: seen) r
      | 'm' => flags { f with multiLine := on } (c :: seen) r
      | 's' => flags { f with dotAll := on } (c :: seen) r
      | 'x' => flags { f with spaced := on } (c :: seen) r
      | _ => none

def isNamePart (c : Char) : Bool := c = '_' || Unicode.wordPart.contains c.toNat

/-- The name of a group up to its closing angle. -/
def groupName (s : List Char) : Option (String × List Char) :=
  match s.span isNamePart with
  | (c :: cs, '>' :: r) =>
    if Unicode.decimalDigit.contains c.toNat then none else some (String.ofList (c :: cs), r)
  | _ => none

/-- What stands for itself, whatever flags say but one. -/
def literal (f : Style) (c : Char) : Pattern := char (f.set (.single c))

def escapedEdge? : Char → Option Edge
  | 'A' => some .textStart
  | 'z' => some .textEnd
  | 'b' => some .word
  | 'B' => some .noWord
  | '<' => some .wordStart
  | '>' => some .wordEnd
  | _ => none

/-- A part after a backslash. -/
def escaped (f : Style) (s : List Char) : Option (Pattern × List Char) :=
  match s with
  | [] => none
  | c :: r =>
    match escapedEdge? c with
    | some e => some (edge e, r)
    | none =>
      match escapedSet f s with
      | some (k, r) => some (char k, r)
      | none => (escapedChar s).map fun (x, r) => (literal f x, r)

/-- A part of one sign, if it is no beginning of a longer one. -/
def sign (f : Style) : Char → Option Pattern
  | '.' => some (char (if f.dotAll then .all else .invert (.single '\n')))
  | '^' => some (edge (if f.multiLine then .lineStart else .textStart))
  | '$' => some (edge (if f.multiLine then .lineEnd else .textEnd))
  | '*' | '+' | '?' | '\x7b' => none
  | c => some (literal f c)

mutual
/-- Alternatives up to a closing parenthesis or the end; `fuel` bounds the nesting and length. Flags hold from one
alternative to the next. -/
def alternatives : Nat → Style → List Char → Option (Pattern × List Char)
  | 0, _, _ => none
  | fuel + 1, f, s => do
    let (a, f, r) ← sequence fuel f s
    match r with
    | '|' :: r =>
      let (b, r) ← alternatives fuel f r
      return (alt a b, r)
    | r => return (a, r)

/-- Parts one after the other, with the flags that hold after them. -/
def sequence : Nat → Style → List Char → Option (Pattern × Style × List Char)
  | 0, _, _ => none
  | fuel + 1, f, s =>
    match skipSpace f s with
    | [] => some (empty, f, [])
    | '|' :: r => some (empty, f, '|' :: r)
    | ')' :: r => some (empty, f, ')' :: r)
    | s => do
      let (a, f, r) ← atom fuel f s
      let (a, r) ← repeated f a r
      let (b, f, r) ← sequence fuel f r
      return (followedBy a b, f, r)

/-- One part, with the flags that hold after it. -/
def atom : Nat → Style → List Char → Option (Pattern × Style × List Char)
  | 0, _, _ => none
  | fuel + 1, f, s =>
    match s with
    | '(' :: '?' :: '=' :: r => closed fuel f (ahead true) r
    | '(' :: '?' :: '!' :: r => closed fuel f (ahead false) r
    | '(' :: '?' :: '<' :: '=' :: r => closed fuel f (behind true) r
    | '(' :: '?' :: '<' :: '!' :: r => closed fuel f (behind false) r
    | '(' :: '?' :: 'P' :: '<' :: r | '(' :: '?' :: '<' :: r => do
      let (name, r) ← groupName r
      closed fuel f (group (some name)) r
    | '(' :: '?' :: r => do
      match ← flags f [] r with
      | (g, ':', r) =>
        let (p, _, r) ← closed fuel g id r
        return (p, f, r)
      | (g, _, r) => return (empty, g, r)
    | '(' :: r => closed fuel f (group none) r
    | '[' :: r => (charClass f (2 * r.length + 2) r).map fun (k, r) => (char k, f, r)
    | '\\' :: r => (escaped f r).map fun (p, r) => (p, f, r)
    | c :: r => (sign f c).map (·, f, r)
    | [] => none

/-- A group after its opening, with its closing parenthesis. -/
def closed : Nat → Style → (Pattern → Pattern) → List Char → Option (Pattern × Style × List Char)
  | 0, _, _, _ => none
  | fuel + 1, f, wrap, s => do
    let (p, r) ← alternatives fuel f s
    match r with
    | ')' :: r => return (wrap p, f, r)
    | _ => none
end

end Groups

/-- The pattern that a text stands for with such letters; none if it is malformed. No two groups share a name. -/
def readWith (l : Letters) (s : String) : Option Pattern :=
  let cs := s.toList
  match alternatives (4 * cs.length + 4) (.plain l) cs with
  | some (p, []) => if p.names.Nodup then some p else none
  | _ => none

/-- The letters of a text that looks ahead or behind are not those of scripts. -/
def read? (s : String) : Option Pattern := do
  let p ← readWith .script s
  if p.looksAround then readWith .unicode s else some p

end ApiPayload.Validation.Pattern
