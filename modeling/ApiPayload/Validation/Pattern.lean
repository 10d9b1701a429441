import ApiPayload.Unicode.Property

/-
Patterns over texts. A pattern is run by the set of places where its matches from one place end,
so nothing depends on the order of alternatives.
-/
namespace ApiPayload.Validation

/-- Conditions on a place in a text. -/
inductive Edge where
  | textStart
  | textEnd
  | lineStart
  | lineEnd
  | wordStart
  | wordEnd
  | word
  | noWord
  deriving DecidableEq, Repr

namespace Edge

def isWordAt (text : Array Char) (i : Nat) : Bool :=
  match text[i]? with
  | some c => Unicode.wordPart.contains c.toNat
  | none => false

def isLineFeedAt (text : Array Char) (i : Nat) : Bool := text[i]? = some '\n'

def holds (text : Array Char) (i : Nat) : Edge → Bool
  | textStart => i = 0
  | textEnd => i = text.size
  | lineStart => i = 0 || isLineFeedAt text (i - 1)
  | lineEnd => i = text.size || isLineFeedAt text i
  | wordStart => isWordAt text i && !(i ≠ 0 && isWordAt text (i - 1))
  | wordEnd => (i ≠ 0 && isWordAt text (i - 1)) && !isWordAt text i
  | word => isWordAt text i != (i ≠ 0 && isWordAt text (i - 1))
  | noWord => isWordAt text i == (i ≠ 0 && isWordAt text (i - 1))

end Edge

/-- A loop has at least so many rounds, and so many more at most. -/
inductive Pattern where
  | empty
  | char (k : Unicode.CodeSet)
  | seq (a b : Pattern)
  | alt (a b : Pattern)
  | group (name : Option String) (p : Pattern)
  | loop (p : Pattern) (least : Nat) (more : Option Nat)
  | edge (e : Edge)
  | ahead (wanted : Bool) (p : Pattern)
  | behind (wanted : Bool) (p : Pattern)
  deriving DecidableEq, Repr

namespace Pattern

def union (a b : List Nat) : List Nat := a ++ b.filter (· ∉ a)

section Steps
variable (step : Nat → List Nat)

/-- Every place that one step leads to. -/
def spread (found : List Nat) : List Nat := found.foldl (fun acc i => union acc (step i)) []

/-- Every place that `n` steps lead to. -/
def exactly : Nat → List Nat → List Nat
  | 0, found => found
  | n + 1, found => exactly n (spread step found)

/-- Every place that at most `n` steps lead to. -/
def within : Nat → List Nat → List Nat
  | 0, found => found
  | n + 1, found => within n (union found (spread step found))

end Steps

/-- The rounds of a loop that lead anywhere, among so many more at most: no more than there are characters. -/
def rounds (size : Nat) : Option Nat → Nat
  | some more => min more size
  | none => size

/-- Where the matches that begin at `i` end. -/
def ends (text : Array Char) : Pattern → Nat → List Nat
  | empty, i => [i]
  | char k, i =>
    match text[i]? with
    | some c => if k.contains c.toNat then [i + 1] else []
    | none => []
  | seq a b, i => spread (ends text b) (ends text a i)
  | alt a b, i => union (ends text a i) (ends text b i)
  | group _ p, i => ends text p i
  | loop p least more, i =>
    within (ends text p) (rounds text.size more) (exactly (ends text p) least [i])
  | edge e, i => if e.holds text i then [i] else []
  | ahead wanted p, i => if (ends text p i).isEmpty != wanted then [i] else []
  | behind wanted p, i =>
    if ((List.range (i + 1)).any fun j => i ∈ ends text p j) = wanted then [i] else []

def occursIn (p : Pattern) (s : String) : Bool :=
  let text := s.toList.toArray
  (List.range (text.size + 1)).any fun i => !(p.ends text i).isEmpty

/-- One pattern after the other; nothing to match is left out. -/
def followedBy : Pattern → Pattern → Pattern
  | empty, b => b
  | a, empty => a
  | a, b => seq a b

/-- The names of the groups, in order. -/
def names : Pattern → List String
  | seq a b | alt a b => a.names ++ b.names
  | group name p => name.toList ++ p.names
  | loop p _ _ | ahead _ p | behind _ p => p.names
  | _ => []

/-- Whether a pattern looks ahead or behind anywhere. -/
def looksAround : Pattern → Bool
  | ahead _ _ | behind _ _ => true
  | seq a b | alt a b => a.looksAround || b.looksAround
  | group _ p | loop p _ _ => p.looksAround
  | _ => false

end Pattern
end ApiPayload.Validation
