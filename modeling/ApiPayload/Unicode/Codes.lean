import ApiPayload.Text.Hex

/-
Code points as tables list them: `41-5A` are all from one to another, `100-136/2` every second one.
-/
namespace ApiPayload.Unicode

structure Codes where
  first : Nat
  last : Nat
  step : Nat
  deriving DecidableEq, Repr

namespace Codes

def contains (k : Codes) (n : Nat) : Bool :=
  decide (k.first ≤ n) && decide (n ≤ k.last) && decide ((n - k.first) % k.step = 0)

def ofWord? (w : List Char) : Option Codes := do
  let (first, rest) := w.span (· ≠ '-')
  let (last, step) := (rest.drop 1).span (· ≠ '/')
  let first ← Text.hexNumber? first
  return ⟨first, (Text.hexNumber? last).getD first, (Text.hexNumber? (step.drop 1)).getD 1⟩

end Codes

def startWord (c : Char) : List (List Char) → List (List Char)
  | [] => [[c]]
  | w :: ws => (c :: w) :: ws

/-- The words of a text, which may stand on several lines. -/
def words (text : String) : List (List Char) :=
  let pieces := text.toList.foldr (fun c ws => if c.isWhitespace then [] :: ws else startWord c ws) []
  pieces.filter (· ≠ [])

def codes (text : String) : List Codes := (words text).filterMap Codes.ofWord?

/-- Whether a name is among the words of a text. -/
def isNamed (names name : String) : Bool := (words names).contains name.toList

end ApiPayload.Unicode
