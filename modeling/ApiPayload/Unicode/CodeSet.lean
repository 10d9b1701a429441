import ApiPayload.Unicode.Folding

/-
Sets of characters, by their code points.
-/
namespace ApiPayload.Unicode

inductive CodeSet where
  | codes (ks : List Codes)
  | invert (k : CodeSet)
  | either (a b : CodeSet)
  | both (a b : CodeSet)
  | folded (k : CodeSet)
  deriving DecidableEq, Repr

namespace CodeSet

/-- A folded set has every code point that folds as one of its own does. -/
def contains : CodeSet → Nat → Bool
  | codes ks, n => ks.any (·.contains n)
  | invert k, n => !k.contains n
  | either a b, n => a.contains n || b.contains n
  | both a b, n => a.contains n && b.contains n
  | folded k, n => (alike n).any fun m => k.contains m

def empty : CodeSet := codes []

def all : CodeSet := invert empty

def single (c : Char) : CodeSet := codes [⟨c.toNat, c.toNat, 1⟩]

def range (first last : Nat) : CodeSet := codes [⟨first, last, 1⟩]

def without (a b : CodeSet) : CodeSet := both a (invert b)

def unlike (a b : CodeSet) : CodeSet := either (without a b) (without b a)

end CodeSet
end ApiPayload.Unicode
