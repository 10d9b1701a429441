/-
Depth-first walks: each place is entered at its first visit and listed when all places below it
are done.
-/
namespace ApiPayload.Schema

structure Walk (α : Type) where
  seen : List α
  done : List α

namespace Walk

variable {α : Type} [DecidableEq α]

/-- `fuel` bounds the depth; the number of places that have a next one suffices. -/
def visit (next : α → List α) : Nat → Walk α → α → Walk α
  | 0, w, _ => w
  | fuel + 1, w, x =>
    if x ∈ w.seen then w
    else
      let below := (next x).foldl (visit next fuel) ⟨x :: w.seen, w.done⟩
      ⟨below.seen, below.done ++ [x]⟩

def visitAll (next : α → List α) (fuel : Nat) (w : Walk α) (xs : List α) : Walk α :=
  xs.foldl (visit next fuel) w

/-- The places reached from a start, each once, a place after those first reached through it. -/
def postorder (next : α → List α) (fuel : Nat) (start : α) : List α :=
  (visit next fuel ⟨[], []⟩ start).done

end Walk
end ApiPayload.Schema
