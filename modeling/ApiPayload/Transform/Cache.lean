import ApiPayload.Transform.Plan

/-
Prepared plans, each prepared at most once. A worker takes the keys it needs one after the other;
a key that is still in preparation is not waited for but linked weakly. Every step of a worker
touches the cache at most once, so workers may take turns at any step.
-/
namespace ApiPayload

/-- A strong link holds its plan; a weak one finds it through the cache of a live spec. -/
inductive Link where
  | strong (key : Key)
  | weak (key : Key)
  deriving DecidableEq

def Link.key : Link → Key
  | strong k => k
  | weak k => k

/-- A slot without a plan is in preparation. -/
structure Cache where
  slots : List (Key × Option (Plan Link))
  compilations : Nat

namespace Cache

def empty : Cache := ⟨[], 0⟩

instance : Inhabited Cache := ⟨empty⟩

def size (c : Cache) : Nat := c.slots.length

def isEmpty (c : Cache) : Bool := c.slots.isEmpty

def plan? (c : Cache) (k : Key) : Option (Plan Link) := (Entries.get? k c.slots).join

def isResolved (c : Cache) (k : Key) : Bool := (c.plan? k).isSome

def isTaken (c : Cache) (k : Key) : Bool := Entries.contains k c.slots

def take (c : Cache) (k : Key) : Cache := { c with slots := c.slots ++ [(k, none)] }

def count (c : Cache) : Cache := { c with compilations := c.compilations + 1 }

/-- A slot is filled once; what it holds then stays. -/
def resolve (c : Cache) (k : Key) (p : Option (Plan Link)) : Cache :=
  if c.isResolved k then c else { c with slots := Entries.insert k p c.slots }

end Cache

/-- A key in preparation: the links it has and the keys it still needs. -/
structure Frame where
  key : Key
  plan : Plan Key
  todo : List Key
  links : List Link

inductive Phase where
  | probe (k : Key)
  | read (k : Key)
  | enter (k : Key)
  | look (k : Key)
  | count (k : Key)
  | work
  | answer (l : Link)

structure Worker where
  frames : List Frame
  phase : Phase

namespace Worker

def start (k : Key) : Worker := ⟨[], .probe k⟩

def answer? (w : Worker) : Option Link :=
  match w.frames, w.phase with
  | [], .answer l => some l
  | _, _ => none

/-- One step: look up a slot, read it, take a free one, count, fill a slot, or go on with the frame
on top. -/
def step (s : Spec) (c : Cache) (w : Worker) : Cache × Worker :=
  match w.phase with
  | .probe k =>
    if c.isTaken k then (c, { w with phase := .read k })
    else (c, { w with phase := .enter k })
  | .read k =>
    if c.isResolved k then (c, { w with phase := .answer (.strong k) })
    else (c, { w with phase := .enter k })
  | .enter k =>
    if c.isTaken k then (c, { w with phase := .look k })
    else (c.take k, { w with phase := .count k })
  | .look k =>
    if c.isResolved k then (c, { w with phase := .answer (.strong k) })
    else (c, { w with phase := .answer (.weak k) })
  | .count k =>
    let p := s.plan k
    (c.count, ⟨⟨k, p, p.links, []⟩ :: w.frames, .work⟩)
  | .work =>
    match w.frames with
    | [] => (c, w)
    | f :: rest =>
      match f.todo with
      | k :: todo => (c, ⟨{ f with todo := todo } :: rest, .probe k⟩)
      | [] => (c.resolve f.key (f.plan.relink f.links), ⟨rest, .answer (.strong f.key)⟩)
  | .answer l =>
    match w.frames with
    | [] => (c, w)
    | f :: rest => (c, ⟨{ f with links := f.links ++ [l] } :: rest, .work⟩)

/-- A worker alone, until it has its answer. -/
def run (s : Spec) : Nat → Cache → Worker → Cache × Option Link
  | 0, c, w => (c, w.answer?)
  | fuel + 1, c, w =>
    match w.answer? with
    | some l => (c, some l)
    | none =>
      let (c, w) := w.step s c
      run s fuel c w

end Worker

namespace Spec

def keys (s : Spec) : List Key :=
  (List.range s.nodes.size).flatMap fun id => [⟨id, true⟩, ⟨id, false⟩]

/-- Seven steps for each link of the whole spec and for the request itself are enough. -/
def effort (s : Spec) : Nat := 7 * (s.keys.foldr (fun k n => (s.plan k).links.length + n) 0 + 1)

/-- A link for a schema, with the cache after all that had to be prepared for it. -/
def prepare (s : Spec) (c : Cache) (id : Schema.Id) (required : Bool) : Cache × Link :=
  let k := s.key id required
  let (c, l) := (Worker.start k).run s s.effort c
  (c, l.getD (.strong k))

end Spec
end ApiPayload
