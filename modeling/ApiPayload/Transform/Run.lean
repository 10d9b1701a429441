import ApiPayload.Transform.Cache
import ApiPayload.Transform.Direction

/-
Running prepared plans on values. A value is first handed down to the subtype that its tag names,
as often as tags say so, and then taken apart by the plan it ends at. A run asks for the plans
behind links one by one, so that whoever answers may let it wait.
-/
namespace ApiPayload

variable {α β γ δ link : Type}

def ObjectPlan.choice (d : Direction α β) (o : ObjectPlan link) (es : List (String × α)) :
    Option link := do
  let tag ← Entries.get? (← o.discriminator) es
  Entries.get? (← d.string? tag) o.subtypes

/-- A computation that asks for the plans behind links as it goes. -/
inductive Ask (link γ : Type) where
  | done (r : Except TransformError γ)
  | need (l : link) (next : Plan link → Ask link γ)

namespace Ask

def bind (f : γ → Ask link δ) : Ask link γ → Ask link δ
  | done (.ok a) => f a
  | done (.error e) => done (.error e)
  | need l next => need l fun p => (next p).bind f

instance : Monad (Ask link) where
  pure a := done (.ok a)
  bind x f := x.bind f

instance : MonadExceptOf TransformError (Ask link) where
  throw e := done (.error e)
  tryCatch
    | done (.error e), handle => handle e
    | x, _ => x

def run (follow : link → Except TransformError (Plan link)) : Ask link γ → Except TransformError γ
  | done r => r
  | need l next => do (next (← follow l)).run follow

end Ask

namespace Plan

/-- The schema that a value is handed down to, if its tag names one. -/
def next? (d : Direction α β) (v : α) (p : Plan link) : Option link :=
  match p.core with
  | .object o => (d.entries? v).bind (o.choice d)
  | _ => none

def name (p : Plan link) : String :=
  match p.core with
  | .object o => o.expected
  | _ => ""

/-- Follows tags. More choices than there are models come round again without end. -/
def settle (d : Direction α β) (v : α) : Nat → Plan link → Ask link (Plan link)
  | fuel, p =>
    match p.next? d v with
    | none => pure p
    | some l =>
      match fuel with
      | 0 => throw (.endless p.name)
      | fuel + 1 => .need l (settle d v fuel)

def missing (d : Direction α β) (o : ObjectPlan link) (fields : List (String × β)) :
    List (String × β) :=
  if o.includeMissing then
    o.properties.filterMap fun e =>
      if Entries.contains e.1 fields then none
      else some (e.1, ((Entries.get? e.1 o.defaults).map d.ofDefault).getD d.null)
  else []

variable {m : Type → Type} [Monad m] [MonadExceptOf TransformError m]

/-- The rule for null comes first, if there is one. -/
def guard (d : Direction α β) (p : Plan link) (v : α) (whole : m β) : m β :=
  if d.isNull v then
    match p.onNull with
    | some (.default j) => pure (d.ofDefault j)
    | some (.refuse schema) => throw (.nullNotAllowed schema)
    | some .keep => pure d.null
    | none => whole
  else whole

/-- Takes a value apart by a plan; `sub` does its parts. -/
def apply (d : Direction α β) (sub : link → α → m β) (p : Plan link) (v : α) : m β :=
  match p.core with
  | .pass => pure (d.pass v)
  | .unknownType type => throw (.unknownType type (d.describe v))
  | .unknownModel model => throw (.unknownModel model (d.describe v))
  | .convert c =>
    match d.convert c v with
    | .ok w => pure w
    | .error fault => throw (.format c.name (d.describe v) fault)
  | .list schema item =>
    match d.list? v with
    | none => throw (.notList schema (d.typeName v) (d.describe v))
    | some xs => do return d.list (← xs.mapM (sub item))
  | .object o =>
    match d.entries? v with
    | none => throw (.notObject o.expected (d.typeName v) (d.describe v))
    | some es => do
      let fields ← es.mapM fun e =>
        match Entries.get? e.1 o.properties with
        | some l => do return (e.1, ← sub l e.2)
        | none => pure (e.1, d.pass e.2)
      return d.object o.typed (fields ++ missing d o fields)

end Plan

/-- Transforms a value behind a link. `hops` bounds the choices at one value, `fuel` the depth of
values. -/
def transformAt (d : Direction α β) (hops : Nat) : Nat → link → α → Ask link β
  | 0, _, _ => throw (.endless "")
  | fuel + 1, l, v => .need l fun p => p.guard d v do
    (← p.settle d v hops).apply d (transformAt d hops fuel) v

/-- The depth of a value is less than its size. -/
def transformBy (d : Direction α β) (hops : Nat) (l : link) (v : α) : Ask link β :=
  transformAt d hops (d.size v + 1) l v

/-- Weak links need the spec to be alive. -/
def Cache.follow (c : Cache) (alive : Bool) (l : Link) : Except TransformError (Plan Link) :=
  let lost : TransformError := .detached ("#" ++ toString l.key.schema)
  match l with
  | .weak _ => if alive then (c.plan? l.key).elim (.error lost) .ok else .error lost
  | .strong _ => (c.plan? l.key).elim (.error lost) .ok

/-- A transform in hand: a link, and the plans that were ready when it was obtained. -/
structure Transform where
  link : Link
  cache : Cache
  hops : Nat

def Transform.call (d : Direction α β) (t : Transform) (alive : Bool) (v : α) :
    Except TransformError β :=
  (transformBy d t.hops t.link v).run (t.cache.follow alive)

/-- One cache for each direction. -/
structure Caches where
  unmarshal : Cache
  marshal : Cache

def Caches.empty : Caches := ⟨.empty, .empty⟩

inductive Side where
  | unmarshal
  | marshal
  deriving DecidableEq

namespace Side

def In : Side → Type
  | unmarshal => Json
  | marshal => Native

def Out : Side → Type
  | unmarshal => Native
  | marshal => Json

def direction : (side : Side) → Direction side.In side.Out
  | unmarshal => .unmarshal
  | marshal => .marshal

end Side

namespace Caches

def on (cs : Caches) : Side → Cache
  | .unmarshal => cs.unmarshal
  | .marshal => cs.marshal

def put (cs : Caches) (c : Cache) : Side → Caches
  | .unmarshal => { cs with unmarshal := c }
  | .marshal => { cs with marshal := c }

end Caches

namespace Spec

/-- No more choices in a row than models are different, so one more comes round again. -/
def hops (s : Spec) : Nat := s.models.length + 1

def transform (s : Spec) (c : Cache) (id : Schema.Id) (required : Bool) : Cache × Transform :=
  let (c, l) := s.prepare c id required
  (c, ⟨l, c, s.hops⟩)

def unmarshal (s : Spec) (c : Cache) (id : Schema.Id) (v : Json) :
    Cache × Except TransformError Native :=
  let (c, t) := s.transform c id true
  (c, t.call .unmarshal true v)

def marshal (s : Spec) (c : Cache) (id : Schema.Id) (v : Native) :
    Cache × Except TransformError Json :=
  let (c, t) := s.transform c id true
  (c, t.call .marshal true v)

end Spec
end ApiPayload
