import ApiPayload.Schema.Spec

/-
Reading a document fragment by fragment. A place that is asked for gets a slot before its fragment is
read, so that fragments that need one another find each other's numbers; the slot is filled once the
fragment has been read. A journal keeps account of what was done.
-/
namespace ApiPayload.Schema

inductive Event where
  | ask (place : Pointer)
  | read (place : Pointer)
  | merge (owner place : Pointer)
  deriving DecidableEq

/-- A slot without a node is reserved. -/
structure Arena where
  slots : List (Option Node)
  table : List (Pointer × Id)
  journal : List Event

namespace Arena

def empty : Arena := ⟨[], [], []⟩

def note (e : Event) (a : Arena) : Arena := { a with journal := a.journal ++ [e] }

def reserve (p : Pointer) (a : Arena) : Arena :=
  { a with slots := a.slots ++ [none], table := a.table ++ [(p, a.slots.length)] }

def fill (id : Id) (n : Node) (a : Arena) : Arena := { a with slots := a.slots.set id (some n) }

end Arena

/-- What fails leaves the arena as it was by then. -/
abbrev Builder := EStateM SpecError Arena

def Builder.ofExcept {α : Type} : Except SpecError α → Builder α
  | .ok a => pure a
  | .error e => throw e

/-- What was merged so far, and the places that were visited for it. -/
structure Merged where
  properties : List (String × Id)
  required : NameSet
  visited : List Pointer

def propertyNames (ms : Members) : List String :=
  match Entries.get? "properties" ms with
  | some (.object ps) => Entries.keys ps
  | _ => []

def requiredNames (ms : Members) : List String :=
  match Entries.get? "required" ms with
  | some (.array names) => names.filterMap Json.string?
  | _ => []

variable (document : Json) (naming : Naming) (limit : Nat)

/-- Follows aliases to the first place that is none. A place that comes round again is a fault. -/
def follow (source : Pointer) : Nat → List Pointer → Pointer → Except SpecError Pointer
  | 0, _, p => .error (.invalidSchema p .endless)
  | fuel + 1, seen, p =>
    match (p.find? document).bind (Json.member? "$ref") with
    | none => .ok p
    | some reference =>
      if p ∈ seen then .error (.invalidSchema source .circularAlias)
      else do follow source fuel (p :: seen) (← target p reference)

def partAt (source : Pointer) (i : Nat) (part : Json) : Except SpecError Pointer :=
  match part.member? "$ref" with
  | some reference => do follow document source limit [] (← target source reference)
  | none => .ok ((source.child "allOf").item i)

/-- Merges what the parts of a fragment have, then what it has itself. A place that was visited
before adds nothing. -/
def merge (ask : Pointer → Pointer → Builder Id) (owner : Pointer) :
    Nat → Members → Pointer → Merged → Builder Merged
  | 0, _, p, _ => throw (.invalidSchema p .endless)
  | fuel + 1, ms, p, acc =>
    if p ∈ acc.visited then pure acc
    else do
      modify (Arena.note (.merge owner p))
      let acc ← (allOf ms).zipIdx.foldlM (fun acc (part : Json × Nat) => do
        let place ← Builder.ofExcept (partAt document limit p part.2 part.1)
        match place.find? document with
        | some (.object own) => merge ask owner fuel own place acc
        | _ => throw (.unresolvable p place.label)) { acc with visited := p :: acc.visited }
      let acc ← (propertyNames ms).foldlM (fun acc name => do
        let id ← ask p ((p.child "properties").child name)
        return { acc with properties := Entries.insert name id acc.properties }) acc
      return { acc with required := (requiredNames ms).foldl (fun s n => s.insert n) acc.required }

def nodeOf (p : Pointer) (raw : Json) (kind : Kind Id) : Node :=
  ⟨kind, raw.member? "default", nullable raw, p, raw⟩

/-- Reads a fragment. All that it needs is asked for on the way. -/
def readNode (ask : Pointer → Pointer → Builder Id) (p : Pointer) (raw : Json) : Builder Node :=
  match raw with
  | .object ms =>
    match Entries.get? "$ref" ms with
    | some reference => do
      let place ← Builder.ofExcept (target p reference)
      let id ← ask p place
      return nodeOf p raw (.ref id)
    | none =>
      match declaredType ms with
      | none => return nodeOf p raw .untyped
      | some "object" => do
        let merged ← merge document limit ask p limit ms p ⟨[], .empty, []⟩
        return nodeOf p raw (.object ⟨merged.properties, merged.required, discriminator ms,
          ((Entries.get? "x-model" ms).bind Json.string?).or (Entries.get? p naming)⟩)
      | some "array" =>
        match itemsPlace? p ms with
        | some place => do
          let id ← ask p place
          return nodeOf p raw (.array (some id))
        | none => return nodeOf p raw (.array none)
      | some "file" => return nodeOf p raw .file
      | some type =>
        match Primitive.ofName? type with
        | some t => return nodeOf p raw (.primitive t (formatName ms))
        | none => return nodeOf p raw (.unknown type)
  | .bool _ => return nodeOf p raw .untyped
  | v => throw (.invalidSchema p (.notObject v.typeName))

/-- The number of a place. A place without one gets a slot, and then its fragment is read. -/
def request : Nat → Pointer → Pointer → Builder Id
  | 0, _, p => throw (.invalidSchema p .endless)
  | fuel + 1, source, p => do
    modify (Arena.note (.ask p))
    let a ← get
    match Entries.get? p a.table with
    | some id => return id
    | none =>
      match p.find? document with
      | none => throw (.unresolvable source p.label)
      | some raw => do
        modify (Arena.reserve p)
        modify (Arena.note (.read p))
        let n ← readNode document naming limit (request fuel) p raw
        modify (Arena.fill a.slots.length n)
        return a.slots.length

/-- Asks for all roots. `limit` bounds the depth of every recursion. -/
def assemble : Builder Unit :=
  (Spec.roots document).forM fun p => discard (request document naming limit limit p p)

end ApiPayload.Schema
