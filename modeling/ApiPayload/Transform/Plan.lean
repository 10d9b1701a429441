import ApiPayload.Schema.Spec
import ApiPayload.Transform.Error

/-
Plans: all that a transform needs to know of a schema, with links in place of the transforms of
other schemas. The plan of a schema names those by keys; a prepared plan holds them.
-/
namespace ApiPayload

/-- A concrete schema and whether a value is required there. -/
structure Key where
  schema : Schema.Id
  required : Bool
  deriving DecidableEq, Repr

/-- What becomes of null: the default first, then a refusal, else null again. -/
inductive NullPolicy where
  | default (value : Json)
  | refuse (schema : String)
  | keep

structure ObjectPlan (link : Type) where
  expected : String
  properties : List (String × link)
  defaults : List (String × Json)
  discriminator : Option String
  subtypes : List (String × link)
  typed : Option String
  includeMissing : Bool

inductive Core (link : Type) where
  | pass
  | unknownType (type : String)
  | unknownModel (model : String)
  | convert (converter : Format.Converter)
  | list (schema : String) (item : link)
  | object (plan : ObjectPlan link)

/-- Without a policy null is a value like any other. -/
structure Plan (link : Type) where
  onNull : Option NullPolicy
  core : Core link

variable {α β : Type}

/-- The links of a plan in the order they are prepared: properties, then subtypes. -/
def Core.links : Core α → List α
  | list _ item => [item]
  | object o => o.properties.map (·.2) ++ o.subtypes.map (·.2)
  | _ => []

def Plan.links (p : Plan α) : List α := p.core.links

def relinkEntries (es : List (String × α)) (ls : List β) : List (String × β) :=
  (es.map (·.1)).zip ls

/-- The same core with other links, taken in order. -/
def Core.relink (ls : List β) : Core α → Option (Core β)
  | pass => some .pass
  | unknownType type => some (.unknownType type)
  | unknownModel model => some (.unknownModel model)
  | convert c => some (.convert c)
  | list schema _ => ls.head?.map (.list schema)
  | object o =>
    let (own, rest) := ls.splitAt o.properties.length
    some (.object ⟨o.expected, relinkEntries o.properties own, o.defaults, o.discriminator,
      relinkEntries o.subtypes rest, o.typed, o.includeMissing⟩)

def Plan.relink (p : Plan α) (ls : List β) : Option (Plan β) :=
  (p.core.relink ls).map fun core => ⟨p.onNull, core⟩

namespace Spec

open Schema

def key (s : Spec) (id : Id) (required : Bool) : Key := ⟨s.concrete id, required⟩

def propertyKeys (s : Spec) (shape : Shape Id) : List (String × Key) :=
  shape.properties.map fun e => (e.1, s.key e.2 (decide (e.1 ∈ shape.required)))

def subtypeKeys (s : Spec) (base : String) : List (String × Key) :=
  (s.models.filter (base ∈ ·.ancestors)).map fun m => (m.name, s.key m.schema true)

def modelPlan (s : Spec) (m : Model) : ObjectPlan Key where
  expected := m.name
  properties := s.propertyKeys m.shape
  defaults := m.defaults
  discriminator := m.shape.discriminator
  subtypes := if m.shape.discriminator.isSome then s.subtypeKeys m.name else []
  typed := if s.options.useModels then some m.name else none
  includeMissing := s.options.includeMissing

/-- An object that no model binds: its discriminator has nothing to choose from. -/
def freePlan (s : Spec) (label : String) (shape : Shape Id) : ObjectPlan Key where
  expected := label
  properties := s.propertyKeys shape
  defaults := s.defaults shape.properties
  discriminator := none
  subtypes := []
  typed := none
  includeMissing := s.options.includeMissing

def objectCore (s : Spec) (label : String) (shape : Shape Id) : Core Key :=
  match shape.model with
  | none => .object (s.freePlan label shape)
  | some name =>
    match s.model? name with
    | some m => .object (s.modelPlan m)
    | none => .unknownModel name

def nullPolicy (n : Node) (required : Bool) : NullPolicy :=
  match n.default with
  | some v => .default v
  | none => if required && !n.nullable then .refuse n.label else .keep

/-- Schemas without a type and with a type that is not known have no rule for null. -/
def plan (s : Spec) (k : Key) : Plan Key :=
  let n := s.node k.schema
  let ruled (core : Core Key) : Plan Key := ⟨some (nullPolicy n k.required), core⟩
  match n.kind with
  | .primitive _ format =>
    match format.bind s.formats.find? with
    | some c => ruled (.convert c)
    | none => ruled .pass
  | .array (some items) => ruled (.list n.label (s.key items true))
  | .array none => ruled .pass
  | .object shape => ruled (s.objectCore n.label shape)
  | .file => ruled .pass
  | .untyped => ⟨none, .pass⟩
  | .unknown type => ⟨none, .unknownType type⟩
  | .ref _ => ⟨none, .pass⟩

end Spec
end ApiPayload
