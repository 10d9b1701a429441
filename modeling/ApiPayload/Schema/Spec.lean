import ApiPayload.Format.Standard
import ApiPayload.Options
import ApiPayload.Schema.Fragment

/-
A document of schemas: its fragments as numbered nodes in the order they are first needed, and its
models. Equal pointers share a node, so recursive schemas stay finite.
-/
namespace ApiPayload

open Schema

/-- A named object schema with every model that it inherits from. -/
structure Model where
  name : String
  schema : Id
  shape : Shape Id
  ancestors : NameSet
  defaults : List (String × Json)

/-- The model itself counts as one of its kind. -/
def Model.isA (m : Model) (name : String) : Bool := m.name = name || name ∈ m.ancestors

structure Spec where
  document : Json
  nodes : Array Node
  models : List Model
  options : Options
  formats : Format.Registry

namespace Spec

def containers : List Pointer := [⟨["definitions"]⟩, ⟨["components", "schemas"]⟩]

def definitions (document : Json) : List (Pointer × String × Json) :=
  containers.flatMap fun c =>
    match c.find? document with
    | some (.object ms) => ms.map fun e => (c.child e.1, e.1, e.2)
    | _ => []

/-- Object definitions are models; two of one name are a fault. -/
def bindName (naming : Naming) (d : Pointer × String × Json) : Except SpecError Naming :=
  if isObjectSchema d.2.2 then
    let name := (modelMark d.2.2).getD d.2.1
    match naming.find? (·.2 = name) with
    | some (first, _) => .error (.invalidSchema d.1 (.duplicateModel name first))
    | none => .ok (naming ++ [(d.1, name)])
  else .ok naming

mutual
/-- The outermost `schema` objects inside a value. -/
def schemaPlaces (p : Pointer) : Json → List Pointer
  | .object ms => schemaPlacesMembers p ms
  | .array xs => schemaPlacesItems p 0 xs
  | _ => []

def schemaPlacesItems (p : Pointer) (i : Nat) : List Json → List Pointer
  | [] => []
  | x :: xs => schemaPlaces (p.item i) x ++ schemaPlacesItems p (i + 1) xs

def schemaPlacesMembers (p : Pointer) : List (String × Json) → List Pointer
  | [] => []
  | (k, x) :: ms =>
    (if k = "schema" ∧ x.object?.isSome then [p.child k] else schemaPlaces (p.child k) x) ++
      schemaPlacesMembers p ms
end

/-- Where numbering starts: the definitions, then the schemas under `paths`. -/
def roots (document : Json) : List Pointer :=
  (definitions document).map (·.1) ++
    match document.member? "paths" with
    | some paths => schemaPlaces (Pointer.root.child "paths") paths
    | none => []

/-- Adds a fragment and then all that it needs, depth first. `source` is the place to blame for a
fragment that is not there; `fuel` bounds the depth. -/
def number (document : Json) :
    Nat → Pointer → List Pointer → Pointer → Except SpecError (List Pointer)
  | 0, _, _, p => .error (.invalidSchema p .endless)
  | fuel + 1, source, order, p =>
    if p ∈ order then .ok order
    else
      match p.find? document with
      | none => .error (.unresolvable source p.label)
      | some raw =>
        (needs document p raw).foldlM (fun order need => do
          number document fuel p order (← need)) (order ++ [p])

def numbering (document : Json) : Except SpecError (List Pointer) :=
  (roots document).foldlM (fun order p =>
    number document (placeLimit document) p order p) []

def nodeAt (document : Json) (naming : Naming) (order : List Pointer) (p : Pointer) : Node :=
  let raw := (p.find? document).getD .null
  { kind := (kind document naming p raw).map order.idxOf
    default := raw.member? "default"
    nullable := nullable raw
    pointer := p
    raw := raw }

/-- The node at the end of a chain of aliases; a chain longer than the nodes has no end. -/
def concrete? (nodes : Array Node) : Nat → Id → Option Id
  | 0, _ => none
  | fuel + 1, id =>
    match (nodes[id]?.getD .blank).kind with
    | .ref target => concrete? nodes fuel target
    | _ => some id

def aliasEnd? (nodes : Array Node) (id : Id) : Option Id := concrete? nodes (nodes.size + 1) id

def checkAliases (nodes : Array Node) : Except SpecError Unit :=
  match (List.range nodes.size).find? fun id => (aliasEnd? nodes id).isNone with
  | some id => .error (.invalidSchema (nodes[id]?.getD .blank).pointer .circularAlias)
  | none => .ok ()

/-- The defaults that the concrete schemas of some properties declare. -/
def defaultsOf (nodes : Array Node) (properties : List (String × Id)) : List (String × Json) :=
  properties.filterMap fun e =>
    (nodes[(aliasEnd? nodes e.2).getD e.2]?.getD .blank).default.map fun d => (e.1, d)

abbrev Parents := List (String × List String)

def ancestors (parents : Parents) (name : String) : NameSet :=
  let above (n : String) : List String := (Entries.get? n parents).getD []
  .ofList ((Walk.visitAll above (parents.length + 1) ⟨[name], []⟩ (above name)).done)

def modelsOf (nodes : Array Node) (order : List Pointer) (naming : Naming) (parents : Parents) :
    List Model :=
  naming.filterMap fun (p, name) =>
    let id := order.idxOf p
    match nodes[id]? with
    | none => none
    | some node =>
      node.kind.shape?.map fun shape =>
        ⟨name, id, shape, ancestors parents name, defaultsOf nodes shape.properties⟩

def build (document : Json) (options : Options) (formats : Format.Registry) :
    Except SpecError Spec := do
  let naming ← (definitions document).foldlM bindName []
  let order ← numbering document
  let nodes := (order.map (nodeAt document naming order)).toArray
  checkAliases nodes
  let parents := naming.map fun (p, name) => (name, directParents document naming p)
  return ⟨document, nodes, modelsOf nodes order naming parents, options, formats⟩

def node (s : Spec) (id : Id) : Node := s.nodes[id]?.getD .blank

def concrete (s : Spec) (id : Id) : Id := (aliasEnd? s.nodes id).getD id

def model? (s : Spec) (name : String) : Option Model := s.models.find? (·.name = name)

def nodeOf? (s : Spec) (p : Pointer) : Option Id := s.nodes.findIdx? (·.pointer = p)

def schemaAt? (s : Spec) (pointer : String) : Option Id :=
  (Pointer.ofChars? (Pointer.hashless pointer)).bind s.nodeOf?

/-- The node of a definition key, else of a model name. -/
def definition? (s : Spec) (name : String) : Option Id :=
  (containers.findSome? fun c => s.nodeOf? (c.child name)).or ((s.model? name).map (·.schema))

/-- Texts that start with a mark or a slash are pointers, all others names. -/
def resolve (s : Spec) (reference : String) : Except SpecError Id :=
  let found := match reference.toList with
    | '#' :: _ | '/' :: _ => s.schemaAt? reference
    | _ => s.definition? reference
  match found with
  | some id => .ok id
  | none => .error (.unknownSchema reference)

def defaults (s : Spec) (properties : List (String × Id)) : List (String × Json) :=
  defaultsOf s.nodes properties

end Spec
end ApiPayload
