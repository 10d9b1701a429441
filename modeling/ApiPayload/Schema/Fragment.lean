import ApiPayload.Schema.Error
import ApiPayload.Schema.Kind
import ApiPayload.Schema.Walk

/-
Reading one schema fragment of a document. What a fragment says depends on the document, on the
names bound to its definitions and on its own place, and on nothing built before it.
-/
namespace ApiPayload.Schema

abbrev Members := List (String × Json)

/-- The definitions that are models, with their names, in document order. -/
abbrev Naming := List (Pointer × String)

/-- The written type, or `object` when only properties or parts are given. -/
def declaredType (ms : Members) : Option String :=
  match Entries.get? "type" ms with
  | some (.string t) => some t
  | some (.array ts) => (ts.filterMap Json.string?).find? (· ≠ "null")
  | _ =>
    if Entries.contains "properties" ms || Entries.contains "allOf" ms then some "object" else none

def isFlagged (key : String) (ms : Members) : Bool :=
  match Entries.get? key ms with
  | some (.bool b) => b
  | _ => false

def isNullable (ms : Members) : Bool :=
  isFlagged "x-nullable" ms || isFlagged "nullable" ms ||
    match Entries.get? "type" ms with
    | some (.array ts) => ts.any fun t => t.string? = some "null"
    | _ => false

def isObjectSchema : Json → Bool
  | .object ms => !Entries.contains "$ref" ms && declaredType ms = some "object"
  | _ => false

def modelMark (schema : Json) : Option String :=
  match schema.member? "x-model" with
  | some v => v.string?
  | none => (schema.member? "title").bind Json.string?

def target (source : Pointer) (reference : Json) : Except SpecError Pointer :=
  match reference with
  | .string s =>
    match s.toList with
    | '#' :: rest =>
      match Pointer.ofChars? rest with
      | some p => .ok p
      | none => .error (.unresolvable source s)
    | _ => .error (.unresolvable source s)
  | _ => .error (.unresolvable source "")

/-- Follows aliases to the first place that is none. A chain longer than all references of the
document has met one of them twice. -/
def unalias (document : Json) (source : Pointer) : Nat → Pointer → Except SpecError Pointer
  | 0, _ => .error (.invalidSchema source .circularAlias)
  | fuel + 1, p =>
    match (p.find? document).bind (Json.member? "$ref") with
    | none => .ok p
    | some reference => do unalias document source fuel (← target p reference)

def aliasLimit (document : Json) : Nat := document.size + 1

/-- A step of merging: a fragment whose own part is merged, or the fault that stops it. -/
inductive Layer where
  | fragment (place : Pointer)
  | fault (e : SpecError)
  deriving DecidableEq

def allOf (ms : Members) : List Json :=
  match Entries.get? "allOf" ms with
  | some (.array parts) => parts
  | _ => []

def partPlace (document : Json) (source : Pointer) (i : Nat) (part : Json) :
    Except SpecError Pointer := do
  let place ← match part.member? "$ref" with
    | some reference => do unalias document source (aliasLimit document) (← target source reference)
    | none => .ok ((source.child "allOf").item i)
  match place.find? document with
  | some (.object _) => .ok place
  | _ => .error (.unresolvable source place.label)

def membersAt (document : Json) (p : Pointer) : Members :=
  match p.find? document with
  | some (.object ms) => ms
  | _ => []

def Layer.parts (document : Json) : Layer → List Layer
  | .fault _ => []
  | .fragment p =>
    (allOf (membersAt document p)).zipIdx.map fun (part, i) =>
      match partPlace document p i part with
      | .ok q => .fragment q
      | .error e => .fault e

/-- More than the places that references and descents from them can name. -/
def placeLimit (document : Json) : Nat := 2 * (document.size + 1) * (document.size + 1)

/-- The fragments merged into an object schema: inherited ones first, each once. -/
def layers (document : Json) (p : Pointer) : List Layer :=
  Walk.postorder (Layer.parts document) (placeLimit document) (.fragment p)

def Layer.place? : Layer → Option Pointer
  | .fragment p => some p
  | .fault _ => none

def ownProperties (document : Json) (p : Pointer) : List (String × Pointer) :=
  match Entries.get? "properties" (membersAt document p) with
  | some (.object ps) => ps.map fun e => (e.1, (p.child "properties").child e.1)
  | _ => []

def ownRequired (document : Json) (p : Pointer) : List String :=
  match Entries.get? "required" (membersAt document p) with
  | some (.array names) => names.filterMap Json.string?
  | _ => []

def itemsPlace? (p : Pointer) (ms : Members) : Option Pointer :=
  match Entries.get? "items" ms with
  | some (.object _) | some (.bool _) => some (p.child "items")
  | _ => none

/-- The property that tells subtypes apart, as a name or under `propertyName`. -/
def discriminator (ms : Members) : Option String :=
  match Entries.get? "discriminator" ms with
  | some (.string name) => some name
  | some (.object d) => (Entries.get? "propertyName" d).bind Json.string?
  | _ => none

def shape (document : Json) (naming : Naming) (p : Pointer) (ms : Members) : Shape Pointer :=
  let places := (layers document p).filterMap Layer.place?
  { properties := places.foldl (fun acc q =>
      (ownProperties document q).foldl (fun acc e => Entries.insert e.1 e.2 acc) acc) []
    required := NameSet.ofList (places.flatMap (ownRequired document))
    discriminator := discriminator ms
    model := ((Entries.get? "x-model" ms).bind Json.string?).or (Entries.get? p naming) }

def formatName (ms : Members) : Option String := (Entries.get? "format" ms).bind Json.string?

/-- A reference hides everything beside it. -/
def kind (document : Json) (naming : Naming) (p : Pointer) : Json → Kind Pointer
  | .object ms =>
    match Entries.get? "$ref" ms with
    | some reference =>
      match target p reference with
      | .ok q => .ref q
      | .error _ => .untyped
    | none =>
      match declaredType ms with
      | none => .untyped
      | some "object" => .object (shape document naming p ms)
      | some "array" => .array (itemsPlace? p ms)
      | some "file" => .file
      | some type =>
        match Primitive.ofName? type with
        | some t => .primitive t (formatName ms)
        | none => .unknown type
  | _ => .untyped

/-- The fragments that a fragment needs, in the order it meets them, up to its first fault. -/
def needs (document : Json) (p : Pointer) : Json → List (Except SpecError Pointer)
  | .object ms =>
    match Entries.get? "$ref" ms with
    | some reference => [target p reference]
    | none =>
      match declaredType ms with
      | some "object" =>
        (layers document p).flatMap fun
          | .fragment q => (ownProperties document q).map fun e => .ok e.2
          | .fault e => [.error e]
      | some "array" => (itemsPlace? p ms).toList.map .ok
      | _ => []
  | .bool _ => []
  | v => [.error (.invalidSchema p (.notObject v.typeName))]

def nullable : Json → Bool
  | .object ms => isNullable ms
  | _ => false

def directParents (document : Json) (naming : Naming) (p : Pointer) : List String :=
  (allOf (membersAt document p)).filterMap fun part =>
    match part.member? "$ref" with
    | none => none
    | some reference =>
      match target p reference with
      | .error _ => none
      | .ok q =>
        match unalias document p (aliasLimit document) q with
        | .ok q => Entries.get? q naming
        | .error _ => none

end ApiPayload.Schema
