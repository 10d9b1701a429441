import ApiPayload.NameSet
import ApiPayload.Json.Pointer

/-
Kinds of schema. A kind names other schemas by links: by pointers while a document is read, by
node numbers afterwards.
-/
namespace ApiPayload.Schema

inductive Primitive where
  | string
  | number
  | integer
  | boolean
  deriving DecidableEq, Repr

namespace Primitive

def name : Primitive → String
  | string => "string"
  | number => "number"
  | integer => "integer"
  | boolean => "boolean"

def all : List Primitive := [string, number, integer, boolean]

def ofName? (s : String) : Option Primitive := all.find? (·.name = s)

theorem ofName?_name (p : Primitive) : ofName? p.name = some p := by
  cases p <;> decide

end Primitive

/-- An object schema with the parts of its `allOf` merged. -/
structure Shape (link : Type) where
  properties : List (String × link)
  required : NameSet
  discriminator : Option String
  model : Option String
  deriving DecidableEq

inductive Kind (link : Type) where
  | primitive (type : Primitive) (format : Option String)
  | array (items : Option link)
  | object (shape : Shape link)
  | file
  | untyped
  | unknown (type : String)
  | ref (target : link)
  deriving DecidableEq

variable {α β : Type}

def Shape.map (f : α → β) (s : Shape α) : Shape β :=
  ⟨Entries.mapValues f s.properties, s.required, s.discriminator, s.model⟩

namespace Kind

def map (f : α → β) : Kind α → Kind β
  | primitive type format => .primitive type format
  | array items => .array (items.map f)
  | object shape => .object (shape.map f)
  | file => .file
  | untyped => .untyped
  | unknown type => .unknown type
  | ref target => .ref (f target)

def name : Kind α → String
  | primitive type _ => type.name
  | array _ => "array"
  | object _ => "object"
  | file => "file"
  | untyped => "untyped"
  | unknown type => type
  | ref _ => "$ref"

def shape? : Kind α → Option (Shape α)
  | object shape => some shape
  | _ => none

end Kind

abbrev Id := Nat

structure Node where
  kind : Kind Id
  default : Option Json
  nullable : Bool
  pointer : Pointer
  raw : Json

namespace Node

/-- The model name when bound, else the place in the document. -/
def label (n : Node) : String :=
  match n.kind with
  | .object ⟨_, _, _, some model⟩ => model
  | _ => n.pointer.label

def blank : Node := ⟨.untyped, none, false, .root, .null⟩

instance : Inhabited Node := ⟨blank⟩

end Node
end ApiPayload.Schema
