import ApiPayload.Validation.RuleReader

/-
The schema that draft 4 schemas have to satisfy, its members in alphabetical order.
-/
namespace ApiPayload.Validation.MetaSchema

def typed (name : String) : Json := .object [("type", .string name)]

def refTo (reference : String) : Json := .object [("$ref", .string reference)]

def self : Json := refTo "#"

def defined (name : String) : Json := refTo ("#/definitions/" ++ name)

def blank : String × Json := ("default", .object [])

def eitherOf (a b : Json) : String × Json := ("anyOf", .array [a, b])

def flag : Json := .object [("default", .bool false), ("type", .string "boolean")]

def textIn (format : String) : Json :=
  .object [("format", .string format), ("type", .string "string")]

def namedSchemas : Json :=
  .object [("additionalProperties", self), blank, ("type", .string "object")]

def definitions : Json := .object [
  ("positiveInteger", .object [("minimum", .number (.int 0)), ("type", .string "integer")]),
  ("positiveIntegerDefault0", .object [("allOf", .array [
    defined "positiveInteger", .object [("default", .number (.int 0))]])]),
  ("schemaArray", .object [
    ("items", self), ("minItems", .number (.int 1)), ("type", .string "array")]),
  ("simpleTypes", .object [("enum", .array Rule.typeNames)]),
  ("stringArray", .object [
    ("items", typed "string"), ("minItems", .number (.int 1)), ("type", .string "array"),
    ("uniqueItems", .bool true)])]

def properties : Json := .object [
  ("$schema", textIn "uri"),
  ("additionalItems", .object [eitherOf (typed "boolean") self, blank]),
  ("additionalProperties", .object [eitherOf (typed "boolean") self, blank]),
  ("allOf", defined "schemaArray"),
  ("anyOf", defined "schemaArray"),
  ("default", .object []),
  ("definitions", namedSchemas),
  ("dependencies", .object [
    ("additionalProperties", .object [eitherOf self (defined "stringArray")]),
    ("type", .string "object")]),
  ("description", typed "string"),
  ("enum", typed "array"),
  ("exclusiveMaximum", flag),
  ("exclusiveMinimum", flag),
  ("format", typed "string"),
  ("id", textIn "uri"),
  ("items", .object [eitherOf self (defined "schemaArray"), blank]),
  ("maxItems", defined "positiveInteger"),
  ("maxLength", defined "positiveInteger"),
  ("maxProperties", defined "positiveInteger"),
  ("maximum", typed "number"),
  ("minItems", defined "positiveIntegerDefault0"),
  ("minLength", defined "positiveIntegerDefault0"),
  ("minProperties", defined "positiveIntegerDefault0"),
  ("minimum", typed "number"),
  ("multipleOf", .object [("exclusiveMinimum", .bool true), ("minimum", .number (.int 0)),
    ("type", .string "number")]),
  ("not", self),
  ("oneOf", defined "schemaArray"),
  ("pattern", textIn "regex"),
  ("patternProperties", namedSchemas),
  ("properties", namedSchemas),
  ("required", defined "stringArray"),
  ("title", typed "string"),
  ("type", .object [eitherOf (defined "simpleTypes") (.object [
    ("items", defined "simpleTypes"), ("minItems", .number (.int 1)), ("type", .string "array"),
    ("uniqueItems", .bool true)])]),
  ("uniqueItems", flag)]

def document : Json := .object [
  blank,
  ("definitions", definitions),
  ("dependencies", .object [
    ("exclusiveMaximum", .array [.string "maximum"]),
    ("exclusiveMinimum", .array [.string "minimum"])]),
  ("properties", properties),
  ("type", .string "object")]

def rules : Except Fault Rules := Rules.ofDocument document

def check (schema : Json) : Except Fault Unit := do
  match (← rules).violations schema with
  | none => .error .endless
  | some (v :: _) => .error (.complaint v.complaint)
  | some [] => .ok ()

end ApiPayload.Validation.MetaSchema
