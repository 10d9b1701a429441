import ApiPayload.Json.Pointer
import ApiPayload.Json.Writer

/-
What validation finds wrong with a value, and where.
-/
namespace ApiPayload.Validation

inductive JsonType where
  | array
  | boolean
  | integer
  | null
  | number
  | object
  | string
  deriving DecidableEq, Repr

namespace JsonType

def all : List JsonType := [array, boolean, integer, null, number, object, string]

def name : JsonType → String
  | array => "array"
  | boolean => "boolean"
  | integer => "integer"
  | null => "null"
  | number => "number"
  | object => "object"
  | string => "string"

def ofName? (s : String) : Option JsonType := all.find? (·.name = s)

/-- An integer is a number that is stored whole. -/
def covers : JsonType → Json → Bool
  | array, .array _ => true
  | boolean, .bool _ => true
  | integer, .number (.int _) => true
  | null, .null => true
  | number, .number _ => true
  | object, .object _ => true
  | string, .string _ => true
  | _, _ => false

end JsonType

/-- One type, or a choice of types in a fixed order. -/
inductive Types where
  | one (t : JsonType)
  | choice (ts : List JsonType)
  deriving DecidableEq

inductive Measure where
  | characters
  | items
  | properties
  deriving DecidableEq, Repr

inductive Bound where
  | least
  | most
  deriving DecidableEq, Repr

inductive Complaint where
  | wrongType (v : Json) (types : Types)
  | missing (name : String)
  | notListed (v : Json) (options : List Json)
  | beyond (v : Json) (bound : Bound) (limit : Number)
  | notInside (v : Json) (bound : Bound) (limit : Number)
  | notMultiple (v : Json) (divisor : Number)
  | badCount (v : Json) (measure : Measure) (bound : Bound) (limit : Nat)
  | noMatch (v : Json) (pattern : String)
  | badFormat (v : Json) (format : String)
  | repeated (v : Json)
  | extraProperties (names : List String)
  | extraItems (items : List Json)
  | noneOfAny (v : Json)
  | noneOfOne (v : Json)
  | severalOfOne (v : Json)
  | excluded (v schema : Json)
  | forbidden (v : Json)

structure Violation where
  path : Pointer
  complaint : Complaint

def quote (s : String) : String := (Json.string s).compact

def Types.phrase : Types → String
  | one t => "type " ++ quote t.name
  | choice ts => "types " ++ ", ".intercalate (ts.map fun t => quote t.name)

def Measure.phrase (n : Nat) : Measure → String
  | characters => toString n ++ (if n = 1 then " character" else " characters")
  | items => toString n ++ (if n = 1 then " item" else " items")
  | properties => toString n ++ (if n = 1 then " property" else " properties")

def unexpected (shown : List String) : String :=
  "(" ++ ", ".intercalate shown ++
    (if shown.length = 1 then " was unexpected)" else " were unexpected)")

def Complaint.message : Complaint → String
  | wrongType v types => v.compact ++ " is not of " ++ types.phrase
  | missing name => quote name ++ " is a required property"
  | notListed v options => v.compact ++ " is not one of " ++ (Json.array options).compact
  | beyond v .least limit => v.compact ++ " is less than the minimum of " ++ limit.render
  | beyond v .most limit => v.compact ++ " is greater than the maximum of " ++ limit.render
  | notInside v .least limit =>
    v.compact ++ " is less than or equal to the minimum of " ++ limit.render
  | notInside v .most limit =>
    v.compact ++ " is greater than or equal to the maximum of " ++ limit.render
  | notMultiple v divisor =>
    v.compact ++ " is not a multiple of " ++ Decimal.Layout.plain.render divisor.toFloat
  | badCount v .characters .least n => v.compact ++ " is shorter than " ++ Measure.characters.phrase n
  | badCount v .characters .most n => v.compact ++ " is longer than " ++ Measure.characters.phrase n
  | badCount v measure .least n => v.compact ++ " has less than " ++ measure.phrase n
  | badCount v measure .most n => v.compact ++ " has more than " ++ measure.phrase n
  | noMatch v pattern => v.compact ++ " does not match \"" ++ pattern ++ "\""
  | badFormat v format => v.compact ++ " is not a \"" ++ format ++ "\""
  | repeated v => v.compact ++ " has non-unique elements"
  | extraProperties names =>
    "Additional properties are not allowed " ++ unexpected (names.map fun n => "'" ++ n ++ "'")
  | extraItems xs => "Additional items are not allowed " ++ unexpected (xs.map Json.compact)
  | noneOfAny v =>
    v.compact ++ " is not valid under any of the schemas listed in the 'anyOf' keyword"
  | noneOfOne v =>
    v.compact ++ " is not valid under any of the schemas listed in the 'oneOf' keyword"
  | severalOfOne v =>
    v.compact ++ " is valid under more than one of the schemas listed in the 'oneOf' keyword"
  | excluded v schema => schema.compact ++ " is not allowed for " ++ v.compact
  | forbidden v => "False schema does not allow " ++ v.compact

end ApiPayload.Validation
