import ApiPayload.Json.Cursor
import ApiPayload.Json.Pointer

/-
What can be wrong with a document of schemas: where it comes from, its text, a reference, a fragment,
or the name that was asked for.
-/
namespace ApiPayload

inductive SchemaFault where
  | notObject (found : String)
  | duplicateModel (name : String) (first : Pointer)
  | circularAlias
  | endless
  | unusable (reason : String)
  | unending
  deriving DecidableEq

def SchemaFault.message : SchemaFault → String
  | notObject found => "expected object, got " ++ found
  | duplicateModel name first =>
    "duplicate model name \"" ++ name ++ "\", also bound by " ++ first.label
  | circularAlias => "circular $ref chain"
  | endless => "schemas never end"
  | unusable reason => reason
  | unending => "validation never ends"

/-- Where a document is looked for. -/
inductive Origin where
  | file (path : String)
  | address (url : String)
  deriving DecidableEq

inductive SpecError where
  | fileNotFound (path : String)
  | unreadable (origin : Origin) (reason : String)
  | invalidJson (e : Json.ReadError)
  | unresolvable (source : Pointer) (reference : String)
  | invalidSchema (place : Pointer) (fault : SchemaFault)
  | unknownSchema (name : String)
  deriving DecidableEq

namespace SpecError

def message : SpecError → String
  | fileNotFound path => "file not found: " ++ path
  | unreadable (.file path) reason => "cannot read " ++ path ++ ": " ++ reason
  | unreadable (.address url) reason => "failed to fetch " ++ url ++ ": " ++ reason
  | invalidJson e => "invalid JSON: " ++ e.message
  | unresolvable source reference =>
    "cannot resolve $ref \"" ++ reference ++ "\" at " ++ source.text
  | invalidSchema place fault => "invalid schema at " ++ place.text ++ ": " ++ fault.message
  | unknownSchema name =>
    "unknown schema \"" ++ name ++ "\": not a definition name or JSON pointer in this spec"

/-- Documents that cannot be had are 3, all else 2. -/
def exitCode : SpecError → Nat
  | fileNotFound _ | unreadable _ _ => 3
  | _ => 2

end SpecError
end ApiPayload
