import ApiPayload.Format.Converter

/-
Why a value has no counterpart under a schema.
-/
namespace ApiPayload

inductive TransformError where
  | notList (schema found value : String)
  | notObject (model found value : String)
  | nullNotAllowed (schema : String)
  | unknownType (type value : String)
  | unknownModel (model value : String)
  | detached (schema : String)
  | format (name value : String) (fault : Format.Fault)
  | endless (model : String)
  deriving DecidableEq

namespace TransformError

def message : TransformError → String
  | notList schema found value =>
    "expected list like type for " ++ schema ++ ", got " ++ found ++ ": " ++ value
  | notObject model found value =>
    "expected object for value " ++ value ++ " to map to " ++ model ++ ", got " ++ found ++ " instead"
  | nullNotAllowed schema => "spec " ++ schema ++ " is a required value"
  | unknownType type value =>
    "don't know how to transform value " ++ value ++ " with a type of " ++ type
  | unknownModel model value =>
    "unknown model " ++ model ++ " when trying to transform " ++ value
  | detached schema => "transform for schema " ++ schema ++ " was used after its spec was dropped"
  | format name value fault => "invalid " ++ name ++ " value " ++ value ++ ": " ++ fault.message
  | endless model => "a value of model " ++ model ++ " is passed on between models for ever"

/-- The value has the wrong shape, as opposed to a failed conversion or lookup. -/
def isMapping : TransformError → Bool
  | notList .. | notObject .. | nullNotAllowed .. | unknownType .. => true
  | _ => false

def exitCode (_ : TransformError) : Nat := 2

end TransformError
end ApiPayload
