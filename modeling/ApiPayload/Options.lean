import ApiPayload.Json.Writer
import ApiPayload.Text.Visible

/-
Options of a schema document, and their reader from JSON: an object whose members may be left out,
or an array of the values in order.
-/
namespace ApiPayload

structure Options where
  useModels : Bool
  includeMissing : Bool
  validateResponses : Bool
  validateRequests : Bool
  deriving DecidableEq, Repr

namespace Options

def standard : Options := ⟨true, true, true, true⟩

instance : Inhabited Options := ⟨standard⟩

inductive Field where
  | useModels
  | includeMissing
  | validateResponses
  | validateRequests
  deriving DecidableEq, Repr

def Field.all : List Field := [useModels, includeMissing, validateResponses, validateRequests]

def Field.name : Field → String
  | useModels => "use_models"
  | includeMissing => "include_missing_properties"
  | validateResponses => "validate_responses"
  | validateRequests => "validate_requests"

def Field.ofName? (name : String) : Option Field := all.find? (·.name = name)

def get (o : Options) : Field → Bool
  | .useModels => o.useModels
  | .includeMissing => o.includeMissing
  | .validateResponses => o.validateResponses
  | .validateRequests => o.validateRequests

def set (o : Options) (b : Bool) : Field → Options
  | .useModels => { o with useModels := b }
  | .includeMissing => { o with includeMissing := b }
  | .validateResponses => { o with validateResponses := b }
  | .validateRequests => { o with validateRequests := b }

theorem get_set (o : Options) (b : Bool) (f g : Field) :
    (o.set b f).get g = if f = g then b else o.get g := by
  cases f <;> cases g <;> rfl

def toJson (o : Options) : Json :=
  .object (Field.all.map fun f => (f.name, .bool (o.get f)))

inductive Fault where
  | notBoolean (found : Json)
  | notOptions (found : Json)
  | tooMany (count : Nat)

def kindOf : Json → String
  | .null => "null"
  | .bool b => "boolean `" ++ (if b then "true" else "false") ++ "`"
  | .number (.int i) => "integer `" ++ toString i ++ "`"
  | .number n => "floating point `" ++ n.render ++ "`"
  | .string s => "string " ++ Text.visible s
  | .array _ => "sequence"
  | .object _ => "map"

def Fault.message : Fault → String
  | notBoolean v => "invalid type: " ++ kindOf v ++ ", expected a boolean"
  | notOptions v => "invalid type: " ++ kindOf v ++ ", expected struct SpecConfig"
  | tooMany n => "invalid length " ++ toString n ++ ", expected fewer elements in array"

def readField (o : Options) (f : Field) : Json → Except Fault Options
  | .bool b => .ok (o.set b f)
  | v => .error (.notBoolean v)

def readMember (o : Options) (m : String × Json) : Except Fault Options :=
  match Field.ofName? m.1 with
  | some f => readField o f m.2
  | none => .ok o

def ofJson : Json → Except Fault Options
  | .object ms => ms.foldlM readMember standard
  | .array xs => do
    let o ← (Field.all.zip xs).foldlM (fun o p => readField o p.1 p.2) standard
    if Field.all.length < xs.length then .error (.tooMany xs.length) else .ok o
  | v => .error (.notOptions v)

end Options
end ApiPayload
