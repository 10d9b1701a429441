import ApiPayload.Transform.Run
import ApiPayload.Validation.MetaSchema
import ApiPayload.Validation.PlainSchema
import ApiPayload.Validation.Tags

/-
Validation of payloads, alone and around a transform: responses before they become native values,
requests after they became wire values.
-/
namespace ApiPayload

structure PayloadFault where
  path : Pointer
  message : String

def PayloadFault.text (f : PayloadFault) : String := f.path.text ++ ": " ++ f.message

inductive ValidateError where
  | spec (e : SpecError)
  | invalid (faults : List PayloadFault)

namespace ValidateError

def message : ValidateError → String
  | spec e => e.message
  | invalid faults => "validation failed with " ++ toString faults.length ++ " error(s)"

def exitCode : ValidateError → Nat
  | spec e => e.exitCode
  | invalid _ => 1

end ValidateError

inductive PayloadError where
  | validate (e : ValidateError)
  | transform (e : TransformError)

namespace PayloadError

def message : PayloadError → String
  | validate e => e.message
  | transform e => e.message

def exitCode : PayloadError → Nat
  | validate e => e.exitCode
  | transform e => e.exitCode

end PayloadError

/-- A library of schemas: it refuses a document, or has a check of payloads that lists what is wrong with
them, and that may never end. -/
abbrev Library := Json → Except String (Json → Option (List PayloadFault))

namespace Validation

/-- The rules of a document: references first, then the form of the whole, then the schemas that are
reached. -/
def Rules.compile (document : Json) : Except Fault Rules := do
  Reference.check document
  MetaSchema.check document
  Rules.ofDocument document

def Violation.fault (v : Violation) : PayloadFault := ⟨v.path, v.complaint.message⟩

def TagFault.fault (f : TagFault) : PayloadFault := ⟨f.path, f.message⟩

/-- The library of draft 4. -/
def draft4 : Library := fun document =>
  match Rules.compile document with
  | .error f => .error f.message
  | .ok rules => .ok fun v => (rules.violations v).map (·.map Violation.fault)

end Validation

namespace Spec

open Validation

/-- The document that a library is given for one schema. -/
def plainDocument (s : Spec) (id : Schema.Id) : Json := PlainSchema.rooted s.document (s.node id).pointer

def rules (s : Spec) (id : Schema.Id) : Except SpecError Rules :=
  (Rules.compile (s.plainDocument id)).mapError fun f =>
    .invalidSchema (s.node id).pointer (.unusable f.message)

section Library
variable (library : Library) (s : Spec) (id : Schema.Id)

/-- A library's check of payloads by one schema. -/
def checkBy : Except SpecError (Json → Option (List PayloadFault)) :=
  (library (s.plainDocument id)).mapError fun m => .invalidSchema (s.node id).pointer (.unusable m)

/-- Everything that is wrong with a payload: the complaints of a library's check, then its tags; none if
either does not end. -/
def faults? (check : Json → Option (List PayloadFault)) (payload : Json) : Option (List PayloadFault) :=
  match check payload, tagFaults? s id payload with
  | some complaints, some tags => some (complaints ++ tags.map TagFault.fault)
  | _, _ => none

/-- The result for a payload whose check never ends stands for no result. -/
def validateBy (payload : Json) : Except ValidateError Unit :=
  match s.checkBy library id with
  | .error e => .error (.spec e)
  | .ok check =>
    match s.faults? id check payload with
    | none => .error (.spec (.invalidSchema (s.node id).pointer .unending))
    | some [] => .ok ()
    | some faults => .error (.invalid faults)

def unmarshalResponseBy (c : Cache) (payload : Json) : Cache × Except PayloadError Native :=
  match if s.options.validateResponses then s.validateBy library id payload else .ok () with
  | .error e => (c, .error (.validate e))
  | .ok _ =>
    let (c, r) := s.unmarshal c id payload
    (c, r.mapError .transform)

def marshalRequestBy (c : Cache) (value : Native) : Cache × Except PayloadError Json :=
  match s.marshal c id value with
  | (c, .error e) => (c, .error (.transform e))
  | (c, .ok payload) =>
    match if s.options.validateRequests then s.validateBy library id payload else .ok () with
    | .error e => (c, .error (.validate e))
    | .ok _ => (c, .ok payload)

end Library

def validate (s : Spec) (id : Schema.Id) (payload : Json) : Except ValidateError Unit :=
  s.validateBy draft4 id payload

def unmarshalResponse (s : Spec) (c : Cache) (id : Schema.Id) (payload : Json) :
    Cache × Except PayloadError Native :=
  s.unmarshalResponseBy draft4 id c payload

def marshalRequest (s : Spec) (c : Cache) (id : Schema.Id) (value : Native) :
    Cache × Except PayloadError Json :=
  s.marshalRequestBy draft4 id c value

end Spec
end ApiPayload
