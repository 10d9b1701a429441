import ApiPayload.Text.Hex
import ApiPayload.Validation.Complaint

/-
References between schemas: a mark, then the place in the document, percent-encoded.
-/
namespace ApiPayload.Validation

inductive Fault where
  | complaint (c : Complaint)
  | unknownType
  | nowhere (pointer : String)
  | badIndex (pointer token : String)
  | badCharacter (reference : String) (index : Nat)
  | badOctet (reference : String) (index : Nat)
  | noAnchor (name : String)
  | foreign (reference : String)
  | endless

def Fault.message : Fault → String
  | complaint c => c.message
  | unknownType => "Unexpected type"
  | nowhere pointer => "Pointer '" ++ pointer ++ "' does not exist"
  | badIndex pointer token =>
    "Failed to parse array index '" ++ token ++ "' in pointer '" ++ pointer ++ "'"
  | badCharacter reference i =>
    "Invalid URI reference '" ++ reference ++ "': unexpected character at index " ++ toString i
  | badOctet reference i =>
    "Invalid URI reference '" ++ reference ++ "': invalid percent-encoded octet at index " ++
      toString i
  | noAnchor name => "Anchor '" ++ name ++ "' does not exist"
  | foreign reference =>
    "Resource 'json-schema:///" ++ reference ++
      "' is not present in a registry and retrieving it failed: Unknown scheme json-schema"
  | endless => "The check of the schema never ends"

def Fault.isForeign : Fault → Bool
  | .foreign _ => true
  | _ => false

namespace Reference

def isFragmentChar (c : Char) : Bool :=
  c.isAlphanum || c ∈ ['-', '.', '_', '~', '!', '$', '&', '\'', '(', ')', '*', '+', ',', ';', '=',
    ':', '@', '/', '?']

/-- The first fault of a fragment whose first byte has index `i`. -/
def fragmentFault (reference : String) : Nat → List Char → Option Fault
  | _, [] => none
  | i, '%' :: a :: b :: rest =>
    if (Text.hexDigit? a).isSome && (Text.hexDigit? b).isSome then fragmentFault reference (i + 3) rest
    else some (.badOctet reference i)
  | i, c :: rest =>
    if c = '%' then some (.badOctet reference i)
    else if isFragmentChar c then fragmentFault reference (i + 1) rest
    else some (.badCharacter reference i)

/-- Only references within a document are looked at; others name documents that are not there. -/
def fault? (reference : String) : Option Fault :=
  match reference.toList with
  | '#' :: rest => fragmentFault reference 1 rest
  | _ => some (.foreign (String.ofList (reference.toList.takeWhile (· ≠ '#'))))

def decodeBytes : List Char → List UInt8
  | '%' :: a :: b :: rest =>
    match Text.hexDigit? a, Text.hexDigit? b with
    | some x, some y => UInt8.ofNat (x * 16 + y) :: decodeBytes rest
    | _, _ => (String.singleton '%').toUTF8.toList ++ decodeBytes (a :: b :: rest)
  | c :: rest => (String.singleton c).toUTF8.toList ++ decodeBytes rest
  | [] => []

def decode (cs : List Char) : List Char :=
  match String.fromUTF8? (decodeBytes cs).toByteArray with
  | some s => s.toList
  | none => cs

def walk (pointer : String) : List String → Json → Except Fault Json
  | [], v => .ok v
  | t :: ts, v =>
    match v with
    | .array xs =>
      match Pointer.indexOf? t with
      | none => .error (.badIndex pointer t)
      | some i =>
        match xs[i]? with
        | some x => walk pointer ts x
        | none => .error (.nowhere pointer)
    | v =>
      match Pointer.step t v with
      | some x => walk pointer ts x
      | none => .error (.nowhere pointer)

def resolve (document : Json) (reference : String) : Except Fault Json :=
  match fault? reference with
  | some f => .error f
  | none =>
    match reference.toList.drop 1 with
    | [] => .ok document
    | '/' :: rest =>
      walk (String.ofList ('/' :: rest)) (Pointer.ofParts (decode rest)).tokens document
    | name => .error (.noAnchor (String.ofList name))

def subschemas : Json → List Json
  | .object ms => ms.flatMap fun (k, v) =>
    match k, v with
    | "not", v => [v]
    | "additionalItems", .object _ | "additionalProperties", .object _ => [v]
    | "allOf", .array xs | "anyOf", .array xs | "oneOf", .array xs | "items", .array xs => xs
    | "items", v => [v]
    | "definitions", .object es | "patternProperties", .object es | "properties", .object es
    | "dependencies", .object es => es.map (·.2)
    | _, _ => []
  | _ => []

def faultsOf (schemas : List Json) : List Fault :=
  schemas.filterMap fun s => ((s.member? "$ref").bind Json.string?).bind fault?

/-- The faults of all references, the outer schemas first; `fuel` bounds the nesting. -/
def faults : Nat → List Json → List Fault
  | 0, _ => []
  | fuel + 1, schemas =>
    if schemas.isEmpty then [] else faultsOf schemas ++ faults fuel (schemas.flatMap subschemas)

/-- Every reference of a schema has to be well written, used or not. Other documents are looked for
after all references have been read. -/
def check (document : Json) : Except Fault Unit :=
  let all := faults document.size [document]
  match (all.find? fun f => !f.isForeign).or all.head? with
  | some f => .error f
  | none => .ok ()

end Reference
end ApiPayload.Validation
