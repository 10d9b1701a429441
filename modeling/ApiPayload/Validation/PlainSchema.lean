import ApiPayload.Json.Pointer

/-
A document as plain JSON schema: nullable marks become types, the type of files goes away, and a
reference at the root leads to the schema in question.
-/
namespace ApiPayload.Validation.PlainSchema

def isMarked (key : String) (ms : List (String × Json)) : Bool :=
  match Entries.get? key ms with
  | some (.bool b) => b
  | _ => false

def retype (ms : List (String × Json)) : List (String × Json) :=
  match Entries.get? "type" ms with
  | some (.string t) =>
    if t = "file" then Entries.swapErase "type" ms
    else if isMarked "x-nullable" ms || isMarked "nullable" ms then
      Entries.insert "type" (.array [.string t, .string "null"]) ms
    else ms
  | _ => ms

mutual
/-- Every object of a value, wherever it is, gets the type that its marks ask for. Members change
before their object does, but none that `retype` looks at. -/
def plain : Json → Json
  | .object ms => .object (retype (plainMembers ms))
  | .array xs => .array (plainItems xs)
  | v => v

def plainItems : List Json → List Json
  | [] => []
  | x :: xs => plain x :: plainItems xs

def plainMembers : List (String × Json) → List (String × Json)
  | [] => []
  | (k, x) :: ms => (k, plain x) :: plainMembers ms
end

/-- The whole document with a reference to one of its places. -/
def rooted (document : Json) (p : Pointer) : Json :=
  match plain document with
  | .object ms =>
    if p.tokens.isEmpty then .object ms
    else .object (Entries.insert "$ref" (.string p.label) ms)
  | v => v

end ApiPayload.Validation.PlainSchema
