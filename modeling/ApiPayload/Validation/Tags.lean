import ApiPayload.Schema.Spec

/-
Tags of payloads: the value of a model's discriminator has to name the model or one below it.
Objects are followed down to the model that their tags end at, if they end anywhere.
-/
namespace ApiPayload.Validation

open Schema

structure TagFault where
  path : Pointer
  tag : Json
  model : String

def TagFault.message (f : TagFault) : String :=
  f.tag.compact ++ " is not a known subtype of " ++ f.model

inductive Tag where
  | absent
  | own
  | sub (m : Model)
  | unknown (name : String) (tag : Json)

def tagOf (s : Spec) (base : Model) (ms : List (String × Json)) : Tag :=
  match base.shape.discriminator with
  | none => .absent
  | some name =>
    match Entries.get? name ms with
    | none => .absent
    | some tag =>
      match (tag.string?.bind s.model?).filter (Model.isA · base.name) with
      | some m => if m.name = base.name then .own else .sub m
      | none => .unknown name tag

section Parts
variable (sub : Pointer → Id → Json → Option (List TagFault)) (path : Pointer)

def checkItems (items : Id) (i : Nat) : List Json → Option (List TagFault)
  | [] => some []
  | x :: xs => do
    let here ← sub (path.item i) items x
    return here ++ (← checkItems items (i + 1) xs)

def checkMembers (properties : List (String × Id)) : List (String × Json) → Option (List TagFault)
  | [] => some []
  | (k, x) :: ms => do
    let here ← match Entries.get? k properties with
      | some id => sub (path.child k) id x
      | none => some []
    return here ++ (← checkMembers properties ms)

end Parts

/-- The faults of a payload under a schema, an object before its members. An object whose tag names a
subtype is checked as that subtype, so where tags lead round in a circle there is no result, however much
`fuel` there is. -/
def checkTags (s : Spec) : Nat → Pointer → Id → Json → Option (List TagFault)
  | 0, _, _, _ => none
  | fuel + 1, path, id, v =>
    match (s.node (s.concrete id)).kind, v with
    | .array (some items), .array xs => checkItems (checkTags s fuel) path items 0 xs
    | .object shape, .object ms =>
      match shape.model.bind s.model? with
      | none => checkMembers (checkTags s fuel) path shape.properties ms
      | some base =>
        match tagOf s base ms with
        | .sub m => checkTags s fuel path m.schema v
        | .unknown name tag =>
          (checkMembers (checkTags s fuel) path base.shape.properties ms).map
            (⟨path.child name, tag, base.name⟩ :: ·)
        | _ => checkMembers (checkTags s fuel) path base.shape.properties ms
    | _, _ => some []

/-- A check that has not ended after as many steps as there are pairs of a node and a part of the payload
has come back to one of them, and never ends. -/
def tagFaults? (s : Spec) (id : Id) (v : Json) : Option (List TagFault) :=
  checkTags s (v.size * s.nodes.size + 1) .root id v

end ApiPayload.Validation
