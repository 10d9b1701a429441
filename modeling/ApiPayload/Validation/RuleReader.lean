import ApiPayload.Validation.Reference
import ApiPayload.Validation.Rule

/-
Reading rules from schemas, draft 4. A reading keeps the references that it met before its end, so
that faults behind references are found in the order in which a reader would meet them.
-/
namespace ApiPayload.Validation

structure Reading (α : Type) where
  refs : List String
  result : Except Fault α

namespace Reading

variable {α β : Type}

def of (a : α) : Reading α := ⟨[], .ok a⟩

def andThen (x : Reading α) (f : α → Reading β) : Reading β :=
  match x.result with
  | .ok a => ⟨x.refs ++ (f a).refs, (f a).result⟩
  | .error e => ⟨x.refs, .error e⟩

instance : Monad Reading where
  pure := of
  bind := andThen

def fail (f : Fault) : Reading α := ⟨[], .error f⟩

def complain (c : Complaint) : Reading α := fail (.complaint c)

def wrongType (v : Json) (t : JsonType) : Reading α := complain (.wrongType v (.one t))

def array : Json → Reading (List Json)
  | .array xs => pure xs
  | v => wrongType v .array

def object : Json → Reading (List (String × Json))
  | .object ms => pure ms
  | v => wrongType v .object

def string : Json → Reading String
  | .string s => pure s
  | v => wrongType v .string

def number : Json → Reading Number
  | .number n => pure n
  | v => wrongType v .number

def size : Json → Reading Nat
  | .number (.int n) =>
    if 0 ≤ n then pure n.toNat else complain (.beyond (.number (.int n)) .least (.int 0))
  | v => wrongType v .integer

end Reading

namespace Rule

open Reading

def typeNames : List Json := JsonType.all.map fun t => .string t.name

def readType (v : Json) : Reading Rule := do
  let single (name : String) : Reading Rule :=
    match JsonType.ofName? name with
    | some t => pure (.type (.one t))
    | none => fail .unknownType
  match v with
  | .string name => single name
  | .array [x] => single (← string x)
  | .array xs =>
    let ts ← xs.mapM fun x => do
      match JsonType.ofName? (← string x) with
      | some t => pure t
      | none => complain (.notListed x typeNames)
    return .type (.choice (JsonType.all.filter (· ∈ ts)))
  | v => complain (.wrongType v (.choice [.array, .string]))

def readPattern (shown : Json) (source : String) : Reading Pattern :=
  match Pattern.read? source with
  | some p => pure p
  | none => complain (.badFormat shown TextFormat.regex.name)

def isTrue (key : String) (siblings : List (String × Json)) : Bool :=
  match Entries.get? key siblings with
  | some (.bool b) => b
  | _ => false

def readNamed (sub : Json → Reading Rule) (v : Json) : Reading (List (String × Rule)) := do
  (← object v).mapM fun (k, x) => do return (k, ← sub x)

def readPatterns (sub : Json → Reading Rule) (v : Json) : Reading (List (Pattern × Rule)) := do
  (← object v).mapM fun (k, x) => do
    let p ← readPattern x k
    return (p, ← sub x)

/-- Additional properties that are forbidden or have a schema of their own take over the rules for
the known ones. -/
def takesOver (siblings : List (String × Json)) : Bool :=
  match Entries.get? "additionalProperties" siblings with
  | some (.bool false) | some (.object _) => true
  | _ => false

def readAdditional (sub : Json → Reading Rule) (siblings : List (String × Json)) (v : Json) :
    Reading (List Rule) := do
  let patterns ← match Entries.get? "patternProperties" siblings with
    | some p => readPatterns sub p
    | none => pure []
  if v = .bool true then return []
  else
    let known ← match Entries.get? "properties" siblings with
      | some p => readNamed sub p
      | none => pure []
    let alone := !Entries.contains "properties" siblings &&
      !Entries.contains "patternProperties" siblings
    if v = .bool false then
      return [if alone then .noProperties else .noAdditional known patterns]
    else return [.additional known patterns (← sub v)]

def readRequired (v : Json) : Reading Rule := do
  return .required (← (← array v).mapM string)

def readRestItems (sub : Json → Reading Rule) (siblings : List (String × Json)) (v : Json) :
    Reading (List Rule) := do
  match Entries.get? "items" siblings, v with
  | some (.array xs), .object _ => return [.restItems xs.length (← sub v)]
  | some (.array xs), .bool false => return [.noItems xs.length]
  | _, _ => return []

/-- The rules of one keyword; keywords that are not known have none. -/
def readKeyword (sub : Json → Reading Rule) (siblings : List (String × Json)) (key : String)
    (v : Json) : Reading (List Rule) := do
  match key with
  | "type" => return [← readType v]
  | "enum" => return [.enum (← array v)]
  | "minimum" => return [.limit .least (isTrue "exclusiveMinimum" siblings) (← number v)]
  | "maximum" => return [.limit .most (isTrue "exclusiveMaximum" siblings) (← number v)]
  | "multipleOf" => return [.multipleOf (← number v)]
  | "minLength" => return [.count .characters .least (← size v)]
  | "maxLength" => return [.count .characters .most (← size v)]
  | "minItems" => return [.count .items .least (← size v)]
  | "maxItems" => return [.count .items .most (← size v)]
  | "minProperties" => return [.count .properties .least (← size v)]
  | "maxProperties" => return [.count .properties .most (← size v)]
  | "pattern" =>
    let source ← string v
    return [.pattern source (← readPattern v source)]
  | "format" =>
    match TextFormat.ofName? (← string v) with
    | some f => return [.format f]
    | none => return []
  | "uniqueItems" =>
    match v with
    | .bool b => return if b then [.unique] else []
    | v => wrongType v .boolean
  | "items" =>
    match v with
    | .array xs => return [.tuple (← xs.mapM sub)]
    | .object _ | .bool _ => return [.items (← sub v)]
    | _ => return []
  | "additionalItems" => readRestItems sub siblings v
  | "required" => return [← readRequired v]
  | "properties" =>
    if takesOver siblings then return [] else return [.properties (← readNamed sub v)]
  | "patternProperties" =>
    if takesOver siblings then return [] else return [.patternProperties (← readPatterns sub v)]
  | "additionalProperties" => readAdditional sub siblings v
  | "dependencies" =>
    let rules ← (← object v).mapM fun (k, x) => do
      match x with
      | .array _ => return (k, ← readRequired x)
      | x => return (k, ← sub x)
    return [.dependencies rules]
  | "allOf" => return [.all (← (← array v).mapM sub)]
  | "anyOf" => return [.anyOf (← (← array v).mapM sub)]
  | "oneOf" => return [.oneOf (← (← array v).mapM sub)]
  | "not" => return [.exclude v (← sub v)]
  | _ => return []

/-- The rule of a schema; `fuel` bounds its nesting. -/
def read : Nat → Json → Reading Rule
  | 0, _ => pure .never
  | fuel + 1, v => do
    match v with
    | .bool true => return .all []
    | .bool false => return .never
    | .object ms =>
      match Entries.get? "$ref" ms with
      | some r =>
        let reference ← string r
        ⟨[reference], .ok (.ref reference)⟩
      | none =>
        let rules ← ms.mapM fun (k, x) => readKeyword (read fuel) ms k x
        return .all rules.flatten
    | v => complain (.wrongType v (.choice [.boolean, .object]))

def ofJson (v : Json) : Reading Rule := read v.size v

end Rule

namespace Rules

/-- Adds the rule behind a reference and those that it needs. -/
def addReference (document : Json) :
    Nat → List (String × Rule) → String → Except Fault (List (String × Rule))
  | 0, table, _ => .ok table
  | fuel + 1, table, reference =>
    if Entries.contains reference table then .ok table
    else do
      let r := Rule.ofJson (← Reference.resolve document reference)
      let rule := match r.result with
        | .ok rule => rule
        | .error _ => .never
      let table ← r.refs.foldlM (addReference document fuel) (table ++ [(reference, rule)])
      match r.result with
      | .ok _ => .ok table
      | .error e => .error e

def ofDocument (document : Json) : Except Fault Rules := do
  let r := Rule.ofJson document
  let table ← r.refs.foldlM (addReference document (document.size + 1)) []
  return ⟨← r.result, table⟩

end Rules
end ApiPayload.Validation
