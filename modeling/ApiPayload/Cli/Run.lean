import ApiPayload.Cli.Command
import ApiPayload.Source
import ApiPayload.Validation.Validate

/-
Commands as functions of the files they read and of a library of schemas: lines for both outputs and an
exit code.
-/
namespace ApiPayload.Cli

structure Outcome where
  code : Nat
  out : List String
  err : List String
  deriving DecidableEq, Repr

abbrev Files := String → FileState

abbrev Run (α : Type) := Except Outcome α

def fail (code : Nat) (line : String) : Run α := .error ⟨code, [], ["Error: " ++ line]⟩

def orFail (note : String) : Except SpecError α → Run α
  | .ok a => .ok a
  | .error e => fail e.exitCode (note ++ e.message)

def loadOptions (files : Files) : Option String → Run Options
  | none => .ok .standard
  | some path => do
    let v ← orFail "loading config: " (Source.ofFile path (files path))
    match Options.ofJson v with
    | .ok o => .ok o
    | .error f => fail 2 ("invalid config " ++ path ++ ": " ++ f.message)

def loadSpec (files : Files) (path : String) (config : Option String) : Run Spec := do
  let options ← loadOptions files config
  let document ← orFail "loading spec: " (Source.ofName path (files path))
  orFail "" (Spec.build document options .standard)

def loadTarget (files : Files) (t : Target) : Run (Spec × Schema.Id) := do
  let s ← loadSpec files t.spec t.config
  return (s, ← orFail "" (s.resolve t.schema))

def loadPayload (files : Files) (t : Target) : Run Json :=
  orFail "loading payload: " (Source.ofFile t.payload (files t.payload))

def faultLines (faults : List PayloadFault) : List String :=
  "Validation failed:" :: faults.map fun f => "  " ++ f.text

def orReport : Except PayloadError α → Run α
  | .ok a => .ok a
  | .error (.validate (.invalid faults)) =>
    .error ⟨(ValidateError.invalid faults).exitCode, [], faultLines faults⟩
  | .error e => fail e.exitCode e.message

def printed (pretty : Bool) (v : Json) : Outcome :=
  ⟨0, [if pretty then v.indented else v.compact], []⟩

mutual
/-- A native value for reading: models carry their name, which a property of that key replaces. -/
def rendered : Native → Json
  | .list xs => .array (renderedItems xs)
  | .map es => .object (renderedEntries es)
  | .model name ps =>
    .object ((renderedEntries ps).foldl (fun acc e => Entries.insert e.1 e.2 acc)
      [("x-model", .string name)])
  | v => v.toJson

def renderedItems : List Native → List Json
  | [] => []
  | x :: xs => rendered x :: renderedItems xs

def renderedEntries : List (String × Native) → List (String × Json)
  | [] => []
  | (k, x) :: es => (k, rendered x) :: renderedEntries es
end

def runUnmarshal (library : Library) (files : Files) (t : Target) (checked pretty : Bool) : Run Outcome := do
  let (s, id) ← loadTarget files t
  let payload ← loadPayload files t
  let native ← orReport (
    if checked then (s.unmarshalResponseBy library id .empty payload).2
    else (s.unmarshal .empty id payload).2.mapError .transform)
  return printed pretty (rendered native)

def runMarshal (library : Library) (files : Files) (t : Target) (checked pretty : Bool) : Run Outcome := do
  let (s, id) ← loadTarget files t
  let native := Native.ofJson (← loadPayload files t)
  let wire ← orReport (
    if checked then (s.marshalRequestBy library id .empty native).2
    else (s.marshal .empty id native).2.mapError .transform)
  return printed pretty wire

def verdict (valid : Bool) (more : List (String × Json)) : String :=
  (Json.object (("valid", .bool valid) :: more)).compact

def faultJson (f : PayloadFault) : Json :=
  .object [("path", .string f.path.text), ("message", .string f.message)]

/-- A target that cannot be loaded is not valid either. -/
def markInvalid (asJson : Bool) (o : Outcome) : Outcome :=
  if asJson then { o with out := verdict false [] :: o.out } else o

def runValidate (library : Library) (files : Files) (t : Target) (asJson : Bool) : Run Outcome := do
  let (s, id) ← (loadTarget files t).mapError (markInvalid asJson)
  let payload ← loadPayload files t
  match s.validateBy library id payload with
  | .ok _ => return ⟨0, [if asJson then verdict true [] else "Valid"], []⟩
  | .error (.invalid faults) =>
    if asJson then
      return ⟨1, [verdict false [("errors", .array (faults.map faultJson))]], []⟩
    else return ⟨1, [], faultLines faults⟩
  | .error e => fail e.exitCode e.message

/-- A model with what it inherits from and what tells its subtypes apart. -/
def modelLine (m : Model) : String :=
  m.name ++
    (if m.ancestors.isEmpty then "" else " : " ++ ", ".intercalate m.ancestors.names) ++
    match m.shape.discriminator with
    | some d => " [discriminator: " ++ d ++ "]"
    | none => ""

def runModels (files : Files) (spec : String) (config : Option String) : Run Outcome := do
  let s ← loadSpec files spec config
  return ⟨0, s.models.map modelLine, []⟩

def runBy (library : Library) (files : Files) (c : Command) : Outcome :=
  let result := match c with
    | .unmarshal t checked pretty => runUnmarshal library files t checked pretty
    | .marshal t checked pretty => runMarshal library files t checked pretty
    | .validate t asJson => runValidate library files t asJson
    | .models spec config => runModels files spec config
  match result with
  | .ok o => o
  | .error o => o

def run (files : Files) (c : Command) : Outcome := runBy Validation.draft4 files c

def unlines (ls : List String) : String := String.join (ls.map (· ++ "\n"))

end ApiPayload.Cli
