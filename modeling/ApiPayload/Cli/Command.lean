/-
The command line: what to do, with which files.
-/
namespace ApiPayload.Cli

structure Target where
  spec : String
  payload : String
  schema : String
  config : Option String
  deriving DecidableEq, Repr

inductive Command where
  | unmarshal (target : Target) (checked pretty : Bool)
  | marshal (target : Target) (checked pretty : Bool)
  | validate (target : Target) (asJson : Bool)
  | models (spec : String) (config : Option String)
  deriving DecidableEq, Repr

/-- Arguments by kind: plain ones, options with a value, and flags. -/
structure Arguments where
  plain : List String
  options : List (String × String)
  flags : List String

namespace Arguments

def valued : List (String × String) :=
  [("--schema", "schema"), ("-s", "schema"), ("--config", "config")]

def joined? (arg : String) : Option (String × String) :=
  valued.findSome? fun (mark, name) =>
    let start := mark.toList ++ ['=']
    if start.isPrefixOf arg.toList then
      some (name, String.ofList (arg.toList.drop start.length))
    else none

def sort : List String → Arguments
  | [] => ⟨[], [], []⟩
  | [arg] =>
    match joined? arg with
    | some o => ⟨[], [o], []⟩
    | none => if arg.startsWith "-" then ⟨[], [], [arg]⟩ else ⟨[arg], [], []⟩
  | arg :: value :: rest =>
    match valued.lookup arg with
    | some name =>
      let a := sort rest
      { a with options := (name, value) :: a.options }
    | none =>
      let a := sort (value :: rest)
      match joined? arg with
      | some o => { a with options := o :: a.options }
      | none =>
        if arg.startsWith "-" then { a with flags := arg :: a.flags }
        else { a with plain := arg :: a.plain }

end Arguments

namespace Command

def target? (a : Arguments) (spec payload : String) : Option Target :=
  (a.options.lookup "schema").map fun schema =>
    ⟨spec, payload, schema, a.options.lookup "config"⟩

def onlyFlags (known : List String) (a : Arguments) : Bool := a.flags.all (· ∈ known)

def parse? (args : List String) : Option Command :=
  let a := Arguments.sort args
  let convert (make : Target → Bool → Bool → Command) (spec payload : String) : Option Command :=
    if onlyFlags ["--no-validate", "--pretty"] a then
      (target? a spec payload).map fun t =>
        make t (decide ("--no-validate" ∉ a.flags)) (decide ("--pretty" ∈ a.flags))
    else none
  match a.plain with
  | ["unmarshal", spec, payload] => convert .unmarshal spec payload
  | ["marshal", spec, payload] => convert .marshal spec payload
  | ["validate", spec, payload] =>
    if onlyFlags ["--json"] a then
      (target? a spec payload).map fun t => .validate t (decide ("--json" ∈ a.flags))
    else none
  | ["models", spec] =>
    if onlyFlags [] a && (a.options.lookup "schema").isNone then
      some (.models spec (a.options.lookup "config"))
    else none
  | _ => none

def files : Command → List String
  | unmarshal t _ _ | marshal t _ _ | validate t _ => t.config.toList ++ [t.spec, t.payload]
  | models spec config => config.toList ++ [spec]

end Command
end ApiPayload.Cli
