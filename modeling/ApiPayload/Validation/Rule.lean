import ApiPayload.Validation.Alike
import ApiPayload.Validation.Complaint
import ApiPayload.Validation.TextFormat

/-
Rules of validation and their violations. Violations come in the order of the rules, and for a
container in the order that each rule names. Rules that come back to themselves at one value have no
result.
-/
namespace ApiPayload.Validation

inductive Rule where
  | never
  | ref (reference : String)
  | all (rules : List Rule)
  | anyOf (rules : List Rule)
  | oneOf (rules : List Rule)
  | exclude (shown : Json) (rule : Rule)
  | type (types : Types)
  | enum (options : List Json)
  | limit (bound : Bound) (exclusive : Bool) (limit : Number)
  | multipleOf (divisor : Number)
  | count (measure : Measure) (bound : Bound) (limit : Nat)
  | pattern (source : String) (p : Pattern)
  | format (f : TextFormat)
  | unique
  | items (rule : Rule)
  | tuple (rules : List Rule)
  | restItems (after : Nat) (rule : Rule)
  | noItems (after : Nat)
  | required (names : List String)
  | properties (rules : List (String × Rule))
  | patternProperties (rules : List (Pattern × Rule))
  | additional (known : List (String × Rule)) (patterns : List (Pattern × Rule)) (rule : Rule)
  | noAdditional (known : List (String × Rule)) (patterns : List (Pattern × Rule))
  | noProperties
  | dependencies (rules : List (String × Rule))

/-- A rule with the rules that its references name. -/
structure Rules where
  root : Rule
  table : List (String × Rule)

def Types.cover (ts : Types) (v : Json) : Bool :=
  match ts with
  | .one t => t.covers v
  | .choice ts => ts.any (·.covers v)

/-- The count of a value; other kinds of value have none. -/
def Measure.count? (m : Measure) (v : Json) : Option Nat :=
  match m, v with
  | .characters, .string s => some s.length
  | .items, .array xs => some xs.length
  | .properties, .object ms => some ms.length
  | _, _ => none

def Bound.holds (b : Bound) (limit n : Nat) : Bool :=
  match b with
  | .least => decide (limit ≤ n)
  | .most => decide (n ≤ limit)

def beyond (b : Bound) (exclusive : Bool) (limit n : Number) : Bool :=
  match b, n.toFraction.compare limit.toFraction with
  | _, .eq => exclusive
  | .least, .lt => true
  | .most, .gt => true
  | _, _ => false

/-- Whole divisors divide exactly; with others a small remainder of the rounded quotient counts as
none, and every negative one does. -/
def isMultiple (n divisor : Number) : Bool :=
  let x := n.toFloat
  let d := divisor.toFloat
  let dx := Decimal.Fraction.ofFloat d
  if dx.isWhole then (Decimal.Fraction.ofFloat x).isMultiple dx
  else
    let q := x / d
    if q.isFinite then
      let f := Decimal.Fraction.ofFloat q
      decide (Int.tmod f.num f.den * (Nat.pow 2 52 : Nat) < f.den)
    else (Decimal.Fraction.ofFloat x).isMultiple dx

def matching (patterns : List (Pattern × Rule)) (key : String) : List Rule :=
  (patterns.filter (·.1.occursIn key)).map (·.2)

/-- The rules for one property of an object that lists its properties; none if it is not among
them. -/
def declared (known : List (String × Rule)) (patterns : List (Pattern × Rule)) (key : String) :
    List Rule :=
  (Entries.get? key known).toList ++ matching patterns key

abbrev Violations := List Violation

/-- All violations are asked for, or just whether there is one; then the first that is found ends the
search. -/
inductive Mode where
  | all
  | first
  deriving DecidableEq, Repr

/-- One thing that a rule comes to for a value: a violation, or another rule for a part of it. -/
inductive Step where
  | wrong (path : Pointer) (c : Complaint)
  | ask (rule : Rule) (v : Json) (path : Pointer)

/-- What a rule comes to for a value: steps that all count, or the verdicts of other rules on it. -/
inductive Demand where
  | every (steps : List Step)
  | anyOf (rules : List Rule)
  | oneOf (rules : List Rule)
  | exclude (shown : Json) (rule : Rule)

def check (ok : Bool) (path : Pointer) (c : Complaint) : List Step := if ok then [] else [.wrong path c]

def ask (rules : List Rule) (v : Json) (path : Pointer) : List Step := rules.map fun r => .ask r v path

/-- The steps for the properties of an object that has a rule for each; with `strange` for those that
have none. -/
def askMembers (known : List (String × Rule)) (patterns : List (Pattern × Rule)) (path : Pointer)
    (strange : String → Json → List Step) (ms : List (String × Json)) : List Step :=
  ms.flatMap fun (k, x) =>
    match declared known patterns k with
    | [] => strange k x
    | rules => ask rules x (path.child k)

/-- Where all violations are asked for, the properties that are not allowed come last and together. -/
def askKnown (mode : Mode) (known : List (String × Rule)) (patterns : List (Pattern × Rule))
    (path : Pointer) (ms : List (String × Json)) : List Step :=
  match mode with
  | .first => askMembers known patterns path (fun k _ => [.wrong path (.extraProperties [k])]) ms
  | .all =>
    let strange := (ms.map (·.1)).filter fun k => (declared known patterns k).isEmpty
    askMembers known patterns path (fun _ _ => []) ms ++
      check strange.isEmpty path (.extraProperties strange)

def Rule.demand (table : List (String × Rule)) (mode : Mode) (v : Json) (path : Pointer) :
    Rule → Demand
  | .never => .every [.wrong path (.forbidden v)]
  | .ref reference => .every (ask (Entries.get? reference table).toList v path)
  | .all rules => .every (ask rules v path)
  | .anyOf rules => .anyOf rules
  | .oneOf rules => .oneOf rules
  | .exclude shown rule => .exclude shown rule
  | .type types => .every (check (types.cover v) path (.wrongType v types))
  | .enum options => .every (check (options.any fun o => o.alike v) path (.notListed v options))
  | .limit bound exclusive edge =>
    match v with
    | .number n =>
      .every (check (!beyond bound exclusive edge n) path
        (if exclusive then .notInside v bound edge else .beyond v bound edge))
    | _ => .every []
  | .multipleOf divisor =>
    match v with
    | .number n => .every (check (isMultiple n divisor) path (.notMultiple v divisor))
    | _ => .every []
  | .count measure bound edge =>
    match measure.count? v with
    | some n => .every (check (bound.holds edge n) path (.badCount v measure bound edge))
    | none => .every []
  | .pattern source p =>
    match v with
    | .string s => .every (check (p.occursIn s) path (.noMatch v source))
    | _ => .every []
  | .format f =>
    match v with
    | .string s => .every (check (f.accepts s) path (.badFormat v f.name))
    | _ => .every []
  | .unique =>
    match v with
    | .array xs => .every (check (Json.isUnique xs) path (.repeated v))
    | _ => .every []
  | .items rule =>
    match v with
    | .array xs => .every (xs.zipIdx.map fun (x, i) => .ask rule x (path.item i))
    | _ => .every []
  | .tuple rules =>
    match v with
    | .array xs => .every ((xs.zipIdx.zip rules).map fun ((x, i), r) => .ask r x (path.item i))
    | _ => .every []
  | .restItems after rule =>
    match v with
    | .array xs => .every ((xs.zipIdx.drop after).map fun (x, i) => .ask rule x (path.item i))
    | _ => .every []
  | .noItems after =>
    match v with
    | .array xs =>
      .every (check (decide (xs.length ≤ after)) path (.extraItems (xs.drop after)))
    | _ => .every []
  | .required names =>
    match v with
    | .object ms => .every (names.flatMap fun n => check (Entries.contains n ms) path (.missing n))
    | _ => .every []
  | .properties rules =>
    match v with
    | .object ms => .every (rules.flatMap fun (k, r) =>
        (Entries.get? k ms).toList.map fun x => .ask r x (path.child k))
    | _ => .every []
  | .patternProperties rules =>
    match v with
    | .object ms => .every (rules.flatMap fun (p, r) =>
        (ms.filter (p.occursIn ·.1)).map fun (k, x) => .ask r x (path.child k))
    | _ => .every []
  | .additional known patterns rule =>
    match v with
    | .object ms =>
      .every (askMembers known patterns path (fun k x => [.ask rule x (path.child k)]) ms)
    | _ => .every []
  | .noAdditional known patterns =>
    match v with
    | .object ms => .every (askKnown mode known patterns path ms)
    | _ => .every []
  | .noProperties =>
    match v with
    | .object ((_, x) :: _) => .every [.wrong path (.forbidden x)]
    | _ => .every []
  | .dependencies rules =>
    match v with
    | .object ms => .every (rules.flatMap fun (k, r) =>
        if Entries.contains k ms then [.ask r v path] else [])
    | _ => .every []

/-- Violations that end a search. -/
def Mode.stops : Mode → Violations → Bool
  | first, _ :: _ => true
  | _, _ => false

section Judging
variable (sub : Mode → Rule → Json → Pointer → Option Violations)

def Step.run (mode : Mode) : Step → Option Violations
  | wrong path c => some [⟨path, c⟩]
  | ask rule v path => sub mode rule v path

def gather (mode : Mode) : List Step → Option Violations
  | [] => some []
  | step :: rest =>
    match step.run sub mode with
    | none => none
    | some here => if mode.stops here then some here else (gather mode rest).map (here ++ ·)

variable (v : Json) (path : Pointer)

def fits (rule : Rule) : Option Bool := (sub .first rule v path).map List.isEmpty

/-- Rules are asked one after the other up to the first that fits. -/
def anyFits : List Rule → Option Bool
  | [] => some false
  | r :: rules =>
    match fits sub v path r with
    | none => none
    | some true => some true
    | some false => anyFits rules

/-- The first rule that fits is looked for, and then another. -/
def oneFits : List Rule → Option Violations
  | [] => some [⟨path, .noneOfOne v⟩]
  | r :: rules =>
    match fits sub v path r with
    | none => none
    | some true =>
      (anyFits sub v path rules).map fun other => if other then [⟨path, .severalOfOne v⟩] else []
    | some false => oneFits rules

def judge (mode : Mode) : Demand → Option Violations
  | .every steps => gather sub mode steps
  | .anyOf rules =>
    (anyFits sub v path rules).map fun ok => if ok then [] else [⟨path, .noneOfAny v⟩]
  | .oneOf rules => oneFits sub v path rules
  | .exclude shown rule =>
    (fits sub v path rule).map fun ok => if ok then [⟨path, .excluded v shown⟩] else []

end Judging

/-- `fuel` bounds the steps into rules, references and values; there is no result where it does not
suffice. -/
def violations (table : List (String × Rule)) :
    Nat → Mode → Rule → Json → Pointer → Option Violations
  | 0, _, _, _, _ => none
  | fuel + 1, mode, rule, v, path =>
    judge (violations table fuel) v path mode (rule.demand table mode v path)

mutual
/-- A rule and all rules in it. -/
def Rule.within : Rule → List Rule
  | .all rules => .all rules :: withinRules rules
  | .anyOf rules => .anyOf rules :: withinRules rules
  | .oneOf rules => .oneOf rules :: withinRules rules
  | .exclude shown rule => .exclude shown rule :: rule.within
  | .items rule => .items rule :: rule.within
  | .tuple rules => .tuple rules :: withinRules rules
  | .restItems after rule => .restItems after rule :: rule.within
  | .properties rules => .properties rules :: withinNamed rules
  | .patternProperties rules => .patternProperties rules :: withinPatterns rules
  | .additional known patterns rule =>
    .additional known patterns rule :: (rule.within ++ (withinNamed known ++ withinPatterns patterns))
  | .noAdditional known patterns =>
    .noAdditional known patterns :: (withinNamed known ++ withinPatterns patterns)
  | .dependencies rules => .dependencies rules :: withinNamed rules
  | rule => [rule]

def withinRules : List Rule → List Rule
  | [] => []
  | r :: rules => r.within ++ withinRules rules

def withinNamed : List (String × Rule) → List Rule
  | [] => []
  | (_, r) :: rules => r.within ++ withinNamed rules

def withinPatterns : List (Pattern × Rule) → List Rule
  | [] => []
  | (_, r) :: rules => r.within ++ withinPatterns rules
end

namespace Rules

/-- All rules that can be asked. -/
def all (r : Rules) : List Rule := r.root.within ++ withinNamed r.table

/-- As many steps as there are modes, rules and parts of a value to meet. -/
def steps (r : Rules) (v : Json) : Nat := 2 * (r.all.length * v.size)

/-- A check that has not ended after so many steps has come back to where it was, and never ends. -/
def violations (r : Rules) (v : Json) : Option Violations :=
  Validation.violations r.table (r.steps v) .all r.root v .root

end Rules
end ApiPayload.Validation
