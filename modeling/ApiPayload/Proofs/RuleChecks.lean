import Mathlib.Data.List.ProdSigma
import ApiPayload.Proofs.Places
import ApiPayload.Proofs.Saturation
import ApiPayload.Validation.Rule

/-
Checks by rules that end, and checks that do not. A rule only asks rules that it holds or refers to, and only of
parts of its value, so a check that has not ended when it has had a step for each of them never ends. The search
for one violation ends wherever the search for all does, and finds one just if there are any.
-/
namespace ApiPayload.Validation

section Gathering
variable {sub sub' : Mode → Rule → Json → Pointer → Option Violations} {mode : Mode} {v : Json} {path : Pointer}
  {steps : List Step} {rules : List Rule} {vs : Violations} {b : Bool}

/-- No step finds anything wrong just if the whole does not. -/
theorem gather_eq_nil : gather sub mode steps = some [] ↔ ∀ step ∈ steps, step.run sub mode = some [] := by
  induction steps with
  | nil => simp [gather]
  | cons step rest ih =>
    rw [gather, List.forall_mem_cons, ← ih]
    cases step.run sub mode with
    | none => simp
    | some here =>
      cases here with
      | nil => cases mode <;> simp [Mode.stops]
      | cons x xs => cases mode <;> simp [Mode.stops]

/-- Steps that all end are gathered. -/
theorem gather_ends (ends : ∀ step ∈ steps, step.run sub mode ≠ none) : gather sub mode steps ≠ none := by
  induction steps with
  | nil => exact nofun
  | cons step rest ih =>
    obtain ⟨first, later⟩ := List.forall_mem_cons.mp ends
    obtain ⟨here, done⟩ := Option.ne_none_iff_exists'.mp first
    obtain ⟨others, rest⟩ := Option.ne_none_iff_exists'.mp (ih later)
    rw [gather, done, rest]
    dsimp only
    split <;> exact nofun

/-- Where all violations are gathered, all steps end. -/
theorem ends_of_gather (ends : gather sub .all steps ≠ none) : ∀ step ∈ steps, step.run sub .all ≠ none := by
  induction steps with
  | nil => exact fun _ none => absurd none List.not_mem_nil
  | cons step rest ih =>
    rw [gather] at ends
    cases first : step.run sub .all with
    | none =>
      rw [first] at ends
      exact absurd rfl ends
    | some here =>
      rw [first] at ends
      refine List.forall_mem_cons.mpr ⟨by rw [first]; exact nofun, ih fun pending => ends ?_⟩
      rw [pending]
      rfl

/-- A rule fits a value if its search finds nothing wrong. -/
def passed (sub : Mode → Rule → Json → Pointer → Option Violations) (v : Json) (path : Pointer) (rule : Rule) : Bool :=
  (sub .first rule v path).any List.isEmpty

theorem passed_iff {rule : Rule} : passed sub v path rule = true ↔ sub .first rule v path = some [] := by
  unfold passed
  cases sub .first rule v path <;> simp

theorem passed_of_fits {rule : Rule} (done : fits sub v path rule = some b) : passed sub v path rule = b := by
  obtain ⟨vs, found, rfl⟩ := Option.map_eq_some_iff.mp done
  rw [passed, found]
  rfl

theorem anyFits_cons {r : Rule} : anyFits sub v path (r :: rules) = some b ↔
    (fits sub v path r = some true ∧ b = true) ∨
      (fits sub v path r = some false ∧ anyFits sub v path rules = some b) := by
  rw [anyFits]
  rcases fits sub v path r with _ | _ | _ <;> simp [eq_comm]

theorem oneFits_cons {r : Rule} : oneFits sub v path (r :: rules) = some vs ↔
    (fits sub v path r = some true ∧ ∃ other, anyFits sub v path rules = some other ∧
      (if other then [⟨path, .severalOfOne v⟩] else []) = vs) ∨
      (fits sub v path r = some false ∧ oneFits sub v path rules = some vs) := by
  rw [oneFits]
  rcases fits sub v path r with _ | _ | _ <;> simp

theorem anyFits_eq (done : anyFits sub v path rules = some b) : rules.any (passed sub v path) = b := by
  induction rules with
  | nil => exact Option.some.inj done
  | cons r rest ih =>
    rcases anyFits_cons.mp done with ⟨fit, rfl⟩ | ⟨unfit, later⟩
    · rw [List.any_cons, passed_of_fits fit, Bool.true_or]
    · rw [List.any_cons, passed_of_fits unfit, Bool.false_or, ih later]

/-- One rule fits and no other, just if the search for the first and another finds nothing wrong. -/
theorem oneFits_eq_nil (done : oneFits sub v path rules = some vs) :
    vs = [] ↔ rules.countP (passed sub v path) = 1 := by
  induction rules with
  | nil =>
    rw [← Option.some.inj done]
    simp
  | cons r rest ih =>
    rcases oneFits_cons.mp done with ⟨fit, other, later, rfl⟩ | ⟨unfit, later⟩
    · have others := anyFits_eq later
      rw [List.countP_cons, passed_of_fits fit]
      cases other with
      | true => simpa using others
      | false => simpa [List.countP_eq_zero] using others
    · rw [List.countP_cons, passed_of_fits unfit]
      exact ih later

theorem fits_ends {rule : Rule} (ends : sub .first rule v path ≠ none) : fits sub v path rule ≠ none := by
  rw [fits, Ne, Option.map_eq_none_iff]
  exact ends

theorem anyFits_ends (ends : ∀ r ∈ rules, sub .first r v path ≠ none) : anyFits sub v path rules ≠ none := by
  induction rules with
  | nil => exact nofun
  | cons r rest ih =>
    obtain ⟨first, later⟩ := List.forall_mem_cons.mp ends
    obtain ⟨fit, here⟩ := Option.ne_none_iff_exists'.mp (fits_ends first)
    rw [anyFits, here]
    cases fit with
    | true => exact nofun
    | false => exact ih later

theorem oneFits_ends (ends : ∀ r ∈ rules, sub .first r v path ≠ none) : oneFits sub v path rules ≠ none := by
  induction rules with
  | nil => exact nofun
  | cons r rest ih =>
    obtain ⟨first, later⟩ := List.forall_mem_cons.mp ends
    obtain ⟨fit, here⟩ := Option.ne_none_iff_exists'.mp (fits_ends first)
    rw [oneFits, here]
    cases fit with
    | true =>
      rw [Ne, Option.map_eq_none_iff]
      exact anyFits_ends later
    | false => exact ih later

theorem gather_below (each : ∀ step ∈ steps, ∀ vs, step.run sub mode = some vs → step.run sub' mode = some vs)
    (done : gather sub mode steps = some vs) : gather sub' mode steps = some vs := by
  induction steps generalizing vs with
  | nil => exact done
  | cons step rest ih =>
    obtain ⟨first, later⟩ := List.forall_mem_cons.mp each
    rw [gather] at done ⊢
    cases here : step.run sub mode with
    | none =>
      rw [here] at done
      cases done
    | some found =>
      rw [here] at done
      rw [first found here]
      dsimp only at done ⊢
      split
      · rename_i stops
        rwa [if_pos stops] at done
      · rename_i goes
        rw [if_neg goes] at done
        obtain ⟨others, rest, same⟩ := Option.map_eq_some_iff.mp done
        exact Option.map_eq_some_iff.mpr ⟨others, ih later rest, same⟩

theorem fits_below {rule : Rule} (same : ∀ vs, sub .first rule v path = some vs → sub' .first rule v path = some vs)
    (done : fits sub v path rule = some b) : fits sub' v path rule = some b := by
  obtain ⟨vs, done, eq⟩ := Option.map_eq_some_iff.mp done
  exact Option.map_eq_some_iff.mpr ⟨vs, same vs done, eq⟩

theorem anyFits_below (each : ∀ r ∈ rules, ∀ vs, sub .first r v path = some vs → sub' .first r v path = some vs)
    (done : anyFits sub v path rules = some b) : anyFits sub' v path rules = some b := by
  induction rules with
  | nil => exact done
  | cons r rest ih =>
    obtain ⟨first, later⟩ := List.forall_mem_cons.mp each
    rcases anyFits_cons.mp done with ⟨fit, same⟩ | ⟨unfit, tail⟩
    · exact anyFits_cons.mpr (.inl ⟨fits_below first fit, same⟩)
    · exact anyFits_cons.mpr (.inr ⟨fits_below first unfit, ih later tail⟩)

theorem oneFits_below (each : ∀ r ∈ rules, ∀ vs, sub .first r v path = some vs → sub' .first r v path = some vs)
    (done : oneFits sub v path rules = some vs) : oneFits sub' v path rules = some vs := by
  induction rules with
  | nil => exact done
  | cons r rest ih =>
    obtain ⟨first, later⟩ := List.forall_mem_cons.mp each
    rcases oneFits_cons.mp done with ⟨fit, other, tail, same⟩ | ⟨unfit, tail⟩
    · exact oneFits_cons.mpr (.inl ⟨fits_below first fit, other, anyFits_below later tail, same⟩)
    · exact oneFits_cons.mpr (.inr ⟨fits_below first unfit, ih later tail⟩)

end Gathering

/-- What a demand asks for next. -/
def Demand.asks (mode : Mode) (v : Json) (path : Pointer) : Demand → List (Mode × Rule × Pointer × Json)
  | every steps => steps.filterMap fun
    | .ask rule x q => some (mode, rule, q, x)
    | .wrong .. => none
  | anyOf rules | oneOf rules => rules.map fun r => (.first, r, path, v)
  | exclude _ rule => [(.first, rule, path, v)]

theorem judge_below {sub sub' : Mode → Rule → Json → Pointer → Option Violations} {mode : Mode} {v : Json}
    {path : Pointer} {d : Demand} {vs : Violations}
    (each : ∀ t ∈ d.asks mode v path, ∀ vs, sub t.1 t.2.1 t.2.2.2 t.2.2.1 = some vs →
      sub' t.1 t.2.1 t.2.2.2 t.2.2.1 = some vs)
    (done : judge sub v path mode d = some vs) : judge sub' v path mode d = some vs := by
  cases d with
  | every steps =>
    refine gather_below (fun step member vs done => ?_) done
    cases step with
    | wrong => exact done
    | ask rule x q =>
      exact each (mode, rule, q, x) (List.mem_filterMap.mpr ⟨_, member, rfl⟩) vs done
  | anyOf rules =>
    obtain ⟨ok, done, same⟩ := Option.map_eq_some_iff.mp done
    refine Option.map_eq_some_iff.mpr ⟨ok, anyFits_below (fun r member => ?_) done, same⟩
    exact each (.first, r, path, v) (List.mem_map_of_mem member)
  | oneOf rules =>
    exact oneFits_below (fun r member => each (.first, r, path, v) (List.mem_map_of_mem member)) done
  | exclude shown rule =>
    obtain ⟨ok, done, same⟩ := Option.map_eq_some_iff.mp done
    exact Option.map_eq_some_iff.mpr
      ⟨ok, fits_below (each (.first, rule, path, v) (List.mem_singleton_self _)) done, same⟩

section Within
variable {r x : Rule} {rules : List Rule}

/-- The rules that a rule holds. -/
def Rule.parts : Rule → List Rule
  | all rules | anyOf rules | oneOf rules | tuple rules => rules
  | exclude _ rule | items rule | restItems _ rule => [rule]
  | properties rules | dependencies rules => rules.map (·.2)
  | patternProperties rules => rules.map (·.2)
  | additional known patterns rule => rule :: (known.map (·.2) ++ patterns.map (·.2))
  | noAdditional known patterns => known.map (·.2) ++ patterns.map (·.2)
  | _ => []

theorem withinRules_eq (rules : List Rule) : withinRules rules = rules.flatMap Rule.within := by
  induction rules with
  | nil => rfl
  | cons r rest ih => rw [withinRules, List.flatMap_cons, ih]

theorem withinNamed_eq (rules : List (String × Rule)) :
    withinNamed rules = (rules.map (·.2)).flatMap Rule.within := by
  induction rules with
  | nil => rfl
  | cons r rest ih => rw [withinNamed, List.map_cons, List.flatMap_cons, ih]

theorem withinPatterns_eq (rules : List (Pattern × Rule)) :
    withinPatterns rules = (rules.map (·.2)).flatMap Rule.within := by
  induction rules with
  | nil => rfl
  | cons r rest ih => rw [withinPatterns, List.map_cons, List.flatMap_cons, ih]

theorem within_eq (r : Rule) : r.within = r :: r.parts.flatMap Rule.within := by
  cases r with
  | all | anyOf | oneOf | tuple => rw [Rule.within, withinRules_eq, Rule.parts]
  | properties | dependencies => rw [Rule.within, withinNamed_eq, Rule.parts]
  | patternProperties => rw [Rule.within, withinPatterns_eq, Rule.parts]
  | exclude | items | restItems => rw [Rule.within, Rule.parts, List.flatMap_singleton]
  | additional =>
    rw [Rule.within, withinNamed_eq, withinPatterns_eq, Rule.parts, List.flatMap_cons, List.flatMap_append]
  | noAdditional => rw [Rule.within, withinNamed_eq, withinPatterns_eq, Rule.parts, List.flatMap_append]
  | _ => rfl

theorem within_self (r : Rule) : r ∈ r.within := by
  rw [within_eq]
  exact List.mem_cons_self

theorem length_part (part : x ∈ r.parts) : x.within.length < r.within.length := by
  obtain ⟨before, after, split⟩ := List.append_of_mem part
  rw [within_eq r, split, List.length_cons, List.flatMap_append, List.flatMap_cons, List.length_append,
    List.length_append]
  omega

/-- What is in a part is in the whole. -/
theorem within_trans (inside : x ∈ r.within) : x.within ⊆ r.within := by
  induction size : r.within.length using Nat.strongRecOn generalizing r with
  | ind bound ih =>
    subst size
    rw [within_eq r] at inside
    rcases List.mem_cons.mp inside with rfl | inside
    · exact List.Subset.refl _
    · obtain ⟨part, listed, inside⟩ := List.mem_flatMap.mp inside
      have inner := ih _ (length_part listed) inside rfl
      rw [within_eq r]
      exact fun y member => List.mem_cons_of_mem _ (List.mem_flatMap.mpr ⟨part, listed, inner member⟩)

theorem within_part (inside : r ∈ x.within) : ∀ part ∈ r.parts, part ∈ x.within := by
  intro part listed
  refine within_trans inside ?_
  rw [within_eq r]
  exact List.mem_cons_of_mem _ (List.mem_flatMap.mpr ⟨part, listed, within_self part⟩)

end Within

namespace Rules
variable {r : Rules} {rule : Rule} {v : Json}

theorem root_mem (r : Rules) : r.root ∈ r.all := List.mem_append_left _ (within_self _)

theorem part_mem (known : rule ∈ r.all) : ∀ part ∈ rule.parts, part ∈ r.all := by
  intro part listed
  rcases List.mem_append.mp known with inside | inside
  · exact List.mem_append_left _ (within_part inside part listed)
  · rw [withinNamed_eq] at inside
    obtain ⟨top, named, inside⟩ := List.mem_flatMap.mp inside
    rw [all, withinNamed_eq]
    exact List.mem_append_right _ (List.mem_flatMap.mpr ⟨top, named, within_part inside part listed⟩)

theorem table_mem {reference : String} (found : Entries.get? reference r.table = some rule) : rule ∈ r.all := by
  rw [all, withinNamed_eq]
  refine List.mem_append_right _ (List.mem_flatMap.mpr ⟨rule, ?_, within_self rule⟩)
  exact List.mem_map.mpr ⟨_, Entries.mem_of_get? found, rfl⟩

/-- What a check can come to: a mode, a rule and a part of the value at its place. -/
def states (r : Rules) (v : Json) : List (Mode × Rule × Pointer × Json) :=
  [Mode.all, Mode.first] ×ˢ r.all ×ˢ v.spots .root

theorem length_states (r : Rules) (v : Json) : (r.states v).length = r.steps v := by
  rw [states, List.length_product, List.length_product, Json.length_spots]
  rfl

theorem mem_states {mode : Mode} {q : Pointer} {x : Json} :
    (mode, rule, q, x) ∈ r.states v ↔ rule ∈ r.all ∧ (q, x) ∈ v.spots .root := by
  rw [states, List.mem_product, List.mem_product, and_iff_right]
  cases mode <;> simp

end Rules

section Steps
variable {rules : List Rule} {known : List (String × Rule)} {patterns : List (Pattern × Rule)} {v x : Json}
  {path : Pointer} {step : Step} {key : String} {ms : List (String × Json)} {strange : String → Json → List Step}

theorem mem_ask : step ∈ ask rules v path ↔ ∃ r ∈ rules, step = .ask r v path := by
  rw [ask, List.mem_map]
  exact exists_congr fun r => and_congr_right fun _ => eq_comm

theorem mem_check {ok : Bool} {c : Complaint} : step ∈ check ok path c ↔ ok = false ∧ step = .wrong path c := by
  cases ok <;> simp [check]

/-- A property is asked by the rules for it, or is strange. -/
theorem mem_askMembers : step ∈ askMembers known patterns path strange ms ↔ ∃ key x, (key, x) ∈ ms ∧
    ((declared known patterns key = [] ∧ step ∈ strange key x) ∨
      ∃ r ∈ declared known patterns key, step = .ask r x (path.child key)) := by
  rw [askMembers, List.mem_flatMap, Prod.exists]
  refine exists_congr fun key => exists_congr fun x => and_congr_right fun _ => ?_
  dsimp only
  generalize declared known patterns key = rules
  cases rules with
  | nil => simp
  | cons r rest => simp [mem_ask]

theorem declared_subset (known : List (String × Rule)) (patterns : List (Pattern × Rule)) (key : String) :
    declared known patterns key ⊆ known.map (·.2) ++ patterns.map (·.2) := by
  intro r member
  rcases List.mem_append.mp member with member | member
  · have found := Option.mem_toList.mp member
    exact List.mem_append_left _ (List.mem_map_of_mem (Entries.mem_of_get? found))
  · obtain ⟨e, kept, rfl⟩ := List.mem_map.mp member
    exact List.mem_append_right _ (List.mem_map_of_mem (List.mem_filter.mp kept).1)

theorem mem_askKnown_first : step ∈ askKnown .first known patterns path ms ↔ ∃ key x, (key, x) ∈ ms ∧
    ((declared known patterns key = [] ∧ step = .wrong path (.extraProperties [key])) ∨
      ∃ r ∈ declared known patterns key, step = .ask r x (path.child key)) := by
  rw [askKnown, mem_askMembers]
  simp only [List.mem_singleton]

/-- Where all violations are asked for, one stands for all strange properties. -/
theorem mem_askKnown_all : step ∈ askKnown .all known patterns path ms ↔
    (∃ key x, (key, x) ∈ ms ∧ ∃ r ∈ declared known patterns key, step = .ask r x (path.child key)) ∨
    ((∃ key x, (key, x) ∈ ms ∧ declared known patterns key = []) ∧
      step = .wrong path (.extraProperties
        ((ms.map (·.1)).filter fun k => (declared known patterns k).isEmpty))) := by
  rw [askKnown, List.mem_append, mem_askMembers, mem_check, List.isEmpty_eq_false_iff_exists_mem]
  simp only [List.not_mem_nil, and_false, false_or, List.mem_filter, List.mem_map, Prod.exists, exists_and_right,
    exists_eq_right, List.isEmpty_iff]

end Steps

section Asked
variable {r : Rules} {mode : Mode} {rule : Rule} {path : Pointer} {v w : Json} {step : Step}

/-- A step of a check of one value by some rules. -/
def Step.Inside (r : Rules) (w : Json) : Step → Prop
  | wrong .. => True
  | ask rule x q => rule ∈ r.all ∧ (q, x) ∈ w.spots .root

theorem inside_check {ok : Bool} {c : Complaint} : ∀ step ∈ check ok path c, step.Inside r w := by
  intro step member
  rw [(mem_check.mp member).2]
  trivial

theorem inside_askMembers {known : List (String × Rule)} {patterns : List (Pattern × Rule)}
    {ms : List (String × Json)} {strange : String → Json → List Step}
    (rules : known.map (·.2) ++ patterns.map (·.2) ⊆ r.all) (spot : (path, .object ms) ∈ w.spots .root)
    (others : ∀ key x, (key, x) ∈ ms → ∀ step ∈ strange key x, step.Inside r w) :
    ∀ step ∈ askMembers known patterns path strange ms, step.Inside r w := by
  intro step member
  obtain ⟨key, x, listed, ⟨_, aside⟩ | ⟨rule, named, rfl⟩⟩ := mem_askMembers.mp member
  · exact others key x listed step aside
  · exact ⟨rules (declared_subset known patterns key named), Json.spots_member spot listed⟩

theorem inside_askKnown {known : List (String × Rule)} {patterns : List (Pattern × Rule)}
    {ms : List (String × Json)} (rules : known.map (·.2) ++ patterns.map (·.2) ⊆ r.all)
    (spot : (path, .object ms) ∈ w.spots .root) :
    ∀ step ∈ askKnown mode known patterns path ms, step.Inside r w := by
  cases mode with
  | first =>
    rw [askKnown]
    refine inside_askMembers rules spot fun _ _ _ step member => ?_
    rw [List.mem_singleton.mp member]
    trivial
  | all =>
    rw [askKnown]
    refine List.forall_mem_append.mpr ⟨?_, inside_check⟩
    exact inside_askMembers rules spot fun _ _ _ step member => absurd member List.not_mem_nil

/-- What a rule asks next stays among the rules and the parts of the value. -/
theorem inside_demand (known : rule ∈ r.all) (spot : (path, v) ∈ w.spots .root) :
    ∀ t ∈ (rule.demand r.table mode v path).asks mode v path, t ∈ r.states w := by
  have parts := Rules.part_mem known
  have every : ∀ {steps : List Step}, (∀ step ∈ steps, step.Inside r w) →
      ∀ t ∈ (Demand.every steps).asks mode v path, t ∈ r.states w := by
    intro steps inside t member
    obtain ⟨step, listed, asked⟩ := List.mem_filterMap.mp member
    cases step with
    | wrong => cases asked
    | ask rule x q =>
      cases asked
      exact Rules.mem_states.mpr (inside _ listed)
  have here : ∀ rules : List Rule, (∀ part ∈ rules, part ∈ r.all) →
      ∀ t ∈ (rules.map fun r => (Mode.first, r, path, v)), t ∈ r.states w := by
    intro rules inside t member
    obtain ⟨part, listed, rfl⟩ := List.mem_map.mp member
    exact Rules.mem_states.mpr ⟨inside part listed, spot⟩
  have none : ∀ step ∈ ([] : List Step), step.Inside r w := fun _ none => absurd none List.not_mem_nil
  cases rule with
  | never => exact every (List.forall_mem_singleton.mpr trivial)
  | ref reference =>
    refine every fun step member => ?_
    obtain ⟨rule, found, rfl⟩ := mem_ask.mp member
    exact ⟨Rules.table_mem (Option.mem_toList.mp found), spot⟩
  | all rules =>
    refine every fun step member => ?_
    obtain ⟨rule, listed, rfl⟩ := mem_ask.mp member
    exact ⟨parts rule listed, spot⟩
  | anyOf rules => exact here rules parts
  | oneOf rules => exact here rules parts
  | exclude shown rule => exact here [rule] parts
  | type | enum => exact every inside_check
  | limit | multipleOf | pattern | format | unique | noItems =>
    cases v with
    | _ => first | exact every inside_check | exact every none
  | count measure =>
    rw [Rule.demand]
    split
    · exact every inside_check
    · exact every none
  | items rule =>
    cases v with
    | array xs =>
      refine every fun step member => ?_
      obtain ⟨⟨x, i⟩, listed, rfl⟩ := List.mem_map.mp member
      exact ⟨parts rule (List.mem_singleton_self _), Json.spots_item spot (List.mem_zipIdx_iff_getElem?.mp listed)⟩
    | _ => exact every none
  | tuple rules =>
    cases v with
    | array xs =>
      refine every fun step member => ?_
      obtain ⟨⟨⟨x, i⟩, rule⟩, listed, rfl⟩ := List.mem_map.mp member
      obtain ⟨item, listed⟩ := List.of_mem_zip listed
      exact ⟨parts rule listed, Json.spots_item spot (List.mem_zipIdx_iff_getElem?.mp item)⟩
    | _ => exact every none
  | restItems after rule =>
    cases v with
    | array xs =>
      refine every fun step member => ?_
      obtain ⟨⟨x, i⟩, listed, rfl⟩ := List.mem_map.mp member
      have item := List.mem_zipIdx_iff_getElem?.mp (List.mem_of_mem_drop listed)
      exact ⟨parts rule (List.mem_singleton_self _), Json.spots_item spot item⟩
    | _ => exact every none
  | required names =>
    cases v with
    | object ms =>
      refine every fun step member => ?_
      obtain ⟨name, _, member⟩ := List.mem_flatMap.mp member
      exact inside_check step member
    | _ => exact every none
  | properties rules =>
    cases v with
    | object ms =>
      refine every fun step member => ?_
      obtain ⟨⟨key, rule⟩, listed, member⟩ := List.mem_flatMap.mp member
      obtain ⟨x, found, rfl⟩ := List.mem_map.mp member
      have present := Entries.mem_of_get? (Option.mem_toList.mp found)
      exact ⟨parts rule (List.mem_map_of_mem (f := Prod.snd) listed), Json.spots_member spot present⟩
    | _ => exact every none
  | patternProperties rules =>
    cases v with
    | object ms =>
      refine every fun step member => ?_
      obtain ⟨⟨p, rule⟩, listed, member⟩ := List.mem_flatMap.mp member
      obtain ⟨⟨key, x⟩, kept, rfl⟩ := List.mem_map.mp member
      have present := (List.mem_filter.mp kept).1
      exact ⟨parts rule (List.mem_map_of_mem (f := Prod.snd) listed), Json.spots_member spot present⟩
    | _ => exact every none
  | additional named patterns rule =>
    cases v with
    | object ms =>
      have others : named.map (·.2) ++ patterns.map (·.2) ⊆ r.all := fun part listed =>
        parts part (List.mem_cons_of_mem rule listed)
      refine every (inside_askMembers others spot fun key x present step member => ?_)
      rw [List.mem_singleton.mp member]
      exact ⟨parts rule List.mem_cons_self, Json.spots_member spot present⟩
    | _ => exact every none
  | noAdditional known patterns =>
    cases v with
    | object ms => exact every (inside_askKnown parts spot)
    | _ => exact every none
  | noProperties =>
    cases v with
    | object ms =>
      cases ms with
      | nil => exact every none
      | cons m rest => exact every (List.forall_mem_singleton.mpr trivial)
    | _ => exact every none
  | dependencies rules =>
    cases v with
    | object ms =>
      refine every fun step member => ?_
      obtain ⟨⟨key, rule⟩, listed, member⟩ := List.mem_flatMap.mp member
      dsimp only at member
      split at member
      · rw [List.mem_singleton.mp member]
        exact ⟨parts rule (List.mem_map_of_mem (f := Prod.snd) listed), spot⟩
      · exact absurd member List.not_mem_nil
    | _ => exact every none

/-- Each step of a check goes on with the states that one further step allows. -/
theorem Rules.rounds (r : Rules) (w : Json) :
    Rounds (fun n (t : Mode × Rule × Pointer × Json) => Validation.violations r.table n t.1 t.2.1 t.2.2.2 t.2.2.1)
      (r.states w) where
  start _ _ := rfl
  round m n below := by
    rintro ⟨mode, rule, q, x⟩ member vs done
    obtain ⟨known, spot⟩ := mem_states.mp member
    exact judge_below (fun t asked => below t (inside_demand known spot t asked)) done

namespace Rules
variable {n : Nat}

theorem start_mem (r : Rules) (v : Json) : (Mode.all, r.root, Pointer.root, v) ∈ r.states v :=
  mem_states.mpr ⟨r.root_mem, Json.spots_self _ _⟩

/-- More steps change nothing. -/
theorem violations_enough (v : Json) (enough : r.steps v ≤ n) :
    Validation.violations r.table n .all r.root v .root = r.violations v := by
  rw [← length_states] at enough
  have same := (r.rounds v).eq_length (r.start_mem v) enough
  rw [length_states] at same
  exact same

/-- A check without a result never ends. -/
theorem violations_eq_none : r.violations v = none ↔
    ∀ n, Validation.violations r.table n .all r.root v .root = none := by
  refine ⟨fun pending => (r.rounds v).never (r.start_mem v) ?_, fun never => never _⟩
  rw [length_states]
  exact pending

end Rules
end Asked

section Modes
variable {table : List (String × Rule)} {sub : Mode → Rule → Json → Pointer → Option Violations} {path : Pointer}
  {v : Json} {step : Step} {steps : List Step} {rule : Rule} {n : Nat}

/-- The search for one violation is right about whether there are any, and ends where the search for all does. -/
structure Agree (one every : Option Violations) : Prop where
  nil_iff : one = some [] ↔ every = some []
  ends : every ≠ none → one ≠ none

theorem Agree.refl (result : Option Violations) : Agree result result := ⟨Iff.rfl, id⟩

theorem agree_gather (each : ∀ step ∈ steps, Agree (step.run sub .first) (step.run sub .all)) :
    Agree (gather sub .first steps) (gather sub .all steps) where
  nil_iff := by
    rw [gather_eq_nil, gather_eq_nil]
    exact forall₂_congr fun step member => (each step member).nil_iff
  ends done := gather_ends fun step member => (each step member).ends (ends_of_gather done step member)

/-- Properties that are not allowed are found one by one or together. -/
theorem agree_askKnown {known : List (String × Rule)} {patterns : List (Pattern × Rule)} {ms : List (String × Json)}
    (each : ∀ step : Step, Agree (step.run sub .first) (step.run sub .all)) :
    Agree (gather sub .first (askKnown .first known patterns path ms))
      (gather sub .all (askKnown .all known patterns path ms)) := by
  refine ⟨?_, fun done => gather_ends fun step member => ?_⟩
  · rw [gather_eq_nil, gather_eq_nil]
    constructor
    · intro fine step member
      rcases mem_askKnown_all.mp member with ⟨key, x, listed, r, named, rfl⟩ | ⟨⟨key, x, listed, strange⟩, rfl⟩
      · exact (each _).nil_iff.mp (fine _ (mem_askKnown_first.mpr ⟨key, x, listed, .inr ⟨r, named, rfl⟩⟩))
      · cases fine _ (mem_askKnown_first.mpr ⟨key, x, listed, .inl ⟨strange, rfl⟩⟩)
    · intro fine step member
      obtain ⟨key, x, listed, ⟨strange, _⟩ | ⟨r, named, rfl⟩⟩ := mem_askKnown_first.mp member
      · cases fine _ (mem_askKnown_all.mpr (.inr ⟨⟨key, x, listed, strange⟩, rfl⟩))
      · exact (each _).nil_iff.mpr (fine _ (mem_askKnown_all.mpr (.inl ⟨key, x, listed, r, named, rfl⟩)))
  · obtain ⟨key, x, listed, ⟨_, rfl⟩ | ⟨r, named, rfl⟩⟩ := mem_askKnown_first.mp member
    · exact nofun
    · exact (each _).ends (ends_of_gather done _ (mem_askKnown_all.mpr (.inl ⟨key, x, listed, r, named, rfl⟩)))

/-- By induction on the steps. -/
theorem modes_agree (table : List (String × Rule)) (n : Nat) (rule : Rule) (v : Json) (path : Pointer) :
    Agree (violations table n .first rule v path) (violations table n .all rule v path) := by
  induction n generalizing rule v path with
  | zero => exact .refl none
  | succ n ih =>
    have each : ∀ step : Step,
        Agree (step.run (violations table n) .first) (step.run (violations table n) .all) := by
      intro step
      cases step with
      | wrong path c => exact .refl _
      | ask rule x q => exact ih rule x q
    have judged : ∀ d, Agree (judge (violations table n) v path .first d) (judge (violations table n) v path .all d) := by
      intro d
      cases d with
      | every steps => exact agree_gather fun step _ => each step
      | _ => exact .refl _
    cases rule with
    | noAdditional known patterns =>
      cases v with
      | object ms => exact agree_askKnown each
      | _ => exact judged _
    | _ => exact judged _

end Modes
end ApiPayload.Validation
