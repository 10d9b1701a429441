import ApiPayload.Proofs.RuleReadings

/-
Keywords of schemas. Most of them speak of values of one kind and have nothing to say about null; those
that ask other schemas go by what the schemas say.
-/
namespace ApiPayload

namespace Validation

namespace Reading
variable {α β : Type} {P : β → Prop} {x : Reading α} {f : α → Reading β} {b : β}

/-- What a reading comes to, if it comes to anything. -/
def Gives (P : β → Prop) (x : Reading β) : Prop := ∀ b, x.result = .ok b → P b

theorem gives_pure (h : P b) : Gives P (pure b) := by
  intro _ same
  cases same
  exact h

theorem gives_bind (h : ∀ a, Gives P (f a)) : Gives P (x >>= f) := by
  intro b read
  obtain ⟨a, _, read⟩ := result_bind.mp read
  exact h a b read

theorem gives_complain (c : Complaint) : Gives P (complain c) := fun _ none => nomatch none

end Reading

section Spared
variable {table : List (String × Rule)} {n : Nat} {rule : Rule} {path : Pointer}
  {sub : Json → Reading Rule} {ms : List (String × Json)} {key : String} {x : Json}

/-- Rules for values of some kind have nothing to say about null. -/
def Rule.sparesNull : Rule → Bool
  | .limit .. | .multipleOf _ | .count .. | .pattern .. | .format _ | .unique | .items _ | .tuple _
  | .restItems .. | .noItems _ | .required _ | .properties _ | .patternProperties _ | .additional ..
  | .noAdditional .. | .noProperties | .dependencies _ => true
  | _ => false

theorem violations_spared (spared : rule.sparesNull = true) :
    violations table (n + 1) .all rule .null path = some [] := by
  cases rule with
  | count measure => cases measure <;> rfl
  | never | ref | all | anyOf | oneOf | exclude | type | enum => cases spared
  | _ => rfl

/-- The keywords with something to say about null. -/
def nullKeywords : List String := ["type", "enum", "allOf", "anyOf", "oneOf", "not"]

/-- All rules that a reading gives have nothing to say about null. -/
def Spares (x : Reading (List Rule)) : Prop :=
  Reading.Gives (fun rules => ∀ r ∈ rules, r.sparesNull = true) x

theorem spares_nil : Spares (pure []) := Reading.gives_pure fun _ none => nomatch none

theorem spares_one (spared : rule.sparesNull = true) : Spares (pure [rule]) :=
  Reading.gives_pure fun _ member => (List.mem_singleton.mp member).symm ▸ spared

open Reading in
theorem spares_restItems : Spares (Rule.readRestItems sub ms x) := by
  unfold Rule.readRestItems
  split
  · exact gives_bind fun _ => spares_one rfl
  · exact spares_one rfl
  · exact spares_nil

open Reading in
theorem spares_additional : Spares (Rule.readAdditional sub ms x) := by
  have last : ∀ patterns known, Spares (if x = .bool false then
      pure [if !Entries.contains "properties" ms && !Entries.contains "patternProperties" ms then
        .noProperties else .noAdditional known patterns]
      else do return [.additional known patterns (← sub x)]) := by
    intro patterns known
    split
    · refine spares_one ?_
      split <;> rfl
    · exact gives_bind fun _ => spares_one rfl
  unfold Rule.readAdditional
  dsimp only
  split <;> refine gives_bind fun patterns => ?_ <;> split
  case isTrue | isTrue => exact spares_nil
  all_goals split <;> exact gives_bind fun known => last patterns known

open Reading in
theorem spares_required : Spares (do return [← Rule.readRequired x]) := by
  unfold Rule.readRequired
  rw [bind_assoc]
  refine gives_bind fun _ => ?_
  rw [bind_assoc]
  exact gives_bind fun _ => spares_one rfl

open Reading in
theorem spares_keyword (other : key ∉ nullKeywords) : Spares (Rule.readKeyword sub ms key x) := by
  unfold Rule.readKeyword
  split -- by keyword, in the order of the reader
  case h_1 | h_2 | h_22 | h_23 | h_24 | h_25 => exact absurd (by decide) other
  case h_12 => exact gives_bind fun _ => gives_bind fun _ => spares_one rfl
  case h_13 => -- format
    refine gives_bind fun _ => ?_
    split
    · exact spares_one rfl
    · exact spares_nil
  case h_14 => -- uniqueItems
    split
    · split
      · exact spares_one rfl
      · exact spares_nil
    · exact gives_complain _
  case h_15 => -- items
    split
    · exact gives_bind fun _ => spares_one rfl
    · exact gives_bind fun _ => spares_one rfl
    · exact gives_bind fun _ => spares_one rfl
    · exact spares_nil
  case h_16 => exact spares_restItems
  case h_17 => exact spares_required
  case h_18 | h_19 =>
    split
    · exact spares_nil
    · exact gives_bind fun _ => spares_one rfl
  case h_20 => exact spares_additional
  case h_21 => exact gives_bind fun _ => gives_bind fun _ => spares_one rfl
  case h_26 => exact spares_nil
  all_goals exact gives_bind fun _ => spares_one rfl

end Spared

namespace Rules

/-- Whether the rules of a schema find nothing wrong with a value, with so many steps to go. -/
def passes (r : Rules) (n : Nat) (v schema : Json) : Bool :=
  match (Rule.ofJson schema).result with
  | .ok rule => passed (Validation.violations r.table n) v .root rule
  | .error _ => false

/-- The check of a value by a schema has no result with so many steps to go. -/
def Unending (r : Rules) (n : Nat) (v schema : Json) : Prop :=
  ∃ rule, (Rule.ofJson schema).result = .ok rule ∧ Validation.violations r.table n .all rule v .root = none

end Rules

section Passed
variable {r : Rules} {n k : Nat} {v schema : Json} {parts : List Json} {rs : List Rule} {rule : Rule}

theorem ofJson_of_read (small : schema.size ≤ k) (read : (Rule.read k schema).result = .ok rule) :
    (Rule.ofJson schema).result = .ok rule := by
  rw [read_enough small (Nat.le_refl schema.size)] at read
  exact read

theorem passes_of_read (small : schema.size ≤ k) (read : (Rule.read k schema).result = .ok rule) :
    r.passes n v schema = passed (violations r.table n) v .root rule := by
  rw [Rules.passes, ofJson_of_read small read]

theorem ends_of_read (small : schema.size ≤ k) (read : (Rule.read k schema).result = .ok rule)
    (ends : ¬ r.Unending n v schema) : violations r.table n .all rule v .root ≠ none :=
  fun never => ends ⟨rule, ofJson_of_read small read, never⟩

/-- Rules of a list of schemas pass what the schemas pass. -/
theorem passes_of_parts (small : ∀ part ∈ parts, part.size ≤ k)
    (read : (parts.mapM (Rule.read k)).result = .ok rs) :
    rs.map (passed (violations r.table n) v .root) = parts.map (r.passes n v) := by
  have each := Reading.result_mapM.mp read
  clear read
  induction each with
  | nil => rfl
  | cons first _ ih =>
    rw [List.map_cons, List.map_cons, ih fun part member => small part (List.mem_cons_of_mem _ member),
      passes_of_read (small _ List.mem_cons_self) first]

theorem ends_of_parts (small : ∀ part ∈ parts, part.size ≤ k)
    (read : (parts.mapM (Rule.read k)).result = .ok rs) (ends : ∀ part ∈ parts, ¬ r.Unending n v part) :
    ∀ rule ∈ rs, violations r.table n .all rule v .root ≠ none := by
  intro rule member
  obtain ⟨part, listed, first⟩ := exists_of_forall₂ (Reading.result_mapM.mp read).flip member
  exact ends_of_read (small part listed) first (ends part listed)

section Asked
variable {ms : List (String × Json)} {key : String} {Q : Prop}

/-- A keyword with a list of schemas, and what it makes of their rules. -/
structure Asks (ms : List (String × Json)) (key : String) (parts : List Json) (wrap : List Rule → Rule) : Prop where
  listed : (key, .array parts) ∈ ms
  reads : ∀ sub, Rule.readKeyword sub ms key (.array parts) = do return [wrap (← parts.mapM sub)]

namespace Asks
variable {wrap : List Rule → Rule} (h : Asks ms key parts wrap)
include h

theorem small : ∀ part ∈ parts, part.size ≤ Json.sizeMembers ms := by
  intro part member
  have whole := Json.size_le_of_mem_members h.listed
  have inner := Json.size_le_of_mem_items member
  rw [Json.size] at whole
  omega

theorem read_iff {rules : List Rule} :
    (Rule.readKeyword (Rule.read (Json.sizeMembers ms)) ms key (.array parts)).result = .ok rules ↔
      ∃ rs, (parts.mapM (Rule.read (Json.sizeMembers ms))).result = .ok rs ∧ rules = [wrap rs] := by
  rw [h.reads, Reading.result_bind]
  refine exists_congr fun rs => and_congr_right fun _ => ?_
  rw [Reading.result_pure, Except.ok.injEq, eq_comm]

/-- A keyword whose check ends finds nothing wrong if its schemas are read and their verdicts are as it wants
them. -/
theorem admits (ends : Ends r.table (n + 1) ms v .root key (.array parts))
    (judges : ∀ rs, rs.map (passed (violations r.table n) v .root) = parts.map (r.passes n v) →
      violations r.table (n + 1) .all (wrap rs) v .root ≠ none →
        (violations r.table (n + 1) .all (wrap rs) v .root = some [] ↔ Q)) :
    Admits r.table (n + 1) ms v .root key (.array parts) ↔ Readable ms key (.array parts) ∧ Q := by
  constructor
  · rintro ⟨rules, read, none⟩
    obtain ⟨rs, parsed, rfl⟩ := h.read_iff.mp read
    have wanted := judges rs (passes_of_parts h.small parsed) (ends _ read _ (List.mem_singleton_self _))
    exact ⟨⟨_, read⟩, wanted.mp (none _ (List.mem_singleton_self _))⟩
  · rintro ⟨⟨rules, read⟩, wanted⟩
    obtain ⟨rs, parsed, rfl⟩ := h.read_iff.mp read
    refine ⟨_, read, List.forall_mem_singleton.mpr ?_⟩
    exact (judges rs (passes_of_parts h.small parsed) (ends _ read _ (List.mem_singleton_self _))).mpr wanted

/-- The check of a keyword ends if the checks of its schemas do. -/
theorem ends (each : ∀ part ∈ parts, ¬ r.Unending n v part)
    (judges : ∀ rs, (∀ rule ∈ rs, violations r.table n .all rule v .root ≠ none) →
      violations r.table (n + 1) .all (wrap rs) v .root ≠ none) :
    Ends r.table (n + 1) ms v .root key (.array parts) := by
  intro rules read
  obtain ⟨rs, parsed, rfl⟩ := h.read_iff.mp read
  exact List.forall_mem_singleton.mpr (judges rs (ends_of_parts h.small parsed each))

end Asks

theorem first_ends (each : ∀ rule ∈ rs, violations r.table n .all rule v .root ≠ none) :
    ∀ rule ∈ rs, violations r.table n .first rule v .root ≠ none :=
  fun rule member => (modes_agree r.table n rule v .root).ends (each rule member)

theorem asks_allOf (listed : ("allOf", .array parts) ∈ ms) : Asks ms "allOf" parts .all := ⟨listed, fun _ => rfl⟩

theorem asks_anyOf (listed : ("anyOf", .array parts) ∈ ms) : Asks ms "anyOf" parts .anyOf := ⟨listed, fun _ => rfl⟩

theorem asks_oneOf (listed : ("oneOf", .array parts) ∈ ms) : Asks ms "oneOf" parts .oneOf := ⟨listed, fun _ => rfl⟩

theorem admits_allOf (listed : ("allOf", .array parts) ∈ ms)
    (ends : Ends r.table (n + 1) ms v .root "allOf" (.array parts)) :
    Admits r.table (n + 1) ms v .root "allOf" (.array parts) ↔
      Readable ms "allOf" (.array parts) ∧ ∀ part ∈ parts, r.passes n v part = true := by
  refine (asks_allOf listed).admits ends fun rs same _ => ?_
  have verdicts := congrArg (List.all · id) same
  simp only [List.all_map, Function.id_comp] at verdicts
  rw [violations_all, ← List.all_eq_true, ← verdicts, List.all_eq_true]
  refine forall₂_congr fun rule _ => ?_
  rw [passed_iff, (modes_agree r.table n rule v .root).nil_iff]

theorem admits_anyOf (listed : ("anyOf", .array parts) ∈ ms)
    (ends : Ends r.table (n + 1) ms v .root "anyOf" (.array parts)) :
    Admits r.table (n + 1) ms v .root "anyOf" (.array parts) ↔
      Readable ms "anyOf" (.array parts) ∧ ∃ part ∈ parts, r.passes n v part = true := by
  refine (asks_anyOf listed).admits ends fun rs same done => ?_
  have verdicts := congrArg (List.any · id) same
  simp only [List.any_map, Function.id_comp] at verdicts
  obtain ⟨vs, done⟩ := Option.ne_none_iff_exists'.mp done
  obtain ⟨ok, asked, rfl⟩ := Option.map_eq_some_iff.mp done
  rw [done, ← List.any_eq_true, ← verdicts, anyFits_eq asked]
  cases ok <;> simp

theorem admits_oneOf (listed : ("oneOf", .array parts) ∈ ms)
    (ends : Ends r.table (n + 1) ms v .root "oneOf" (.array parts)) :
    Admits r.table (n + 1) ms v .root "oneOf" (.array parts) ↔
      Readable ms "oneOf" (.array parts) ∧ parts.countP (r.passes n v) = 1 := by
  refine (asks_oneOf listed).admits ends fun rs same done => ?_
  have verdicts := congrArg (List.countP id) same
  simp only [List.countP_map, Function.id_comp] at verdicts
  obtain ⟨vs, done⟩ := Option.ne_none_iff_exists'.mp done
  rw [done, Option.some.injEq, ← verdicts]
  exact oneFits_eq_nil done

theorem ends_allOf (listed : ("allOf", .array parts) ∈ ms) (each : ∀ part ∈ parts, ¬ r.Unending n v part) :
    Ends r.table (n + 1) ms v .root "allOf" (.array parts) :=
  (asks_allOf listed).ends each fun _ => ends_all.mpr

theorem ends_anyOf (listed : ("anyOf", .array parts) ∈ ms) (each : ∀ part ∈ parts, ¬ r.Unending n v part) :
    Ends r.table (n + 1) ms v .root "anyOf" (.array parts) := by
  refine (asks_anyOf listed).ends each fun rs rules => ?_
  rw [violations, Rule.demand, judge, Ne, Option.map_eq_none_iff]
  exact anyFits_ends (first_ends rules)

theorem ends_oneOf (listed : ("oneOf", .array parts) ∈ ms) (each : ∀ part ∈ parts, ¬ r.Unending n v part) :
    Ends r.table (n + 1) ms v .root "oneOf" (.array parts) :=
  (asks_oneOf listed).ends each fun _ rules => oneFits_ends (first_ends rules)

theorem read_not {rules : List Rule} :
    (Rule.readKeyword (Rule.read (Json.sizeMembers ms)) ms "not" schema).result = .ok rules ↔
      ∃ rule, (Rule.read (Json.sizeMembers ms) schema).result = .ok rule ∧ rules = [.exclude schema rule] := by
  have reads : ∀ sub, Rule.readKeyword sub ms "not" schema = do return [.exclude schema (← sub schema)] :=
    fun _ => rfl
  rw [reads, Reading.result_bind]
  refine exists_congr fun rule => and_congr_right fun _ => ?_
  rw [Reading.result_pure, Except.ok.injEq, eq_comm]

section Not
variable (listed : ("not", schema) ∈ ms)
include listed

theorem admits_not (ends : Ends r.table (n + 1) ms v .root "not" schema) :
    Admits r.table (n + 1) ms v .root "not" schema ↔ Readable ms "not" schema ∧ r.passes n v schema = false := by
  have small := Json.size_le_of_mem_members listed
  have judges : ∀ rule, (Rule.read (Json.sizeMembers ms) schema).result = .ok rule →
      violations r.table (n + 1) .all (.exclude schema rule) v .root ≠ none →
      (violations r.table (n + 1) .all (.exclude schema rule) v .root = some [] ↔ r.passes n v schema = false) := by
    intro rule read done
    obtain ⟨vs, done⟩ := Option.ne_none_iff_exists'.mp done
    obtain ⟨ok, asked, rfl⟩ := Option.map_eq_some_iff.mp done
    rw [done, passes_of_read small read, passed_of_fits asked]
    cases ok <;> simp
  constructor
  · rintro ⟨rules, read, none⟩
    obtain ⟨rule, parsed, rfl⟩ := read_not.mp read
    exact ⟨⟨_, read⟩, (judges rule parsed (ends _ read _ (List.mem_singleton_self _))).mp
      (none _ (List.mem_singleton_self _))⟩
  · rintro ⟨⟨rules, read⟩, fails⟩
    obtain ⟨rule, parsed, rfl⟩ := read_not.mp read
    refine ⟨_, read, List.forall_mem_singleton.mpr ?_⟩
    exact (judges rule parsed (ends _ read _ (List.mem_singleton_self _))).mpr fails

theorem ends_not (ends : ¬ r.Unending n v schema) : Ends r.table (n + 1) ms v .root "not" schema := by
  intro rules read
  obtain ⟨rule, parsed, rfl⟩ := read_not.mp read
  refine List.forall_mem_singleton.mpr ?_
  rw [violations, Rule.demand, judge, Ne, Option.map_eq_none_iff]
  have done := ends_of_read (Json.size_le_of_mem_members listed) parsed ends
  exact fits_ends ((modes_agree r.table n rule v .root).ends done)

end Not
end Asked
end Passed

end Validation
end ApiPayload
