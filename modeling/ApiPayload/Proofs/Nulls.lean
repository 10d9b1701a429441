import ApiPayload.Proofs.Inversion
import ApiPayload.Proofs.Keywords
import ApiPayload.Proofs.RuleTables
import ApiPayload.Proofs.TagChecks

/-
Null under schemas that may be null. Transforms take null wherever a schema is marked. Rules see a widened
type there and nothing else, so they refuse null where a keyword that speaks of all values refuses it: one
that lists values, or one that asks other schemas.
-/
namespace ApiPayload

namespace Validation

open Reading in
/-- What is read as types is a rule about types. -/
theorem gives_types (x : Json) : Gives (fun rule => ∃ ts : Types, rule = .type ts) (Rule.readType x) := by
  unfold Rule.readType
  split
  · intro rule read
    dsimp only at read
    split at read
    · exact ⟨_, (Except.ok.inj read).symm⟩
    · cases read
  · refine gives_bind fun name rule read => ?_
    dsimp only at read
    split at read
    · exact ⟨_, (Except.ok.inj read).symm⟩
    · cases read
  · exact gives_bind fun ts => gives_pure ⟨_, rfl⟩
  · exact gives_complain _

open Reading in
/-- A list of types with that of null among them covers null. -/
theorem gives_null {types : List Json} (listed : .string "null" ∈ types) :
    Gives (fun rule => ∃ ts : Types, rule = .type ts ∧ ts.cover .null = true)
      (Rule.readType (.array types)) := by
  intro rule read
  match types, listed with
  | [x], listed =>
    obtain rfl := List.mem_singleton.mp listed
    cases read
    exact ⟨.one .null, rfl, rfl⟩
  | x :: y :: rest, listed =>
    obtain ⟨ts, named, made⟩ := result_bind.mp read
    cases made
    obtain ⟨t, member, found⟩ := exists_of_forall₂ (result_mapM.mp named) listed
    obtain rfl : .null = t := Except.ok.inj found
    refine ⟨_, rfl, List.any_eq_true.mpr ⟨.null, List.mem_filter.mpr ⟨?_, ?_⟩, rfl⟩⟩
    · decide
    · exact decide_eq_true member

/-- Keywords that refuse null, by what the schemas that they ask say of it. -/
inductive Bars (passes : Json → Bool) (ms : List (String × Json)) : Prop where
  | unlisted {values : List Json} (listed : Entries.get? "enum" ms = some (.array values))
      (absent : .null ∉ values) : Bars passes ms
  | part {parts : List Json} (listed : Entries.get? "allOf" ms = some (.array parts))
      (fails : ¬ ∀ part ∈ parts, passes part = true) : Bars passes ms
  | noneOf {parts : List Json} (listed : Entries.get? "anyOf" ms = some (.array parts))
      (fail : ¬ ∃ part ∈ parts, passes part = true) : Bars passes ms
  | notOneOf {parts : List Json} (listed : Entries.get? "oneOf" ms = some (.array parts))
      (number : parts.countP passes ≠ 1) : Bars passes ms
  | excluded {schema : Json} (listed : Entries.get? "not" ms = some schema)
      (passed : passes schema = true) : Bars passes ms

/-- Keywords that ask a schema whose check never ends. -/
inductive Circles (endless : Json → Prop) (ms : List (String × Json)) : Prop where
  | part {key : String} {parts : List Json} {schema : Json} (asks : key ∈ ["allOf", "anyOf", "oneOf"])
      (listed : Entries.get? key ms = some (.array parts)) (member : schema ∈ parts)
      (never : endless schema) : Circles endless ms
  | excluded {schema : Json} (listed : Entries.get? "not" ms = some schema) (never : endless schema) :
      Circles endless ms

open PlainSchema

section Plain
variable {es : List (String × Json)} {key : String} {v y : Json} {parts values : List Json} {r : Rules}
  {n : Nat}

/-- Keywords that list values or schemas have no rules for anything else. -/
theorem array_of_readable (many : key ∈ ["enum", "allOf", "anyOf", "oneOf"])
    (read : Readable es key (plain y)) : ∃ parts, y = .array parts := by
  simp only [List.mem_cons, List.not_mem_nil, or_false] at many
  cases y with
  | array parts => exact ⟨parts, rfl⟩
  | _ =>
    obtain ⟨rules, none⟩ := read
    rcases many with rfl | rfl | rfl | rfl <;> cases none

theorem alike_null : v.alike .null = true ↔ v = .null := by
  cases v <;> simp [Json.alike, Json.alikeBy]

theorem plain_eq_null : plain v = .null ↔ v = .null := by
  cases v <;> simp [plain]

/-- Null is listed in a plain schema where it was listed before. -/
theorem admits_enum_null :
    Admits r.table (n + 1) es .null .root "enum" (plain (.array values)) ↔ .null ∈ values := by
  rw [plain, plainItems_eq, admits_enum]
  simp [alike_null, plain_eq_null]

theorem admits_allOf_plain (listed : ("allOf", plain (.array parts)) ∈ es)
    (ends : Ends r.table (n + 1) es v .root "allOf" (plain (.array parts))) :
    Admits r.table (n + 1) es v .root "allOf" (plain (.array parts)) ↔
      Readable es "allOf" (plain (.array parts)) ∧ ∀ part ∈ parts, r.passes n v (plain part) = true := by
  rw [plain, plainItems_eq] at listed ends ⊢
  rw [admits_allOf listed ends, List.forall_mem_map]

theorem admits_anyOf_plain (listed : ("anyOf", plain (.array parts)) ∈ es)
    (ends : Ends r.table (n + 1) es v .root "anyOf" (plain (.array parts))) :
    Admits r.table (n + 1) es v .root "anyOf" (plain (.array parts)) ↔
      Readable es "anyOf" (plain (.array parts)) ∧ ∃ part ∈ parts, r.passes n v (plain part) = true := by
  rw [plain, plainItems_eq] at listed ends ⊢
  rw [admits_anyOf listed ends]
  simp only [List.mem_map, exists_exists_and_eq_and]

theorem admits_oneOf_plain (listed : ("oneOf", plain (.array parts)) ∈ es)
    (ends : Ends r.table (n + 1) es v .root "oneOf" (plain (.array parts))) :
    Admits r.table (n + 1) es v .root "oneOf" (plain (.array parts)) ↔
      Readable es "oneOf" (plain (.array parts)) ∧
        parts.countP (fun part => r.passes n v (plain part)) = 1 := by
  rw [plain, plainItems_eq] at listed ends ⊢
  rw [admits_oneOf listed ends, List.countP_map]
  rfl

end Plain

section Marked
variable {ms : List (String × Json)} {x : Json} {r : Rules} {n : Nat} {rule : Rule}

theorem isMarked_plainMembers (key : String) (ms : List (String × Json)) :
    isMarked key (plainMembers ms) = Schema.isFlagged key ms := by
  rw [isMarked, Schema.isFlagged, plainMembers_eq, Entries.get?_mapValues]
  cases Entries.get? key ms with
  | none => rfl
  | some v => cases v <;> rfl

variable (distinct : (Entries.keys ms).Nodup) (nullable : Schema.isNullable ms = true)
  (lists : ∀ types, Entries.get? "type" ms = some (.array types) → .string "null" ∈ types)
include distinct nullable lists

/-- The type of a schema that may be null is a list with null in it, if anything is left of it. -/
theorem type_widened (found : Entries.get? "type" (retype (plainMembers ms)) = some x)
    (read : (Rule.readType x).result = .ok rule) :
    ∃ types, x = .array types ∧ .string "null" ∈ types := by
  have distinct' := plainMembers_nodup distinct
  have before : Entries.get? "type" (plainMembers ms) = (Entries.get? "type" ms).map plain := by
    rw [plainMembers_eq, Entries.get?_mapValues]
  by_cases text : ∃ t, Entries.get? "type" ms = some (.string t)
  · obtain ⟨t, written⟩ := text
    rw [written] at before
    rw [type_retype distinct' before] at found
    have marked :
        (isMarked "x-nullable" (plainMembers ms) || isMarked "nullable" (plainMembers ms)) = true := by
      rw [isMarked_plainMembers, isMarked_plainMembers]
      simpa [Schema.isNullable, written] using nullable
    rw [marked] at found
    split at found
    · cases found
    · cases found
      exact ⟨_, rfl, List.mem_cons_of_mem _ List.mem_cons_self⟩
  · have none : ∀ t, Entries.get? "type" (plainMembers ms) ≠ some (.string t) := by
      intro t written
      rw [before] at written
      obtain ⟨y, listed, same⟩ := Option.map_eq_some_iff.mp written
      have type := congrArg Json.string? same
      rw [string?_plain] at type
      exact text ⟨t, by rw [listed, Json.string?_eq_some.mp type]⟩
    rw [get?_retype distinct' fun _ => none, before] at found
    obtain ⟨y, listed, rfl⟩ := Option.map_eq_some_iff.mp found
    cases y with
    | array types =>
      rw [plain, plainItems_eq]
      exact ⟨_, rfl, List.mem_map.mpr ⟨_, lists types listed, rfl⟩⟩
    | string t => exact absurd ⟨t, listed⟩ text
    | _ => cases read

theorem admits_type {table : List (String × Rule)}
    (found : Entries.get? "type" (retype (plainMembers ms)) = some x)
    (read : Readable (retype (plainMembers ms)) "type" x) :
    Admits table (n + 1) (retype (plainMembers ms)) .null .root "type" x := by
  obtain ⟨rules, read⟩ := read
  refine ⟨rules, read, ?_⟩
  obtain ⟨rule, typed, made⟩ := Reading.result_bind.mp read
  cases made
  obtain ⟨types, rfl, listed⟩ := type_widened distinct nullable lists found typed
  obtain ⟨ts, rfl, covers⟩ := gives_null listed rule typed
  intro other member
  rw [List.mem_singleton.mp member]
  exact gather_check.mpr covers

omit distinct nullable lists in
/-- The other keywords that speak of all values find nothing wrong with null if they do not bar it. -/
theorem admits_of_not_bars {es : List (String × Json)} {key : String} {y : Json}
    (free : ¬ Bars (fun part => r.passes n .null (plain part)) ms) (written : Entries.get? key ms = some y)
    (listed : (key, plain y) ∈ es) (ends : Ends r.table (n + 1) es .null .root key (plain y))
    (read : Readable es key (plain y)) (speaks : key ∈ nullKeywords)
    (other : key ≠ "type") : Admits r.table (n + 1) es .null .root key (plain y) := by
  simp only [nullKeywords, List.mem_cons, List.not_mem_nil, or_false] at speaks
  rcases speaks with rfl | rfl | rfl | rfl | rfl | rfl
  · exact absurd rfl other
  · obtain ⟨values, rfl⟩ := array_of_readable (by decide) read
    rw [admits_enum_null]
    exact Classical.byContradiction fun absent => free (.unlisted written absent)
  · obtain ⟨parts, rfl⟩ := array_of_readable (by decide) read
    refine (admits_allOf_plain listed ends).mpr ⟨read, ?_⟩
    exact Classical.byContradiction fun fails => free (.part written fails)
  · obtain ⟨parts, rfl⟩ := array_of_readable (by decide) read
    refine (admits_anyOf_plain listed ends).mpr ⟨read, ?_⟩
    exact Classical.byContradiction fun fail => free (.noneOf written fail)
  · obtain ⟨parts, rfl⟩ := array_of_readable (by decide) read
    refine (admits_oneOf_plain listed ends).mpr ⟨read, ?_⟩
    exact Classical.byContradiction fun number => free (.notOneOf written number)
  · refine (admits_not listed ends).mpr ⟨read, ?_⟩
    cases passed : r.passes n .null (plain y) with
    | true => exact absurd (.excluded written passed) free
    | false => rfl

omit distinct nullable lists in
/-- The check of a keyword ends if it asks no schema whose check does not. -/
theorem ends_of_not_circles {es : List (String × Json)} {key : String} {y : Json}
    (free : ¬ Circles (fun part => r.Unending n .null (plain part)) ms) (written : Entries.get? key ms = some y)
    (listed : (key, plain y) ∈ es) (read : Readable es key (plain y)) (speaks : key ∈ nullKeywords)
    (other : key ≠ "type") : Ends r.table (n + 1) es .null .root key (plain y) := by
  have asked : ∀ {parts : List Json}, key ∈ ["allOf", "anyOf", "oneOf"] → y = .array parts →
      ∀ part ∈ plainItems parts, ¬ r.Unending n .null part := by
    rintro parts asks rfl part member never
    rw [plainItems_eq] at member
    obtain ⟨schema, inside, rfl⟩ := List.mem_map.mp member
    exact free (.part asks written inside never)
  simp only [nullKeywords, List.mem_cons, List.not_mem_nil, or_false] at speaks
  rcases speaks with rfl | rfl | rfl | rfl | rfl | rfl
  · exact absurd rfl other
  · obtain ⟨values, rfl⟩ := array_of_readable (by decide) read
    rintro _ ⟨⟩
    exact List.forall_mem_singleton.mpr check_ends
  · obtain ⟨parts, rfl⟩ := array_of_readable (by decide) read
    exact ends_allOf listed (asked (by decide) rfl)
  · obtain ⟨parts, rfl⟩ := array_of_readable (by decide) read
    exact ends_anyOf listed (asked (by decide) rfl)
  · obtain ⟨parts, rfl⟩ := array_of_readable (by decide) read
    exact ends_oneOf listed (asked (by decide) rfl)
  · exact ends_not listed fun never => free (.excluded written never)

section Direct
variable (direct : Entries.get? "$ref" ms = none) (read : (Rule.ofJson (plain (.object ms))).result = .ok rule)
include direct read

omit nullable lists in
theorem ends_null (free : ¬ Circles (fun part => r.Unending n .null (plain part)) ms) :
    violations r.table (n + 2) .all rule .null .root ≠ none := by
  rw [plain] at read
  have distinct' := plain_nodup distinct
  have direct' := direct_plain distinct direct
  rw [ends_direct direct' read]
  rintro ⟨key, x⟩ listed
  have found := Entries.get?_of_mem distinct' listed
  have readings := readable direct' read listed
  by_cases speaks : key ∈ nullKeywords
  · by_cases typed : key = "type"
    · subst typed
      intro rules read
      obtain ⟨rule, typed, made⟩ := Reading.result_bind.mp read
      cases made
      obtain ⟨ts, rfl⟩ := gives_types x rule typed
      exact List.forall_mem_singleton.mpr check_ends
    · rw [get?_plain distinct typed] at found
      obtain ⟨y, written, rfl⟩ := Option.map_eq_some_iff.mp found
      exact ends_of_not_circles free written listed readings speaks typed
  · intro rules read rule given
    rw [violations_spared (spares_keyword speaks rules read rule given)]
    exact nofun

/-- A plain schema that may be null finds nothing wrong with null unless one of the keywords that speak of
all values does, if its check ends. -/
theorem violations_null (ends : violations r.table (n + 2) .all rule .null .root ≠ none) :
    violations r.table (n + 2) .all rule .null .root = some [] ↔
      ¬ Bars (fun part => r.passes n .null (plain part)) ms := by
  rw [plain] at read
  have distinct' := plain_nodup distinct
  have member : ∀ {key y}, key ≠ "type" → Entries.get? key ms = some y →
      (key, plain y) ∈ retype (plainMembers ms) := fun other listed =>
    Entries.mem_of_get? ((get?_plain distinct other).trans (congrArg (Option.map plain) listed))
  have direct' := direct_plain distinct direct
  have each := (ends_direct direct' read).mp ends
  rw [violations_direct direct' read]
  constructor
  · intro all bars
    cases bars with
    | unlisted listed absent => exact absent (admits_enum_null.mp (all _ (member (by decide) listed)))
    | part listed fails =>
      have there := member (by decide) listed
      exact fails ((admits_allOf_plain there (each _ there)).mp (all _ there)).2
    | noneOf listed fail =>
      have there := member (by decide) listed
      exact fail ((admits_anyOf_plain there (each _ there)).mp (all _ there)).2
    | notOneOf listed number =>
      have there := member (by decide) listed
      exact number ((admits_oneOf_plain there (each _ there)).mp (all _ there)).2
    | excluded listed passed =>
      have there := member (by decide) listed
      have fails := ((admits_not there (each _ there)).mp (all _ there)).2
      rw [passed] at fails
      cases fails
  · rintro free ⟨key, x⟩ listed
    have found := Entries.get?_of_mem distinct' listed
    have readings := readable direct' read listed
    by_cases speaks : key ∈ nullKeywords
    · by_cases typed : key = "type"
      · subst typed
        exact admits_type distinct nullable lists found readings
      · rw [get?_plain distinct typed] at found
        obtain ⟨y, written, rfl⟩ := Option.map_eq_some_iff.mp found
        exact admits_of_not_bars free written listed (each _ listed) readings speaks typed
    · obtain ⟨rules, read⟩ := readings
      exact ⟨rules, read, fun rule given => violations_spared (spares_keyword speaks rules read rule given)⟩

end Direct

end Marked

end Validation

/-- The kinds of schema that have a rule for null. -/
def Schema.Kind.rulesNull {α : Type} : Kind α → Bool
  | .primitive .. | .array _ | .object _ | .file => true
  | _ => false

namespace Spec

open Schema Validation

variable {document : Json} {options : Options} {formats : Format.Registry} {s : Spec} {naming : Naming}
  {order : List Pointer} {id : Id} {ms : Members}

/-- Where null may be, a transform gives the default in its place, or null. -/
theorem unmarshal_null (ruled : (s.node id).kind.rulesNull = true) (nullable : (s.node id).nullable = true)
    (uses : List Use) : (s.unmarshal (s.after uses).unmarshal id .null).2 =
      .ok (((s.node id).default.map Native.ofJson).getD .null) := by
  have concrete : s.concrete id = id := concrete_self fun target points => by
    rw [points] at ruled
    cases ruled
  have rule : (s.plan (s.key id true)).onNull = some (nullPolicy (s.node id) true) := by
    rw [plan, key, concrete]
    cases kind : (s.node id).kind with
    | primitive type format =>
      dsimp only
      split <;> rfl
    | array items => cases items <;> rfl
    | object | file => rfl
    | untyped | unknown | ref =>
      rw [kind] at ruled
      cases ruled
  rw [unmarshal_after]
  cases default : (s.node id).default with
  | some v =>
    have policy : nullPolicy (s.node id) true = .default v := by rw [nullPolicy, default]
    rw [policy] at rule
    exact resultAt_default rfl rule
  | none =>
    have policy : nullPolicy (s.node id) true = .keep := by
      rw [nullPolicy, default, nullable]
      rfl
    rw [policy] at rule
    exact resultAt_keep rfl rule

section Marked
variable (h : s.ReadAs document naming order) (inside : id < s.nodes.size)
include h inside

theorem ReadAs.object_of_nullable (nullable : (s.node id).nullable = true) :
    ∃ ms, (s.node id).raw = .object ms ∧ isNullable ms = true := by
  rw [(h.node_raw inside).2.2] at nullable
  cases raw : (s.node id).raw with
  | object ms =>
    rw [raw] at nullable
    exact ⟨ms, rfl, nullable⟩
  | _ =>
    rw [raw] at nullable
    cases nullable

theorem ReadAs.direct_of_kind (ruled : (s.node id).kind.rulesNull = true)
    (raw : (s.node id).raw = .object ms) : Entries.get? "$ref" ms = none := by
  rw [(h.node_raw inside).1, raw, kind] at ruled
  cases referring : Entries.get? "$ref" ms with
  | none => rfl
  | some reference =>
    rw [referring] at ruled
    dsimp only at ruled
    split at ruled <;> cases ruled

end Marked

/-- Null under a schema that may be null is read, and it is valid unless a keyword of the schema that speaks
of all values bars it: widening the type of a schema lifts no other restriction. Where the rules can be read,
there is a verdict unless one of these keywords asks a schema whose check never ends. -/
theorem null_valid_unless_barred (built : build document options formats = .ok s)
    (unique : document.KeysUnique) (inside : id < s.nodes.size)
    (ruled : (s.node id).kind.rulesNull = true) (nullable : (s.node id).nullable = true)
    (uses : List Use) :
    (s.unmarshal (s.after uses).unmarshal id .null).2 =
      .ok (((s.node id).default.map Native.ofJson).getD .null) ∧
    ∃ ms, (s.node id).raw = .object ms ∧ ((s.node id).pointer.Literal →
      (∀ types, Entries.get? "type" ms = some (.array types) → .string "null" ∈ types) →
      (∃ e, s.rules id = .error e ∧ s.validate id .null = .error (.spec e)) ∨
      ∃ r, s.rules id = .ok r ∧ ∀ n, r.steps .null ≤ n + 2 →
        (Circles (fun part => r.Unending n .null (PlainSchema.plain part)) ms ∧
          s.validate id .null = .error (.spec (.invalidSchema (s.node id).pointer .unending))) ∨
        ((Bars (fun part => r.passes n .null (PlainSchema.plain part)) ms →
            ∃ faults, s.validate id .null = .error (.invalid faults)) ∧
          (¬ Bars (fun part => r.passes n .null (PlainSchema.plain part)) ms →
            s.validate id .null = .ok ()))) := by
  refine ⟨unmarshal_null ruled nullable uses, ?_⟩
  obtain ⟨naming, order, h⟩ := read_as built
  obtain ⟨ms, raw, marked⟩ := h.object_of_nullable inside nullable
  refine ⟨ms, raw, fun literal lists => ?_⟩
  cases read : s.rules id with
  | error e => exact .inl ⟨e, rfl, validate_unread read _⟩
  | ok r =>
    refine .inr ⟨r, rfl, fun n enough => ?_⟩
    obtain ⟨rule, made, judged⟩ := h.judged unique inside literal read
    have same := judged .null (n + 2) enough
    have distinct := h.raw_distinct unique inside raw
    have direct := h.direct_of_kind inside ruled raw
    have tags : tagFaults? s id .null = some [] := tagFaults?_null s id
    rw [raw] at made
    by_cases ends : r.violations .null = none
    · refine .inl ⟨Classical.byContradiction fun free => ?_, (validate_unending read).mpr ⟨.inl ends, rfl⟩⟩
      exact ends_null distinct direct made free (same.symm.trans ends)
    · have valid : s.validate id .null = .ok () ↔
          ¬ Bars (fun part => r.passes n .null (PlainSchema.plain part)) ms := by
        rw [validate_ok read, and_iff_left tags, same]
        exact violations_null distinct marked lists direct made (same ▸ ends)
      refine .inr ⟨fun bars => ?_, valid.mpr⟩
      refine (validate_invalid read ends (by rw [tags]; exact nofun)).mpr fun fine => ?_
      exact valid.mp fine bars

/-- Sizes and labels may be null, but null is listed among the sizes only. -/
def wardrobe : Json := .object [
  ("definitions", .object [
    ("Size", .object [("type", .string "string"), ("nullable", .bool true),
      ("enum", .array [.string "S", .string "L", .null])]),
    ("Label", .object [("type", .string "string"), ("nullable", .bool true),
      ("enum", .array [.string "S", .string "L"])])])]

theorem wardrobe_unique : wardrobe.KeysUnique := by
  simp [wardrobe, Json.KeysUnique, Json.KeysUniqueMembers, Json.KeysUniqueItems, Entries.keys]

theorem null_valid_in_wardrobe : ∃ s, build wardrobe .standard .standard = .ok s ∧ wardrobe.KeysUnique ∧
    0 < s.nodes.size ∧ (s.node 0).kind.rulesNull = true ∧ (s.node 0).nullable = true ∧
    (s.unmarshal (s.after []).unmarshal 0 .null).2 = .ok .null ∧ s.validate 0 .null = .ok () := by
  have made : (build wardrobe .standard .standard).toOption.any (fun s => decide (0 < s.nodes.size ∧
      (s.node 0).kind.rulesNull = true ∧ (s.node 0).nullable = true ∧ (s.node 0).default = none ∧
      (s.node 0).pointer.Literal ∧ (s.node 0).raw = .object [("type", .string "string"),
        ("nullable", .bool true), ("enum", .array [.string "S", .string "L", .null])]) &&
      (s.rules 0).isOk) = true := by
    decide +kernel
  obtain ⟨s, built, made⟩ := Except.exists_of_any made
  obtain ⟨facts, readable⟩ := Bool.and_eq_true_iff.mp made
  obtain ⟨inside, ruled, nullable, free, literal, raw⟩ := of_decide_eq_true facts
  obtain ⟨given, ms, raw', judged⟩ :=
    null_valid_unless_barred built wardrobe_unique inside ruled nullable []
  rw [free] at given
  refine ⟨s, built, wardrobe_unique, inside, ruled, nullable, given, ?_⟩
  obtain rfl := Json.object.inj (raw.symm.trans raw')
  rcases judged literal (fun types listed => by cases listed) with ⟨e, failed, _⟩ | ⟨r, _, judged⟩
  · rw [failed] at readable
    cases readable
  · rcases judged (r.steps .null) (Nat.le_add_right _ 2) with ⟨circles, _⟩ | ⟨_, valid⟩
    · cases circles with
      | part asks listed =>
        simp only [List.mem_cons, List.not_mem_nil, or_false] at asks
        rcases asks with rfl | rfl | rfl <;> cases listed
      | excluded listed => cases listed
    · refine valid fun bars => ?_
      cases bars with
      | unlisted listed absent =>
        cases listed
        exact absent (by decide)
      | part listed => cases listed
      | noneOf listed => cases listed
      | notOneOf listed => cases listed
      | excluded listed => cases listed

/-- Null is read as a label, which it may be, and refused by the rules for labels. -/
theorem null_barred_in_wardrobe : ∃ s, build wardrobe .standard .standard = .ok s ∧ wardrobe.KeysUnique ∧
    1 < s.nodes.size ∧ (s.node 1).kind.rulesNull = true ∧ (s.node 1).nullable = true ∧
    (s.unmarshal .empty 1 .null).2 = .ok .null ∧
    ∃ faults, s.validate 1 .null = .error (.invalid faults) := by
  have made : (build wardrobe .standard .standard).toOption.any (fun s => decide (1 < s.nodes.size ∧
      (s.node 1).kind.rulesNull = true ∧ (s.node 1).nullable = true ∧ (s.node 1).default = none) &&
      (s.rules 1).toOption.any (fun r => (r.violations .null).any fun vs => !vs.isEmpty)) = true := by
    decide +kernel
  obtain ⟨s, built, made⟩ := Except.exists_of_any made
  obtain ⟨facts, refused⟩ := Bool.and_eq_true_iff.mp made
  obtain ⟨inside, ruled, nullable, free⟩ := of_decide_eq_true facts
  have read := unmarshal_null ruled nullable []
  rw [free] at read
  have ends : (tagFaults? s 1 .null).isSome = true := by rw [tagFaults?_null]; rfl
  exact ⟨s, built, wardrobe_unique, inside, ruled, nullable, read, invalid_of_violations refused ends⟩

end Spec
end ApiPayload
