import ApiPayload.Proofs.RuleTables
import ApiPayload.Proofs.TagChecks

/-
Values inside schemas. Making a document plain changes the values that a schema lists too, wherever they
look like schemas with a type that is widened or goes away; validation then accepts the changed values and
not the written ones.
-/
namespace ApiPayload

namespace Validation.PlainSchema
variable {ms : List (String × Json)} {key : String} {v : Json}

/-- A type that is a text is neither that of files nor marked. -/
def Settled (ms : List (String × Json)) : Prop :=
  ∀ t, Entries.get? "type" ms = some (.string t) →
    t ≠ "file" ∧ isMarked "x-nullable" ms = false ∧ isMarked "nullable" ms = false

mutual
/-- No object in a value looks like a schema whose type is widened or goes away. -/
def Unmarked : Json → Prop
  | .array xs => UnmarkedItems xs
  | .object ms => Settled ms ∧ UnmarkedMembers ms
  | _ => True

def UnmarkedItems : List Json → Prop
  | [] => True
  | x :: xs => Unmarked x ∧ UnmarkedItems xs

def UnmarkedMembers : List (String × Json) → Prop
  | [] => True
  | (_, x) :: ms => Unmarked x ∧ UnmarkedMembers ms
end

theorem retype_of_settled (settled : Settled ms) : retype ms = ms := by
  unfold retype
  split
  · rename_i t written
    obtain ⟨other, first, second⟩ := settled t written
    rw [if_neg other, first, second]
    rfl
  · rfl

theorem settled_of_retype (distinct : (Entries.keys ms).Nodup) (same : retype ms = ms) : Settled ms := by
  intro t written
  have kept := type_retype distinct written
  rw [same, written] at kept
  split at kept
  · cases kept
  · rename_i other
    split at kept
    · cases kept
    · rename_i unmarked
      rw [Bool.or_eq_true, not_or, Bool.not_eq_true, Bool.not_eq_true] at unmarked
      exact ⟨other, unmarked⟩

/-- Whether members changed shows at each of them, as no type that changes was changed before. -/
theorem retype_plainMembers (distinct : (Entries.keys ms).Nodup) :
    retype (plainMembers ms) = ms ↔ Settled ms ∧ plainMembers ms = ms := by
  constructor
  · intro same
    have each : ∀ m ∈ ms, plain m.2 = m.2 := by
      rintro ⟨key, x⟩ member
      have found := Entries.get?_of_mem distinct member
      by_cases text : key = "type" → x.string? = none
      · have made := member?_plain distinct found text
        rw [plain, same, Json.member?, found] at made
        exact (Option.some.inj made).symm
      · obtain ⟨_, text⟩ := Classical.not_imp.mp text
        obtain ⟨t, text⟩ := Option.ne_none_iff_exists'.mp text
        rw [Json.string?_eq_some.mp text]
        rfl
    have kept : plainMembers ms = ms := by
      have unchanged : Entries.mapValues plain ms = ms.map id :=
        List.map_congr_left fun m member => Prod.ext rfl (each m member)
      rw [plainMembers_eq, unchanged, List.map_id]
    rw [kept] at same
    exact ⟨settled_of_retype distinct same, kept⟩
  · rintro ⟨settled, kept⟩
    rw [kept, retype_of_settled settled]

mutual
theorem plain_eq_self : ∀ v : Json, v.KeysUnique → (plain v = v ↔ Unmarked v)
  | .null, _ | .bool _, _ | .number _, _ | .string _, _ => by simp [plain, Unmarked]
  | .array xs, unique => by
    rw [plain, Unmarked, Json.array.injEq]
    exact plainItems_eq_self xs unique
  | .object ms, unique => by
    rw [plain, Unmarked, Json.object.injEq, retype_plainMembers unique.1]
    exact and_congr_right fun _ => plainMembers_eq_self ms unique.2

theorem plainItems_eq_self : ∀ xs : List Json, Json.KeysUniqueItems xs →
    (plainItems xs = xs ↔ UnmarkedItems xs)
  | [], _ => by simp [plainItems, UnmarkedItems]
  | x :: xs, unique => by
    rw [plainItems, UnmarkedItems, List.cons.injEq]
    exact and_congr (plain_eq_self x unique.1) (plainItems_eq_self xs unique.2)

theorem plainMembers_eq_self : ∀ ms : List (String × Json), Json.KeysUniqueMembers ms →
    (plainMembers ms = ms ↔ UnmarkedMembers ms)
  | [], _ => by simp [plainMembers, UnmarkedMembers]
  | (key, x) :: ms, unique => by
    rw [plainMembers, UnmarkedMembers, List.cons.injEq, Prod.mk.injEq]
    exact and_congr ((and_iff_right rfl).trans (plain_eq_self x unique.1)) (plainMembers_eq_self ms unique.2)
end

/-- Members under another key than that of types are made plain on their own, wherever the schema is. -/
theorem value_plain {document : Json} (unique : document.KeysUnique) {p : Pointer}
    (found : p.find? document = some (.object ms)) (other : key ≠ "type")
    (listed : Entries.get? key ms = some v) :
    (p.find? (plain document)).bind (Json.member? key) = some (plain v) := by
  have there : p.find? (plain document) = some (plain (.object ms)) := walk_plain unique found rfl
  rw [there, Option.bind_some]
  exact member?_plain (unique.find? found).1 listed fun same => absurd same other

end Validation.PlainSchema

namespace Validation

/-- The keywords that rules are read from, besides the one that lists values. -/
def constraints : List String := ["$ref", "type", "minimum", "maximum", "multipleOf", "minLength", "maxLength",
  "minItems", "maxItems", "minProperties", "maxProperties", "pattern", "format", "uniqueItems", "items",
  "additionalItems", "required", "properties", "patternProperties", "additionalProperties", "dependencies",
  "allOf", "anyOf", "oneOf", "not"]

theorem readKeyword_free {sub : Json → Reading Rule} {siblings : List (String × Json)} {key : String}
    (other : key ≠ "enum") (free : key ∉ constraints) (x : Json) :
    Rule.readKeyword sub siblings key x = pure [] := by
  unfold Rule.readKeyword
  split
  case h_2 => exact absurd rfl other
  all_goals first
    | exact absurd (by decide) free
    | rfl

section Listed
variable {table : List (String × Rule)} {n : Nat} {ms : List (String × Json)} {values : List Json} {v : Json}
  {path : Pointer} {rule : Rule}

/-- A schema that does nothing but list values finds nothing wrong with those alone. -/
theorem violations_listed (distinct : (Entries.keys ms).Nodup)
    (listed : Entries.get? "enum" ms = some (.array values))
    (only : ∀ key ∈ Entries.keys ms, key ≠ "enum" → key ∉ constraints)
    (read : (Rule.ofJson (.object ms)).result = .ok rule) :
    violations table (n + 2) .all rule v path = some [] ↔ ∃ o ∈ values, o.alike v = true := by
  have direct : Entries.get? "$ref" ms = none := (Entries.get?_eq_none_iff _ _).mpr fun known =>
    only _ known (by decide) (by decide)
  rw [violations_direct direct read]
  refine ⟨fun all => admits_enum.mp (all _ (Entries.mem_of_get? listed)), fun found => ?_⟩
  rintro ⟨key, x⟩ member
  by_cases same : key = "enum"
  · subst same
    obtain rfl := Option.some.inj (listed.symm.trans (Entries.get?_of_mem distinct member))
    exact admits_enum.mpr found
  · have free := only key (List.mem_map_of_mem (f := Prod.fst) member) same
    exact ⟨[], by rw [readKeyword_free same free]; rfl, fun _ none => nomatch none⟩

end Listed
end Validation

namespace Spec

open Schema Validation

variable {document : Json} {s : Spec} {naming : Naming} {order : List Pointer} {id : Id} {v : Json}
  {ms : Members} {values : List Json}

section Listed
variable (h : s.ReadAs document naming order) (inside : id < s.nodes.size) (raw : (s.node id).raw = .object ms)
  (only : ∀ key ∈ Entries.keys ms, key ≠ "enum" → key ∉ constraints)
include h inside raw only

/-- A schema that lists values and says nothing else about them has no type. -/
theorem ReadAs.untyped_of_listed : (s.node id).kind = .untyped := by
  have absent : ∀ key, key ≠ "enum" → key ∈ constraints → Entries.get? key ms = none :=
    fun key other limits => (Entries.get?_eq_none_iff _ _).mpr fun known => only key known other limits
  have untyped : declaredType ms = none := by
    rw [declaredType, Entries.contains, Entries.contains, absent "type" (by decide) (by decide),
      absent "properties" (by decide) (by decide), absent "allOf" (by decide) (by decide)]
    rfl
  rw [(h.node_raw inside).1, raw, kind, absent "$ref" (by decide) (by decide), untyped]
  rfl

theorem ReadAs.validate_listed (unique : document.KeysUnique)
    (listed : Entries.get? "enum" ms = some (.array values))
    (literal : (s.node id).pointer.Literal) {r : Rules} (read : s.rules id = .ok r) :
    s.validate id v = .ok () ↔ ∃ o ∈ values, (PlainSchema.plain o).alike v = true := by
  have distinct := h.raw_distinct unique inside raw
  obtain ⟨rule, ruled, judged⟩ := h.judged unique inside literal read
  have members : PlainSchema.plain (s.node id).raw =
      .object (Entries.mapValues PlainSchema.plain ms) := by
    rw [raw, PlainSchema.plain, PlainSchema.plainMembers_eq, PlainSchema.retype_of_settled]
    intro t written
    have untyped : "type" ∉ Entries.keys ms := fun known => only _ known (by decide) (by decide)
    rw [Entries.get?_mapValues, (Entries.get?_eq_none_iff _ _).mpr untyped] at written
    cases written
  have listed' : Entries.get? "enum" (Entries.mapValues PlainSchema.plain ms) =
      some (.array (values.map PlainSchema.plain)) := by
    rw [Entries.get?_mapValues, listed, Option.map_some, PlainSchema.plain, PlainSchema.plainItems_eq]
  rw [members] at ruled
  rw [validate_ok read, judged v (r.steps v + 2) (Nat.le_add_right _ 2), and_iff_left
    (tagFaults?_untyped (h.untyped_of_listed inside raw only) v), violations_listed _ listed' _ ruled]
  · simp
  · rw [Entries.keys_mapValues]
    exact distinct
  · rw [Entries.keys_mapValues]
    exact only

end Listed

/-- Values that a schema lists are made plain with the schema, and stay as they are just where nothing in
them is marked; so a payload is valid under a schema that does nothing but list values if it equals one of
them made plain. -/
theorem values_made_plain (unique : document.KeysUnique) :
    (∀ (p : Pointer) ms key v, p.find? document = some (.object ms) →
      key ∈ ["enum", "default", "example"] → Entries.get? key ms = some v →
      (p.find? (PlainSchema.plain document)).bind (Json.member? key) = some (PlainSchema.plain v) ∧
        (PlainSchema.plain v = v ↔ PlainSchema.Unmarked v)) ∧
    ∀ options formats s, build document options formats = .ok s → ∀ id < s.nodes.size, ∀ ms values,
      (s.node id).raw = .object ms → Entries.get? "enum" ms = some (.array values) →
      (∀ key ∈ Entries.keys ms, key ≠ "enum" → key ∉ constraints) → (s.node id).pointer.Literal →
      (∃ e, ∀ v, s.validate id v = .error (.spec e)) ∨
        ∀ v, s.validate id v = .ok () ↔ ∃ o ∈ values, (PlainSchema.plain o).alike v = true := by
  refine ⟨fun p ms key v found among listed => ⟨?_, ?_⟩,
    fun options formats s built id inside ms values raw listed only literal => ?_⟩
  · refine PlainSchema.value_plain unique found ?_ listed
    rintro rfl
    exact absurd among (by decide)
  · have inner := (unique.find? found).2
    exact PlainSchema.plain_eq_self v
      (Json.keysUniqueMembers_iff.mp inner _ (Entries.mem_of_get? listed))
  · obtain ⟨naming, order, h⟩ := read_as built
    cases read : s.rules id with
    | error e => exact .inl ⟨e, validate_unread read⟩
    | ok r => exact .inr fun v => h.validate_listed inside raw only unique listed literal read

def scan : Json := .object [("type", .string "file")]

def nothing : Json := .object [("type", .string "none")]

/-- What a drawer holds: a scan, which looks like the schema of a file, or nothing. -/
def drawer : Json := .object [
  ("definitions", .object [
    ("Kind", .object [("title", .string "Kind"), ("enum", .array [scan, nothing])])])]

theorem drawer_unique : drawer.KeysUnique := by
  simp [drawer, scan, nothing, Json.KeysUnique, Json.KeysUniqueMembers, Json.KeysUniqueItems, Entries.keys]

theorem values_made_plain_in_drawer : ∃ s, build drawer .standard .standard = .ok s ∧ drawer.KeysUnique ∧
    ∀ v, s.validate 0 v = .ok () ↔ (Json.object []).alike v = true ∨ nothing.alike v = true := by
  have made : (build drawer .standard .standard).toOption.any (fun s => decide (0 < s.nodes.size ∧
      (s.node 0).raw = .object [("title", .string "Kind"), ("enum", .array [scan, nothing])] ∧
      (s.node 0).pointer.Literal) && (s.validate 0 nothing).isOk) = true := by
    decide +kernel
  obtain ⟨s, built, made⟩ := Except.exists_of_any made
  obtain ⟨facts, accepted⟩ := Bool.and_eq_true_iff.mp made
  obtain ⟨inside, raw, literal⟩ := of_decide_eq_true facts
  have plain : PlainSchema.plain scan = .object [] ∧ PlainSchema.plain nothing = nothing := by decide
  refine ⟨s, built, drawer_unique, fun v => ?_⟩
  rcases (values_made_plain drawer_unique).2 _ _ s built 0 inside _ _ raw rfl (by decide) literal with
    ⟨e, unread⟩ | listed
  · rw [unread] at accepted
    cases accepted
  · simp only [listed v, List.mem_cons, List.not_mem_nil, or_false, exists_eq_or_imp, exists_eq_left,
      plain.1, plain.2]

/-- A listed value that is refused, and one that is accepted and not listed. -/
theorem listed_value_refused : ∃ s values, build drawer .standard .standard = .ok s ∧
    (s.node 0).raw.member? "enum" = some (.array values) ∧ scan ∈ values ∧ .object [] ∉ values ∧
    (∃ faults, s.validate 0 scan = .error (.invalid faults)) ∧ s.validate 0 (.object []) = .ok () := by
  have made : (build drawer .standard .standard).toOption.any (fun s =>
      decide ((s.node 0).raw.member? "enum" = some (.array [scan, nothing])) &&
      ((s.rules 0).toOption.any (fun r => (r.violations scan).any fun vs => !vs.isEmpty) &&
        (tagFaults? s 0 scan).isSome) &&
      (s.validate 0 (.object [])).isOk) = true := by
    decide +kernel
  obtain ⟨s, built, made⟩ := Except.exists_of_any made
  rw [Bool.and_eq_true, Bool.and_eq_true] at made
  obtain ⟨⟨written, refused⟩, accepted⟩ := made
  obtain ⟨refused, ends⟩ := Bool.and_eq_true_iff.mp refused
  obtain ⟨_, valid⟩ := Except.exists_of_isOk accepted
  exact ⟨s, [scan, nothing], built, of_decide_eq_true written, by decide, by decide,
    invalid_of_violations refused ends, valid⟩

end Spec
end ApiPayload
