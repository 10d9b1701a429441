import ApiPayload.Proofs.Ancestry
import ApiPayload.Proofs.Dispatch
import ApiPayload.Validation.Tags

/-
The way of a value through subtypes. Each choice goes to a model that inherits from the one that
chose, so a value ends at a model of every kind that it came by.
-/
namespace ApiPayload.Spec

open Schema

variable {α β : Type} {document : Json} {options : Options} {formats : Format.Registry} {s : Spec}
  {naming : Naming} {order : List Pointer} {d : Direction α β} {v : α} {k l : Key} {m b : Model}

/-- A value is handed from one plan to the next. -/
def Delegates (s : Spec) (d : Direction α β) (v : α) (k l : Key) : Prop :=
  (s.plan k).next? d v = some l

theorem Delegates.unique {l' : Key} (h : s.Delegates d v k l) (other : s.Delegates d v k l') :
    l = l' :=
  Option.some.inj (h.symm.trans other)

/-- A model that was looked up by its name among the heirs of another. -/
theorem heir_of_find {tag name : String}
    (found : s.models.find? (fun m => m.name = tag ∧ name ∈ m.ancestors) = some m) :
    m ∈ s.models ∧ m.name = tag ∧ name ∈ m.ancestors :=
  ⟨List.mem_of_find?_eq_some found, by simpa using List.find?_some found⟩

section Models
variable (h : s.ReadAs document naming order) (unique : document.KeysUnique)
include h

/-- The subtype that a tag names, by what it is. -/
theorem ReadAs.subtype?_eq_some {es : List (String × α)} : s.subtype? d b es = some m ↔
    m ∈ s.models ∧ b.name ∈ m.ancestors ∧ ∃ mark, b.shape.discriminator = some mark ∧
      (Entries.get? mark es).bind d.string? = some m.name := by
  simp only [subtype?, Option.bind_eq_bind, Option.bind_eq_some_iff]
  constructor
  · rintro ⟨mark, marked, x, present, tag, text, found⟩
    obtain ⟨member, rfl, heir⟩ := heir_of_find found
    exact ⟨member, heir, mark, marked, x, present, text⟩
  · rintro ⟨member, heir, mark, marked, x, present, text⟩
    refine ⟨mark, marked, x, present, m.name, text, ?_⟩
    have known : ∃ below ∈ s.models, decide (below.name = m.name ∧ b.name ∈ below.ancestors) = true :=
      ⟨m, member, decide_eq_true ⟨rfl, heir⟩⟩
    obtain ⟨other, found⟩ := Option.isSome_iff_exists.mp (List.find?_isSome.mpr known)
    obtain ⟨listed, same, _⟩ := heir_of_find found
    rw [found, h.name_injective listed member same]

theorem ReadAs.heir_iff (member : m ∈ s.models) {name : String} :
    name ∈ m.ancestors ↔ m.isA name = true ∧ m.name ≠ name := by
  obtain ⟨p, ms, origin⟩ := h.origin member
  constructor
  · intro heir
    refine ⟨Model.isA_of_ancestor heir, fun same => ?_⟩
    rw [origin.ancestors, mem_ancestors] at heir
    exact heir.1 same.symm
  · rintro ⟨kind, different⟩
    simpa [Model.isA, different] using kind

/-- The subtype that a payload's tag is accepted for is the one that the payload is handed to. -/
theorem ReadAs.tagOf_eq_sub {ms : List (String × Json)} :
    Validation.tagOf s b ms = .sub m ↔ s.subtype? .unmarshal b ms = some m := by
  rw [h.subtype?_eq_some]
  unfold Validation.tagOf
  constructor
  · intro tagged
    split at tagged
    · cases tagged
    · rename_i mark marked
      split at tagged
      · cases tagged
      · rename_i tag present
        split at tagged
        · rename_i found named
          obtain ⟨named, kind⟩ := Option.filter_eq_some_iff.mp named
          obtain ⟨text, written, known⟩ := Option.bind_eq_some_iff.mp named
          split at tagged
          · cases tagged
          · rename_i different
            cases tagged
            obtain ⟨member, name⟩ := of_model? known
            refine ⟨member, (h.heir_iff member).mpr ⟨kind, different⟩, mark, marked, ?_⟩
            rw [present, name]
            exact written
        · cases tagged
  · rintro ⟨member, heir, mark, marked, tagged⟩
    obtain ⟨tag, present, written⟩ := Option.bind_eq_some_iff.mp tagged
    obtain ⟨kind, different⟩ := (h.heir_iff member).mp heir
    have text : tag.string? = some m.name := written
    simp only [marked, present, text, Option.bind_some, h.model?_of_mem member, Option.filter_some,
      kind, if_true, different, if_false]

theorem ReadAs.concrete_model (member : m ∈ s.models) : s.concrete m.schema = m.schema := by
  refine concrete_self fun target => ?_
  rw [h.formed.modelNode m member]
  exact fun other => nomatch other

include unique

theorem ReadAs.core_model (member : m ∈ s.models) (required : Bool) :
    (s.plan (s.key m.schema required)).core = .object (s.modelPlan m) := by
  simp only [plan, key, h.concrete_model member, h.formed.modelNode m member, objectCore,
    h.bound unique member, h.model?_of_mem member]

theorem ReadAs.next?_model (member : b ∈ s.models) (required : Bool) :
    (s.plan (s.key b.schema required)).next? d v =
      ((d.entries? v).bind (s.subtype? d b)).map fun m => s.key m.schema true := by
  have choice : ∀ es, (s.modelPlan b).choice d es =
      (s.subtype? d b es).map fun m => s.key m.schema true :=
    s.choice_readPlan d ⟨b.name, b.shape, some b⟩
  cases entries : d.entries? v with
  | none => simp only [Plan.next?, h.core_model unique member, entries, Option.bind_none,
      Option.map_none]
  | some es => rw [next?_object (h.core_model unique member required) entries, choice,
      Option.bind_some]

/-- Models have schemas of their own. -/
theorem ReadAs.key_injective (member : m ∈ s.models) (listed : b ∈ s.models) {required' : Bool}
    {required : Bool} (same : s.key m.schema required = s.key b.schema required') : m = b := by
  have schemas : m.schema = b.schema := by
    have concretes := congrArg Key.schema same
    simpa only [key, h.concrete_model member, h.concrete_model listed] using concretes
  have shapes := h.formed.modelNode m member
  rw [schemas, h.formed.modelNode b listed] at shapes
  have names := h.bound unique member
  rw [← Kind.object.inj shapes, h.bound unique listed] at names
  exact h.name_injective member listed (Option.some.inj names).symm

/-- A choice goes down by one model. -/
theorem ReadAs.of_delegates (listed : b ∈ s.models) {required : Bool}
    (chosen : s.Delegates d v (s.key b.schema required) l) :
    ∃ m ∈ s.models, l = s.key m.schema true ∧ b.name ∈ m.ancestors := by
  rw [Delegates, h.next?_model unique listed, Option.map_eq_some_iff] at chosen
  obtain ⟨m, named, rfl⟩ := chosen
  obtain ⟨es, _, named⟩ := Option.bind_eq_some_iff.mp named
  obtain ⟨member, heir, _⟩ := h.subtype?_eq_some.mp named
  exact ⟨m, member, rfl, heir⟩

/-- The model where a value stays is of every kind on the way to it. -/
theorem ReadAs.settles_below {n : Nat} (settles : s.Settles d v n k l) (listed : b ∈ s.models)
    {required : Bool} (start : k = s.key b.schema required) :
    ∃ m ∈ s.models, ∃ required', l = s.key m.schema required' ∧ m.isA b.name = true ∧
      ∀ k', Relation.TransGen (s.Delegates d v) k k' →
        ∃ sub ∈ s.models, k' = s.key sub.schema true ∧ m.isA sub.name = true := by
  -- what lies below the next model lies below this one too, as its ancestors are passed on
  induction settles generalizing b required with
  | @stay k stays =>
    refine ⟨b, listed, required, start, b.isA_self, fun k' way => ?_⟩
    obtain ⟨next, chosen, _⟩ := Relation.TransGen.head'_iff.mp way
    rw [Delegates, stays] at chosen
    cases chosen
  | @choose n k next last chosen _ ih =>
    subst start
    obtain ⟨sub, member, rfl, heir⟩ := h.of_delegates unique listed chosen
    obtain ⟨m, ending, required', same, kind, below⟩ := ih member rfl
    refine ⟨m, ending, required', same, ?_, fun k' way => ?_⟩
    · exact h.isA_trans ending member kind (Model.isA_of_ancestor heir)
    · obtain ⟨next, first, rest⟩ := Relation.TransGen.head'_iff.mp way
      obtain rfl := Delegates.unique first chosen
      rcases Relation.reflTransGen_iff_eq_or_transGen.mp rest with rfl | rest
      · exact ⟨sub, member, rfl, kind⟩
      · exact below k' rest

end Models

/-- Reading a value as a model gives a model of that kind, and one of every kind whose transform the
value was handed to on the way. -/
theorem dispatch_descends (built : build document options formats = .ok s)
    (unique : document.KeysUnique) (models : options.useModels = true) (listed : b ∈ s.models)
    (uses : List Use) (required : Bool) {v : Json} (notNull : v ≠ .null) {n : Native}
    (read : (s.transform (s.after uses).unmarshal b.schema required).2.call .unmarshal true v =
      .ok n) :
    ∃ m ∈ s.models, ∃ fields, n = .model m.name fields ∧ s.model? m.name = some m ∧
      m.isA b.name = true ∧
      ∀ k, Relation.TransGen (s.Delegates .unmarshal v) (s.key b.schema required) k →
        (∃ sub ∈ s.models, k = s.key sub.schema true) ∧
        ∀ sub ∈ s.models, k = s.key sub.schema true → m.isA sub.name = true := by
  obtain ⟨naming, order, h⟩ := read_as built
  have result := (s.call_after uses .unmarshal .unmarshal b.schema required v).symm.trans read
  have kept : Direction.unmarshal.isNull v = false := by
    cases v with
    | null => exact absurd rfl notNull
    | _ => rfl
  obtain ⟨steps, last, settles⟩ := settles_of_ok result
  rw [h.formed.resultAt_not_null kept settles] at result
  obtain ⟨m, member, required', rfl, kind, below⟩ := h.settles_below unique settles listed rfl
  have core := h.core_model unique member required'
  have named : (s.modelPlan m).typed = some m.name := by
    simp [modelPlan, (build_given built).1, models]
  cases Plan.apply_eq_ok.mp result with
  | pass own => rw [core] at own; cases own
  | convert own => rw [core] at own; cases own
  | list own => rw [core] at own; cases own
  | @object o es fields own entries becomes =>
    rw [core] at own
    cases own
    rw [named]
    refine ⟨m, member, _, rfl, h.model?_of_mem member, kind, fun k way => ?_⟩
    obtain ⟨sub, passed, rfl, isSub⟩ := below k way
    refine ⟨⟨sub, passed, rfl⟩, fun other known same => ?_⟩
    rwa [← h.key_injective unique passed known same]

/-- Pets tell their kind, and dogs among them their breed. -/
def breeds : Json :=
  .object [("definitions", .object [
    ("Pet", .object [("type", .string "object"), ("discriminator", .string "kind"),
      ("properties", .object [("kind", .object [("type", .string "string")])])]),
    ("Dog", .object [("discriminator", .string "breed"),
      ("allOf", .array [.object [("$ref", .string "#/definitions/Pet")]]),
      ("properties", .object [("breed", .object [("type", .string "string")])])]),
    ("Hound", .object [("allOf", .array [.object [("$ref", .string "#/definitions/Dog")]])])])]

theorem breeds_unique : breeds.KeysUnique := by
  simp [breeds, Json.KeysUnique, Json.KeysUniqueItems, Json.KeysUniqueMembers, Entries.keys]

theorem dispatch_descends_in_breeds :
    let v : Json := .object [("kind", .string "Dog"), ("breed", .string "Hound")]
    ∃ s n, build breeds .standard .standard = .ok s ∧ breeds.KeysUnique ∧
      ∃ b ∈ s.models, b.name = "Pet" ∧
        (s.transform (s.after []).unmarshal b.schema true).2.call .unmarshal true v = .ok n ∧
        ∃ m ∈ s.models, ∃ fields, n = .model m.name fields ∧ s.model? m.name = some m ∧
          m.isA b.name = true := by
  intro v
  have found : (build breeds .standard .standard).toOption.any (fun s => decide
      (∃ b ∈ s.models, b.name = "Pet" ∧ ((s.transform (s.after []).unmarshal b.schema
        true).2.call .unmarshal true v).isOk = true)) = true := by
    decide +kernel
  obtain ⟨s, built, found⟩ := Except.exists_of_any found
  obtain ⟨b, listed, named, reads⟩ := of_decide_eq_true found
  obtain ⟨n, read⟩ := Except.exists_of_isOk reads
  obtain ⟨m, member, fields, result, known, kind, _⟩ :=
    dispatch_descends built breeds_unique rfl listed [] true (by simp [v]) read
  exact ⟨s, n, built, breeds_unique, b, listed, named, read, m, member, fields, result, known, kind⟩

end ApiPayload.Spec
