import ApiPayload.Proofs.Tags

/-
Inheritance by place and by name. A model knows all models that are merged into it as long as nothing
but models stands between them: parts without a name pass their properties on, but no parents.
-/
namespace ApiPayload.Spec

open Schema

variable {α β : Type} {document : Json} {options : Options} {formats : Format.Registry} {s : Spec}
  {naming : Naming} {order : List Pointer} {p q : Pointer} {ms : Members} {m b : Model}
  {name : String}

def place (s : Spec) (m : Model) : Pointer := (s.node m.schema).pointer

/-- Whatever is merged into a model and has parts itself is the definition of a model. -/
def MergesModels (s : Spec) (m : Model) : Prop :=
  ∀ q, .fragment q ∈ layers s.document (s.place m) → allOf (membersAt s.document q) ≠ [] →
    ∃ b ∈ s.models, s.place b = q

section Models
variable (h : s.ReadAs document naming order)
include h

theorem ReadAs.place_eq (origin : Origin document naming order m p ms) : s.place m = p := by
  rw [place, origin.schema, h.node_at origin.numbered, nodeAt]

/-- A part that is written in place stands too deep to be a definition. -/
theorem ReadAs.not_item (bound : (p, name) ∈ naming) {other : String} (also : (q, other) ∈ naming)
    (i : Nat) : q ≠ (p.child "allOf").item i := by
  obtain ⟨key, _, listed, _⟩ := (naming_ok h.named).defined p name bound
  obtain ⟨key', _, listed', _⟩ := (naming_ok h.named).defined q other also
  obtain ⟨c, container, _, _, _, rfl⟩ := mem_definitions.mp listed
  obtain ⟨c', container', _, _, _, rfl⟩ := mem_definitions.mp listed'
  have short : ∀ c ∈ containers, 1 ≤ c.tokens.length ∧ c.tokens.length ≤ 2 := by decide
  have one := short c container
  have two := short c' container'
  intro same
  have lengths := congrArg (fun r : Pointer => r.tokens.length) same
  simp only [Pointer.child, Pointer.item, List.length_append, List.length_singleton] at lengths
  omega

theorem ReadAs.parent_of_part (unique : document.KeysUnique) (bound : (p, name) ∈ naming)
    {other : String} (also : (q, other) ∈ naming)
    (part : .fragment q ∈ Layer.parts document (.fragment p)) :
    other ∈ above (parents document naming) name := by
  obtain ⟨i, part, present, placed⟩ := fragment_mem_parts.mp part
  rw [get?_parents h.named bound]
  rcases (partPlace_eq_ok.mp placed).1 with ⟨_, inline⟩ | ⟨reference, aim, referring, aimed, ended⟩
  · exact absurd inline (h.not_item bound also i)
  · exact mem_directParents.mpr ⟨i, part, reference, aim, q, present, referring, aimed, ended,
      get?_naming unique h.named also⟩

/-- What models alone hand on is known by name. -/
theorem ReadAs.isA_of_merged (unique : document.KeysUnique) (member : m ∈ s.models)
    (origin : Origin document naming order m p ms)
    (models : ∀ r, .fragment r ∈ layers document p → allOf (membersAt document r) ≠ [] →
      ∃ name, (r, name) ∈ naming)
    (bound : (q, name) ∈ naming) (merged : .fragment q ∈ layers document p) :
    m.isA name = true := by
  rw [h.isA_iff member]
  have leads : ∀ l, Walk.Reaches (Layer.parts document) (.fragment p) l → ∀ q, l = .fragment q →
      ∀ name, (q, name) ∈ naming → Walk.Reaches (above (parents document naming)) m.name name := by
    intro l reached
    -- each fragment on the way has parts, so it has a name and its parts are parents by name
    induction reached with
    | refl =>
      rintro _ ⟨rfl⟩ name bound
      rw [name_unique unique h.named origin.named bound]
      exact .refl
    | @tail between last reached part ih =>
      rintro q rfl name bound
      cases between with
      | fault e => cases part
      | fragment r =>
        obtain ⟨i, _, present, _⟩ := fragment_mem_parts.mp part
        have leading : allOf (membersAt document r) ≠ [] := by
          intro none
          rw [none] at present
          cases present
        obtain ⟨own, named⟩ := models r (mem_layers.mpr reached) leading
        exact (ih r rfl own named).tail (h.parent_of_part unique named bound part)
  exact leads _ (mem_layers.mp merged) q rfl name bound

end Models

/-- A model knows every model that is merged into it by way of models: it is one of its ancestors,
its name hands values down to it, and the name is accepted as a tag. -/
theorem merged_models_known (built : build document options formats = .ok s)
    (unique : document.KeysUnique) (member : m ∈ s.models) (listed : b ∈ s.models)
    (different : m ≠ b) (models : s.MergesModels m)
    (merged : .fragment (s.place b) ∈ layers s.document (s.place m)) :
    b.name ∈ m.ancestors ∧ m.isA b.name = true ∧
      ∀ mark, b.shape.discriminator = some mark →
        (∀ (side : Side) (v : side.In) es required, side.direction.entries? v = some es →
          (Entries.get? mark es).bind side.direction.string? = some m.name →
          s.Delegates side.direction v (s.key b.schema required) (s.key m.schema true)) ∧
        ∀ ms, Entries.get? mark ms = some (.string m.name) →
          Validation.tagOf s b ms = .sub m := by
  obtain ⟨naming, order, h⟩ := read_as built
  obtain ⟨p, ms, own⟩ := h.origin member
  obtain ⟨q, ms', its⟩ := h.origin listed
  rw [h.place_eq own, h.place_eq its, h.same] at merged
  have named : ∀ r, .fragment r ∈ layers document p → allOf (membersAt document r) ≠ [] →
      ∃ name, (r, name) ∈ naming := by
    intro r inside leads
    rw [MergesModels, h.place_eq own, h.same] at models
    obtain ⟨other, known, rfl⟩ := models r inside leads
    obtain ⟨place, _, origin⟩ := h.origin known
    rw [h.place_eq origin]
    exact ⟨_, origin.named⟩
  have kind := h.isA_of_merged unique member own named its.named merged
  have names : m.name ≠ b.name := fun same => different (h.name_injective member listed same)
  have heir := (h.heir_iff member).mpr ⟨kind, names⟩
  refine ⟨heir, kind, fun mark marked => ⟨?_, ?_⟩⟩
  · intro side v es required entries tagged
    have chosen := h.subtype?_eq_some.mpr ⟨member, heir, mark, marked, tagged⟩
    rw [Delegates, h.next?_model unique listed, entries, Option.bind_some, chosen]
    rfl
  · intro es tagged
    refine h.tagOf_eq_sub.mpr (h.subtype?_eq_some.mpr ⟨member, heir, mark, marked, ?_⟩)
    rw [tagged]
    rfl

theorem merged_models_known_in_breeds : ∃ s, build breeds .standard .standard = .ok s ∧
    breeds.KeysUnique ∧ ∃ m ∈ s.models, ∃ b ∈ s.models, m.name = "Hound" ∧ b.name = "Pet" ∧
      m ≠ b ∧ s.MergesModels m ∧ .fragment (s.place b) ∈ layers s.document (s.place m) ∧
      b.shape.discriminator = some "kind" ∧ b.name ∈ m.ancestors ∧ m.isA b.name = true ∧
      s.Delegates .unmarshal (.object [("kind", .string m.name)]) (s.key b.schema true)
        (s.key m.schema true) ∧
      Validation.tagOf s b [("kind", .string m.name)] = .sub m := by
  have found : (build breeds .standard .standard).toOption.any (fun s => decide
      (∃ m ∈ s.models, ∃ b ∈ s.models, m.name = "Hound" ∧ b.name = "Pet" ∧
        (∀ q ∈ (layers s.document (s.place m)).filterMap Layer.place?,
          (allOf (membersAt s.document q)).isEmpty ∨ ∃ b ∈ s.models, s.place b = q) ∧
        .fragment (s.place b) ∈ layers s.document (s.place m) ∧
        b.shape.discriminator = some "kind")) = true := by
    decide +kernel
  obtain ⟨s, built, found⟩ := Except.exists_of_any found
  obtain ⟨m, member, b, listed, named, above, inside, merged, marked⟩ := of_decide_eq_true found
  have models : s.MergesModels m := by
    intro q known leads
    rcases inside q (mem_places.mpr known) with none | model
    · exact absurd (List.isEmpty_iff.mp none) leads
    · exact model
  have different : m ≠ b := by
    rintro rfl
    rw [named] at above
    exact absurd above (by decide)
  obtain ⟨heir, kind, tagged⟩ :=
    merged_models_known built breeds_unique member listed different models merged
  obtain ⟨hands, accepts⟩ := tagged "kind" marked
  refine ⟨s, built, breeds_unique, m, member, b, listed, named, above, different, models, merged, marked,
    heir, kind, hands .unmarshal _ [("kind", .string m.name)] true rfl rfl, accepts _ rfl⟩

/-- Cats are pets by a part of a part. -/
def nested : Json :=
  .object [("definitions", .object [
    ("Pet", .object [("type", .string "object"), ("discriminator", .string "kind"),
      ("properties", .object [("kind", .object [("type", .string "string")])])]),
    ("Cat", .object [("allOf", .array [.object [("allOf", .array [
      .object [("$ref", .string "#/definitions/Pet")]])]])])])]

/-- A part without a name keeps its parent to itself: what it merges is merged, but cats are no
pets, a pet tagged as a cat stays a pet, and the tag is refused. -/
theorem unnamed_part_loses_parent :
    let v : Json := .object [("kind", .string "Cat")]
    ∃ s, build nested .standard .standard = .ok s ∧
      ∃ m ∈ s.models, ∃ b ∈ s.models, m.name = "Cat" ∧ b.name = "Pet" ∧
        .fragment (s.place b) ∈ layers s.document (s.place m) ∧ b.name ∉ m.ancestors ∧
        m.isA b.name = false ∧ (s.plan (s.key b.schema true)).next? .unmarshal v = none ∧
        Validation.tagFaults s .root b.schema v ≠ [] := by
  intro v
  have found : (build nested .standard .standard).toOption.any (fun s => decide
      (∃ m ∈ s.models, ∃ b ∈ s.models, m.name = "Cat" ∧ b.name = "Pet" ∧
        .fragment (s.place b) ∈ layers s.document (s.place m) ∧ b.name ∉ m.ancestors ∧
        m.isA b.name = false ∧ (s.plan (s.key b.schema true)).next? .unmarshal v = none ∧
        (Validation.tagFaults s .root b.schema v).isEmpty = false)) = true := by
    decide +kernel
  obtain ⟨s, built, found⟩ := Except.exists_of_any found
  obtain ⟨m, member, b, listed, named, above, merged, fewer, other, stays, refused⟩ :=
    of_decide_eq_true found
  exact ⟨s, built, m, member, b, listed, named, above, merged, fewer, other, stays,
    List.isEmpty_eq_false_iff.mp refused⟩

end ApiPayload.Spec
