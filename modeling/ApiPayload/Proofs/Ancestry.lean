import Mathlib.Data.List.Sort
import ApiPayload.Proofs.Models
import ApiPayload.Proofs.Results
import ApiPayload.Proofs.Walks

/-
Ancestry. Ancestors are found by names and properties are merged by places; what a model's parents
lead to by name is merged into it, so an heir has all that its ancestors have.
-/
namespace ApiPayload

open Schema

/-- Sets show their members in one order only. -/
theorem NameSet.ext {a b : NameSet} (same : ∀ name, name ∈ a ↔ name ∈ b) : a = b := by
  have irreflexive : Std.Irrefl (α := String) (· < ·) := ⟨String.lt_irrefl⟩
  have antisymmetric : Std.Antisymm (α := String) (· < ·) :=
    ⟨fun _ _ less more => absurd more (String.lt_asymm less)⟩
  have names := List.Pairwise.eq_of_mem_iff a.ascending b.ascending same
  cases a
  cases b
  cases names
  rfl

theorem Model.isA_self (m : Model) : m.isA m.name = true := by
  simp [isA]

theorem Model.isA_of_ancestor {m : Model} {name : String} (above : name ∈ m.ancestors) :
    m.isA name = true := by
  simp [isA, above]

namespace Spec

section Closure

def above (parents : Parents) (name : String) : List String := (Entries.get? name parents).getD []

/-- All whom parents lead to, but not the start, even where parents lead back to it. -/
theorem mem_ancestors {parents : Parents} {name other : String} :
    other ∈ ancestors parents name ↔
      other ≠ name ∧ Relation.TransGen (fun a b => b ∈ above parents a) name other := by
  have confined : Walk.Confined (above parents) (fun _ => True) (Entries.keys parents) := by
    constructor
    · intro _ _ _ _
      trivial
    · intro name _ leads
      by_contra absent
      rw [← Entries.get?_eq_none_iff] at absent
      simp [above, absent] at leads
  have deep : (Entries.keys parents).length < parents.length + 1 := by simp [Entries.keys]
  rw [ancestors, NameSet.mem_ofList]
  exact Walk.mem_visitAll confined trivial deep

end Closure

section Models
variable {document : Json} {options : Options} {formats : Format.Registry} {s : Spec}
  {naming : Naming} {order : List Pointer} {p q : Pointer} {ms : Members} {m base : Model}
  {name other : String}

/-- A model is of the kinds that its parents lead to, and of its own. -/
theorem ReadAs.isA_iff (h : s.ReadAs document naming order) (member : m ∈ s.models) :
    m.isA name = true ↔ Walk.Reaches (above (parents document naming)) m.name name := by
  obtain ⟨p, ms, origin⟩ := h.origin member
  rw [Model.isA, Bool.or_eq_true, decide_eq_true_eq, decide_eq_true_eq, origin.ancestors,
    mem_ancestors, Walk.Reaches, Relation.reflTransGen_iff_eq_or_transGen]
  constructor
  · rintro (same | ⟨_, leads⟩)
    · exact .inl same.symm
    · exact .inr leads
  · rintro (same | leads)
    · exact .inl same.symm
    · by_cases same : m.name = name
      · exact .inl same
      · exact .inr ⟨Ne.symm same, leads⟩

/-- To be of a kind is passed on, also where models inherit from one another in a circle. -/
theorem ReadAs.isA_trans (h : s.ReadAs document naming order) (member : m ∈ s.models)
    (listed : base ∈ s.models) (first : m.isA base.name = true) (later : base.isA name = true) :
    m.isA name = true := by
  rw [h.isA_iff member] at first ⊢
  rw [h.isA_iff listed] at later
  exact first.trans later

theorem get?_parents (named : (definitions document).foldlM bindName [] = .ok naming)
    (bound : (p, name) ∈ naming) : above (parents document naming) name =
      directParents document naming p := by
  have distinct : (Entries.keys (parents document naming)).Nodup := by
    have names := (naming_ok named).distinct
    simpa [parents, Entries.keys, Function.comp_def] using names
  have listed : (name, directParents document naming p) ∈ parents document naming :=
    List.mem_map.mpr ⟨(p, name), bound, rfl⟩
  rw [above, Entries.get?_of_mem distinct listed, Option.getD_some]

/-- A parent is where a referring part ends. -/
theorem mem_directParents : name ∈ directParents document naming p ↔
    ∃ (i : Nat) (part reference : Json) (aim q : Pointer),
      (allOf (membersAt document p))[i]? = some part ∧
      part.member? "$ref" = some reference ∧ target p reference = .ok aim ∧
      unalias document p (aliasLimit document) aim = .ok q ∧ Entries.get? q naming = some name := by
  rw [directParents, List.mem_filterMap]
  constructor
  · rintro ⟨part, member, named⟩
    obtain ⟨i, present⟩ := List.mem_iff_getElem?.mp member
    split at named
    · cases named
    · rename_i reference referring
      split at named
      · cases named
      · rename_i aim aimed
        split at named
        · rename_i q ended
          exact ⟨i, part, reference, aim, q, present, referring, aimed, ended, named⟩
        · cases named
  · rintro ⟨i, part, reference, aim, q, present, referring, aimed, ended, named⟩
    refine ⟨part, List.mem_of_getElem? present, ?_⟩
    simp only [referring, aimed, ended, named]

theorem place_of_reference {i : Nat} {part reference : Json} {aim place : Pointer}
    (referring : part.member? "$ref" = some reference) (aimed : target p reference = .ok aim)
    (ended : unalias document p (aliasLimit document) aim = .ok q)
    (placed : partPlace document p i part = .ok place) : place = q := by
  rcases (partPlace_eq_ok.mp placed).1 with ⟨none, _⟩ | ⟨_, _, same, again, found⟩
  · rw [referring] at none
    cases none
  · obtain rfl := Option.some.inj (referring.symm.trans same)
    obtain rfl := Except.ok.inj (aimed.symm.trans again)
    exact (Except.ok.inj (ended.symm.trans found)).symm

/-- A parent by name is a part that is merged, unless the part is at fault. -/
theorem part_of_parent (parent : name ∈ directParents document naming p) :
    ∃ q, (q, name) ∈ naming ∧ (.fragment q ∈ Layer.parts document (.fragment p) ∨
      ∃ e, .fault e ∈ Layer.parts document (.fragment p)) := by
  obtain ⟨i, part, reference, aim, q, present, referring, aimed, ended, named⟩ :=
    mem_directParents.mp parent
  refine ⟨q, Entries.mem_of_get? named, ?_⟩
  cases placed : partPlace document p i part with
  | error e => exact .inr ⟨e, fault_mem_parts present placed⟩
  | ok place =>
    refine .inl (fragment_mem_parts.mpr ⟨i, part, present, ?_⟩)
    rwa [place_of_reference referring aimed ended placed] at placed

/-- All kinds that a model is of are merged into it. -/
theorem ReadAs.merged_of_isA (h : s.ReadAs document naming order)
    (origin : Origin document naming order m p ms)
    (leads : Walk.Reaches (above (parents document naming)) m.name name) :
    ∃ q, (q, name) ∈ naming ∧ .fragment q ∈ layers document p := by
  induction leads with
  | refl => exact ⟨p, origin.named, mem_layers.mpr .refl⟩
  | @tail between name _ parent ih =>
    obtain ⟨q, bound, merged⟩ := ih
    rw [get?_parents h.named bound] at parent
    obtain ⟨next, named, part | ⟨e, fault⟩⟩ := part_of_parent parent
    · exact ⟨next, named, mem_layers.mpr ((mem_layers.mp merged).tail part)⟩
    · exact absurd (mem_layers.mpr ((mem_layers.mp merged).tail fault)) (h.faultless origin e)

theorem ReadAs.subset_of_isA (h : s.ReadAs document naming order) (member : m ∈ s.models)
    (listed : base ∈ s.models) (kind : m.isA base.name = true) :
    Entries.keys base.shape.properties ⊆ Entries.keys m.shape.properties ∧
      ∀ name ∈ base.shape.required, name ∈ m.shape.required := by
  obtain ⟨p, ms, own⟩ := h.origin member
  obtain ⟨q, ms', its⟩ := h.origin listed
  obtain ⟨place, bound, merged⟩ := h.merged_of_isA own ((h.isA_iff member).mp kind)
  obtain rfl := place_unique h.named its.named bound
  have more : ∀ l ∈ layers document q, l ∈ layers document p := fun _ => layers_subset merged
  constructor
  · intro name declared
    rw [own.shape, Shape.map, Entries.keys_mapValues, mem_properties_shape]
    rw [its.shape, Shape.map, Entries.keys_mapValues, mem_properties_shape] at declared
    obtain ⟨place, merged, declared⟩ := declared
    exact ⟨place, more _ merged, declared⟩
  · intro name declared
    rw [own.shape, Shape.map, mem_required_shape]
    rw [its.shape, Shape.map, mem_required_shape] at declared
    obtain ⟨place, merged, declared⟩ := declared
    exact ⟨place, more _ merged, declared⟩

/-- An heir has all properties of its ancestors and requires all that they require. Models that are
ancestors of one another have the same. -/
theorem heirs_extend (built : build document options formats = .ok s) (member : m ∈ s.models)
    (listed : base ∈ s.models) (heir : base.name ∈ m.ancestors) :
    Entries.keys base.shape.properties ⊆ Entries.keys m.shape.properties ∧
      (∀ name ∈ base.shape.required, name ∈ m.shape.required) ∧
      (m.name ∈ base.ancestors →
        (∀ name, name ∈ Entries.keys m.shape.properties ↔
          name ∈ Entries.keys base.shape.properties) ∧
        m.shape.required = base.shape.required) := by
  obtain ⟨naming, order, h⟩ := read_as built
  obtain ⟨properties, required⟩ := h.subset_of_isA member listed (Model.isA_of_ancestor heir)
  refine ⟨properties, required, fun back => ?_⟩
  obtain ⟨properties', required'⟩ := h.subset_of_isA listed member (Model.isA_of_ancestor back)
  constructor
  · intro name
    exact ⟨fun here => properties' here, fun here => properties here⟩
  · exact NameSet.ext fun name => ⟨required' name, required name⟩

end Models

/-- Masters are members in two ways, once through another name; masons and carvers lead to one
another. -/
def guild : Json :=
  .object [("definitions", .object [
    ("Member", .object [("type", .string "object"), ("required", .array [.string "id"]),
      ("properties", .object [("id", .object [("type", .string "string")])])]),
    ("Fellow", .object [("$ref", .string "#/definitions/Member")]),
    ("Mason", .object [
      ("allOf", .array [.object [("$ref", .string "#/definitions/Fellow")],
        .object [("$ref", .string "#/definitions/Carver")]]),
      ("properties", .object [("stones", .object [("type", .string "integer")])])]),
    ("Carver", .object [
      ("allOf", .array [.object [("$ref", .string "#/definitions/Mason")],
        .object [("required", .array [.string "tools"]),
          ("properties", .object [("tools", .object [("type", .string "array")])])]])]),
    ("Master", .object [
      ("allOf", .array [.object [("$ref", .string "#/definitions/Member")],
        .object [("$ref", .string "#/definitions/Carver")]])])])]

theorem heirs_extend_in_guild : ∃ s, build guild .standard .standard = .ok s ∧
    (∃ m ∈ s.models, ∃ base ∈ s.models, m.name = "Master" ∧ base.name = "Member" ∧
      Entries.keys base.shape.properties ⊆ Entries.keys m.shape.properties ∧
      ∀ name ∈ base.shape.required, name ∈ m.shape.required) ∧
    ∃ m ∈ s.models, ∃ base ∈ s.models, m.name = "Mason" ∧ base.name = "Carver" ∧
      (∀ name, name ∈ Entries.keys m.shape.properties ↔
        name ∈ Entries.keys base.shape.properties) ∧
      m.shape.required = base.shape.required := by
  have found : (build guild .standard .standard).toOption.any (fun s => decide
      ((∃ m ∈ s.models, ∃ base ∈ s.models, m.name = "Master" ∧ base.name = "Member" ∧
        base.name ∈ m.ancestors) ∧
      ∃ m ∈ s.models, ∃ base ∈ s.models, m.name = "Mason" ∧ base.name = "Carver" ∧
        base.name ∈ m.ancestors ∧ m.name ∈ base.ancestors)) = true := by
    decide +kernel
  obtain ⟨s, built, found⟩ := Except.exists_of_any found
  obtain ⟨⟨m, member, base, listed, named, above, heir⟩, twins⟩ := of_decide_eq_true found
  obtain ⟨mason, member', carver, listed', named', above', heir', back⟩ := twins
  obtain ⟨properties, required, _⟩ := heirs_extend built member listed heir
  obtain ⟨_, _, alike⟩ := heirs_extend built member' listed' heir'
  exact ⟨s, built, ⟨m, member, base, listed, named, above, properties, required⟩,
    mason, member', carver, listed', named', above', alike back⟩

end Spec
end ApiPayload
