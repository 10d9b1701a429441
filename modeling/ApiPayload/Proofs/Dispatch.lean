import ApiPayload.Proofs.Directions
import ApiPayload.Proofs.Formats
import ApiPayload.Proofs.Inversion

/-
Tags of a value that has been read. As long as formats and defaults keep away from tags, writing
hands the value down just as reading did, although it sees the values that reading made of them.
-/
namespace ApiPayload

open Schema Format

variable {α β link : Type}

theorem ObjectPlan.choice_eq (d : Direction α β) (o : ObjectPlan link) (es : List (String × α)) :
    o.choice d es = o.discriminator.bind fun mark =>
      ((Entries.get? mark es).bind d.string?).bind fun tag => Entries.get? tag o.subtypes := by
  unfold choice
  cases o.discriminator with
  | none => rfl
  | some mark =>
    cases found : Entries.get? mark es with
    | none => simp [found]
    | some x => cases text : d.string? x <;> simp [found, text]

namespace Spec

variable {s : Spec} {k last next : Key} {o : ObjectPlan Key} {d : Direction α β}

theorem core_object (core : (s.plan k).core = .object o) :
    ∃ shape, (s.node k.schema).kind = .object shape ∧
      (o = s.freePlan (s.node k.schema).label shape ∨ ∃ m ∈ s.models, o = s.modelPlan m) := by
  unfold plan at core
  cases kind : (s.node k.schema).kind with
  | primitive type format =>
    simp only [kind] at core
    split at core <;> cases core
  | array items => cases items <;> simp [kind] at core
  | object shape =>
    simp only [kind, objectCore] at core
    split at core
    · cases core
      exact ⟨shape, rfl, .inl rfl⟩
    · split at core
      · rename_i m known
        cases core
        exact ⟨shape, rfl, .inr ⟨m, List.mem_of_find?_eq_some known, rfl⟩⟩
      · cases core
  | _ => simp [kind] at core

/-- An object that a model is defined by has the properties of some model. -/
theorem WellFormed.properties_of_model (formed : s.WellFormed) {m : Model} {required : Bool}
    (member : m ∈ s.models) (core : (s.plan (s.key m.schema required)).core = .object o) :
    ∃ m ∈ s.models, o.properties = s.propertyKeys m.shape := by
  have own := formed.modelNode m member
  have concrete : s.concrete m.schema = m.schema := by
    refine concrete_self fun target => ?_
    rw [own]
    intro other
    cases other
  obtain ⟨shape, object, rfl | ⟨other, listed, rfl⟩⟩ := core_object core
  · simp only [key, concrete, own, Kind.object.injEq] at object
    exact ⟨m, member, by rw [object]; rfl⟩
  · exact ⟨other, listed, rfl⟩

theorem id_of_property {shape : Shape Id} {name : String} {l : Key}
    (found : Entries.get? name (s.propertyKeys shape) = some l) :
    ∃ id, (name, id) ∈ shape.properties ∧ l.schema = s.concrete id := by
  rw [get?_propertyKeys, Option.map_eq_some_iff] at found
  obtain ⟨id, declared, rfl⟩ := found
  exact ⟨id, Entries.mem_of_get? declared, rfl⟩

theorem id_of_default {properties : List (String × Id)} {name : String} {j : Json}
    (found : Entries.get? name (s.defaults properties) = some j) :
    ∃ id, (name, id) ∈ properties ∧ (s.node (s.concrete id)).default = some j := by
  obtain ⟨e, member, declared⟩ := List.mem_filterMap.mp (Entries.mem_of_get? found)
  obtain ⟨j, default, same⟩ := Option.map_eq_some_iff.mp declared
  cases same
  exact ⟨e.2, member, default⟩

theorem onNull_eq (s : Spec) (k : Key) : (s.plan k).onNull = none ∨
    (s.plan k).onNull = some (nullPolicy (s.node k.schema) k.required) := by
  unfold plan
  cases kind : (s.node k.schema).kind with
  | primitive type format =>
    simp only [kind]
    split <;> exact .inr rfl
  | array items => cases items <;> simp [kind]
  | _ => simp [kind]

theorem default_of_rule {j : Json} (rule : (s.plan k).onNull = some (.default j)) :
    (s.node k.schema).default = some j := by
  rcases s.onNull_eq k with none | ruled
  · rw [none] at rule
    cases rule
  · rw [ruled, nullPolicy] at rule
    cases default : (s.node k.schema).default with
    | some other =>
      rw [default] at rule
      cases rule
      rfl
    | none =>
      simp only [default] at rule
      split at rule <;> cases rule

/-- Only plans of models hand values down, and only to models below. -/
theorem subtype_of_choice {es : List (String × α)} (core : (s.plan k).core = .object o)
    (chosen : o.choice d es = some next) : ∃ m ∈ s.models, o = s.modelPlan m ∧ ∃ mark below,
      m.shape.discriminator = some mark ∧ (Entries.get? mark es).bind d.string? = some below.name ∧
      below ∈ s.models ∧ m.name ∈ below.ancestors := by
  rw [ObjectPlan.choice_eq] at chosen
  obtain ⟨mark, marked, tagged⟩ := Option.bind_eq_some_iff.mp chosen
  obtain ⟨tag, text, named⟩ := Option.bind_eq_some_iff.mp tagged
  obtain ⟨shape, _, rfl | ⟨m, member, rfl⟩⟩ := core_object core
  · cases marked
  · have marked : m.shape.discriminator = some mark := marked
    simp only [modelPlan, marked, Option.isSome_some, if_true] at named
    obtain ⟨below, listed, same⟩ := List.mem_map.mp (Entries.mem_of_get? named)
    cases same
    obtain ⟨known, heir⟩ := List.mem_filter.mp listed
    exact ⟨m, member, rfl, mark, below, marked, text, known, of_decide_eq_true heir⟩

/-- Tags come through a reading as they are. No format converts the name of a subtype where another
model has a property of the tag's name, and no default of a tag names a subtype. -/
structure TagsKept (s : Spec) : Prop where
  unread : ∀ base ∈ s.models, ∀ m ∈ s.models, ∀ mark id, base.shape.discriminator = some mark →
    (mark, id) ∈ m.shape.properties → ∀ below ∈ s.models, base.name ∈ below.ancestors →
    ∀ c, s.converter? (s.concrete id) = some c → ∀ n, c.toNative (.string below.name) ≠ .ok n
  undefaulted : ∀ m ∈ s.models, ∀ mark id, m.shape.discriminator = some mark →
    (mark, id) ∈ m.shape.properties → ∀ below ∈ s.models, m.name ∈ below.ancestors →
    (s.node (s.concrete id)).default ≠ some (.string below.name)

/-- It is enough that properties of a tag's name carry neither a format nor a default. -/
theorem tagsKept_of_plain (plain : ∀ base ∈ s.models, ∀ m ∈ s.models, ∀ e ∈ m.shape.properties,
    base.shape.discriminator = some e.1 →
      s.converter? (s.concrete e.2) = none ∧ (s.node (s.concrete e.2)).default = none) :
    s.TagsKept := by
  constructor
  · intro base listed m member mark id marked declared below _ _ c carried
    obtain ⟨none, _⟩ := plain base listed m member (mark, id) declared marked
    rw [none] at carried
    cases carried
  · intro m member mark id marked declared below _ _ default
    obtain ⟨_, none⟩ := plain m member m member (mark, id) declared marked
    rw [none] at default
    cases default

def Faithful (s : Spec) : Prop := ∀ name c, s.formats.find? name = some c → c.Faithful

theorem faithful_of_build {document : Json} {options : Options}
    (built : build document options .standard = .ok s) : s.Faithful := by
  intro name c found
  rw [(build_given built).2] at found
  exact standard_faithful found

theorem Faithful.converter (faithful : s.Faithful) {c : Converter}
    (core : (s.plan k).core = .convert c) : c.Faithful := by
  obtain ⟨name, registered⟩ := converter?_mem (core_eq_convert core)
  exact faithful name c registered

theorem settles_of_no_entries {v : α} (none : d.entries? v = none) (k : Key) :
    s.Settles d v 0 k k := by
  refine .stay ?_
  unfold Plan.next?
  cases (s.plan k).core with
  | object o => rw [none]; rfl
  | _ => rfl

section Texts

variable {l : Key} {x : Json} {n : Native} {t : String}

/-- A text can only come from the same text or from null by a rule that puts a default in its place. -/
theorem WellFormed.text_origin (formed : s.WellFormed) (faithful : s.Faithful)
    (read : s.resultAt .unmarshal l x = .ok n) (text : n.string? = some t) :
    x = .string t ∨ x = .null ∧ (s.plan l).onNull = some (.default (.string t)) := by
  have same_text : ∀ j : Json, (Native.ofJson j).string? = some t → j = .string t := by
    intro j same
    rw [Native.string?_ofJson] at same
    exact Json.string?_eq_some.mp same
  rcases formed.resultAt_ok read with ⟨j, null, rule, rfl⟩ | ⟨_, _, rfl⟩ | ⟨_, _, last, _, takes⟩
  · rw [same_text j text] at rule
    exact .inr ⟨Json.isNull_iff.mp null, rule⟩
  · cases text
  · cases takes with
    | pass core => exact .inl (same_text x text)
    | convert core converted =>
      obtain ⟨_, none, _⟩ := (faithful.converter core).typed converted
      rw [none] at text
      cases text
    | list core list items => cases text
    | @object o es fields core entries becomes =>
      cases typed : o.typed <;> rw [typed] at text <;> cases text

theorem WellFormed.of_string_result (formed : s.WellFormed) (faithful : s.Faithful)
    (read : s.resultAt .unmarshal l x = .ok n) (text : n.string? = some t) :
    x = .string t ∨ (s.node l.schema).default = some (.string t) :=
  (formed.text_origin faithful read text).imp_right fun supplied => default_of_rule supplied.2

/-- A text stays a text unless a format takes it for something else. -/
theorem WellFormed.string_result (formed : s.WellFormed)
    (read : s.resultAt .unmarshal l (.string t) = .ok n) :
    n = .string t ∨ ∃ c, s.converter? l.schema = some c ∧ c.toNative (.string t) = .ok n := by
  rcases formed.resultAt_ok read with ⟨_, null, _⟩ | ⟨null, _⟩ | ⟨_, _, last, settles, takes⟩
  · cases null
  · cases null
  · have here : last = l := settles.last_unique (settles_of_no_entries rfl l)
    subst here
    cases takes with
    | pass core => exact .inl rfl
    | convert core converted => exact .inr ⟨_, core_eq_convert core, converted⟩
    | list core list items => cases list
    | object core entries becomes => cases entries

end Texts

section Back

variable {es : List (String × Json)} {fields : List (String × Native)} {mark t : String}
  (becomes : List.Forall₂ (Plan.Becomes .unmarshal (s.resultAt .unmarshal) o) es fields)
include becomes

/-- The tag among what entries became, if no format reads it. -/
theorem WellFormed.tag_kept (formed : s.WellFormed)
    (tagged : (Entries.get? mark es).bind Json.string? = some t)
    (unread : ∀ l, Entries.get? mark o.properties = some l → ∀ c, s.converter? l.schema = some c →
      ∀ n, c.toNative (.string t) ≠ .ok n) (more : List (String × Native)) :
    (Entries.get? mark (fields ++ more)).bind Native.string? = some t := by
  obtain ⟨x, present, text⟩ := Option.bind_eq_some_iff.mp tagged
  obtain rfl := Json.string?_eq_some.mp text
  rcases Entries.get?_forall₂ becomes (fun _ _ became => became.name_eq) mark with
    ⟨absent, _⟩ | ⟨x, y, found, found', became⟩
  · rw [absent] at present
    cases present
  · obtain rfl := Option.some.inj (present.symm.trans found)
    rw [Entries.get?_append, found', Option.some_or, Option.bind_some]
    cases became with
    | declared property result =>
      rcases formed.string_result result with rfl | ⟨c, carried, read⟩
      · rfl
      · exact absurd read (unread _ property c carried y)
    | undeclared none => rfl

omit becomes in
theorem default_of_missing {y : Native} (text : y.string? = some t)
    (filled : Entries.get? mark (Plan.missing .unmarshal o fields) = some y) :
    Entries.get? mark o.defaults = some (.string t) := by
  obtain ⟨_, _, _, rfl⟩ := Plan.mem_missing.mp (Entries.mem_of_get? filled)
  rw [Plan.filler_ofJson, Native.string?_ofJson, Json.string?_eq_some] at text
  cases declared : Entries.get? mark o.defaults with
  | none =>
    rw [declared] at text
    cases text
  | some j =>
    rw [declared, Option.getD_some] at text
    rw [text]

/-- Where a tag comes from that a reading left behind: from the entries or from a default. -/
theorem WellFormed.of_tag (formed : s.WellFormed) (faithful : s.Faithful)
    (tagged : (Entries.get? mark (fields ++ Plan.missing .unmarshal o fields)).bind Native.string? =
      some t) :
    (Entries.get? mark es).bind Json.string? = some t ∨
      (∃ l, Entries.get? mark o.properties = some l ∧
        (s.node l.schema).default = some (.string t)) ∨
      Entries.get? mark o.defaults = some (.string t) := by
  obtain ⟨y, present, text⟩ := Option.bind_eq_some_iff.mp tagged
  rw [Entries.get?_append] at present
  rcases Entries.get?_forall₂ becomes (fun _ _ became => became.name_eq) mark with
    ⟨_, absent⟩ | ⟨x, z, found, found', became⟩
  · rw [absent, Option.none_or] at present
    exact .inr (.inr (default_of_missing text present))
  · rw [found', Option.some_or] at present
    obtain rfl := Option.some.inj present
    rw [found, Option.bind_some]
    cases became with
    | declared property result =>
      rcases formed.of_string_result faithful result text with rfl | default
      · exact .inl rfl
      · exact .inr (.inl ⟨_, property, default⟩)
    | undeclared none =>
      rw [← Native.string?_ofJson]
      exact .inl text

end Back

theorem object_of_next? {v : α} (chosen : (s.plan k).next? d v = some next) :
    ∃ o es, (s.plan k).core = .object o ∧ d.entries? v = some es ∧ o.choice d es = some next := by
  unfold Plan.next? at chosen
  cases core : (s.plan k).core with
  | object o =>
    rw [core] at chosen
    obtain ⟨es, entries, choice⟩ := Option.bind_eq_some_iff.mp chosen
    exact ⟨o, es, rfl, entries, choice⟩
  | _ => rw [core] at chosen; cases chosen

theorem next?_object {v : α} {es : List (String × α)} (core : (s.plan k).core = .object o)
    (entries : d.entries? v = some es) : (s.plan k).next? d v = o.choice d es := by
  simp only [Plan.next?, core, entries, Option.bind_some]

theorem Settles.last_model (formed : s.WellFormed) {v : α} {n : Nat}
    (settles : s.Settles d v n k last) (model : k ∈ s.models.map fun m => s.key m.schema true) :
    last ∈ s.models.map fun m => s.key m.schema true := by
  induction settles with
  | stay => exact model
  | choose chosen _ ih => exact ih (formed.model_of_next? chosen)

/-- Two values are handed down alike if all that hands down the one hands down the other. Only the
plan at the end says what became of a tag, and it is that of a model if there was any choice. -/
theorem Settles.transfer {γ δ : Type} {d' : Direction γ δ} (formed : s.WellFormed) {v : α} {v' : γ}
    {n : Nat} {es : List (String × α)} {es' : List (String × γ)} (settles : s.Settles d v n k last)
    (core : (s.plan last).core = .object o) (entries : d.entries? v = some es)
    (entries' : d'.entries? v' = some es')
    (stays : o.choice d es = none → o.choice d' es' = none)
    (chooses : ∀ {k base next}, (s.plan k).core = .object base →
      (∃ m ∈ s.models, o.properties = s.propertyKeys m.shape) → base.choice d es = some next →
      base.choice d' es' = some next) : s.Settles d' v' n k last := by
  induction settles with
  | stay here =>
    rw [next?_object core entries] at here
    refine .stay ?_
    rw [next?_object core entries']
    exact stays here
  | @choose n k next last chosen rest ih =>
    obtain ⟨base, _, own, same, choice⟩ := object_of_next? chosen
    obtain rfl := Option.some.inj (entries.symm.trans same)
    obtain ⟨m, member, isLast⟩ := List.mem_map.mp (rest.last_model formed (formed.model_of_next? chosen))
    subst isLast
    refine .choose ?_ (ih core)
    rw [next?_object own entries']
    exact chooses own (formed.properties_of_model member core) choice

section Back

variable {es : List (String × Json)} {fields : List (String × Native)}
  (becomes : List.Forall₂ (Plan.Becomes .unmarshal (s.resultAt .unmarshal) o) es fields)
include becomes

/-- Where no tag leads on for reading, none does for writing. -/
theorem WellFormed.no_choice_back (formed : s.WellFormed) (faithful : s.Faithful)
    (kept : s.TagsKept) (core : (s.plan k).core = .object o)
    (stays : o.choice .unmarshal es = none) :
    o.choice .marshal (fields ++ Plan.missing .unmarshal o fields) = none := by
  cases chosen : o.choice .marshal (fields ++ Plan.missing .unmarshal o fields) with
  | none => rfl
  | some next =>
    obtain ⟨m, member, rfl, mark, below, marked, tagged, listed, heir⟩ :=
      subtype_of_choice core chosen
    have free := kept.undefaulted m member mark
    rcases formed.of_tag becomes faithful tagged with same | ⟨l, property, default⟩ | default
    · have again : (s.modelPlan m).choice .unmarshal es = (s.modelPlan m).choice .marshal
          (fields ++ Plan.missing .unmarshal (s.modelPlan m) fields) := by
        have discriminator : (s.modelPlan m).discriminator = some mark := marked
        rw [ObjectPlan.choice_eq, ObjectPlan.choice_eq, discriminator, Option.bind_some,
          Option.bind_some, tagged]
        exact congrArg (Option.bind · _) same
      rw [again, chosen] at stays
      cases stays
    · obtain ⟨id, declared, same⟩ := id_of_property property
      rw [same] at default
      exact absurd default (free id marked declared below listed heir)
    · have own : Entries.get? mark m.defaults = some (.string below.name) := default
      rw [formed.defaults m member] at own
      obtain ⟨id, declared, default⟩ := id_of_default own
      exact absurd default (free id marked declared below listed heir)

/-- The subtype that a tag names for reading is the one that it names for writing. -/
theorem WellFormed.choice_back (formed : s.WellFormed) (kept : s.TagsKept) {base : ObjectPlan Key}
    {m : Model} (core : (s.plan k).core = .object base) (member : m ∈ s.models)
    (properties : o.properties = s.propertyKeys m.shape)
    (chosen : base.choice .unmarshal es = some next) (more : List (String × Native)) :
    base.choice .marshal (fields ++ more) = some next := by
  obtain ⟨above, listed, rfl, mark, below, marked, tagged, known, heir⟩ :=
    subtype_of_choice core chosen
  have unread : ∀ l, Entries.get? mark o.properties = some l →
      ∀ c, s.converter? l.schema = some c → ∀ n, c.toNative (.string below.name) ≠ .ok n := by
    intro l property c carried
    rw [properties] at property
    obtain ⟨id, declared, same⟩ := id_of_property property
    rw [same] at carried
    exact kept.unread above listed m member mark id marked declared below known heir c carried
  have same := formed.tag_kept becomes tagged unread more
  have discriminator : (s.modelPlan above).discriminator = some mark := marked
  rw [ObjectPlan.choice_eq, discriminator, Option.bind_some] at chosen ⊢
  rw [← chosen]
  exact congrArg (Option.bind · _) (same.trans tagged.symm)

/-- What was read is handed down, when it is written, as the value was when it was read. -/
theorem WellFormed.settles_back (formed : s.WellFormed) (faithful : s.Faithful) (kept : s.TagsKept)
    {v : Json} {v' : Native} {n : Nat} (settles : s.Settles .unmarshal v n k last)
    (core : (s.plan last).core = .object o) (entries : v.object? = some es)
    (read : v'.entries? = some (fields ++ Plan.missing .unmarshal o fields)) :
    s.Settles .marshal v' n k last := by
  refine settles.transfer formed core entries read
    (formed.no_choice_back becomes faithful kept core) fun own ofModel choice => ?_
  obtain ⟨m, member, properties⟩ := ofModel
  exact formed.choice_back becomes kept own member properties choice _

end Back

end Spec
end ApiPayload
