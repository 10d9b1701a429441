import ApiPayload.Proofs.Descent

/-
The model that a value is read as and the one that the result is written as. A result carries a tag for
two reasons: the value had it and no format took it, or reading put it there. So writing chooses the
model that reading chose unless a format took a tag on the way, or reading put in one that leads on.
-/
namespace ApiPayload.Spec

open Schema

variable {α β : Type} {document : Json} {options : Options} {s : Spec} {naming : Naming}
  {order : List Pointer} {b m : Model} {mark t : String} {v : Json} {n : Native}

/-- Tags lead a value from one model to another, where it stays. -/
def Selects (s : Spec) (d : Direction α β) (v : α) (b m : Model) : Prop :=
  ∃ steps, s.Settles d v steps (s.key b.schema true) (s.key m.schema true)

/-- A model has a property with a format that is known. -/
def Formats (s : Spec) (m : Model) (name : String) : Prop :=
  ∃ id, Entries.get? name m.shape.properties = some id ∧ (s.converter? (s.concrete id)).isSome

/-- Texts that reading puts into a result of a model by itself: the default of a property in place of
null, the default of one that is missing, and what the default of the whole has there. -/
inductive Supplies (s : Spec) (m : Model) (name : String) : Json → String → Prop where
  | null {es : Members} {id : Id} {t : String} (null : Entries.get? name es = some .null)
      (declared : Entries.get? name m.shape.properties = some id)
      (rule : (s.plan (s.key id (decide (name ∈ m.shape.required)))).onNull =
        some (.default (.string t))) : Supplies s m name (.object es) t
  | missing {es : Members} {t : String} (absent : name ∉ Entries.keys es)
      (fills : s.options.includeMissing = true) (declared : name ∈ Entries.keys m.shape.properties)
      (default : Entries.get? name m.defaults = some (.string t)) : Supplies s m name (.object es) t
  | whole {fs : Members} {t : String} (default : (s.node m.schema).default = some (.object fs))
      (tagged : Entries.get? name fs = some (.string t)) : Supplies s m name .null t

/-- What reading puts in is not what is written there. -/
theorem Supplies.unwritten (h : s.Supplies m mark v t) {u : String} :
    v.member? mark ≠ some (.string u) := by
  intro written
  cases h with
  | null null =>
    rw [Json.member?, null] at written
    cases written
  | missing absent =>
    rw [Json.member?, (Entries.get?_eq_none_iff _ _).mpr absent] at written
    cases written
  | whole => cases written

/-- A format takes a tag that a value is handed on by, in the model where the value stays. -/
def TagTaken (s : Spec) (v : Json) (b m : Model) : Prop :=
  ∃ above ∈ s.models, ∃ mark k,
    Relation.ReflTransGen (s.Delegates .unmarshal v) (s.key b.schema true) (s.key above.schema true) ∧
    s.Delegates .unmarshal v (s.key above.schema true) k ∧ above.shape.discriminator = some mark ∧
    s.Formats m mark

/-- Reading puts in a tag that names a subtype of the model where the value stays. -/
def TagSupplied (s : Spec) (v : Json) (m : Model) : Prop :=
  ∃ mark, m.shape.discriminator = some mark ∧
    ∃ below ∈ s.models, m.name ∈ below.ancestors ∧ s.Supplies m mark v below.name

/-- A value that stays somewhere else is handed on first. -/
theorem Settles.first {d : Direction α β} {v : α} {k last : Key} {steps : Nat}
    (settles : s.Settles d v steps k last) (moves : k ≠ last) :
    ∃ next rest, s.Delegates d v k next ∧ s.Settles d v rest next last := by
  cases settles with
  | stay => exact absurd rfl moves
  | choose chosen rest => exact ⟨_, _, chosen, rest⟩

theorem moves_of_step {d : Direction α β} {v : α} {k l start last : Key} {steps : Nat}
    (settles : s.Settles d v steps start last) (step : s.Delegates d v k l) : k ≠ last := by
  rintro rfl
  rw [Delegates, settles.stays] at step
  cases step

section Tags
variable {k l : Key} {o : ObjectPlan Key} {es : Members} {fields : List (String × Native)}

theorem core_convert {c : Format.Converter} (carried : s.converter? k.schema = some c) :
    (s.plan k).core = .convert c := by
  unfold converter? at carried
  unfold plan
  split at carried
  · rename_i kind
    simp only [kind, carried]
  · cases carried

/-- No format of the registry gives a text. -/
theorem WellFormed.no_text (formed : s.WellFormed) (faithful : s.Faithful) {c : Format.Converter}
    (carried : s.converter? l.schema = some c)
    (read : s.resultAt .unmarshal l (.string t) = .ok n) : n.string? = none := by
  rcases formed.resultAt_ok read with ⟨_, null, _⟩ | ⟨null, _⟩ | ⟨_, _, last, settles, takes⟩
  · cases null
  · cases null
  · obtain rfl := settles.last_unique (settles_of_no_entries rfl l)
    have core := core_convert carried
    cases takes with
    | pass own => rw [core] at own; cases own
    | list own => rw [core] at own; cases own
    | object own => rw [core] at own; cases own
    | convert own converted =>
      obtain ⟨_, none, _⟩ := (faithful.converter own).typed converted
      exact none

theorem get?_missing (absent : mark ∉ Entries.keys fields) (fills : o.includeMissing = true)
    (declared : mark ∈ Entries.keys o.properties) :
    Entries.get? mark (Plan.missing .unmarshal o fields) =
      some (.ofJson ((Entries.get? mark o.defaults).getD .null)) := by
  have listed := Plan.mem_missing.mpr ⟨fills, declared, absent, (Plan.filler_ofJson o mark).symm⟩
  cases found : Entries.get? mark (Plan.missing .unmarshal o fields) with
  | none => exact absurd (List.mem_map_of_mem listed) ((Entries.get?_eq_none_iff _ _).mp found)
  | some y =>
    obtain ⟨_, _, _, rfl⟩ := Plan.mem_missing.mp (Entries.mem_of_get? found)
    rw [Plan.filler_ofJson]

/-- A text that is read under a schema was there and no format took it, or it is the default in place of
null. -/
theorem WellFormed.reads_text_iff (formed : s.WellFormed) (faithful : s.Faithful) {x : Json} {z : Native}
    (read : s.resultAt .unmarshal l x = .ok z) : z.string? = some t ↔
      (x = .string t ∧ s.converter? l.schema = none) ∨
      (x = .null ∧ (s.plan l).onNull = some (.default (.string t))) := by
  constructor
  · intro text
    rcases formed.text_origin faithful read text with rfl | ⟨rfl, rule⟩
    · refine .inl ⟨rfl, ?_⟩
      cases carried : s.converter? l.schema with
      | none => rfl
      | some c =>
        rw [formed.no_text faithful carried read] at text
        cases text
    · exact .inr ⟨rfl, rule⟩
  · rintro (⟨rfl, free⟩ | ⟨rfl, rule⟩)
    · rcases formed.string_result read with rfl | ⟨c, carried, _⟩
      · rfl
      · rw [free] at carried
        cases carried
    · cases (resultAt_default rfl rule).symm.trans read
      rfl

/-- Where a text of a result comes from. -/
theorem WellFormed.text_iff (formed : s.WellFormed) (faithful : s.Faithful)
    (becomes : List.Forall₂ (Plan.Becomes .unmarshal (s.resultAt .unmarshal) o) es fields) :
    (Entries.get? mark (fields ++ Plan.missing .unmarshal o fields)).bind Native.string? = some t ↔
      (Entries.get? mark es = some (.string t) ∧
        ∀ l, Entries.get? mark o.properties = some l → s.converter? l.schema = none) ∨
      (Entries.get? mark es = some .null ∧ ∃ l, Entries.get? mark o.properties = some l ∧
        (s.plan l).onNull = some (.default (.string t))) ∨
      mark ∉ Entries.keys es ∧ o.includeMissing = true ∧ mark ∈ Entries.keys o.properties ∧
        Entries.get? mark o.defaults = some (.string t) := by
  have names := Plan.names_of_becomes becomes
  rw [Entries.get?_append]
  rcases Entries.get?_forall₂ becomes (fun _ _ became => became.name_eq) mark with
    ⟨absent, absent'⟩ | ⟨x, z, found, found', became⟩
  · -- the property is missing: only a filler can be there
    rw [absent', Option.none_or, absent]
    have gone := (Entries.get?_eq_none_iff mark es).mp absent
    constructor
    · intro tagged
      obtain ⟨y, present, text⟩ := Option.bind_eq_some_iff.mp tagged
      obtain ⟨fills, declared, _, _⟩ := Plan.mem_missing.mp (Entries.mem_of_get? present)
      exact .inr (.inr ⟨gone, fills, declared, default_of_missing text present⟩)
    · rintro (⟨none, _⟩ | ⟨none, _⟩ | ⟨_, fills, declared, default⟩)
      · cases none
      · cases none
      · rw [get?_missing (names ▸ gone) fills declared, default]
        rfl
  · have there : mark ∈ Entries.keys es := List.mem_map_of_mem (Entries.mem_of_get? found)
    rw [found', Option.some_or, Option.bind_some, found]
    cases became with
    | declared property result =>
      rw [formed.reads_text_iff faithful result]
      simp [property, there]
    | undeclared none =>
      rw [show Direction.unmarshal.pass x = Native.ofJson x from rfl, Native.string?_ofJson,
        Json.string?_eq_some]
      simp [none, there]

end Tags

section Models
variable (h : s.ReadAs document naming order) (unique : document.KeysUnique)
include h unique

/-- A model hands a value on to the subtype that its tag names. -/
theorem ReadAs.delegates_iff {d : Direction α β} {v : α} {l : Key} (listed : b ∈ s.models) :
    s.Delegates d v (s.key b.schema true) l ↔ ∃ sub ∈ s.models, l = s.key sub.schema true ∧
      b.name ∈ sub.ancestors ∧ ∃ mark, b.shape.discriminator = some mark ∧
        ((d.entries? v).bind (Entries.get? mark)).bind d.string? = some sub.name := by
  rw [Delegates, h.next?_model unique listed, Option.map_eq_some_iff]
  constructor
  · rintro ⟨sub, named, rfl⟩
    obtain ⟨es, entries, named⟩ := Option.bind_eq_some_iff.mp named
    obtain ⟨member, heir, mark, marked, tagged⟩ := h.subtype?_eq_some.mp named
    exact ⟨sub, member, rfl, heir, mark, marked, by rw [entries]; exact tagged⟩
  · rintro ⟨sub, member, rfl, heir, mark, marked, tagged⟩
    refine ⟨sub, ?_, rfl⟩
    cases entries : d.entries? v with
    | none =>
      rw [entries] at tagged
      cases tagged
    | some es =>
      rw [entries] at tagged
      exact h.subtype?_eq_some.mpr ⟨member, heir, mark, marked, tagged⟩

/-- Where the texts come from that a result has under its names: the value had them and no format
took them, or reading put them in. -/
def Accounts (s : Spec) (v : Json) (n : Native) (m : Model) : Prop :=
  ∀ name t, (n.get? name).bind Native.string? = some t ↔
    (v.member? name = some (.string t) ∧ ¬ s.Formats m name) ∨ s.Supplies m name v t

omit unique in
theorem ReadAs.accounts_default {j : Json} {fs : List (String × Native)} (listed : b ∈ s.models)
    (rule : (s.plan (s.key b.schema true)).onNull = some (.default j))
    (object : (Native.ofJson j).entries? = some fs) : s.Accounts .null (.ofJson j) b := by
  have default := default_of_rule rule
  rw [key, h.concrete_model listed] at default
  cases j with
  | object ms =>
    intro name t
    have same : ((Native.ofJson (.object ms)).get? name).bind Native.string? =
        (Entries.get? name ms).bind Json.string? := by
      rw [Native.get?, Native.ofJson, Native.entries?, Option.bind_some, Native.ofMembers_eq,
        Entries.get?_mapValues]
      cases Entries.get? name ms with
      | none => rfl
      | some x => exact Native.string?_ofJson x
    rw [same]
    constructor
    · intro tagged
      obtain ⟨x, present, text⟩ := Option.bind_eq_some_iff.mp tagged
      rw [Json.string?_eq_some.mp text] at present
      exact .inr (.whole default present)
    · rintro (⟨none, _⟩ | supplied)
      · cases none
      · cases supplied with
        | whole default' tagged =>
          cases default.symm.trans default'
          rw [tagged]
          rfl
  | _ => cases object

omit h unique in
theorem get?_object (name? : Option String) (fields : List (String × Native)) (name : String) :
    (Direction.unmarshal.object name? fields).get? name = Entries.get? name fields := by
  cases name? <;> rfl

omit unique in
theorem ReadAs.accounts_object {es : Members} {fields : List (String × Native)} (faithful : s.Faithful)
    (becomes : List.Forall₂ (Plan.Becomes .unmarshal (s.resultAt .unmarshal) (s.modelPlan m)) es
      fields) (name? : Option String) : s.Accounts (.object es)
        (Direction.unmarshal.object name? (fields ++ Plan.missing .unmarshal (s.modelPlan m) fields)) m := by
  intro name t
  rw [get?_object, h.formed.text_iff faithful becomes]
  have declared : (∀ l, Entries.get? name (s.modelPlan m).properties = some l →
      s.converter? l.schema = none) ↔ ¬ s.Formats m name := by
    constructor
    · rintro free ⟨id, property, carried⟩
      have uncarried : s.converter? (s.concrete id) = none :=
        free (s.key id (decide (name ∈ m.shape.required)))
          ((get?_propertyKeys s m.shape name).trans (by rw [property]; rfl))
      rw [uncarried] at carried
      cases carried
    · intro free l property
      obtain ⟨id, own, rfl⟩ := Option.map_eq_some_iff.mp
        ((get?_propertyKeys s m.shape name).symm.trans property)
      cases carried : s.converter? (s.key id (decide (name ∈ m.shape.required))).schema with
      | none => rfl
      | some c => exact absurd ⟨id, own, Option.isSome_iff_exists.mpr ⟨c, carried⟩⟩ free
  rw [declared]
  refine or_congr_right ?_
  constructor
  · rintro (⟨null, l, property, rule⟩ | ⟨absent, fills, listed, default⟩)
    · obtain ⟨id, own, rfl⟩ := Option.map_eq_some_iff.mp
        ((get?_propertyKeys s m.shape name).symm.trans property)
      exact .null null own rule
    · exact .missing absent fills ((keys_propertyKeys s m.shape) ▸ listed) default
  · intro supplied
    cases supplied with
    | null null own rule =>
      exact .inl ⟨null, _, (get?_propertyKeys s m.shape name).trans (by rw [own]; rfl), rule⟩
    | missing absent fills listed default =>
      exact .inr ⟨absent, fills, (keys_propertyKeys s m.shape).symm ▸ listed, default⟩

/-- Reading an object as a model ends at a model, and the texts of the result are accounted for. -/
theorem ReadAs.selected (faithful : s.Faithful) (listed : b ∈ s.models)
    (read : s.resultAt .unmarshal (s.key b.schema true) v = .ok n)
    {fs : List (String × Native)} (object : n.entries? = some fs) :
    ∃ m ∈ s.models, s.Selects .unmarshal v b m ∧ s.Accounts v n m := by
  rcases h.formed.resultAt_ok read with ⟨j, null, rule, rfl⟩ | ⟨_, _, rfl⟩ |
    ⟨_, steps, last, settles, takes⟩
  · obtain rfl := Json.isNull_iff.mp null
    exact ⟨b, listed, ⟨0, stays_of_null null _⟩, h.accounts_default listed rule object⟩
  · cases object
  · have model := settles.last_model h.formed (List.mem_map_of_mem (f := fun m => s.key m.schema true) listed)
    obtain ⟨m, member, rfl⟩ := List.mem_map.mp model
    refine ⟨m, member, ⟨steps, settles⟩, ?_⟩
    have core := h.core_model unique member true
    cases takes with
    | pass own => rw [core] at own; cases own
    | convert own => rw [core] at own; cases own
    | list own => rw [core] at own; cases own
    | object own entries becomes =>
      rw [core] at own
      cases own
      obtain rfl := Json.object?_eq_some.mp entries
      exact h.accounts_object faithful becomes _

section Ways
variable {k l : Key}

/-- Every key that a value is handed to from a model is that of a model. -/
theorem ReadAs.model_of_way {d : Direction α β} {v : α} (listed : b ∈ s.models)
    (way : Relation.ReflTransGen (s.Delegates d v) (s.key b.schema true) k) :
    ∃ sub ∈ s.models, k = s.key sub.schema true := by
  induction way with
  | refl => exact ⟨b, listed, rfl⟩
  | tail _ step ih =>
    obtain ⟨above, known, rfl⟩ := ih
    obtain ⟨sub, below, same, _⟩ := h.of_delegates unique known step
    exact ⟨sub, below, same⟩

/-- The tag that a value is handed on by. -/
theorem ReadAs.tag_of_step {above : Model} (known : above ∈ s.models) :
    s.Delegates .unmarshal v (s.key above.schema true) l ↔ ∃ sub ∈ s.models,
      l = s.key sub.schema true ∧ above.name ∈ sub.ancestors ∧
        ∃ mark, above.shape.discriminator = some mark ∧ v.member? mark = some (.string sub.name) := by
  have text : ∀ mark t, ((v.object?).bind (Entries.get? mark)).bind Json.string? = some t ↔
      v.member? mark = some (.string t) := by
    intro mark t
    simp only [Option.bind_eq_some_iff, Json.string?_eq_some, exists_eq_right]
    cases v <;> simp [Json.object?, Json.member?]
  rw [h.delegates_iff unique known]
  simp only [← text]
  rfl

variable {above : Model} (known : above ∈ s.models) (accounts : s.Accounts v n m)
include known accounts

/-- A tag that no format takes hands the result on as it did the value. -/
theorem ReadAs.step_kept (step : s.Delegates .unmarshal v (s.key above.schema true) l)
    (free : ∀ mark, above.shape.discriminator = some mark → ¬ s.Formats m mark) :
    s.Delegates .marshal n (s.key above.schema true) l := by
  obtain ⟨sub, below, rfl, heir, mark, marked, tagged⟩ := (h.tag_of_step unique known).mp step
  refine (h.delegates_iff unique known).mpr ⟨sub, below, rfl, heir, mark, marked, ?_⟩
  exact (accounts mark sub.name).mpr (.inl ⟨tagged, free mark marked⟩)

/-- If the result is handed on where the value was, then to the same model, and no format took the
tag. -/
theorem ReadAs.step_back {l' : Key} (step : s.Delegates .unmarshal v (s.key above.schema true) l)
    (back : s.Delegates .marshal n (s.key above.schema true) l') :
    l' = l ∧ ∀ mark, above.shape.discriminator = some mark → ¬ s.Formats m mark := by
  obtain ⟨sub, below, rfl, _, mark, marked, tagged⟩ := (h.tag_of_step unique known).mp step
  obtain ⟨sub', below', rfl, _, mark', marked', tagged'⟩ := (h.delegates_iff unique known).mp back
  obtain rfl := Option.some.inj (marked.symm.trans marked')
  rcases (accounts mark sub'.name).mp tagged' with ⟨same, free⟩ | supplied
  · rw [tagged] at same
    rw [h.name_injective below below' (Json.string.inj (Option.some.inj same))]
    refine ⟨rfl, fun other also => ?_⟩
    obtain rfl := Option.some.inj (marked.symm.trans also)
    exact free
  · exact absurd tagged supplied.unwritten

end Ways

section Selection
variable (listed : b ∈ s.models) (member : m ∈ s.models) (accounts : s.Accounts v n m)
include accounts

include member in
/-- Where the value stays, the result goes on just if reading put in a tag that leads on. -/
theorem ReadAs.goes_on_iff (stays : (s.plan (s.key m.schema true)).next? .unmarshal v = none) :
    (∃ l, s.Delegates .marshal n (s.key m.schema true) l) ↔ s.TagSupplied v m := by
  constructor
  · rintro ⟨l, back⟩
    obtain ⟨below, known, rfl, heir, mark, marked, tagged⟩ := (h.delegates_iff unique member).mp back
    rcases (accounts mark below.name).mp tagged with ⟨written, _⟩ | supplied
    · have step : s.Delegates .unmarshal v (s.key m.schema true) (s.key below.schema true) :=
        (h.tag_of_step unique member).mpr ⟨below, known, rfl, heir, mark, marked, written⟩
      rw [Delegates, stays] at step
      cases step
    · exact ⟨mark, marked, below, known, heir, supplied⟩
  · rintro ⟨mark, marked, below, known, heir, supplied⟩
    refine ⟨s.key below.schema true, (h.delegates_iff unique member).mpr ?_⟩
    exact ⟨below, known, rfl, heir, mark, marked, (accounts mark below.name).mpr (.inr supplied)⟩

include listed

include member in
/-- From each model on the way, the result is handed down as the value was, if no tag is taken on the way
or supplied at its end. -/
theorem ReadAs.settles_along (free : ¬ s.TagTaken v b m) (unsupplied : ¬ s.TagSupplied v m) {k last : Key}
    {steps : Nat} (settles : s.Settles .unmarshal v steps k last) (ending : last = s.key m.schema true)
    (way : Relation.ReflTransGen (s.Delegates .unmarshal v) (s.key b.schema true) k) :
    s.Settles .marshal n steps k last := by
  induction settles with
  | stay stays =>
    subst ending
    refine .stay (Option.eq_none_iff_forall_not_mem.mpr fun l back => unsupplied ?_)
    exact (h.goes_on_iff unique member accounts stays).mp ⟨l, back⟩
  | @choose _ k next last chosen rest ih =>
    obtain ⟨above, known, rfl⟩ := h.model_of_way unique listed way
    refine .choose (h.step_kept unique known accounts chosen fun mark marked taken => free ?_)
      (ih ending (way.tail chosen))
    exact ⟨above, known, mark, next, way, chosen, marked, taken⟩

/-- A result that comes to the model of the value went the value's way. -/
theorem ReadAs.settles_on_way (chosen : s.Selects .unmarshal v b m)
    (back : s.Selects .marshal n b m) {k : Key}
    (way : Relation.ReflTransGen (s.Delegates .unmarshal v) (s.key b.schema true) k) :
    ∃ steps, s.Settles .marshal n steps k (s.key m.schema true) := by
  obtain ⟨_, settles⟩ := chosen
  induction way with
  | refl => exact back
  | @tail k l before step ih =>
    obtain ⟨above, known, rfl⟩ := h.model_of_way unique listed before
    obtain ⟨steps, rest⟩ := ih
    obtain ⟨next, _, back, rest⟩ := rest.first (moves_of_step settles step)
    obtain ⟨rfl, _⟩ := h.step_back unique known accounts step back
    exact ⟨_, rest⟩

include member in
/-- The result comes to the model of the value just if no tag is taken on the way or supplied at its
end. -/
theorem ReadAs.selects_back_iff (chosen : s.Selects .unmarshal v b m) :
    s.Selects .marshal n b m ↔ ¬ s.TagTaken v b m ∧ ¬ s.TagSupplied v m := by
  refine ⟨fun back => ⟨?_, fun supplied => ?_⟩, fun kept => ?_⟩
  · rintro ⟨above, known, mark, l, way, step, marked, taken⟩
    obtain ⟨steps, rest⟩ := h.settles_on_way unique listed accounts chosen back way
    obtain ⟨_, settles⟩ := chosen
    obtain ⟨_, _, again, _⟩ := rest.first (moves_of_step settles step)
    exact (h.step_back unique known accounts step again).2 mark marked taken
  · obtain ⟨_, settles⟩ := chosen
    obtain ⟨_, rest⟩ := back
    obtain ⟨l, goes⟩ := (h.goes_on_iff unique member accounts settles.stays).mpr supplied
    rw [Delegates, rest.stays] at goes
    cases goes
  · obtain ⟨steps, settles⟩ := chosen
    exact ⟨steps, h.settles_along unique listed member accounts kept.1 kept.2 settles rfl .refl⟩

end Selection

end Models

/-- What a value is handed down to decides about it. -/
theorem WellFormed.result_of_selects {d : Direction α β} {v : α} (formed : s.WellFormed)
    (notNull : d.isNull v = false) (chosen : s.Selects d v b m) :
    s.resultAt d (s.key b.schema true) v = s.resultAt d (s.key m.schema true) v := by
  obtain ⟨_, settles⟩ := chosen
  rw [formed.resultAt_not_null notNull settles,
    formed.resultAt_not_null notNull (.stay settles.stays)]

/-- A value is read as a model, and the result is written as the same model if, and only if, no tag
that the value was handed down by is taken by a format and none is put in that leads on. -/
theorem same_model_iff (built : build document options .standard = .ok s)
    (unique : document.KeysUnique) (listed : b ∈ s.models) (uses others : List Use)
    (read : (s.unmarshal (s.after uses).unmarshal b.schema v).2 = .ok n)
    {fs : List (String × Native)} (object : n.entries? = some fs) :
    ∃ m ∈ s.models, s.Selects .unmarshal v b m ∧
      (v ≠ .null → (s.unmarshal (s.after uses).unmarshal m.schema v).2 = .ok n) ∧
      (s.Selects .marshal n b m ↔ ¬ s.TagTaken v b m ∧ ¬ s.TagSupplied v m) ∧
      (s.Selects .marshal n b m → (s.marshal (s.after others).marshal b.schema n).2 =
        (s.marshal (s.after others).marshal m.schema n).2) := by
  obtain ⟨naming, order, h⟩ := read_as built
  rw [unmarshal_after] at read
  obtain ⟨m, member, chosen, accounts⟩ :=
    h.selected unique (faithful_of_build built) listed read object
  refine ⟨m, member, chosen, fun given => ?_,
    h.selects_back_iff unique listed member accounts chosen, fun back => ?_⟩
  · have notNull : Direction.unmarshal.isNull v = false := by
      cases v with
      | null => exact absurd rfl given
      | _ => rfl
    rw [unmarshal_after, ← h.formed.result_of_selects notNull chosen]
    exact read
  · have notNull : Direction.marshal.isNull n = false := by
      cases n with
      | null => cases object
      | _ => rfl
    rw [marshal_after, marshal_after, h.formed.result_of_selects notNull back]

theorem same_model_iff_in_breeds :
    let v : Json := .object [("kind", .string "Dog"), ("breed", .string "Hound")]
    ∃ s n fs, build breeds .standard .standard = .ok s ∧ breeds.KeysUnique ∧
      ∃ b ∈ s.models, b.name = "Pet" ∧ (s.unmarshal (s.after []).unmarshal b.schema v).2 = .ok n ∧
        n.entries? = some fs ∧ ∃ m ∈ s.models, s.Selects .unmarshal v b m ∧
          (s.Selects .marshal n b m ↔ ¬ s.TagTaken v b m ∧ ¬ s.TagSupplied v m) := by
  intro v
  have found : (build breeds .standard .standard).toOption.any (fun s => decide
      (∃ b ∈ s.models, b.name = "Pet" ∧ ((s.unmarshal (s.after []).unmarshal b.schema
        v).2.toOption.bind Native.entries?).isSome = true)) = true := by
    decide +kernel
  obtain ⟨s, built, found⟩ := Except.exists_of_any found
  obtain ⟨b, listed, named, reads⟩ := of_decide_eq_true found
  cases read : (s.unmarshal (s.after []).unmarshal b.schema v).2 with
  | error e =>
    rw [read] at reads
    cases reads
  | ok n =>
    rw [read] at reads
    obtain ⟨fs, object⟩ := Option.isSome_iff_exists.mp reads
    obtain ⟨m, member, chosen, _, same, _⟩ :=
      same_model_iff built breeds_unique listed [] [] read object
    exact ⟨s, n, fs, built, breeds_unique, b, listed, named, read, object, m, member, chosen, same⟩

section Diverted
variable {d : Direction α β} {w : α} {k last : Key} {fuel : Nat}

/-- The schema where a value stays, if tags lead there in so many choices. -/
def settled? (s : Spec) (d : Direction α β) (w : α) : Nat → Key → Option Key
  | fuel, k =>
    match (s.plan k).next? d w with
    | none => some k
    | some next =>
      match fuel with
      | 0 => none
      | fuel + 1 => settled? s d w fuel next

theorem settles_of_settled? (found : s.settled? d w fuel k = some last) :
    ∃ steps, s.Settles d w steps k last := by
  induction fuel generalizing k with
  | zero =>
    unfold settled? at found
    split at found
    · rename_i stays
      cases found
      exact ⟨0, .stay stays⟩
    · cases found
  | succ fuel ih =>
    unfold settled? at found
    split at found
    · rename_i stays
      cases found
      exact ⟨0, .stay stays⟩
    · rename_i chosen
      obtain ⟨steps, rest⟩ := ih found
      exact ⟨steps + 1, .choose chosen rest⟩

end Diverted

/-- A value that is read as one model, and its result written as another. -/
def Diverts (document v : Json) (base read written : String) : Prop :=
  ∃ s n fs, build document .standard .standard = .ok s ∧ ∃ b ∈ s.models, ∃ m ∈ s.models,
    ∃ other ∈ s.models, b.name = base ∧ m.name = read ∧ other.name = written ∧
      b.shape.discriminator.isSome ∧ (s.unmarshal .empty b.schema v).2 = .ok n ∧
      n.entries? = some fs ∧ s.Selects .unmarshal v b m ∧ s.Selects .marshal n b other

def diverts? (document v : Json) (base read written : String) : Bool :=
  (build document .standard .standard).toOption.any fun s => decide
    (∃ b ∈ s.models, ∃ m ∈ s.models, ∃ other ∈ s.models, b.name = base ∧ m.name = read ∧
      other.name = written ∧ b.shape.discriminator.isSome = true ∧
      (s.unmarshal .empty b.schema v).2.toOption.any (fun n => n.entries?.isSome &&
        decide (s.settled? .unmarshal v s.hops (s.key b.schema true) = some (s.key m.schema true)) &&
        decide (s.settled? .marshal n s.hops (s.key b.schema true) =
          some (s.key other.schema true))) = true)

theorem diverts_of_diverts? {v : Json} {base read written : String}
    (found : diverts? document v base read written = true) : Diverts document v base read written := by
  obtain ⟨s, built, found⟩ := Except.exists_of_any found
  obtain ⟨b, listed, m, member, other, known, base, read, written, marked, found⟩ :=
    of_decide_eq_true found
  obtain ⟨n, result, found⟩ := Except.exists_of_any found
  rw [Bool.and_eq_true, Bool.and_eq_true] at found
  obtain ⟨⟨object, first⟩, second⟩ := found
  obtain ⟨fs, object⟩ := Option.isSome_iff_exists.mp object
  exact ⟨s, n, fs, built, b, listed, m, member, other, known, base, read, written, marked, result,
    object, settles_of_settled? (of_decide_eq_true first), settles_of_settled? (of_decide_eq_true second)⟩

/-- Pets that are cats where nothing else is said. -/
def cattery : Json :=
  .object [("definitions", .object [
    ("Pet", .object [("type", .string "object"), ("discriminator", .string "kind"),
      ("properties", .object [("kind", .object [("type", .string "string"),
        ("default", .string "Cat")])])]),
    ("Cat", .object [("allOf", .array [.object [("$ref", .string "#/definitions/Pet")],
      .object [("properties", .object [("claws", .object [("type", .string "integer")])])]])])])]

/-- Events told apart by their day, and one day with seats. -/
def agenda : Json :=
  .object [("definitions", .object [
    ("Event", .object [("type", .string "object"), ("discriminator", .string "day"),
      ("properties", .object [
        ("day", .object [("type", .string "string"), ("format", .string "date")])])]),
    ("2020-01-01", .object [("allOf", .array [.object [("$ref", .string "#/definitions/Event")],
      .object [("properties", .object [("seats", .object [("type", .string "integer")])])]])])])]

/-- A default for a missing tag, a default for a tag that is null and a tag that is read as a date: each
of them alone can turn a result into one of another model. -/
theorem result_diverted :
    Diverts cattery (.object []) "Pet" "Pet" "Cat" ∧
    Diverts cattery (.object [("kind", .null)]) "Pet" "Pet" "Cat" ∧
    Diverts agenda (.object [("day", .string "2020-01-01")]) "Event" "2020-01-01" "Event" := by
  refine ⟨diverts_of_diverts? ?_, diverts_of_diverts? ?_, diverts_of_diverts? ?_⟩
  · decide +kernel
  · decide +kernel
  · decide +kernel

end ApiPayload.Spec
