import ApiPayload.Proofs.Dispatch

/-
Writing what was read. Reading puts values of its own into a result: defaults in place of null, and
defaults or nulls for properties that are missing. Writing refuses a result for these alone, each
by what the schema of its place makes of it.
-/
namespace ApiPayload

open Schema Format

namespace Spec

variable {s : Spec} {k l last : Key} {v j : Json} {n : Native}

/-- What reading a value puts in by itself, with the key of its place. -/
inductive Inserts (s : Spec) : Key → Json → Key → Json → Prop where
  | default {k : Key} {v j : Json} (null : v.isNull = true)
      (rule : (s.plan k).onNull = some (.default j)) : Inserts s k v k j
  | filler {k last l : Key} {v : Json} {m : Nat} {o : ObjectPlan Key} {es : List (String × Json)}
      {name : String} (settles : s.Settles .unmarshal v m k last)
      (core : (s.plan last).core = .object o) (entries : v.object? = some es)
      (fills : o.includeMissing = true) (property : Entries.get? name o.properties = some l)
      (absent : name ∉ Entries.keys es) : Inserts s k v l ((Entries.get? name o.defaults).getD .null)
  | item {k last item l : Key} {v x j : Json} {m : Nat} {schema : String} {xs : List Json}
      (settles : s.Settles .unmarshal v m k last) (core : (s.plan last).core = .list schema item)
      (list : v.array? = some xs) (member : x ∈ xs) (inner : Inserts s item x l j) :
      Inserts s k v l j
  | entry {k last link l : Key} {v x j : Json} {m : Nat} {o : ObjectPlan Key}
      {es : List (String × Json)} {name : String} (settles : s.Settles .unmarshal v m k last)
      (core : (s.plan last).core = .object o) (entries : v.object? = some es)
      (member : (name, x) ∈ es) (property : Entries.get? name o.properties = some link)
      (inner : Inserts s link x l j) : Inserts s k v l j

section Inserted

variable {m : Nat}

theorem inserts_null_iff (null : v.isNull = true) :
    s.Inserts k v l j ↔ l = k ∧ (s.plan k).onNull = some (.default j) := by
  obtain rfl := Json.isNull_iff.mp null
  constructor
  · intro inserted
    cases inserted with
    | default _ rule => exact ⟨rfl, rule⟩
    | filler _ _ entries => cases entries
    | item _ _ list => cases list
    | entry _ _ entries => cases entries
  · rintro ⟨rfl, rule⟩
    exact .default null rule

variable (unruled : v.isNull = true → (s.plan k).onNull = none)
  (settles : s.Settles .unmarshal v m k last)
include unruled settles

theorem not_inserts_of_single (core : (s.plan last).core.links = [])
    (whole : ∀ o, (s.plan last).core ≠ .object o) : ¬ s.Inserts k v l j := by
  intro inserted
  cases inserted with
  | default null rule =>
    rw [unruled null] at rule
    cases rule
  | filler other object =>
    obtain rfl := other.last_unique settles
    exact whole _ object
  | item other list =>
    obtain rfl := other.last_unique settles
    rw [list] at core
    cases core
  | entry other object =>
    obtain rfl := other.last_unique settles
    exact whole _ object

theorem inserts_list_iff {schema : String} {item : Key} {xs : List Json}
    (core : (s.plan last).core = .list schema item) (list : v.array? = some xs) :
    s.Inserts k v l j ↔ ∃ x ∈ xs, s.Inserts item x l j := by
  constructor
  · intro inserted
    cases inserted with
    | default null rule =>
      rw [unruled null] at rule
      cases rule
    | filler other object =>
      rw [other.last_unique settles, core] at object
      cases object
    | item other same list' member inner =>
      rw [other.last_unique settles, core] at same
      cases same
      obtain rfl := Option.some.inj (list.symm.trans list')
      exact ⟨_, member, inner⟩
    | entry other object =>
      rw [other.last_unique settles, core] at object
      cases object
  · rintro ⟨x, member, inner⟩
    exact .item settles core list member inner

theorem inserts_object_iff {o : ObjectPlan Key} {es : List (String × Json)}
    (core : (s.plan last).core = .object o) (entries : v.object? = some es) :
    s.Inserts k v l j ↔
      (∃ name, o.includeMissing = true ∧ Entries.get? name o.properties = some l ∧
        name ∉ Entries.keys es ∧ j = (Entries.get? name o.defaults).getD .null) ∨
      ∃ name x link, (name, x) ∈ es ∧ Entries.get? name o.properties = some link ∧
        s.Inserts link x l j := by
  constructor
  · intro inserted
    cases inserted with
    | default null rule =>
      rw [unruled null] at rule
      cases rule
    | filler other object entries' fills property absent =>
      rw [other.last_unique settles, core] at object
      cases object
      obtain rfl := Option.some.inj (entries.symm.trans entries')
      exact .inl ⟨_, fills, property, absent, rfl⟩
    | item other list =>
      rw [other.last_unique settles, core] at list
      cases list
    | entry other object entries' member property inner =>
      rw [other.last_unique settles, core] at object
      cases object
      obtain rfl := Option.some.inj (entries.symm.trans entries')
      exact .inr ⟨_, _, _, member, property, inner⟩
  · rintro (⟨name, fills, property, absent, rfl⟩ | ⟨name, x, link, member, property, inner⟩)
    · exact .filler settles core entries fills property absent
    · exact .entry settles core entries member property inner

end Inserted

def Writable (s : Spec) (k : Key) (n : Native) : Prop := ∃ w, s.resultAt .marshal k n = .ok w

/-- The result of a reading can be written just if all can that the reading put in. -/
def Returns (s : Spec) (k : Key) (v : Json) (n : Native) : Prop :=
  s.Writable k n ↔ ∀ l j, s.Inserts k v l j → s.Writable l (.ofJson j)

/-- Where nothing is put in, it is enough that the result can be written. -/
theorem returns_of_writable (writable : s.Writable k n)
    (none : ∀ l j, ¬ s.Inserts k v l j) : s.Returns k v n :=
  ⟨fun _ l j inserted => absurd inserted (none l j), fun _ => writable⟩

theorem returns_default (null : v.isNull = true) (rule : (s.plan k).onNull = some (.default j)) :
    s.Returns k v (.ofJson j) := by
  constructor
  · intro writable l j' inserted
    obtain ⟨rfl, other⟩ := (inserts_null_iff null).mp inserted
    rw [rule] at other
    cases other
    exact writable
  · intro all
    exact all k j (.default null rule)

theorem returns_keep (null : v.isNull = true) (rule : (s.plan k).onNull = some .keep) :
    s.Returns k v .null := by
  refine returns_of_writable ⟨_, resultAt_keep rfl rule⟩ fun l j inserted => ?_
  obtain ⟨_, other⟩ := (inserts_null_iff null).mp inserted
  rw [rule] at other
  cases other

theorem settles_ofJson {m : Nat} (settles : s.Settles .unmarshal v m k last) :
    s.Settles .marshal (Native.ofJson v) m k last := by
  induction settles with
  | stay stays => exact .stay (by rw [Plan.next?_ofJson, stays])
  | choose chosen _ ih => exact .choose (by rw [Plan.next?_ofJson, chosen]) ih

section Taken

variable {m : Nat} (formed : s.WellFormed)
  (unruled : v.isNull = true → (s.plan k).onNull = none)
  (settles : s.Settles .unmarshal v m k last)
include formed unruled settles

theorem WellFormed.written_pass (core : (s.plan last).core = .pass) :
    s.resultAt .marshal k (.ofJson v) = .ok v := by
  have alike : Direction.marshal.isNull (.ofJson v) = true → (s.plan k).onNull = none := by
    intro null
    exact unruled ((Native.isNull_ofJson v).symm.trans null)
  rw [formed.resultAt_apply alike (settles_ofJson settles), Plan.apply_eq_ok.mpr (.pass core)]
  exact congrArg Except.ok (Native.toJson_ofJson v)

theorem WellFormed.returns_pass (core : (s.plan last).core = .pass) : s.Returns k v (.ofJson v) := by
  refine returns_of_writable ⟨v, formed.written_pass unruled settles core⟩ fun l j => ?_
  exact not_inserts_of_single unruled settles (by rw [core]; rfl) fun o other => by
    rw [core] at other
    cases other

omit unruled in
theorem WellFormed.written_convert (faithful : s.Faithful) {c : Converter}
    (core : (s.plan last).core = .convert c) (read : c.toNative v = .ok n) :
    ∃ w, c.toWire n = .ok w ∧ c.toNative w = .ok n ∧ s.resultAt .marshal k n = .ok w := by
  obtain ⟨_, noEntries⟩ := (faithful.converter core).single read
  obtain ⟨notNull, _, plain⟩ := (faithful.converter core).typed read
  obtain ⟨w, back, again⟩ := (faithful.converter core).returns read
  obtain rfl := settles.last_unique (settles_of_no_entries noEntries k)
  refine ⟨w, back, again, ?_⟩
  rw [formed.resultAt_not_null notNull (settles_of_no_entries plain last)]
  exact Plan.apply_eq_ok.mpr (.convert core back)

theorem WellFormed.returns_convert (faithful : s.Faithful) {c : Converter}
    (core : (s.plan last).core = .convert c) (read : c.toNative v = .ok n) : s.Returns k v n := by
  obtain ⟨w, _, _, written⟩ := formed.written_convert settles faithful core read
  refine returns_of_writable ⟨w, written⟩ fun l j => ?_
  exact not_inserts_of_single unruled settles (by rw [core]; rfl) fun o other => by
    rw [core] at other
    cases other

omit unruled in
theorem WellFormed.written_list {xs : List Json} (list : v.array? = some xs) (ys : List Native) :
    last = k ∧ s.resultAt .marshal k (.list ys) =
      (s.plan k).apply .marshal (s.resultAt .marshal) (.list ys) := by
  obtain rfl := Json.array?_eq_some.mp list
  refine ⟨settles.last_unique (settles_of_no_entries rfl k), ?_⟩
  exact formed.resultAt_not_null rfl (settles_of_no_entries rfl k)

omit unruled in
theorem WellFormed.written_object (faithful : s.Faithful) (kept : s.TagsKept) {o : ObjectPlan Key}
    {es : List (String × Json)} {fields : List (String × Native)}
    (core : (s.plan last).core = .object o) (entries : v.object? = some es)
    (becomes : List.Forall₂ (Plan.Becomes .unmarshal (s.resultAt .unmarshal) o) es fields)
    (notNull : n.isNull = false)
    (read : n.entries? = some (fields ++ Plan.missing .unmarshal o fields)) :
    s.resultAt .marshal k n = (s.plan last).apply .marshal (s.resultAt .marshal) n :=
  formed.resultAt_not_null notNull
    (formed.settles_back becomes faithful kept settles core entries read)

variable (parts : ∀ l x y, x.size < v.size → s.resultAt .unmarshal l x = .ok y → s.Returns l x y)
include parts

theorem WellFormed.returns_list {schema : String} {item : Key} {xs : List Json} {ys : List Native}
    (core : (s.plan last).core = .list schema item) (list : v.array? = some xs)
    (items : List.Forall₂ (fun x y => s.resultAt .unmarshal item x = .ok y) xs ys) :
    s.Returns k v (.list ys) := by
  obtain ⟨rfl, written⟩ := formed.written_list settles list ys
  rw [Returns, Writable, written, Plan.apply_list_ok_iff (d := .marshal) (v := .list ys) core rfl]
  have smaller : ∀ {x}, x ∈ xs → x.size < v.size := Direction.unmarshal.size_item list
  constructor
  · intro all l j inserted
    obtain ⟨x, member, inner⟩ := (inserts_list_iff unruled settles core list).mp inserted
    obtain ⟨y, listed, read⟩ := right_of_forall₂ items member
    exact (parts item x y (smaller member) read).mp (all y listed) l j inner
  · intro all y listed
    obtain ⟨x, member, read⟩ := left_of_forall₂ items listed
    refine (parts item x y (smaller member) read).mpr fun l j inner => all l j ?_
    exact (inserts_list_iff unruled settles core list).mpr ⟨x, member, inner⟩

omit formed unruled settles in
/-- Entries that were read return one by one. -/
theorem writable_fields_iff {o : ObjectPlan Key} {es : List (String × Json)}
    {fields : List (String × Native)} (entries : v.object? = some es)
    (becomes : List.Forall₂ (Plan.Becomes .unmarshal (s.resultAt .unmarshal) o) es fields) :
    (∀ name y, (name, y) ∈ fields → ∀ l, Entries.get? name o.properties = some l →
      s.Writable l y) ↔
    ∀ name x link, (name, x) ∈ es → Entries.get? name o.properties = some link →
      ∀ l j, s.Inserts link x l j → s.Writable l (.ofJson j) := by
  have smaller : ∀ {name x}, (name, x) ∈ es → x.size < v.size :=
    Direction.unmarshal.size_entry entries
  constructor
  · intro all name x link member property
    obtain ⟨⟨_, y⟩, listed, became⟩ := right_of_forall₂ becomes member
    cases became with
    | declared found result =>
      obtain rfl := Option.some.inj (property.symm.trans found)
      exact (parts link x y (smaller member) result).mp (all name y listed link property)
    | undeclared none =>
      rw [none] at property
      cases property
  · intro all name y listed l property
    obtain ⟨⟨_, x⟩, member, became⟩ := left_of_forall₂ becomes listed
    cases became with
    | declared found result =>
      obtain rfl := Option.some.inj (property.symm.trans found)
      exact (parts l x y (smaller member) result).mpr (all name x l member property)
    | undeclared none =>
      rw [none] at property
      cases property

omit formed unruled settles parts in
theorem writable_missing_iff {o : ObjectPlan Key} {es : List (String × Json)}
    {fields : List (String × Native)} (names : Entries.keys es = Entries.keys fields) :
    (∀ name y, (name, y) ∈ Plan.missing .unmarshal o fields →
      ∀ l, Entries.get? name o.properties = some l → s.Writable l y) ↔
    ∀ name l, o.includeMissing = true → Entries.get? name o.properties = some l →
      name ∉ Entries.keys es →
        s.Writable l (.ofJson ((Entries.get? name o.defaults).getD .null)) := by
  constructor
  · intro all name l fills property absent
    have declared : name ∈ Entries.keys o.properties :=
      List.mem_map_of_mem (Entries.mem_of_get? property)
    rw [names] at absent
    have filled := Plan.mem_missing.mpr ⟨fills, declared, absent, (Plan.filler_ofJson o name).symm⟩
    exact all name _ filled l property
  · intro all name y filled l property
    obtain ⟨fills, _, absent, rfl⟩ := Plan.mem_missing.mp filled
    rw [← names] at absent
    rw [Plan.filler_ofJson]
    exact all name l fills property absent

theorem WellFormed.returns_object (faithful : s.Faithful) (kept : s.TagsKept) {o : ObjectPlan Key}
    {es : List (String × Json)} {fields : List (String × Native)}
    (core : (s.plan last).core = .object o) (entries : v.object? = some es)
    (becomes : List.Forall₂ (Plan.Becomes .unmarshal (s.resultAt .unmarshal) o) es fields)
    (notNull : n.isNull = false)
    (read : n.entries? = some (fields ++ Plan.missing .unmarshal o fields)) : s.Returns k v n := by
  have written := formed.written_object settles faithful kept core entries becomes notNull read
  have ofFields := writable_fields_iff parts entries becomes
  have ofMissing := writable_missing_iff (s := s) (o := o) (Plan.names_of_becomes becomes)
  rw [Returns, Writable, written, Plan.apply_object_ok_iff (d := .marshal) core read]
  constructor
  · intro all l j inserted
    rcases (inserts_object_iff unruled settles core entries).mp inserted with
      ⟨name, fills, property, absent, rfl⟩ | ⟨name, x, link, member, property, inner⟩
    · have filled := fun name y listed => all name y (List.mem_append_right fields listed)
      exact ofMissing.mp filled name l fills property absent
    · have own := fun name y listed => all name y (List.mem_append_left _ listed)
      exact ofFields.mp own name x link member property l j inner
  · intro all name y listed
    rcases List.mem_append.mp listed with own | filled
    · refine ofFields.mpr (fun name x link member property l j inner => all l j ?_) name y own
      exact .entry settles core entries member property inner
    · refine ofMissing.mpr (fun name l fills property absent => all l _ ?_) name y filled
      exact .filler settles core entries fills property absent

end Taken

/-- A reading returns if all that it put in can be written. -/
theorem WellFormed.returns (formed : s.WellFormed) (faithful : s.Faithful) (kept : s.TagsKept)
    (read : s.resultAt .unmarshal k v = .ok n) : s.Returns k v n := by
  induction size : v.size using Nat.strongRecOn generalizing k v n with
  | ind bound ih =>
    subst size
    have parts : ∀ l x y, x.size < v.size → s.resultAt .unmarshal l x = .ok y → s.Returns l x y :=
      fun l x y smaller result => ih _ smaller result rfl
    rcases formed.resultAt_ok read with ⟨j, null, rule, rfl⟩ | ⟨null, rule, rfl⟩ |
      ⟨unruled, m, last, settles, takes⟩
    · exact returns_default null rule
    · exact returns_keep null rule
    · cases takes with
      | pass core => exact formed.returns_pass unruled settles core
      | convert core converted => exact formed.returns_convert unruled settles faithful core converted
      | list core list items => exact formed.returns_list unruled settles parts core list items
      | @object o es fields core entries becomes =>
        refine formed.returns_object unruled settles parts faithful kept core entries becomes ?_ ?_
        · cases o.typed <;> rfl
        · cases o.typed <;> rfl

theorem WellFormed.concrete_of_link (formed : s.WellFormed) {next : Key}
    (linked : next ∈ (s.plan k).links) : s.concrete next.schema = next.schema := by
  obtain ⟨id, _, rfl⟩ := key_of_link linked
  exact formed.concrete_concrete id

theorem WellFormed.concrete_of_inserts (formed : s.WellFormed)
    (concrete : s.concrete k.schema = k.schema) (inserted : s.Inserts k v l j) :
    s.concrete l.schema = l.schema := by
  induction inserted with
  | default => exact concrete
  | filler _ core _ _ property => exact formed.concrete_of_link (Plan.property_mem core property)
  | @item _ last item _ _ _ _ _ _ _ _ core _ _ _ ih =>
    have linked : item ∈ (s.plan last).links := by simp [Plan.links, core, Core.links]
    exact ih (formed.concrete_of_link linked)
  | entry _ core _ _ property _ ih => exact ih (formed.concrete_of_link (Plan.property_mem core property))

/-- The result of a reading can be written again if, and only if, each default and each filler that
the reading put in can be written at its place. -/
theorem write_accepts_iff {document : Json} {options : Options} {s : Spec}
    (built : build document options .standard = .ok s) (kept : s.TagsKept) (uses others : List Use)
    {id : Id} {v : Json} {n : Native}
    (read : (s.unmarshal (s.after uses).unmarshal id v).2 = .ok n) :
    (∃ w, (s.marshal (s.after others).marshal id n).2 = .ok w) ↔
      ∀ k j, s.Inserts (s.key id true) v k j → ∃ w,
        (s.transform (s.after others).marshal k.schema k.required).2.call .marshal true
          (.ofJson j) = .ok w := by
  have formed := build_wellFormed built
  rw [unmarshal_after] at read
  have placed : ∀ {k j}, s.Inserts (s.key id true) v k j →
      (s.transform (s.after others).marshal k.schema k.required).2.call .marshal true (.ofJson j) =
        s.resultAt .marshal k (.ofJson j) := by
    intro k j inserted
    have concrete := formed.concrete_of_inserts (formed.concrete_concrete id) inserted
    have same : s.key k.schema k.required = k := by rw [key, concrete]
    exact (s.call_after others .marshal .marshal k.schema k.required _).trans (by rw [same])
  have returns := formed.returns (faithful_of_build built) kept read
  rw [marshal_after]
  refine returns.trans (forall_congr' fun k => forall_congr' fun j => imp_congr_right fun inserted => ?_)
  rw [placed inserted]
  rfl

/-- Orders with a count, and gifts among them that may name somebody. -/
def orders : Json :=
  .object [("definitions", .object [
    ("Order", .object [("type", .string "object"), ("discriminator", .string "kind"),
      ("properties", .object [("kind", .object [("type", .string "string")]),
        ("count", .object [("type", .string "integer"), ("format", .string "int32"),
          ("default", .number (.int 1))])])]),
    ("Gift", .object [("allOf", .array [.object [("$ref", .string "#/definitions/Order")],
      .object [("properties", .object [("to", .object [("type", .string "string")])])]])])])]

theorem write_accepts_iff_for_orders : ∃ s n, build orders .standard .standard = .ok s ∧ s.TagsKept ∧
    (s.unmarshal (s.after []).unmarshal 0
      (.object [("kind", .string "Gift"), ("count", .null)])).2 = .ok n ∧
    ((∃ w, (s.marshal (s.after [.marshal 1 .null]).marshal 0 n).2 = .ok w) ↔
      ∀ k j, s.Inserts (s.key 0 true) (.object [("kind", .string "Gift"), ("count", .null)]) k j →
        ∃ w, (s.transform (s.after [.marshal 1 .null]).marshal k.schema k.required).2.call .marshal
          true (.ofJson j) = .ok w) := by
  have plain : (build orders .standard .standard).toOption.any (fun s => decide
      (∀ base ∈ s.models, ∀ m ∈ s.models, ∀ e ∈ m.shape.properties,
        base.shape.discriminator = some e.1 →
          (s.converter? (s.concrete e.2)).isNone ∧ (s.node (s.concrete e.2)).default = none)) = true := by
    decide +kernel
  have reads : (build orders .standard .standard).toOption.any (fun s => (s.unmarshal
      (s.after []).unmarshal 0 (.object [("kind", .string "Gift"), ("count", .null)])).2.isOk) = true := by
    decide +kernel
  obtain ⟨s, built, plain⟩ := Except.exists_of_any plain
  rw [built] at reads
  have kept : s.TagsKept := by
    refine tagsKept_of_plain fun base listed m member e declared marked => ?_
    obtain ⟨none, free⟩ := of_decide_eq_true plain base listed m member e declared marked
    exact ⟨Option.isNone_iff_eq_none.mp none, free⟩
  obtain ⟨n, read⟩ := Except.exists_of_isOk reads
  exact ⟨s, n, built, kept, read, write_accepts_iff built kept [] [.marshal 1 .null] read⟩

/-- The first schema of a document reads a value to a result that it refuses to write. -/
def Refuses (document v : Json) (e : TransformError) : Prop :=
  ∃ s n, build document .standard .standard = .ok s ∧ (s.unmarshal .empty 0 v).2 = .ok n ∧
    (s.marshal .empty 0 n).2 = .error e

def refusal? (document v : Json) : Option TransformError :=
  match build document .standard .standard with
  | .error _ => none
  | .ok s =>
    match (s.unmarshal .empty 0 v).2 with
    | .error _ => none
    | .ok n =>
      match (s.marshal .empty 0 n).2 with
      | .error e => some e
      | .ok _ => none

theorem refuses_of_refusal? {document v : Json} {e : TransformError}
    (found : refusal? document v = some e) : Refuses document v e := by
  unfold refusal? at found
  split at found
  · cases found
  · rename_i s built
    split at found
    · cases found
    · rename_i n read
      split at found
      · rename_i written
        cases found
        exact ⟨s, n, built, read, written⟩
      · cases found

/-- Friends that need a name. -/
def friends : Json :=
  .object [("definitions", .object [("Friend", .object [("type", .string "object"),
    ("required", .array [.string "name"]),
    ("properties", .object [("name", .object [("type", .string "string")])])])])]

/-- Ages with a default that is no age. -/
def ages : Json :=
  .object [("definitions", .object [("Age", .object [("type", .string "integer"),
    ("format", .string "int32"), ("default", .string "young")])])]

/-- Shapes that are dots by default, and dots with a kind of their own. -/
def shapes : Json :=
  .object [("definitions", .object [
    ("Shape", .object [("type", .string "object"), ("discriminator", .string "kind"),
      ("properties", .object [("kind", .object [("type", .string "string"),
        ("default", .string "Dot")])])]),
    ("Dot", .object [("allOf", .array [.object [("$ref", .string "#/definitions/Shape")],
      .object [("properties", .object [("kind", .object [("type", .string "integer"),
        ("format", .string "int32")])])]])])])]

/-- Events told apart by their day, and one day where seats are words. -/
def events : Json :=
  .object [("definitions", .object [
    ("Event", .object [("type", .string "object"), ("discriminator", .string "day"),
      ("properties", .object [
        ("day", .object [("type", .string "string"), ("format", .string "date")]),
        ("seats", .object [("type", .string "integer"), ("format", .string "int32")])])]),
    ("2020-01-01", .object [("allOf", .array [.object [("$ref", .string "#/definitions/Event")],
      .object [("properties", .object [("seats", .object [("type", .string "string")])])]])])])]

/-- A null filled in where none is allowed, a default of another type, a default that names a
subtype and a tag that is read as a date: each of them alone can make a result unwritable. -/
theorem write_refuses_read :
    Refuses friends (.object []) (.nullNotAllowed "#/definitions/Friend/properties/name") ∧
    Refuses ages .null (.format "int32" "\"young\"" (.unexpected "number" "string")) ∧
    Refuses shapes (.object []) (.format "int32" "\"Dot\"" (.unexpected "number" "string")) ∧
    Refuses events (.object [("day", .string "2020-01-01"), ("seats", .string "all")])
      (.format "int32" "\"all\"" (.unexpected "number" "string")) := by
  refine ⟨refuses_of_refusal? ?_, refuses_of_refusal? ?_, refuses_of_refusal? ?_,
    refuses_of_refusal? ?_⟩
  · decide +kernel
  · decide +kernel
  · decide +kernel
  · decide +kernel

end Spec
end ApiPayload
