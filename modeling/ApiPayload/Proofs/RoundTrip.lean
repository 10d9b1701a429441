import ApiPayload.Proofs.Return

/-
Reading, writing and reading again. Where a reading puts nothing in, what it gives can be written,
the written value is the one that was read up to its converted parts, and it reads the same.
-/
namespace ApiPayload

open Schema Format

variable {α β γ : Type}

theorem forall₂_through {r : α → β → Prop} {q : β → γ → Prop} {t : α → γ → Prop} {u : γ → β → Prop}
    {xs : List α} {ys : List β} {zs : List γ} (h : List.Forall₂ r xs ys) (h' : List.Forall₂ q ys zs)
    (each : ∀ x ∈ xs, ∀ y z, r x y → q y z → t x z ∧ u z y) :
    List.Forall₂ t xs zs ∧ List.Forall₂ u zs ys := by
  induction h generalizing zs with
  | nil =>
    cases h'
    exact ⟨.nil, .nil⟩
  | @cons x y xs ys here _ ih =>
    obtain ⟨z, zs, here', rest', rfl⟩ := List.forall₂_cons_left_iff.mp h'
    obtain ⟨first, back⟩ := each x List.mem_cons_self y z here here'
    obtain ⟨others, backs⟩ := ih rest' fun x member => each x (List.mem_cons_of_mem _ member)
    exact ⟨.cons first others, .cons back backs⟩

namespace Spec

variable {s : Spec} {k last : Key} {v w : Json} {n : Native}

/-- A value and what it is written as: the same value, a converted value in its written form, or a
list as long or an object with the same names in the same order whose parts are of this kind. An
entry that has no place in the schema is the same. -/
inductive Rewrites (s : Spec) : Option Key → Json → Json → Prop where
  | same {place : Option Key} {v : Json} : Rewrites s place v v
  | converted {k : Key} {c : Converter} {v w : Json} {n : Native}
      (core : (s.plan k).core = .convert c) (read : c.toNative v = .ok n)
      (written : c.toWire n = .ok w) : Rewrites s (some k) v w
  | list {k item : Key} {schema : String} {xs ys : List Json}
      (core : (s.plan k).core = .list schema item) (length : xs.length = ys.length)
      (items : ∀ x y, (x, y) ∈ xs.zip ys → Rewrites s (some item) x y) :
      Rewrites s (some k) (.array xs) (.array ys)
  | object {k last : Key} {m : Nat} {o : ObjectPlan Key} {es fs : List (String × Json)}
      (settles : s.Settles .unmarshal (.object es) m k last)
      (core : (s.plan last).core = .object o) (names : Entries.keys es = Entries.keys fs)
      (entries : ∀ e f, (e, f) ∈ es.zip fs → Rewrites s (Entries.get? e.1 o.properties) e.2 f.2) :
      Rewrites s (some k) (.object es) (.object fs)

/-- No default is declared, nothing is filled in, and no format stands at a tag. -/
structure Plain (s : Spec) : Prop where
  undeclared : ∀ id, (s.node id).default = none
  unfilled : s.options.includeMissing = false
  unconverted : ∀ base ∈ s.models, ∀ m ∈ s.models, ∀ e ∈ m.shape.properties,
    base.shape.discriminator = some e.1 → s.converter? (s.concrete e.2) = none

theorem Plain.tagsKept (plain : s.Plain) : s.TagsKept :=
  tagsKept_of_plain fun base listed m member e declared marked =>
    ⟨plain.unconverted base listed m member e declared marked, plain.undeclared _⟩

theorem Plain.includeMissing_eq (plain : s.Plain) {o : ObjectPlan Key}
    (core : (s.plan k).core = .object o) : o.includeMissing = false := by
  obtain ⟨shape, _, rfl | ⟨m, _, rfl⟩⟩ := core_object core
  · exact plain.unfilled
  · exact plain.unfilled

theorem Plain.missing_eq (plain : s.Plain) {o : ObjectPlan Key} (core : (s.plan k).core = .object o)
    (d : Direction α β) (fields : List (String × β)) : Plan.missing d o fields = [] := by
  simp only [Plan.missing, plain.includeMissing_eq core, Bool.false_eq_true, if_false]

/-- What a reading and a writing of its result make of a value. -/
structure Survives (s : Spec) (k : Key) (v : Json) (n : Native) (w : Json) : Prop where
  rewrites : s.Rewrites (some k) v w
  reads : s.resultAt .unmarshal k w = .ok n
  text : s.converter? k.schema = none → w.string? = v.string?

section Entries

variable {o : ObjectPlan Key} {es gs : List (String × Json)}

/-- An entry and what it is written as. -/
structure EntrySurvives (s : Spec) (o : ObjectPlan Key) (e g : String × Json) : Prop where
  name : e.1 = g.1
  rewrites : s.Rewrites (Entries.get? e.1 o.properties) e.2 g.2
  text : (∀ l, Entries.get? e.1 o.properties = some l → s.converter? l.schema = none) →
    g.2.string? = e.2.string?

theorem tag_survives (survive : List.Forall₂ (s.EntrySurvives o) es gs) {mark : String}
    (unconverted : ∀ l, Entries.get? mark o.properties = some l → s.converter? l.schema = none) :
    (Entries.get? mark es).bind Json.string? = (Entries.get? mark gs).bind Json.string? := by
  rcases Entries.get?_forall₂ survive (fun _ _ entry => entry.name) mark with
    ⟨none, none'⟩ | ⟨x, z, found, found', entry⟩
  · rw [none, none']
  · rw [found, found']
    exact (entry.text unconverted).symm

variable (plain : s.Plain) (survive : List.Forall₂ (s.EntrySurvives o) es gs)
include plain survive

theorem Plain.choice_again {base : ObjectPlan Key} (core : (s.plan k).core = .object base)
    (ofModel : ∀ m ∈ s.models, base = s.modelPlan m →
      ∃ m ∈ s.models, o.properties = s.propertyKeys m.shape) :
    base.choice .unmarshal gs = base.choice .unmarshal es := by
  rw [ObjectPlan.choice_eq, ObjectPlan.choice_eq]
  obtain ⟨shape, _, rfl | ⟨above, listed, rfl⟩⟩ := core_object core
  · rfl
  · obtain ⟨m, member, properties⟩ := ofModel above listed rfl
    cases marked : (s.modelPlan above).discriminator with
    | none => rfl
    | some mark =>
      have unconverted : ∀ l, Entries.get? mark o.properties = some l →
          s.converter? l.schema = none := by
        intro l property
        rw [properties] at property
        obtain ⟨id, declared, same⟩ := id_of_property property
        rw [same]
        exact plain.unconverted above listed m member (mark, id) declared marked
      exact congrArg (Option.bind · _) (tag_survives survive unconverted).symm

/-- Tags survive, so the written value is handed down as the one that was read. -/
theorem Plain.settles_again (formed : s.WellFormed) {m : Nat}
    (settles : s.Settles .unmarshal v m k last) (core : (s.plan last).core = .object o)
    (entries : v.object? = some es) (entries' : w.object? = some gs) :
    s.Settles .unmarshal w m k last := by
  refine settles.transfer formed core entries entries' (fun stays => ?_) fun own ofModel choice => ?_
  · rw [plain.choice_again survive core fun m member same => ⟨m, member, by rw [same]; rfl⟩]
    exact stays
  · rw [plain.choice_again survive own fun _ _ _ => ofModel]
    exact choice

end Entries

theorem Plain.not_inserts (plain : s.Plain) {l : Key} {j : Json} : ¬ s.Inserts k v l j := by
  intro inserted
  induction inserted with
  | default _ rule =>
    have default := default_of_rule rule
    rw [plain.undeclared] at default
    cases default
  | filler _ core _ fills =>
    rw [plain.includeMissing_eq core] at fills
    cases fills
  | item _ _ _ _ _ ih => exact ih
  | entry _ _ _ _ _ _ ih => exact ih

theorem survives_keep (null : v.isNull = true) (rule : (s.plan k).onNull = some .keep)
    (written : s.resultAt .marshal k .null = .ok w) : s.Survives k v .null w := by
  obtain rfl := Json.isNull_iff.mp null
  have kept : s.resultAt .marshal k .null = .ok .null := resultAt_keep rfl rule
  rw [kept] at written
  cases written
  exact ⟨.same, resultAt_keep rfl rule, fun _ => rfl⟩

section Taken

variable {m : Nat} (formed : s.WellFormed) (unruled : v.isNull = true → (s.plan k).onNull = none)
  (settles : s.Settles .unmarshal v m k last)
include formed settles

include unruled in
theorem WellFormed.survives_pass (core : (s.plan last).core = .pass)
    (written : s.resultAt .marshal k (.ofJson v) = .ok w) : s.Survives k v (.ofJson v) w := by
  rw [formed.written_pass unruled settles core] at written
  cases written
  refine ⟨.same, ?_, fun _ => rfl⟩
  rw [formed.resultAt_apply unruled settles]
  exact Plan.apply_eq_ok.mpr (.pass core)

theorem WellFormed.survives_convert (faithful : s.Faithful) {c : Converter}
    (core : (s.plan last).core = .convert c) (read : c.toNative v = .ok n)
    (written : s.resultAt .marshal k n = .ok w) : s.Survives k v n w := by
  obtain ⟨w', back, again, written'⟩ := formed.written_convert settles faithful core read
  rw [written'] at written
  cases written
  obtain ⟨_, noEntries⟩ := (faithful.converter core).single read
  obtain ⟨notNull, noEntries'⟩ := (faithful.converter core).single again
  obtain rfl := settles.last_unique (settles_of_no_entries noEntries k)
  refine ⟨.converted core read back, ?_, fun none => ?_⟩
  · rw [formed.resultAt_not_null notNull (settles_of_no_entries noEntries' last)]
    exact Plan.apply_eq_ok.mpr (.convert core again)
  · rw [core_eq_convert core] at none
    cases none

variable (parts : ∀ l x y z, x.size < v.size → s.resultAt .unmarshal l x = .ok y →
  s.resultAt .marshal l y = .ok z → s.Survives l x y z)
include parts

theorem WellFormed.survives_list {schema : String} {item : Key} {xs : List Json} {ys : List Native}
    (core : (s.plan last).core = .list schema item) (list : v.array? = some xs)
    (items : List.Forall₂ (fun x y => s.resultAt .unmarshal item x = .ok y) xs ys)
    (written : s.resultAt .marshal k (.list ys) = .ok w) : s.Survives k v (.list ys) w := by
  obtain ⟨rfl, applied⟩ := formed.written_list settles list ys
  obtain rfl := Json.array?_eq_some.mp list
  rw [applied] at written
  obtain ⟨zs, items', rfl⟩ := (Plan.apply_list_eq_ok (d := .marshal) core rfl).mp written
  have smaller : ∀ {x}, x ∈ xs → x.size < (Json.array xs).size :=
    Direction.unmarshal.size_item (v := .array xs) rfl
  have each : ∀ x ∈ xs, ∀ y z, s.resultAt .unmarshal item x = .ok y →
      s.resultAt .marshal item y = .ok z → s.Rewrites (some item) x z ∧
        s.resultAt .unmarshal item z = .ok y := by
    intro x member y z read write
    have survives := parts item x y z (smaller member) read write
    exact ⟨survives.rewrites, survives.reads⟩
  obtain ⟨rewrites, reads⟩ := forall₂_through items items' each
  refine ⟨.list core rewrites.length_eq fun x z pair => List.forall₂_zip rewrites pair, ?_,
    fun _ => rfl⟩
  have again := formed.resultAt_not_null (d := .unmarshal) (v := .array zs) rfl
    (settles_of_no_entries rfl last)
  exact again.trans ((Plan.apply_list_eq_ok (d := .unmarshal) core rfl).mpr ⟨ys, reads, rfl⟩)

omit formed settles in
/-- What an entry becomes in a reading and then in a writing. -/
theorem entry_survives {o : ObjectPlan Key} {e g : String × Json} {f : String × Native}
    (smaller : e.2.size < v.size) (read : Plan.Becomes .unmarshal (s.resultAt .unmarshal) o e f)
    (write : Plan.Becomes .marshal (s.resultAt .marshal) o f g) :
    s.EntrySurvives o e g ∧ Plan.Becomes .unmarshal (s.resultAt .unmarshal) o g f := by
  cases read with
  | declared property result =>
    cases write with
    | declared again written =>
      obtain rfl := Option.some.inj (property.symm.trans again)
      have survives := parts _ _ _ _ smaller result written
      refine ⟨⟨rfl, ?_, fun none => survives.text (none _ property)⟩, .declared property survives.reads⟩
      rw [property]
      exact survives.rewrites
    | undeclared none =>
      rw [none] at property
      cases property
  | @undeclared name x none =>
    cases write with
    | declared property =>
      rw [none] at property
      cases property
    | undeclared =>
      have same : Direction.marshal.pass (Direction.unmarshal.pass x) = x := Native.toJson_ofJson x
      rw [same]
      exact ⟨⟨rfl, .same, fun _ => rfl⟩, .undeclared none⟩

theorem WellFormed.survives_object (faithful : s.Faithful) (plain : s.Plain) {o : ObjectPlan Key}
    {es : List (String × Json)} {fields : List (String × Native)}
    (core : (s.plan last).core = .object o) (entries : v.object? = some es)
    (becomes : List.Forall₂ (Plan.Becomes .unmarshal (s.resultAt .unmarshal) o) es fields)
    (isObject : n = Direction.unmarshal.object o.typed fields)
    (written : s.resultAt .marshal k n = .ok w) : s.Survives k v n w := by
  have notNull : n.isNull = false := by
    rw [isObject]
    cases o.typed <;> rfl
  have read : n.entries? = some fields := by
    rw [isObject]
    cases o.typed <;> rfl
  have unfilled := plain.missing_eq core .unmarshal fields
  have all : n.entries? = some (fields ++ Plan.missing .unmarshal o fields) := by
    rw [unfilled, List.append_nil, read]
  rw [formed.written_object settles faithful plain.tagsKept core entries becomes notNull all] at written
  obtain ⟨gs, becomes', rfl⟩ := (Plan.apply_object_eq_ok (d := .marshal) core read).mp written
  rw [plain.missing_eq core .marshal gs, List.append_nil]
  obtain rfl := Json.object?_eq_some.mp entries
  have smaller : ∀ {name x}, (name, x) ∈ es → x.size < (Json.object es).size :=
    Direction.unmarshal.size_entry (v := .object es) rfl
  have each : ∀ e ∈ es, ∀ f g, Plan.Becomes .unmarshal (s.resultAt .unmarshal) o e f →
      Plan.Becomes .marshal (s.resultAt .marshal) o f g →
      s.EntrySurvives o e g ∧ Plan.Becomes .unmarshal (s.resultAt .unmarshal) o g f :=
    fun e member f g read write => entry_survives parts (smaller member) read write
  obtain ⟨survive, back⟩ := forall₂_through becomes becomes' each
  have rewrites := survive.imp fun _ _ entry => entry.rewrites
  have names : Entries.keys es = Entries.keys gs :=
    (Plan.names_of_becomes becomes).trans (Plan.names_of_becomes becomes')
  refine ⟨.object settles core names fun e g pair => List.forall₂_zip rewrites pair, ?_, fun _ => rfl⟩
  have settles' := plain.settles_again survive formed settles core entries
    (show (Json.object gs).object? = some gs from rfl)
  have again := formed.resultAt_not_null (d := .unmarshal) (v := .object gs) rfl settles'
  refine again.trans ((Plan.apply_object_eq_ok (d := .unmarshal) core rfl).mpr ⟨fields, back, ?_⟩)
  rw [unfilled, List.append_nil, isObject]

end Taken

/-- With nothing put in, a value that was read survives being written. -/
theorem WellFormed.survives (formed : s.WellFormed) (faithful : s.Faithful) (plain : s.Plain)
    (read : s.resultAt .unmarshal k v = .ok n) (written : s.resultAt .marshal k n = .ok w) :
    s.Survives k v n w := by
  induction size : v.size using Nat.strongRecOn generalizing k v n w with
  | ind bound ih =>
    subst size
    have parts : ∀ l x y z, x.size < v.size → s.resultAt .unmarshal l x = .ok y →
        s.resultAt .marshal l y = .ok z → s.Survives l x y z :=
      fun l x y z smaller read write => ih _ smaller read write rfl
    rcases formed.resultAt_ok read with ⟨j, null, rule, rfl⟩ | ⟨null, rule, rfl⟩ |
      ⟨unruled, m, last, settles, takes⟩
    · have default := default_of_rule rule
      rw [plain.undeclared] at default
      cases default
    · exact survives_keep null rule written
    · cases takes with
      | pass core => exact formed.survives_pass unruled settles core written
      | convert core converted =>
        exact formed.survives_convert settles faithful core converted written
      | list core list items => exact formed.survives_list settles parts core list items written
      | object core entries becomes =>
        refine formed.survives_object settles parts faithful plain core entries becomes ?_ written
        rw [plain.missing_eq core, List.append_nil]

/-- What is read can be written and read again. Nothing is filled in, no schema declares a default
and no format stands at a tag; then a value and the one written for it differ at converted parts
only, and both read the same. -/
theorem round_trip {document : Json} {options : Options} {s : Spec}
    (built : build document options .standard = .ok s) (unfilled : options.includeMissing = false)
    (undeclared : ∀ node ∈ s.nodes, node.default = none)
    (unconverted : ∀ base ∈ s.models, ∀ m ∈ s.models, ∀ e ∈ m.shape.properties,
      base.shape.discriminator = some e.1 → s.converter? (s.concrete e.2) = none)
    (uses others more : List Use) {id : Id} {v : Json} {n : Native}
    (read : (s.unmarshal (s.after uses).unmarshal id v).2 = .ok n) :
    ∃ w, (s.marshal (s.after others).marshal id n).2 = .ok w ∧
      s.Rewrites (some (s.key id true)) v w ∧
      (s.unmarshal (s.after more).unmarshal id w).2 = .ok n := by
  have formed := build_wellFormed built
  have faithful := faithful_of_build built
  have plain : s.Plain := by
    refine ⟨fun id => ?_, ?_, unconverted⟩
    · unfold node
      cases found : s.nodes[id]? with
      | none => rfl
      | some node => exact undeclared node (Array.mem_of_getElem? found)
    · rw [(build_given built).1, unfilled]
  rw [unmarshal_after] at read
  obtain ⟨w, written⟩ := (formed.returns faithful plain.tagsKept read).mpr
    fun l j inserted => absurd inserted plain.not_inserts
  have survives := formed.survives faithful plain read written
  refine ⟨w, ?_, survives.rewrites, ?_⟩
  · rw [marshal_after, written]
  · rw [unmarshal_after, survives.reads]

/-- Pets that are dogs or just pets, with days of birth and friends that are pets. -/
def kennel : Json :=
  .object [("definitions", .object [
    ("Pet", .object [("type", .string "object"), ("discriminator", .string "kind"),
      ("properties", .object [("kind", .object [("type", .string "string")]),
        ("born", .object [("type", .string "string"), ("format", .string "date")]),
        ("friends", .object [("type", .string "array"),
          ("items", .object [("$ref", .string "#/definitions/Pet")])])])]),
    ("Dog", .object [("allOf", .array [.object [("$ref", .string "#/definitions/Pet")],
      .object [("properties", .object [("tricks", .object [("type", .string "integer"),
        ("format", .string "int32")])])]])])])]

theorem round_trip_of_kennel :
    let options : Options := ⟨true, false, true, true⟩
    let v : Json := .object [("kind", .string "Dog"), ("born", .string "2020-2-29"),
      ("friends", .array [.object [("tricks", .string "none")], .object []]),
      ("tricks", .number (.int 3))]
    ∃ s n w, build kennel options .standard = .ok s ∧ (∀ node ∈ s.nodes, node.default = none) ∧
      (∀ base ∈ s.models, ∀ m ∈ s.models, ∀ e ∈ m.shape.properties,
        base.shape.discriminator = some e.1 → s.converter? (s.concrete e.2) = none) ∧
      (s.unmarshal (s.after []).unmarshal 0 v).2 = .ok n ∧
      (s.marshal (s.after [.marshal 1 .null]).marshal 0 n).2 = .ok w ∧
      s.Rewrites (some (s.key 0 true)) v w ∧ (s.unmarshal (s.after []).unmarshal 0 w).2 = .ok n := by
  intro options v
  have plain : (build kennel options .standard).toOption.any (fun s => decide
      ((∀ node ∈ s.nodes, node.default = none) ∧
        ∀ base ∈ s.models, ∀ m ∈ s.models, ∀ e ∈ m.shape.properties,
          base.shape.discriminator = some e.1 → (s.converter? (s.concrete e.2)).isNone)) = true := by
    decide +kernel
  have reads : (build kennel options .standard).toOption.any (fun s =>
      (s.unmarshal (s.after []).unmarshal 0 v).2.isOk) = true := by
    decide +kernel
  obtain ⟨s, built, plain⟩ := Except.exists_of_any plain
  rw [built] at reads
  obtain ⟨undeclared, free⟩ := of_decide_eq_true plain
  have unconverted : ∀ base ∈ s.models, ∀ m ∈ s.models, ∀ e ∈ m.shape.properties,
      base.shape.discriminator = some e.1 → s.converter? (s.concrete e.2) = none :=
    fun base listed m member e declared marked =>
      Option.isNone_iff_eq_none.mp (free base listed m member e declared marked)
  obtain ⟨n, read⟩ := Except.exists_of_isOk reads
  obtain ⟨w, written, rewrites, again⟩ :=
    round_trip built rfl undeclared unconverted [] [.marshal 1 .null] [] read
  exact ⟨s, n, w, built, undeclared, unconverted, read, written, rewrites, again⟩

end Spec
end ApiPayload
