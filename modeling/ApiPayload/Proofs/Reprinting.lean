import ApiPayload.Proofs.Complete
import ApiPayload.Proofs.Fillers
import ApiPayload.Proofs.Markers
import ApiPayload.Proofs.Return

/-
Results that are shown, read again and written. They are written as the result itself is, with the names of its
models added, as long as no property and no tag has the name that these are shown under.
-/
namespace ApiPayload

open Schema Format Cli

variable {α β link : Type}

/-- What a format reads is shown as it is written, repeats no key, and is written alike when it was shown and
read again. -/
structure Format.Converter.Printable (c : Converter) : Prop where
  written : ∀ {v n}, c.toNative v = .ok n → c.toWire n = .ok (rendered n)
  again : ∀ {v n}, c.toNative v = .ok n → c.toWire (reread n) = .ok (rendered n)
  unique : ∀ {v n}, c.toNative v = .ok n → (rendered n).KeysUnique

section Standard

theorem Format.date_printable : date.Printable := by
  refine ⟨fun {v n} read => ?_, fun {v n} read => ?_, fun {v n} read => ?_⟩
  all_goals obtain ⟨_, d, rfl, rfl⟩ := date_read read
  · rfl
  · rfl
  · simp [rendered, Native.toJson, Json.KeysUnique]

theorem Format.dateTime_printable : dateTime.Printable := by
  refine ⟨fun {v n} read => ?_, fun {v n} read => ?_, fun {v n} read => ?_⟩
  all_goals obtain ⟨_, t, rfl, rfl⟩ := dateTime_read read
  · rfl
  · rfl
  · simp [rendered, Native.toJson, Json.KeysUnique]

theorem Format.whole_printable (name : String) (low high : Int) : (whole name low high).Printable := by
  have written : ∀ {m}, checkWhole name low high m = .ok m →
      (checkWhole name low high m).map Json.number = .ok (.number m) := by
    intro m checked
    rw [checked]
    rfl
  refine ⟨fun {v n} read => ?_, fun {v n} read => ?_, fun {v n} read => ?_⟩
  all_goals obtain ⟨m, checked, rfl, rfl⟩ := whole_read read
  · exact written checked
  · exact written checked
  · simp [rendered, Native.toJson, Json.KeysUnique]

theorem Format.floating_printable (name : String) : (floating name).Printable := by
  refine ⟨fun {v n} read => ?_, fun {v n} read => ?_, fun {v n} read => ?_⟩
  all_goals obtain ⟨m, rfl, rfl⟩ := floating_read read
  · rfl
  · rfl
  · simp [rendered, Native.toJson, Json.KeysUnique]

theorem Format.standard_printable {name : String} {c : Converter}
    (found : Registry.standard.find? name = some c) : c.Printable := by
  have member : c ∈ standard := Registry.mem_of_find? found
  simp only [standard, List.mem_cons, List.not_mem_nil, or_false] at member
  rcases member with rfl | rfl | rfl | rfl | rfl | rfl
  · exact date_printable
  · exact dateTime_printable
  · exact whole_printable _ _ _
  · exact whole_printable _ _ _
  · exact floating_printable _
  · exact floating_printable _

end Standard

theorem ObjectPlan.choice_of_tag {d : Direction α β} {o : ObjectPlan link} {mark : String}
    {es es' : List (String × α)} (marks : o.discriminator = some mark)
    (same : (Entries.get? mark es).bind d.string? = (Entries.get? mark es').bind d.string?) : o.choice d es = o.choice d es' := by
  rw [choice_eq, choice_eq, marks, Option.bind_some, Option.bind_some, same]

theorem isNull_object (typed : Option String) (ps : List (String × Native)) :
    (Direction.unmarshal.object typed ps).isNull = false := by
  cases typed <;> rfl

theorem entries?_object (typed : Option String) (ps : List (String × Native)) :
    (Direction.unmarshal.object typed ps).entries? = some ps := by
  cases typed <;> rfl

theorem Plan.missing_again {o : ObjectPlan link} {fields : List (String × Native)} {ws : List (String × Json)}
    (known : ∀ name ∈ Entries.keys (fields ++ missing .unmarshal o fields), name ∈ Entries.keys ws) :
    missing .marshal o ws = [] := by
  refine List.eq_nil_iff_forall_not_mem.mpr fun ⟨name, y⟩ filled => ?_
  obtain ⟨fills, declared, absent, _⟩ := mem_missing.mp filled
  refine absent (known name ?_)
  rw [Entries.keys, List.map_append]
  by_cases given : name ∈ Entries.keys fields
  · exact List.mem_append_left _ given
  · refine List.mem_append_right _ ?_
    exact List.mem_map_of_mem (f := Prod.fst) (mem_missing.mpr ⟨fills, declared, given, rfl⟩)

namespace Spec

variable {s : Spec} {k last : Key} {v : Json} {n : Native}

/-- No property of a model and no tag has the name that names of models are shown under. -/
def Unmarked (s : Spec) : Prop := s.options.useModels = true → ∀ m ∈ s.models,
  marker ∉ Entries.keys m.shape.properties ∧ m.shape.discriminator ≠ some marker

def Printable (s : Spec) : Prop := ∀ name c, s.formats.find? name = some c → c.Printable

theorem printable_of_build {document : Json} {options : Options}
    (built : build document options .standard = .ok s) : s.Printable := by
  intro name c found
  rw [(build_given built).2] at found
  exact standard_printable found

theorem Printable.converter (printable : s.Printable) {c : Converter} (core : (s.plan k).core = .convert c) :
    c.Printable := by
  obtain ⟨name, registered⟩ := converter?_mem (core_eq_convert core)
  exact printable name c registered

/-- A result that was shown and read again is written like the result, but for the names of its models. -/
structure Reprints (s : Spec) (k : Key) (n : Native) : Prop where
  marked : ∀ w, s.resultAt .marshal k n = .ok w → s.resultAt .marshal k (reread n) = .ok (marked n w)
  only : ∀ w, s.resultAt .marshal k (reread n) = .ok w → s.Writable k n

theorem reprints_ofJson (k : Key) (j : Json) : s.Reprints k (.ofJson j) := by
  constructor
  · intro w written
    rw [reread_ofJson, marked_ofJson, written]
  · intro w written
    rw [reread_ofJson] at written
    exact ⟨w, written⟩

section Object
variable {o : ObjectPlan Key} {es : List (String × Json)} {fields : List (String × Native)}

theorem WellFormed.result_nodup (formed : s.WellFormed) (core : (s.plan k).core = .object o)
    (distinct : (Entries.keys es).Nodup) (names : Entries.keys es = Entries.keys fields) :
    (Entries.keys (fields ++ Plan.missing .unmarshal o fields)).Nodup := by
  have whole : Entries.keys (fields ++ Plan.missing .unmarshal o fields) =
      Entries.keys es ++ Entries.keys (Plan.missing .unmarshal o fields) := by
    rw [names]
    exact List.map_append
  rw [whole]
  cases fills : o.includeMissing with
  | true =>
    rw [formed.missing_eq_appended core fills names]
    exact formed.appended_nodup core distinct
  | false =>
    have nothing : Plan.missing .unmarshal o fields = [] := by simp [Plan.missing, fills]
    rw [nothing]
    simpa [Entries.keys] using distinct

/-- A plan gives models only if they are on, and is then that of one. -/
theorem model_of_core (core : (s.plan k).core = .object o) :
    o.typed = none ∨ s.options.useModels = true ∧ ∃ m ∈ s.models, o = s.modelPlan m := by
  obtain ⟨shape, _, rfl | ⟨m, member, rfl⟩⟩ := core_object core
  · exact .inl rfl
  · cases used : s.options.useModels with
    | false => exact .inl (by simp [modelPlan, used])
    | true => exact .inr ⟨rfl, m, member, rfl⟩

theorem Unmarked.property (unmarked : s.Unmarked) (core : (s.plan k).core = .object o) :
    o.typed = none ∨ Entries.get? marker o.properties = none := by
  refine (model_of_core core).imp_right ?_
  rintro ⟨used, m, member, rfl⟩
  rw [Entries.get?_eq_none_iff, modelPlan, keys_propertyKeys]
  exact (unmarked used m member).1

theorem Unmarked.tag (unmarked : s.Unmarked) (core : (s.plan k).core = .object o) {m : Model} {mark : String}
    (member : m ∈ s.models) (marks : m.shape.discriminator = some mark) : o.typed = none ∨ mark ≠ marker := by
  refine (model_of_core core).imp_right ?_
  rintro ⟨used, _⟩ rfl
  exact (unmarked used m member).2 marks

/-- What is shown as a text is one, unless a format made it of that text. -/
theorem WellFormed.text_printed (formed : s.WellFormed) (faithful : s.Faithful)
    (printable : s.Printable) {l : Key} {x : Json} {y : Native} {t : String}
    (read : s.resultAt .unmarshal l x = .ok y) (text : (rendered y).string? = some t) :
    y.string? = some t ∨ ∃ c, s.converter? l.schema = some c ∧ c.toNative (.string t) = .ok y := by
  rcases formed.resultAt_ok read with ⟨j, _, _, rfl⟩ | ⟨_, _, rfl⟩ | ⟨_, _, last, settles, takes⟩
  · exact .inl ((string?_rendered_ofJson j).symm.trans text)
  · cases text
  · cases takes with
    | pass core => exact .inl ((string?_rendered_ofJson x).symm.trans text)
    | @convert c _ core converted =>
      obtain ⟨_, noEntries⟩ := (faithful.converter core).single converted
      obtain rfl := settles.last_unique (settles_of_no_entries noEntries l)
      obtain ⟨w, written, again⟩ := (faithful.converter core).returns converted
      obtain rfl := Except.ok.inj (((printable.converter core).written converted).symm.trans written)
      refine .inr ⟨c, core_eq_convert core, ?_⟩
      rwa [← Json.string?_eq_some.mp text]
    | list core list items => cases text
    | @object o es fields core entries becomes =>
      rw [rendered_object] at text
      cases text

/-- What stands in an object that was read: the result of an entry, or a value that was taken over as it is. -/
theorem part_of_result {name : String} {y : Native}
    (becomes : List.Forall₂ (Plan.Becomes .unmarshal (s.resultAt .unmarshal) o) es fields)
    (listed : (name, y) ∈ fields ++ Plan.missing .unmarshal o fields) :
    (∃ j, y = .ofJson j ∧ ((name, j) ∈ es ∨ j = (Entries.get? name o.defaults).getD .null)) ∨
      ∃ l x, (name, x) ∈ es ∧ Entries.get? name o.properties = some l ∧ s.resultAt .unmarshal l x = .ok y := by
  rcases List.mem_append.mp listed with made | filled
  · obtain ⟨⟨_, x⟩, member, became⟩ := left_of_forall₂ becomes made
    cases became with
    | declared property result => exact .inr ⟨_, x, member, property, result⟩
    | undeclared none => exact .inl ⟨x, rfl, .inl member⟩
  · obtain ⟨_, _, _, rfl⟩ := Plan.mem_missing.mp filled
    exact .inl ⟨_, Plan.filler_ofJson o name, .inr rfl⟩

section Shown
variable {typed : Option String} {ps : List (String × Native)} {name : String}

/-- The entries of an object that was shown and read again. -/
def shownEntries (typed : Option String) (ps : List (String × Native)) : List (String × Native) :=
  Entries.mapValues Native.ofJson (titled typed (Entries.mapValues rendered ps))

theorem get?_shown (distinct : (Entries.keys ps).Nodup) (other : typed = none ∨ name ≠ marker) :
    Entries.get? name (shownEntries typed ps) = (Entries.get? name ps).map reread := by
  have distinct' : (Entries.keys (Entries.mapValues rendered ps)).Nodup := by
    rw [Entries.keys_mapValues]
    exact distinct
  rw [shownEntries, Entries.get?_mapValues, get?_titled distinct' other, Entries.get?_mapValues, Option.map_map]
  rfl

end Shown

section Tags
variable (formed : s.WellFormed) (faithful : s.Faithful) (printable : s.Printable)
  (becomes : List.Forall₂ (Plan.Becomes .unmarshal (s.resultAt .unmarshal) o) es fields)
include formed faithful printable becomes

/-- A tag that is shown as a text is one, if no format reads that text where the tag stands. -/
theorem WellFormed.tag_printed {mark t : String} {y : Native}
    (found : Entries.get? mark (fields ++ Plan.missing .unmarshal o fields) = some y)
    (text : (rendered y).string? = some t) (unread : ∀ l, Entries.get? mark o.properties = some l →
      ∀ c, s.converter? l.schema = some c → ∀ n, c.toNative (.string t) ≠ .ok n) : y.string? = some t := by
  rcases part_of_result becomes (Entries.mem_of_get? found) with ⟨j, rfl, _⟩ | ⟨l, x, _, property, result⟩
  · exact (string?_rendered_ofJson j).symm.trans text
  · rcases formed.text_printed faithful printable result text with same | ⟨c, carried, read⟩
    · exact same
    · exact absurd read (unread l property c carried y)

/-- What was shown is handed down as the result is. -/
theorem WellFormed.choice_reread (kept : s.TagsKept) {base : ObjectPlan Key} {rs : List (String × Native)}
    (core : (s.plan k).core = .object base)
    (found : ∀ m ∈ s.models, ∀ mark, m.shape.discriminator = some mark →
      Entries.get? mark rs = (Entries.get? mark (fields ++ Plan.missing .unmarshal o fields)).map reread)
    (ofModel : ∀ m ∈ s.models, base = s.modelPlan m → ∃ m ∈ s.models, o.properties = s.propertyKeys m.shape) :
    base.choice .marshal rs = base.choice .marshal (fields ++ Plan.missing .unmarshal o fields) := by
  cases chosen : base.choice .marshal rs with
  | none =>
    cases other : base.choice .marshal (fields ++ Plan.missing .unmarshal o fields) with
    | none => rfl
    | some next =>
      -- A text is shown as itself, so it would lead on there too.
      obtain ⟨m, member, rfl, mark, below, marks, tagged, _⟩ := subtype_of_choice core other
      obtain ⟨y, present, text⟩ := Option.bind_eq_some_iff.mp tagged
      have again : (Entries.get? mark rs).bind Native.string? = some below.name := by
        rw [found m member mark marks, present]
        cases y with
        | string t => exact text
        | _ => cases text
      rw [ObjectPlan.choice_of_tag (o := s.modelPlan m) marks (again.trans tagged.symm), other] at chosen
      cases chosen
  | some next =>
    obtain ⟨above, listed, rfl, mark, below, marks, tagged, known, heir⟩ := subtype_of_choice core chosen
    obtain ⟨m, member, properties⟩ := ofModel above listed rfl
    obtain ⟨r, present, text⟩ := Option.bind_eq_some_iff.mp tagged
    rw [found above listed mark marks] at present
    obtain ⟨y, stands, rfl⟩ := Option.map_eq_some_iff.mp present
    have shown : (rendered y).string? = some below.name := (string?_reread y).symm.trans text
    have own : y.string? = some below.name := by
      refine formed.tag_printed faithful printable becomes stands shown fun l property c carried => ?_
      rw [properties] at property
      obtain ⟨id, declared, same⟩ := id_of_property property
      rw [same] at carried
      exact kept.unread above listed m member mark id marks declared below known heir c carried
    have back : (Entries.get? mark (fields ++ Plan.missing .unmarshal o fields)).bind Native.string? =
        some below.name := by
      rw [stands]
      exact own
    rw [← chosen]
    exact ObjectPlan.choice_of_tag (o := s.modelPlan above) marks (tagged.trans back.symm)

/-- What was shown and read again is handed down, when it is written, as the value was when it was read. -/
theorem WellFormed.settles_reread (kept : s.TagsKept) (unmarked : s.Unmarked) {m : Nat}
    (distinct : (Entries.keys es).Nodup) (settles : s.Settles .unmarshal (.object es) m k last)
    (core : (s.plan last).core = .object o)
    (isObject : n = Direction.unmarshal.object o.typed (fields ++ Plan.missing .unmarshal o fields)) :
    s.Settles .marshal n m k last ∧ s.Settles .marshal (reread n) m k last := by
  have read : n.entries? = some (fields ++ Plan.missing .unmarshal o fields) := isObject ▸ entries?_object _ _
  have shown : (reread n).entries? = some (shownEntries o.typed (fields ++ Plan.missing .unmarshal o fields)) :=
    isObject ▸ entries?_reread _ _
  have marks : ∀ m ∈ s.models, ∀ mark, m.shape.discriminator = some mark →
      Entries.get? mark (shownEntries o.typed (fields ++ Plan.missing .unmarshal o fields)) =
        (Entries.get? mark (fields ++ Plan.missing .unmarshal o fields)).map reread :=
    fun m member mark marks => get?_shown (formed.result_nodup core distinct (Plan.names_of_becomes becomes))
      (unmarked.tag core member marks)
  have back := formed.settles_back becomes faithful kept settles core rfl read
  refine ⟨back, back.transfer formed core read shown (fun stays => ?_) fun own ofModel choice => ?_⟩
  · rw [formed.choice_reread faithful printable becomes kept core marks fun m member same =>
      ⟨m, member, by rw [same]; rfl⟩]
    exact stays
  · rw [formed.choice_reread faithful printable becomes kept own marks fun _ _ _ => ofModel]
    exact choice

end Tags

/-- A part of a result, at its place or outside of all places, that is written alike when it was shown and read
again. -/
inductive PartReprints (s : Spec) : Option Key → Native → Prop where
  | place {l : Key} {y : Native} (reprints : s.Reprints l y) : PartReprints s (some l) y
  | outside (j : Json) : PartReprints s none (.ofJson j)

section Written
variable {ps : List (String × Native)} {ws : List (String × Json)} {w : Json}

/-- Entries that were shown and read again become what the entries become, with names added. -/
theorem becomes_shown {typed : Option String} (free : typed = none ∨ Entries.get? marker o.properties = none)
    (becomes : List.Forall₂ (Plan.Becomes .marshal (s.resultAt .marshal) o) ps ws)
    (parts : ∀ name y, (name, y) ∈ ps → s.PartReprints (Entries.get? name o.properties) y) :
    List.Forall₂ (Plan.Becomes .marshal (s.resultAt .marshal) o) (shownEntries typed ps)
      (titled typed (markedEntries ps ws)) := by
  have each : List.Forall₂ (fun e f => Plan.Becomes .marshal (s.resultAt .marshal) o (e.1, Native.ofJson e.2) f)
      (Entries.mapValues rendered ps) (markedEntries ps ws) := by
    clear free
    induction becomes with
    | nil => exact .nil
    | @cons e f ps ws here _ ih =>
      refine .cons (?_ : Plan.Becomes _ _ o (e.1, reread e.2) (f.1, Cli.marked e.2 f.2))
        (ih fun name y member => parts name y (List.mem_cons_of_mem _ member))
      have own := parts e.1 e.2 List.mem_cons_self
      cases here with
      | @declared name y w l property result =>
        simp only [property] at own
        cases own with
        | place reprints => exact .declared property (reprints.marked w result)
      | @undeclared name y none =>
        simp only [none] at own
        cases own with
        | outside j =>
          rw [marked_ofJson, reread_ofJson]
          exact .undeclared none
  refine List.forall₂_map_left_iff.mpr ?_
  cases typed with
  | none => exact each
  | some title =>
    refine Entries.forall₂_foldl_insert (fun e f became => became.name_eq) each (.cons ?_ .nil)
    exact .undeclared (free.resolve_left nofun)

variable (distinct : (Entries.keys ps).Nodup) (core : (s.plan k).core = .object o)
  (parts : ∀ name y, (name, y) ∈ ps → s.PartReprints (Entries.get? name o.properties) y)
  (free : o.typed = none ∨ Entries.get? marker o.properties = none)
include distinct core parts free

/-- A plan that has nothing to fill in writes what was shown like the result, with names added. -/
theorem apply_shown (full : ∀ ws : List (String × Json), Entries.keys ps ⊆ Entries.keys ws →
      Plan.missing .marshal o ws = [])
    (written : (s.plan k).apply .marshal (s.resultAt .marshal) (Direction.unmarshal.object o.typed ps) = .ok w) :
    (s.plan k).apply .marshal (s.resultAt .marshal) (reread (Direction.unmarshal.object o.typed ps)) =
      .ok (Cli.marked (Direction.unmarshal.object o.typed ps) w) := by
  obtain ⟨ws, became, rfl⟩ := (Plan.apply_object_eq_ok (d := .marshal) core (entries?_object _ ps)).mp written
  refine (Plan.apply_object_eq_ok (d := .marshal) core (entries?_reread _ ps)).mpr
    ⟨_, becomes_shown free became parts, ?_⟩
  have names := Plan.names_of_becomes became
  have names' : Entries.keys (markedEntries ps ws) = Entries.keys ps := (keys_markedEntries ps ws).trans names.symm
  have titles : Entries.keys ps ⊆ Entries.keys (titled o.typed (markedEntries ps ws)) := by
    rw [← names'] at distinct ⊢
    exact fun _ given => mem_keys_titled distinct given
  rw [full ws (fun _ given => names ▸ given), full _ titles, List.append_nil, List.append_nil]
  exact marked_object _ ps ws

theorem writable_of_shown
    (written : (s.plan k).apply .marshal (s.resultAt .marshal) (reread (Direction.unmarshal.object o.typed ps)) =
      .ok w) :
    ∃ w, (s.plan k).apply .marshal (s.resultAt .marshal) (Direction.unmarshal.object o.typed ps) = .ok w := by
  refine (Plan.apply_object_ok_iff (d := .marshal) core (entries?_object _ ps)).mpr ?_
  intro name y listed l property
  have other : o.typed = none ∨ name ≠ marker := by
    refine free.imp_right fun free => ?_
    rintro rfl
    rw [property] at free
    cases free
  have found := get?_shown distinct other
  rw [Entries.get?_of_mem distinct listed] at found
  have all := (Plan.apply_object_ok_iff (d := .marshal) core (entries?_reread _ ps)).mp ⟨w, written⟩
  obtain ⟨w', one⟩ := all name (reread y) (Entries.mem_of_get? found) l property
  have own := parts name y listed
  simp only [property] at own
  cases own with
  | place reprints => exact reprints.only w' one

end Written

end Object

/-- Items that were shown and read again are written like the items, with names added. -/
theorem items_marked {item : Key} {ys : List Native} {ws : List Json}
    (written : List.Forall₂ (fun y w => s.resultAt .marshal item y = .ok w) ys ws)
    (each : ∀ y ∈ ys, s.Reprints item y) :
    List.Forall₂ (fun y w => s.resultAt .marshal item y = .ok w) (ys.map reread) (markedItems ys ws) := by
  induction written with
  | nil => exact .nil
  | @cons y w ys ws here _ ih =>
    exact .cons ((each y List.mem_cons_self).marked w here)
      (ih fun y member => each y (List.mem_cons_of_mem _ member))

section Taken

variable {m : Nat} (formed : s.WellFormed) (settles : s.Settles .unmarshal v m k last)
include formed settles

theorem WellFormed.reprints_convert (faithful : s.Faithful) (printable : s.Printable)
    (modelless : s.formats.Modelless) {c : Converter}
    (core : (s.plan last).core = .convert c) (read : c.toNative v = .ok n) : s.Reprints k n := by
  obtain ⟨w, back, _, written⟩ := formed.written_convert settles faithful core read
  have again := (printable.converter core).again read
  obtain rfl := Except.ok.inj (((printable.converter core).written read).symm.trans back)
  obtain ⟨_, noEntries⟩ := (faithful.converter core).single read
  obtain ⟨notNull, _, plain⟩ := (faithful.converter core).typed read
  obtain rfl := settles.last_unique (settles_of_no_entries noEntries k)
  have same : Cli.marked n (rendered n) = rendered n := by
    obtain ⟨name, registered⟩ := converter?_mem (core_eq_convert core)
    exact marked_of_no_model n _ (modelless name c registered v n read)
  constructor
  · intro w written'
    rw [written] at written'
    cases written'
    rw [formed.resultAt_not_null ((isNull_reread n).trans notNull)
      (settles_of_no_entries (d := .marshal) (reread_single plain) last), same]
    exact Plan.apply_eq_ok.mpr (.convert core again)
  · exact fun _ _ => ⟨_, written⟩

variable (parts : ∀ l x y, x.size < v.size → x.KeysUnique → s.resultAt .unmarshal l x = .ok y → s.Reprints l y)
  (unique : v.KeysUnique)
include parts unique

theorem WellFormed.reprints_list {schema : String} {item : Key} {xs : List Json} {ys : List Native}
    (core : (s.plan last).core = .list schema item) (list : v.array? = some xs)
    (items : List.Forall₂ (fun x y => s.resultAt .unmarshal item x = .ok y) xs ys) :
    s.Reprints k (.list ys) := by
  obtain ⟨rfl, written⟩ := formed.written_list settles list ys
  obtain ⟨_, again⟩ := formed.written_list settles list (ys.map reread)
  have smaller : ∀ {x}, x ∈ xs → x.size < v.size := Direction.unmarshal.size_item list
  have each : ∀ y ∈ ys, s.Reprints item y := by
    intro y listed
    obtain ⟨x, member, read⟩ := left_of_forall₂ items listed
    obtain rfl := Json.array?_eq_some.mp list
    exact parts item x y (smaller member) (Json.keysUniqueItems_iff.mp unique x member) read
  constructor
  · intro w result
    rw [written] at result
    obtain ⟨ws, became, rfl⟩ := (Plan.apply_list_eq_ok (d := .marshal) (v := .list ys) core rfl).mp result
    rw [reread_list, again]
    refine (Plan.apply_list_eq_ok (d := .marshal) (v := .list (ys.map reread)) core rfl).mpr
      ⟨markedItems ys ws, items_marked became each, rfl⟩
  · intro w result
    rw [reread_list, again] at result
    rw [Writable, written, Plan.apply_list_ok_iff (d := .marshal) (v := .list ys) core rfl]
    intro y listed
    have all := (Plan.apply_list_ok_iff (d := .marshal) (v := .list (ys.map reread)) core rfl).mp ⟨w, result⟩
    obtain ⟨w', one⟩ := all (reread y) (List.mem_map_of_mem listed)
    exact (each y listed).only w' one

theorem WellFormed.reprints_object (faithful : s.Faithful) (printable : s.Printable) (kept : s.TagsKept)
    (unmarked : s.Unmarked) {o : ObjectPlan Key} {es : List (String × Json)} {fields : List (String × Native)}
    (core : (s.plan last).core = .object o) (entries : v.object? = some es)
    (becomes : List.Forall₂ (Plan.Becomes .unmarshal (s.resultAt .unmarshal) o) es fields)
    (isObject : n = Direction.unmarshal.object o.typed (fields ++ Plan.missing .unmarshal o fields)) :
    s.Reprints k n := by
  obtain rfl := Json.object?_eq_some.mp entries
  have distinct := formed.result_nodup core unique.1 (Plan.names_of_becomes becomes)
  have smaller : ∀ {name x}, (name, x) ∈ es → x.size < (Json.object es).size :=
    Direction.unmarshal.size_entry (v := .object es) rfl
  obtain ⟨back, again⟩ :=
    formed.settles_reread faithful printable becomes kept unmarked unique.1 settles core isObject
  subst isObject
  have each : ∀ name y, (name, y) ∈ fields ++ Plan.missing .unmarshal o fields →
      s.PartReprints (Entries.get? name o.properties) y := by
    intro name y listed
    rcases part_of_result becomes listed with ⟨j, rfl, _⟩ | ⟨l, x, member, property, result⟩
    · cases Entries.get? name o.properties with
      | none => exact .outside j
      | some l => exact .place (reprints_ofJson l j)
    · rw [property]
      exact .place (parts l x y (smaller member) (Json.keysUniqueMembers_iff.mp unique.2 _ member) result)
  have notNull := isNull_object o.typed (fields ++ Plan.missing .unmarshal o fields)
  have written := formed.resultAt_not_null notNull back
  have written' := formed.resultAt_not_null ((isNull_reread _).trans notNull) again
  refine ⟨fun w result => ?_, fun w result => ?_⟩
  · rw [written] at result
    rw [written']
    exact apply_shown distinct core each (unmarked.property core) (fun _ known => Plan.missing_again known) result
  · rw [written'] at result
    rw [Writable, written]
    exact writable_of_shown distinct core each (unmarked.property core) result

end Taken

/-- By induction on the value that was read: its result is written alike when it was shown and read again. -/
theorem WellFormed.reprints (formed : s.WellFormed) (faithful : s.Faithful) (printable : s.Printable)
    (modelless : s.formats.Modelless) (kept : s.TagsKept) (unmarked : s.Unmarked) (unique : v.KeysUnique)
    (read : s.resultAt .unmarshal k v = .ok n) : s.Reprints k n := by
  induction size : v.size using Nat.strongRecOn generalizing k v n with
  | ind bound ih =>
    subst size
    have parts : ∀ l x y, x.size < v.size → x.KeysUnique → s.resultAt .unmarshal l x = .ok y →
        s.Reprints l y := fun l x y smaller unique result => ih _ smaller unique result rfl
    rcases formed.resultAt_ok read with ⟨j, _, _, rfl⟩ | ⟨_, _, rfl⟩ | ⟨_, m, last, settles, takes⟩
    · exact reprints_ofJson k j
    · exact reprints_ofJson k .null
    · cases takes with
      | pass => exact reprints_ofJson k v
      | convert core converted =>
        exact formed.reprints_convert settles faithful printable modelless core converted
      | list core list items => exact formed.reprints_list settles parts unique core list items
      | object core entries becomes =>
        exact formed.reprints_object settles parts unique faithful printable kept unmarked core entries becomes rfl

section Unique
variable {o : ObjectPlan Key} {es : List (String × Json)} {fields : List (String × Native)}

/-- No default that a schema declares repeats a key. -/
theorem default_unique {document : Json} {options : Options} {formats : Registry} (distinct : document.KeysUnique)
    (built : build document options formats = .ok s) {id : Id} {j : Json}
    (default : (s.node id).default = some j) : j.KeysUnique := by
  obtain ⟨naming, order, readAs⟩ := read_as built
  by_cases inside : id < order.length
  · rw [readAs.node_eq inside] at default
    have declared : ((order[id].find? document).getD .null).member? "default" = some j := default
    cases found : order[id].find? document with
    | none =>
      rw [found] at declared
      cases declared
    | some raw =>
      rw [found, Option.getD_some] at declared
      have whole := distinct.find? found
      cases raw with
      | object ms => exact Json.keysUniqueMembers_iff.mp whole.2 _ (Entries.mem_of_get? declared)
      | _ => cases declared
  · have outside : s.nodes[id]? = none := by
      rw [Array.getElem?_eq_none_iff, readAs.size_eq]
      exact Nat.le_of_not_lt inside
    rw [node, outside] at default
    cases default

theorem WellFormed.shown_unique_object (formed : s.WellFormed)
    (defaults : ∀ id j, (s.node id).default = some j → j.KeysUnique) (core : (s.plan k).core = .object o)
    (unique : (Json.object es).KeysUnique)
    (becomes : List.Forall₂ (Plan.Becomes .unmarshal (s.resultAt .unmarshal) o) es fields)
    (parts : ∀ name x l y, (name, x) ∈ es → s.resultAt .unmarshal l x = .ok y → (rendered y).KeysUnique) :
    (rendered (Direction.unmarshal.object o.typed (fields ++ Plan.missing .unmarshal o fields))).KeysUnique := by
  rw [rendered_object, renderedEntries_eq]
  refine keysUnique_titled ⟨?_, Json.keysUniqueMembers_iff.mpr fun m shown => ?_⟩
  · rw [Entries.keys_mapValues]
    exact formed.result_nodup core unique.1 (Plan.names_of_becomes becomes)
  · obtain ⟨⟨name, y⟩, listed, rfl⟩ := List.mem_map.mp shown
    rcases part_of_result becomes listed with ⟨j, rfl, given | filled⟩ | ⟨l, x, member, _, result⟩
    · rw [rendered_ofJson]
      exact Json.keysUniqueMembers_iff.mp unique.2 _ given
    · rw [rendered_ofJson, filled]
      cases declared : Entries.get? name o.defaults with
      | none => simp [Json.KeysUnique]
      | some j =>
        obtain ⟨shape, _, _, same⟩ := formed.shape_of_core core
        rw [same] at declared
        obtain ⟨id, _, default⟩ := id_of_default declared
        exact defaults _ j default
    · exact parts name x l y member result

/-- What is shown of a result repeats no key. -/
theorem WellFormed.shown_unique (formed : s.WellFormed) (printable : s.Printable)
    (defaults : ∀ id j, (s.node id).default = some j → j.KeysUnique) (unique : v.KeysUnique)
    (read : s.resultAt .unmarshal k v = .ok n) : (rendered n).KeysUnique := by
  induction size : v.size using Nat.strongRecOn generalizing k v n with
  | ind bound ih =>
    subst size
    rcases formed.resultAt_ok read with ⟨j, _, rule, rfl⟩ | ⟨_, _, rfl⟩ | ⟨_, m, last, settles, takes⟩
    · exact (rendered_ofJson j).symm ▸ defaults _ j (default_of_rule rule)
    · exact (show Json.null.KeysUnique by simp [Json.KeysUnique])
    · cases takes with
      | pass => exact (rendered_ofJson v).symm ▸ unique
      | convert core converted => exact (printable.converter core).unique converted
      | @list schema item xs ys core list items =>
        obtain rfl := Json.array?_eq_some.mp list
        refine (show (Json.array (renderedItems ys)).KeysUnique from ?_)
        rw [renderedItems_eq, Json.KeysUnique, Json.keysUniqueItems_iff]
        intro shown member
        obtain ⟨y, listed, rfl⟩ := List.mem_map.mp member
        obtain ⟨x, given, result⟩ := left_of_forall₂ items listed
        exact ih _ (Direction.unmarshal.size_item (v := .array xs) rfl given)
          (Json.keysUniqueItems_iff.mp unique x given) result rfl
      | @object o es fields core entries becomes =>
        obtain rfl := Json.object?_eq_some.mp entries
        refine formed.shown_unique_object defaults core unique becomes fun name x l y given result => ?_
        exact ih _ (Direction.unmarshal.size_entry (v := .object es) rfl given)
          (Json.keysUniqueMembers_iff.mp unique.2 _ given) result rfl

end Unique

/-- What was shown and read again is written just if the result itself is, and then like it, with the names of
its models added. -/
theorem marshal_reread {document : Json} {options : Options} (built : build document options .standard = .ok s)
    (kept : s.TagsKept) (unmarked : s.Unmarked) (unique : v.KeysUnique) {id : Id}
    (read : (s.unmarshal .empty id v).2 = .ok n) :
    (∀ w, (s.marshal .empty id n).2 = .ok w → (s.marshal .empty id (reread n)).2 = .ok (Cli.marked n w)) ∧
      ∀ w, (s.marshal .empty id (reread n)).2 = .ok w → ∃ w', (s.marshal .empty id n).2 = .ok w' := by
  have modelless : s.formats.Modelless := by
    rw [(build_given built).2]
    exact standard_modelless
  have result := (s.unmarshal_after [] id v).symm.trans read
  have reprints := (build_wellFormed built).reprints (faithful_of_build built) (printable_of_build built) modelless
    kept unmarked unique result
  have written : ∀ m, (s.marshal .empty id m).2 = s.resultAt .marshal (s.key id true) m := s.marshal_after [] id
  simp only [written]
  exact ⟨reprints.marked, reprints.only⟩

end Spec
end ApiPayload
