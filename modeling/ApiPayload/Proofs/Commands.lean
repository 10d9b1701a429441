import ApiPayload.Proofs.Reprinting

/-
Commands one after the other. What one command printed is read by the next as it was; so writing what reading
printed gives what the results of reading are written as, with the names of their models added.
-/
namespace ApiPayload

open Schema

theorem fromUTF8?_toUTF8 (s : String) : String.fromUTF8? s.toUTF8 = some s := by
  rw [String.fromUTF8?, String.toUTF8_eq_toByteArray, dif_pos s.isValidUTF8]
  rfl

namespace Source
variable {path text : String} {f : FileState} {v : Json}

theorem ofFile_text (path text : String) : ofFile path (.content text.toUTF8) = ofText text := by
  rw [ofFile, fromUTF8?_toUTF8]

theorem unique_of_ofFile (read : ofFile path f = .ok v) : v.KeysUnique := by
  cases f with
  | absent => cases read
  | unreadable reason => cases read
  | content bytes =>
    rw [ofFile] at read
    split at read
    · exact Json.keysUnique_of_read (Except.mapError_eq_ok.mp read)
    · cases read

theorem unique_of_ofAddress (read : ofAddress path f = .ok v) : v.KeysUnique := by
  cases f with
  | absent => cases read
  | unreadable reason => cases read
  | content bytes =>
    rw [ofAddress] at read
    split at read
    · exact Json.keysUnique_of_read (Except.mapError_eq_ok.mp read)
    · cases read

theorem unique_of_ofName (read : ofName path f = .ok v) : v.KeysUnique := by
  unfold ofName at read
  split at read
  · exact unique_of_ofAddress read
  · exact unique_of_ofFile read

end Source

namespace Cli

section Failures
variable {γ δ : Type}

/-- What goes wrong writes one line of error and nothing else, and never exits with zero. -/
def Fails (r : Run γ) : Prop := ∀ o, r = .error o → ∃ code line, code ≠ 0 ∧ o = ⟨code, [], [line]⟩

theorem Fails.code_ne_zero {r : Run γ} (fails : Fails r) {o : Outcome} (failed : r = .error o) : o.code ≠ 0 := by
  obtain ⟨code, line, nonzero, rfl⟩ := fails o failed
  exact nonzero

theorem fails_ok (a : γ) : Fails (.ok a) := fun _ none => nomatch none

theorem fails_bind {r : Run γ} {f : γ → Run δ} (first : Fails r) (next : ∀ a, Fails (f a)) : Fails (r >>= f) := by
  intro o failed
  rcases Except.bind_eq_error.mp failed with early | ⟨a, _, later⟩
  · exact first o early
  · exact next a o later

theorem fails_orFail (note : String) (x : Except SpecError γ) : Fails (orFail note x) := by
  cases x with
  | ok a => exact fails_ok a
  | error e =>
    rintro _ ⟨⟩
    exact ⟨e.exitCode, _, by cases e <;> exact nofun, rfl⟩

theorem orFail_eq_ok {note : String} {x : Except SpecError γ} {a : γ} : orFail note x = .ok a ↔ x = .ok a := by
  cases x with
  | ok b => exact Iff.of_eq (by simp [orFail])
  | error e => exact ⟨nofun, nofun⟩

theorem fails_orReport (x : Except TransformError γ) : Fails (orReport (x.mapError .transform)) := by
  cases x with
  | ok a => exact fails_ok a
  | error e =>
    rintro _ ⟨⟩
    exact ⟨2, _, nofun, rfl⟩

theorem orReport_eq_ok {x : Except TransformError γ} {a : γ} :
    orReport (x.mapError .transform) = .ok a ↔ x = .ok a := by
  cases x with
  | ok b => exact Iff.of_eq (by simp [orReport, Except.mapError])
  | error e => exact ⟨nofun, nofun⟩

end Failures

section Loading
variable {files : Files} {t : Target} {s : Spec} {id : Id} {v : Json}

theorem fails_loadOptions (files : Files) (config : Option String) : Fails (loadOptions files config) := by
  cases config with
  | none => exact fails_ok _
  | some path =>
    refine fails_bind (fails_orFail _ _) fun v => ?_
    split
    · exact fails_ok _
    · rintro _ ⟨⟩
      exact ⟨2, _, nofun, rfl⟩

theorem fails_loadTarget (files : Files) (t : Target) : Fails (loadTarget files t) := by
  refine fails_bind (fails_bind (fails_loadOptions files t.config) fun options => ?_) fun s => ?_
  · exact fails_bind (fails_orFail _ _) fun document => fails_orFail _ _
  · exact fails_bind (fails_orFail _ _) fun id => fails_ok _

/-- The document that a spec was built from repeats no key. -/
theorem built_of_loadTarget (loaded : loadTarget files t = .ok (s, id)) : ∃ document options,
    document.KeysUnique ∧ Spec.build document options .standard = .ok s := by
  obtain ⟨s', loaded, resolved⟩ := Except.bind_eq_ok.mp loaded
  obtain ⟨id', _, same⟩ := Except.bind_eq_ok.mp resolved
  cases same
  obtain ⟨options, _, loaded⟩ := Except.bind_eq_ok.mp loaded
  obtain ⟨document, read, built⟩ := Except.bind_eq_ok.mp loaded
  exact ⟨document, options, Source.unique_of_ofName (orFail_eq_ok.mp read), orFail_eq_ok.mp built⟩

theorem unique_of_loadPayload (given : loadPayload files t = .ok v) : v.KeysUnique :=
  Source.unique_of_ofFile (orFail_eq_ok.mp given)

/-- The files, with a text in one of them. -/
def saved (files : Files) (path text : String) : Files :=
  fun p => if p = path then .content text.toUTF8 else files p

/-- A payload makes no difference to the schemas. -/
theorem loadTarget_saved (files : Files) {path : String} (text : String) (other : t.spec ≠ path)
    (free : t.config ≠ some path) :
    loadTarget (saved files path text) { t with payload := path } = loadTarget files t := by
  have options : loadOptions (saved files path text) t.config = loadOptions files t.config := by
    cases config : t.config with
    | none => rfl
    | some c =>
      have different : c ≠ path := fun same => free (config.trans (congrArg some same))
      rw [loadOptions, loadOptions, saved, if_neg different]
  rw [loadTarget, loadTarget, loadSpec, loadSpec, options, saved, if_neg other]

theorem loadPayload_saved (files : Files) (t : Target) (path text : String) :
    loadPayload (saved files path text) { t with payload := path } =
      orFail "loading payload: " (Source.ofText text) := by
  rw [loadPayload, saved, if_pos rfl, Source.ofFile_text]

end Loading

theorem unlines_printed (pretty : Bool) (v : Json) :
    unlines (printed pretty v).out = (if pretty then v.indented else v.compact) ++ "\n" := by
  cases pretty
  · exact String.empty_append
  · exact String.empty_append

/-- A legible value that was printed is read as it was. -/
theorem ofText_printed {v : Json} (unique : v.KeysUnique) (legible : v.Legible Json.Reader.maxDepth)
    (pretty : Bool) : Source.ofText (unlines (printed pretty v).out) = .ok v := by
  rw [unlines_printed, Source.ofText]
  cases pretty with
  | false => exact congrArg (Except.mapError _) (Json.read_compact unique legible)
  | true => exact congrArg (Except.mapError _) (Json.read_indented unique legible)

section Runs
variable {files : Files} {t : Target} {s : Spec} {id : Id} {v : Json} {n : Native} {w : Json}

theorem run_unmarshal (loaded : loadTarget files t = .ok (s, id)) (given : loadPayload files t = .ok v)
    (read : (s.unmarshal .empty id v).2 = .ok n) (pretty : Bool) :
    run files (.unmarshal t false pretty) = printed pretty (rendered n) := by
  have result : runUnmarshal Validation.draft4 files t false pretty = .ok (printed pretty (rendered n)) := by
    refine Except.bind_eq_ok.mpr ⟨_, loaded, Except.bind_eq_ok.mpr ⟨v, given, ?_⟩⟩
    exact Except.bind_eq_ok.mpr ⟨n, orReport_eq_ok.mpr read, rfl⟩
  simp only [run, runBy, result]

theorem unmarshal_of_run {pretty : Bool} (done : (run files (.unmarshal t false pretty)).code = 0) :
    ∃ s id v n, loadTarget files t = .ok (s, id) ∧ loadPayload files t = .ok v ∧
      (s.unmarshal .empty id v).2 = .ok n := by
  have fails : Fails (runUnmarshal Validation.draft4 files t false pretty) := by
    refine fails_bind (fails_loadTarget files t) fun _ => fails_bind (fails_orFail _ _) fun _ => ?_
    exact fails_bind (fails_orReport _) fun _ => fails_ok _
  cases result : runUnmarshal Validation.draft4 files t false pretty with
  | error o =>
    simp only [run, runBy, result] at done
    exact absurd done (fails.code_ne_zero result)
  | ok o =>
    obtain ⟨⟨s, id⟩, loaded, result⟩ := Except.bind_eq_ok.mp result
    obtain ⟨v, given, result⟩ := Except.bind_eq_ok.mp result
    obtain ⟨n, read, _⟩ := Except.bind_eq_ok.mp result
    exact ⟨s, id, v, n, loaded, given, orReport_eq_ok.mp read⟩

theorem run_marshal (loaded : loadTarget files t = .ok (s, id)) (given : loadPayload files t = .ok v)
    (written : (s.marshal .empty id (.ofJson v)).2 = .ok w) (pretty : Bool) :
    run files (.marshal t false pretty) = printed pretty w := by
  have result : runMarshal Validation.draft4 files t false pretty = .ok (printed pretty w) := by
    refine Except.bind_eq_ok.mpr ⟨_, loaded, Except.bind_eq_ok.mpr ⟨v, given, ?_⟩⟩
    exact Except.bind_eq_ok.mpr ⟨w, orReport_eq_ok.mpr written, rfl⟩
  simp only [run, runBy, result]

theorem marshal_of_run {pretty : Bool} (loaded : loadTarget files t = .ok (s, id))
    (given : loadPayload files t = .ok v) (done : (run files (.marshal t false pretty)).code = 0) :
    ∃ w, (s.marshal .empty id (.ofJson v)).2 = .ok w := by
  have fails : Fails (runMarshal Validation.draft4 files t false pretty) := by
    refine fails_bind (fails_loadTarget files t) fun _ => fails_bind (fails_orFail _ _) fun _ => ?_
    exact fails_bind (fails_orReport _) fun _ => fails_ok _
  cases result : runMarshal Validation.draft4 files t false pretty with
  | error o =>
    simp only [run, runBy, result] at done
    exact absurd done (fails.code_ne_zero result)
  | ok o =>
    obtain ⟨_, loaded', result⟩ := Except.bind_eq_ok.mp result
    obtain rfl := Except.ok.inj (loaded.symm.trans loaded')
    obtain ⟨_, given', result⟩ := Except.bind_eq_ok.mp result
    obtain rfl := Except.ok.inj (given.symm.trans given')
    obtain ⟨w, written, _⟩ := Except.bind_eq_ok.mp result
    exact ⟨w, orReport_eq_ok.mp written⟩

/-- What is shown of a result repeats no key, and holds no name of a model with models off. -/
theorem shown_of_loadTarget (loaded : loadTarget files t = .ok (s, id)) (given : loadPayload files t = .ok v)
    (read : (s.unmarshal .empty id v).2 = .ok n) :
    (rendered n).KeysUnique ∧ (s.options.useModels = false → n.holdsModel = false) := by
  obtain ⟨document, options, distinct, built⟩ := built_of_loadTarget loaded
  have modelless : s.formats.Modelless := by
    rw [(Spec.build_given built).2]
    exact Format.standard_modelless
  have result := (s.unmarshal_after [] id v).symm.trans read
  have defaults : ∀ id j, (s.node id).default = some j → j.KeysUnique :=
    fun _ _ default => Spec.default_unique distinct built default
  exact ⟨(Spec.build_wellFormed built).shown_unique (Spec.printable_of_build built) defaults
    (unique_of_loadPayload given) result, fun off => Spec.resultAt_holds_no_model off modelless result⟩

/-- Reading a payload and writing what was printed for it. Where formats and defaults keep away from tags, no
property and no tag has the name that names of models are shown under, and what was printed is legible, the second
command succeeds just if the result can be written, and prints what it is written as with the names of its models
added, which are none with models off. The document may come from a file or a network address, if there is a client
for networks. -/
theorem marshal_after_unmarshal {path : String} (pretty pretty' : Bool) (other : t.spec ≠ path)
    (free : t.config ≠ some path) (done : (run files (.unmarshal t false pretty)).code = 0) :
    ∃ s id v n, loadTarget files t = .ok (s, id) ∧ loadPayload files t = .ok v ∧
      (s.unmarshal .empty id v).2 = .ok n ∧
      (s.TagsKept → s.Unmarked → (rendered n).Legible Json.Reader.maxDepth →
        let again := run (saved files path (unlines (run files (.unmarshal t false pretty)).out))
          (.marshal { t with payload := path } false pretty')
        (again.code = 0 ↔ ∃ w, (s.marshal .empty id n).2 = .ok w) ∧
        ∀ w, (s.marshal .empty id n).2 = .ok w → again = printed pretty' (marked n w) ∧
          (s.options.useModels = false → again = printed pretty' w)) := by
  obtain ⟨s, id, v, n, loaded, given, read⟩ := unmarshal_of_run done
  refine ⟨s, id, v, n, loaded, given, read, fun kept unmarked legible => ?_⟩
  obtain ⟨document, options, _, built⟩ := built_of_loadTarget loaded
  obtain ⟨unique, unnamed⟩ := shown_of_loadTarget loaded given read
  obtain ⟨writes, only⟩ := Spec.marshal_reread built kept unmarked (unique_of_loadPayload given) read
  rw [run_unmarshal loaded given read pretty]
  have loaded' := (loadTarget_saved files (unlines (printed pretty (rendered n)).out) other free).trans loaded
  have given' : loadPayload (saved files path (unlines (printed pretty (rendered n)).out))
      { t with payload := path } = .ok (rendered n) := by
    rw [loadPayload_saved, ofText_printed unique legible]
    rfl
  have prints := fun w written => run_marshal loaded' given' (writes w written) pretty'
  refine ⟨⟨fun exits => ?_, fun ⟨w, written⟩ => ?_⟩, fun w written => ⟨prints w written, fun off => ?_⟩⟩
  · obtain ⟨w, written⟩ := marshal_of_run loaded' given' exits
    exact only w written
  · rw [prints w written]
    rfl
  · rw [prints w written, marked_of_no_model n w (unnamed off)]

end Runs

section Shelf
variable {document payload : Json} {s : Spec} {id : Id}

/-- A document and a payload in files of their own. -/
def shelf (document payload : Json) : Files :=
  saved (saved (fun _ => .absent) "spec.json" (unlines (printed false document).out)) "payload.json"
    (unlines (printed false payload).out)

def petTarget : Target := ⟨"spec.json", "payload.json", "Pet", none⟩

theorem loadPayload_shelf (document : Json) (unique : payload.KeysUnique) (legible : payload.Legible Json.Reader.maxDepth) :
    loadPayload (shelf document payload) petTarget = .ok payload := by
  refine (loadPayload_saved _ petTarget "payload.json" _).trans ?_
  rw [ofText_printed unique legible]
  rfl

/-- A document in the only file. -/
def alone (document : Json) : Files :=
  saved (fun _ => .absent) "spec.json" (unlines (printed false document).out)

theorem loadTarget_alone (unique : document.KeysUnique) (legible : document.Legible Json.Reader.maxDepth)
    (built : Spec.build document .standard .standard = .ok s) (named : s.resolve "Pet" = .ok id) :
    loadTarget (alone document) petTarget = .ok (s, id) := by
  have near : Source.isUrl "spec.json" = false := by decide +kernel
  have read : Source.ofName "spec.json" (.content (unlines (printed false document).out).toUTF8) = .ok document := by
    rw [Source.ofName, near, if_neg Bool.false_ne_true, Source.ofFile_text, ofText_printed unique legible]
  have spec : loadSpec (alone document) "spec.json" none = .ok s :=
    Except.bind_eq_ok.mpr ⟨.standard, rfl, Except.bind_eq_ok.mpr
      ⟨document, orFail_eq_ok.mpr read, orFail_eq_ok.mpr built⟩⟩
  exact Except.bind_eq_ok.mpr ⟨s, spec, Except.bind_eq_ok.mpr ⟨id, orFail_eq_ok.mpr named, rfl⟩⟩

theorem loadTarget_shelf (payload : Json) (unique : document.KeysUnique) (legible : document.Legible Json.Reader.maxDepth)
    (built : Spec.build document .standard .standard = .ok s) (named : s.resolve "Pet" = .ok id) :
    loadTarget (shelf document payload) petTarget = .ok (s, id) :=
  (loadTarget_saved (t := petTarget) _ _ (by decide) (by decide)).trans (loadTarget_alone unique legible built named)

end Shelf

/-- Pets told apart by their kind, and dogs among them with a date of birth. -/
def petShop : Json :=
  .object [("definitions", .object [
    ("Pet", .object [("type", .string "object"), ("discriminator", .string "kind"),
      ("properties", .object [("kind", .object [("type", .string "string")])])]),
    ("Dog", .object [("allOf", .array [.object [("$ref", .string "#/definitions/Pet")],
      .object [("properties", .object [("born", .object [("type", .string "string"),
        ("format", .string "date")])])]])])])]

def dog : Json := .object [("kind", .string "Dog"), ("born", .string "2019-05-01")]

/-- The dog as it is shown. -/
def shownDog : Json :=
  .object [("x-model", .string "Dog"), ("kind", .string "Dog"), ("born", .string "2019-05-01")]

theorem marshal_after_unmarshal_in_shop :
    petTarget.spec ≠ "result.json" ∧ petTarget.config ≠ some "result.json" ∧
    (run (shelf petShop dog) (.unmarshal petTarget false true)).code = 0 ∧
    ∃ s id n w, loadTarget (shelf petShop dog) petTarget = .ok (s, id) ∧
      loadPayload (shelf petShop dog) petTarget = .ok dog ∧ (s.unmarshal .empty id dog).2 = .ok n ∧
      s.TagsKept ∧ s.Unmarked ∧ (rendered n).Legible Json.Reader.maxDepth ∧ (s.marshal .empty id n).2 = .ok w ∧
      run (saved (shelf petShop dog) "result.json"
          (unlines (run (shelf petShop dog) (.unmarshal petTarget false true)).out))
        (.marshal { petTarget with payload := "result.json" } false false) = printed false (marked n w) := by
  have made : (Spec.build petShop .standard .standard).toOption.any (fun s => decide
      ((∀ base ∈ s.models, ∀ m ∈ s.models, ∀ e ∈ m.shape.properties, base.shape.discriminator = some e.1 →
        (s.converter? (s.concrete e.2)).isNone ∧ (s.node (s.concrete e.2)).default = none) ∧
      (∀ m ∈ s.models, marker ∉ Entries.keys m.shape.properties ∧ m.shape.discriminator ≠ some marker) ∧
      (s.resolve "Pet").toOption.any (fun id => decide (id = 0)) = true ∧
      (s.unmarshal .empty 0 dog).2.toOption.any (fun n =>
        decide (rendered n = shownDog) && (s.marshal .empty 0 n).2.isOk) = true)) = true := by
    decide +kernel
  obtain ⟨s, built, made⟩ := Except.exists_of_any made
  obtain ⟨untold, unmarked, named, made⟩ := of_decide_eq_true made
  obtain ⟨id, named, first⟩ := Except.exists_of_any named
  obtain rfl := of_decide_eq_true first
  obtain ⟨n, read, made⟩ := Except.exists_of_any made
  obtain ⟨shown, written⟩ := Bool.and_eq_true_iff.mp made
  obtain ⟨w, written⟩ := Except.exists_of_isOk written
  have loaded : loadTarget (shelf petShop dog) petTarget = .ok (s, 0) := by
    refine loadTarget_shelf dog ?_ ?_ built named
    · simp [petShop, Json.KeysUnique, Json.KeysUniqueItems, Json.KeysUniqueMembers, Entries.keys]
    · simp [petShop, Json.Legible, Json.LegibleItems, Json.LegibleMembers, Json.Reader.maxDepth]
  have given : loadPayload (shelf petShop dog) petTarget = .ok dog := by
    refine loadPayload_shelf petShop ?_ ?_
    · simp [dog, Json.KeysUnique, Json.KeysUniqueMembers, Entries.keys]
    · simp [dog, Json.Legible, Json.LegibleMembers, Json.Reader.maxDepth]
  have other : petTarget.spec ≠ "result.json" := by decide
  have free : petTarget.config ≠ some "result.json" := by decide
  have done : (run (shelf petShop dog) (.unmarshal petTarget false true)).code = 0 := by
    rw [run_unmarshal loaded given read true]
    rfl
  have kept : s.TagsKept := by
    refine Spec.tagsKept_of_plain fun base listed m member e declared marks => ?_
    obtain ⟨none, plain⟩ := untold base listed m member e declared marks
    exact ⟨Option.isNone_iff_eq_none.mp none, plain⟩
  have legible : (rendered n).Legible Json.Reader.maxDepth := by
    rw [of_decide_eq_true shown]
    simp [shownDog, Json.Legible, Json.LegibleMembers, Json.Reader.maxDepth]
  obtain ⟨s', id', v', n', loaded', given', read', law⟩ := marshal_after_unmarshal true false other free done
  obtain ⟨rfl, rfl⟩ := Prod.mk.inj (Except.ok.inj (loaded.symm.trans loaded'))
  obtain rfl := Except.ok.inj (given.symm.trans given')
  obtain rfl := Except.ok.inj (read.symm.trans read')
  obtain ⟨_, prints⟩ := law kept (fun _ => unmarked) legible
  exact ⟨other, free, done, s, 0, n, w, loaded, given, read, kept, fun _ => unmarked, legible, written,
    (prints w written).1⟩

/-- Pets with a name. -/
def namedPets : Json :=
  .object [("definitions", .object [("Pet", .object [("type", .string "object"),
    ("properties", .object [("name", .object [("type", .string "string")])])])])]

def rex : Json := .object [("name", .string "Rex")]

/-- The pet as it is shown. -/
def shownRex : Json := .object [("x-model", .string "Pet"), ("name", .string "Rex")]

/-- The name that a model was shown with is taken for a member, and stays. -/
theorem model_name_stays :
    (run (shelf namedPets rex) (.unmarshal petTarget false false)).code = 0 ∧
    (∃ s id n, loadTarget (shelf namedPets rex) petTarget = .ok (s, id) ∧
      loadPayload (shelf namedPets rex) petTarget = .ok rex ∧ (s.unmarshal .empty id rex).2 = .ok n ∧
      (s.marshal .empty id n).2 = .ok rex) ∧
    run (saved (shelf namedPets rex) "result.json"
        (unlines (run (shelf namedPets rex) (.unmarshal petTarget false false)).out))
        (.marshal { petTarget with payload := "result.json" } false false) = printed false shownRex ∧
    rex ≠ shownRex := by
  have made : (Spec.build namedPets .standard .standard).toOption.any (fun s =>
      (s.resolve "Pet").toOption.any (fun id => (s.unmarshal .empty id rex).2.toOption.any fun n =>
        decide (rendered n = shownRex) && (s.marshal .empty id n).2.toOption.any (fun w => decide (w = rex)) &&
          (s.marshal .empty id (.ofJson shownRex)).2.toOption.any (fun w => decide (w = shownRex)))) = true := by
    decide +kernel
  obtain ⟨s, built, made⟩ := Except.exists_of_any made
  obtain ⟨id, named, made⟩ := Except.exists_of_any made
  obtain ⟨n, read, made⟩ := Except.exists_of_any made
  obtain ⟨⟨shown, written⟩, again⟩ := by simpa only [Bool.and_eq_true] using made
  obtain ⟨w, written, same⟩ := Except.exists_of_any written
  obtain rfl := of_decide_eq_true same
  obtain ⟨w', again, same⟩ := Except.exists_of_any again
  obtain rfl := of_decide_eq_true same
  have uniqueRex : rex.KeysUnique ∧ shownRex.KeysUnique := by
    simp [rex, shownRex, Json.KeysUnique, Json.KeysUniqueMembers, Entries.keys]
  have legibleRex : rex.Legible Json.Reader.maxDepth ∧ shownRex.Legible Json.Reader.maxDepth := by
    simp [rex, shownRex, Json.Legible, Json.LegibleMembers, Json.Reader.maxDepth]
  have loaded : loadTarget (shelf namedPets rex) petTarget = .ok (s, id) := by
    refine loadTarget_shelf rex ?_ ?_ built named
    · simp [namedPets, Json.KeysUnique, Json.KeysUniqueMembers, Entries.keys]
    · simp [namedPets, Json.Legible, Json.LegibleMembers, Json.Reader.maxDepth]
  have given := loadPayload_shelf namedPets uniqueRex.1 legibleRex.1
  have first := run_unmarshal loaded given read false
  rw [of_decide_eq_true shown] at first
  refine ⟨by rw [first]; rfl, ⟨s, id, n, loaded, given, read, written⟩, ?_, by decide +kernel⟩
  rw [first]
  refine run_marshal ((loadTarget_saved _ _ (by decide) (by decide)).trans loaded) ?_ again false
  rw [loadPayload_saved, ofText_printed uniqueRex.2 legibleRex.2]
  rfl

end Cli
end ApiPayload
