import ApiPayload.Proofs.Directions
import ApiPayload.Proofs.Formats
import ApiPayload.Proofs.OtherOptions

/-
Results with and without models. Where no format makes models of its own, turning models off takes
the names off the objects of a result, at every depth, and changes nothing else; what is written is
the same.
-/
namespace ApiPayload

open Schema Format

variable {α β γ δ link : Type}

namespace Native

mutual
/-- Every model, at whatever depth, as the object of its properties. -/
def unnamed : Native → Native
  | null => null
  | bool b => bool b
  | number n => number n
  | string s => string s
  | date d => date d
  | dateTime t => dateTime t
  | list xs => list (unnamedItems xs)
  | map es => map (unnamedEntries es)
  | model _ ps => map (unnamedEntries ps)

def unnamedItems : List Native → List Native
  | [] => []
  | x :: xs => unnamed x :: unnamedItems xs

def unnamedEntries : List (String × Native) → List (String × Native)
  | [] => []
  | (k, x) :: es => (k, unnamed x) :: unnamedEntries es
end

mutual
/-- Whether a value is a model or has one inside. -/
def holdsModel : Native → Bool
  | null | bool _ | number _ | string _ | date _ | dateTime _ => false
  | list xs => itemsHoldModel xs
  | map es => entriesHoldModel es
  | model _ _ => true

def itemsHoldModel : List Native → Bool
  | [] => false
  | x :: xs => holdsModel x || itemsHoldModel xs

def entriesHoldModel : List (String × Native) → Bool
  | [] => false
  | (_, x) :: es => holdsModel x || entriesHoldModel es
end

theorem unnamedItems_eq (xs : List Native) : unnamedItems xs = xs.map unnamed := by
  induction xs with
  | nil => rfl
  | cons x rest ih => rw [unnamedItems, ih, List.map_cons]

theorem unnamedEntries_eq (es : List (String × Native)) :
    unnamedEntries es = Entries.mapValues unnamed es := by
  induction es with
  | nil => rfl
  | cons e rest ih => rw [unnamedEntries, ih, Entries.mapValues, Entries.mapValues, List.map_cons]

mutual
theorem unnamed_of_no_model : (n : Native) → n.holdsModel = false → n.unnamed = n
  | .null, _ | .bool _, _ | .number _, _ | .string _, _ | .date _, _ | .dateTime _, _ => rfl
  | .list xs, free => congrArg list (unnamedItems_of_no_model xs free)
  | .map es, free => congrArg map (unnamedEntries_of_no_model es free)
  | .model _ _, free => nomatch free

theorem unnamedItems_of_no_model :
    (xs : List Native) → itemsHoldModel xs = false → unnamedItems xs = xs
  | [], _ => rfl
  | x :: xs, free => by
    obtain ⟨first, rest⟩ := Bool.or_eq_false_iff.mp free
    rw [unnamedItems, unnamed_of_no_model x first, unnamedItems_of_no_model xs rest]

theorem unnamedEntries_of_no_model :
    (es : List (String × Native)) → entriesHoldModel es = false → unnamedEntries es = es
  | [], _ => rfl
  | (k, x) :: es, free => by
    obtain ⟨first, rest⟩ := Bool.or_eq_false_iff.mp free
    rw [unnamedEntries, unnamed_of_no_model x first, unnamedEntries_of_no_model es rest]
end

mutual
/-- Without names no model is left. -/
theorem unnamed_holds_no_model : (n : Native) → n.unnamed.holdsModel = false
  | .null | .bool _ | .number _ | .string _ | .date _ | .dateTime _ => rfl
  | .list xs => unnamedItems_hold_no_model xs
  | .map es => unnamedEntries_hold_no_model es
  | .model _ ps => unnamedEntries_hold_no_model ps

theorem unnamedItems_hold_no_model : (xs : List Native) → itemsHoldModel (unnamedItems xs) = false
  | [] => rfl
  | x :: xs => Bool.or_eq_false_iff.mpr ⟨unnamed_holds_no_model x, unnamedItems_hold_no_model xs⟩

theorem unnamedEntries_hold_no_model :
    (es : List (String × Native)) → entriesHoldModel (unnamedEntries es) = false
  | [] => rfl
  | (_, x) :: es =>
    Bool.or_eq_false_iff.mpr ⟨unnamed_holds_no_model x, unnamedEntries_hold_no_model es⟩
end

mutual
@[simp] theorem unnamed_ofJson : (v : Json) → (ofJson v).unnamed = ofJson v
  | .null | .bool _ | .number _ | .string _ => rfl
  | .array xs => congrArg list (unnamedItems_ofItems xs)
  | .object ms => congrArg map (unnamedEntries_ofMembers ms)

theorem unnamedItems_ofItems : (xs : List Json) → unnamedItems (ofItems xs) = ofItems xs
  | [] => rfl
  | x :: xs => by rw [ofItems, unnamedItems, unnamed_ofJson x, unnamedItems_ofItems xs]

theorem unnamedEntries_ofMembers :
    (ms : List (String × Json)) → unnamedEntries (ofMembers ms) = ofMembers ms
  | [] => rfl
  | (k, x) :: ms => by rw [ofMembers, unnamedEntries, unnamed_ofJson x, unnamedEntries_ofMembers ms]
end

end Native

namespace Format

/-- No converter gives a model or a value with a model inside. -/
def Registry.Modelless (r : Registry) : Prop :=
  ∀ name c, r.find? name = some c → ∀ v n, c.toNative v = .ok n → n.holdsModel = false

theorem Registry.Modelless.unnamed {r : Registry} (h : r.Modelless) {name : String} {c : Converter}
    {v : Json} {n : Native} (found : r.find? name = some c) (read : c.toNative v = .ok n) :
    n.unnamed = n :=
  Native.unnamed_of_no_model n (h name c found v n read)

theorem standard_modelless : Registry.standard.Modelless := by
  intro name c found v n read
  have member : c ∈ standard := Registry.mem_of_find? found
  simp only [standard, List.mem_cons, List.not_mem_nil, or_false] at member
  rcases member with rfl | rfl | rfl | rfl | rfl | rfl
  · obtain ⟨_, _, _, rfl⟩ := date_read read
    rfl
  · obtain ⟨_, _, _, rfl⟩ := dateTime_read read
    rfl
  · obtain ⟨_, _, _, rfl⟩ := whole_read read
    rfl
  · obtain ⟨_, _, _, rfl⟩ := whole_read read
    rfl
  · obtain ⟨_, _, rfl⟩ := floating_read read
    rfl
  · obtain ⟨_, _, rfl⟩ := floating_read read
    rfl

end Format

/-- What takes the names off objects, at every depth, and leaves all else as it is. -/
structure Direction.Unnames (d : Direction α β) (g : β → β) : Prop where
  null : g d.null = d.null
  ofDefault : ∀ j, g (d.ofDefault j) = d.ofDefault j
  pass : ∀ v, g (d.pass v) = d.pass v
  list : ∀ ys, g (d.list ys) = d.list (ys.map g)
  object : ∀ name fields, g (d.object name fields) = d.object none (Entries.mapValues g fields)

theorem unmarshal_unnames : Direction.unmarshal.Unnames Native.unnamed := by
  refine ⟨rfl, Native.unnamed_ofJson, Native.unnamed_ofJson, fun ys => ?_, fun name fields => ?_⟩
  · exact congrArg Native.list (Native.unnamedItems_eq ys)
  · cases name <;> exact congrArg Native.map (Native.unnamedEntries_eq fields)

/-- Written objects have no names. -/
theorem marshal_unnames : Direction.marshal.Unnames id := by
  refine ⟨rfl, fun _ => rfl, fun _ => rfl, fun ys => ?_, fun name fields => ?_⟩
  · rw [List.map_id]
    rfl
  · exact congrArg Json.object (List.map_id fields).symm

def ObjectPlan.nameless (o : ObjectPlan link) : ObjectPlan link := { o with typed := none }

theorem ObjectPlan.nameless_keeps : ObjectPlan.Keeps (@ObjectPlan.nameless link) :=
  ⟨fun _ => rfl, fun _ => rfl, fun _ => rfl, fun _ => rfl⟩

theorem Except.mapM_map {ε : Type} {f : γ → Except ε δ} {g : δ → δ} {f' : γ → Except ε δ}
    {xs : List γ} (h : ∀ x ∈ xs, f' x = (f x).map g) : xs.mapM f' = (xs.mapM f).map (List.map g) := by
  induction xs with
  | nil => rfl
  | cons x rest ih =>
    rw [List.mapM_cons, List.mapM_cons, h x List.mem_cons_self,
      ih fun y member => h y (List.mem_cons_of_mem x member)]
    cases f x with
    | error e => rfl
    | ok y =>
      cases rest.mapM f with
      | error e => rfl
      | ok ys => rfl

namespace Plan

variable {d : Direction α β} {g : β → β} (unnames : d.Unnames g) {v : α} {p : Plan link}
  {sub sub' : link → α → Except TransformError β}
include unnames

theorem guard_unnamed (whole : Except TransformError β) :
    p.guard d v (whole.map g) = (p.guard d v whole).map g := by
  unfold guard
  split
  · split
    · exact congrArg Except.ok (unnames.ofDefault _).symm
    · rfl
    · exact congrArg Except.ok unnames.null.symm
    · rfl
  · rfl

theorem missing_unnamed (o : ObjectPlan link) (fields : List (String × β)) :
    missing d o.nameless (Entries.mapValues g fields) = Entries.mapValues g (missing d o fields) := by
  have known : ∀ name, Entries.contains name (Entries.mapValues g fields) =
      Entries.contains name fields := by
    intro name
    rw [Entries.contains, Entries.get?_mapValues, Option.isSome_map, Entries.contains]
  have filler : ∀ name, g (((Entries.get? name o.defaults).map d.ofDefault).getD d.null) =
      ((Entries.get? name o.defaults).map d.ofDefault).getD d.null := by
    intro name
    cases Entries.get? name o.defaults with
    | none => exact unnames.null
    | some j => exact unnames.ofDefault j
  simp only [missing, known, ObjectPlan.nameless]
  split
  · rw [Entries.mapValues, List.map_filterMap]
    refine List.filterMap_congr fun e _ => ?_
    split
    · rfl
    · rw [Option.map_some, filler]
  · rfl

section Parts
variable (parts : ∀ l x, d.size x < d.size v → sub' l x = (sub l x).map g)
include parts

theorem apply_unnamed_list {schema : String} {item : link} {xs : List α}
    (core : p.core = .list schema item) (list : d.list? v = some xs) :
    (p.remake ObjectPlan.nameless).apply d sub' v = (p.apply d sub v).map g := by
  rw [apply_list (core_remake core) list, apply_list core list,
    Except.mapM_map fun x member => parts item x (d.size_item list member)]
  cases xs.mapM (sub item) with
  | error e => rfl
  | ok ys => exact congrArg Except.ok (unnames.list ys).symm

theorem field_unnamed (o : ObjectPlan link) {es : List (String × α)} (entries : d.entries? v = some es)
    {e : String × α} (member : e ∈ es) :
    field d sub' o.nameless e = (field d sub o e).map fun f => (f.1, g f.2) := by
  rw [field_remake ObjectPlan.nameless_keeps]
  simp only [field]
  cases Entries.get? e.1 o.properties with
  | some l =>
    dsimp only
    rw [parts l e.2 (d.size_entry entries member)]
    cases sub l e.2 <;> rfl
  | none => exact congrArg (fun y => Except.ok (e.1, y)) (unnames.pass e.2).symm

theorem apply_unnamed_object {o : ObjectPlan link} {es : List (String × α)}
    (core : p.core = .object o) (entries : d.entries? v = some es) :
    (p.remake ObjectPlan.nameless).apply d sub' v = (p.apply d sub v).map g := by
  rw [apply_object (core_remake core) entries, apply_object core entries,
    Except.mapM_map fun e member => field_unnamed unnames parts o entries member]
  cases es.mapM (field d sub o) with
  | error e => rfl
  | ok fields =>
    refine congrArg Except.ok ?_
    have appended : Entries.mapValues g fields ++ missing d o.nameless (Entries.mapValues g fields) =
        Entries.mapValues g (fields ++ missing d o fields) := by
      rw [missing_unnamed unnames]
      exact List.map_append.symm
    rw [unnames.object]
    exact congrArg (d.object none) appended

/-- Where the parts lose their names, so does the whole. -/
theorem apply_unnamed (converted : ∀ c, p.core = .convert c → ∀ w, d.convert c v = .ok w → g w = w) :
    (p.remake ObjectPlan.nameless).apply d sub' v = (p.apply d sub v).map g := by
  cases core : p.core with
  | object o =>
    cases entries : d.entries? v with
    | none => simp only [apply, core_remake core, Core.remake, core, entries]; rfl
    | some es => exact apply_unnamed_object unnames parts core entries
  | list schema item =>
    cases list : d.list? v with
    | none => simp only [apply, core_remake core, Core.remake, core, list]; rfl
    | some xs => exact apply_unnamed_list unnames parts core list
  | convert c =>
    simp only [apply, core_remake core, Core.remake, core]
    cases made : d.convert c v with
    | ok w => exact congrArg Except.ok (converted c core w made).symm
    | error fault => rfl
  | pass =>
    simp only [apply, core_remake core, Core.remake, core]
    exact congrArg Except.ok (unnames.pass v).symm
  | _ =>
    simp only [apply, core_remake core, Core.remake, core]
    rfl

end Parts
end Plan

namespace Spec

variable {s : Spec} {o : Options}

theorem plan_nameless (off : o.useModels = false) (rest : o.includeMissing = s.options.includeMissing)
    (k : Key) : (s.under o).plan k = (s.plan k).remake ObjectPlan.nameless := by
  refine plan_under (fun m => ?_) (fun label shape => ?_) k
  · simp only [modelPlan, under, ObjectPlan.nameless, off, rest]
    rfl
  · simp only [freePlan, under, ObjectPlan.nameless, rest]
    rfl

/-- Without models a result is what it was with them, less the names. -/
theorem resultAt_unnamed (off : o.useModels = false)
    (rest : o.includeMissing = s.options.includeMissing) {d : Direction α β} {g : β → β}
    (unnames : d.Unnames g) (converted : ∀ name c, s.formats.find? name = some c →
      ∀ v w, d.convert c v = .ok w → g w = w) (k : Key) (v : α) :
    (s.under o).resultAt d k v = (s.resultAt d k v).map g := by
  induction size : d.size v using Nat.strongRecOn generalizing k v with
  | ind bound ih =>
    subst size
    rcases resultAt_under ObjectPlan.nameless_keeps (plan_nameless off rest) d k v with
      ⟨_, last, _, named, unnamed⟩ | ⟨_, named, unnamed⟩
    · rw [named, unnamed, ← Plan.guard_unnamed unnames]
      refine congrArg ((s.plan k).guard d v) ?_
      refine Plan.apply_unnamed unnames (fun l x smaller => ih _ smaller l x rfl) fun c core w made => ?_
      obtain ⟨name, registered⟩ := converter?_mem (core_eq_convert core)
      exact converted name c registered v w made
    · rw [named, unnamed, ← Plan.guard_unnamed unnames]
      rfl

/-- With models off no result has a model in it. -/
theorem resultAt_holds_no_model (off : s.options.useModels = false) (modelless : s.formats.Modelless)
    {k : Key} {v : Json} {n : Native} (made : s.resultAt .unmarshal k v = .ok n) :
    n.holdsModel = false := by
  have same := resultAt_unnamed (o := s.options) off rfl unmarshal_unnames
    (fun _ _ found _ _ read => modelless.unnamed found read) k v
  have itself : s.under s.options = s := rfl
  rw [itself, made] at same
  have plain : n = n.unnamed := Except.ok.inj same
  rw [plain]
  exact Native.unnamed_holds_no_model n

/-- Turning models off changes names of objects and nothing else. A document is read or refused alike,
with the same nodes and models. Unless formats make models, a wire value comes to what it came to,
with every model as the object of its properties, or fails alike; and a native value comes to the
same wire value. -/
theorem models_only_name (document : Json) (options : Options) (formats : Registry)
    (modelless : formats.Modelless) :
    (∀ e, build document { options with useModels := true } formats = .error e ↔
      build document { options with useModels := false } formats = .error e) ∧
    ∀ s t, build document { options with useModels := true } formats = .ok s →
      build document { options with useModels := false } formats = .ok t →
      t.nodes = s.nodes ∧ t.models = s.models ∧
      ∀ (uses others : List Use) (id : Id) (required : Bool),
        (∀ v : Json,
          (t.transform ((t.after others).on .unmarshal) id required).2.call .unmarshal true v =
            ((s.transform ((s.after uses).on .unmarshal) id required).2.call .unmarshal true v).map
              Native.unnamed) ∧
        ∀ n : Native,
          (t.transform ((t.after others).on .marshal) id required).2.call .marshal true n =
            (s.transform ((s.after uses).on .marshal) id required).2.call .marshal true n := by
  refine ⟨refused_under _ _, fun s t named plain => ?_⟩
  have given := build_given named
  rw [built_under named] at plain
  cases plain
  have rest : Options.includeMissing { options with useModels := false } =
      s.options.includeMissing := by rw [given.1]
  refine ⟨rfl, rfl, fun uses others id required => ⟨fun v => ?_, fun n => ?_⟩⟩
  · rw [call_after, call_after]
    rw [← given.2] at modelless
    exact resultAt_unnamed rfl rest unmarshal_unnames
      (fun _ _ found _ _ read => modelless.unnamed found read) _ v
  · rw [call_after, call_after]
    have same := resultAt_unnamed (o := { options with useModels := false }) rfl rest marshal_unnames
      (fun _ _ _ _ _ _ => rfl) (s.key id required) n
    rw [Except.map_id] at same
    exact same

theorem models_only_name_of_pets :
    let v : Json := .object [("kind", .string "Cat"), ("friend", .object [("mood", .object [])])]
    ∃ s t n, build pets ⟨true, true, true, true⟩ .standard = .ok s ∧
      build pets ⟨false, true, true, true⟩ .standard = .ok t ∧ Registry.standard.Modelless ∧
      n.holdsModel = true ∧
      (s.transform ((s.after []).on .unmarshal) 0 true).2.call .unmarshal true v = .ok n ∧
      (t.transform ((t.after [.marshal 1 .null]).on .unmarshal) 0 true).2.call .unmarshal true v =
        .ok n.unnamed := by
  intro v
  have named : (build pets ⟨true, true, true, true⟩ .standard).toOption.any (fun s =>
      ((s.transform ((s.after []).on .unmarshal) 0 true).2.call .unmarshal true v).toOption.any
        Native.holdsModel) = true := by
    decide +kernel
  have plain : (build pets ⟨false, true, true, true⟩ .standard).isOk = true := by decide +kernel
  obtain ⟨s, built, reads⟩ := Except.exists_of_any named
  obtain ⟨n, read, holds⟩ := Except.exists_of_any reads
  obtain ⟨t, built'⟩ := Except.exists_of_isOk plain
  obtain ⟨_, both⟩ := models_only_name pets .standard .standard standard_modelless
  obtain ⟨_, _, same⟩ := both s t built built'
  have unnamed := (same [] [.marshal 1 .null] 0 true).1 v
  rw [read] at unnamed
  exact ⟨s, t, n, built, built', standard_modelless, holds, read, unnamed⟩

end Spec
end ApiPayload
