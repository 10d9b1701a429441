import ApiPayload.Proofs.Dispatch
import ApiPayload.Proofs.OtherOptions

/-
Results with and without missing properties. Filling them in appends to the objects of a result what
their plans declare beyond their entries, and does nothing else: no entry goes, moves or changes, and
what is appended is not transformed.
-/
namespace ApiPayload

open Schema

variable {α β γ δ ε ζ link : Type}

/-- Both fail with the same error, or both succeed with related values. -/
inductive Together (same : γ → δ → Prop) : Except ε γ → Except ε δ → Prop where
  | ok {a : γ} {b : δ} (h : same a b) : Together same (.ok a) (.ok b)
  | error (e : ε) : Together same (.error e) (.error e)

namespace Together

theorem imp {same same' : γ → δ → Prop} {x : Except ε γ} {y : Except ε δ} (h : Together same x y)
    (weaker : ∀ a b, same a b → same' a b) : Together same' x y := by
  cases h with
  | ok h => exact .ok (weaker _ _ h)
  | error e => exact .error e

theorem bind {γ' δ' : Type} {same : γ → δ → Prop} {same' : γ' → δ' → Prop} {x : Except ε γ}
    {y : Except ε δ} {f : γ → Except ε γ'} {g : δ → Except ε δ'} (h : Together same x y)
    (rest : ∀ a b, same a b → Together same' (f a) (g b)) : Together same' (x >>= f) (y >>= g) := by
  cases h with
  | ok h => exact rest _ _ h
  | error e => exact .error e

/-- Two traversals of one list, told by one list of what both give at each of its elements. -/
theorem mapM {π : Type} {left : π → γ} {right : π → δ} {holds : ζ → π → Prop} {xs : List ζ}
    {f : ζ → Except ε γ} {g : ζ → Except ε δ}
    (h : ∀ x ∈ xs, Together (fun a b => ∃ p, a = left p ∧ b = right p ∧ holds x p) (f x) (g x)) :
    Together (fun as bs => ∃ ps, as = ps.map left ∧ bs = ps.map right ∧ List.Forall₂ holds xs ps)
      (xs.mapM f) (xs.mapM g) := by
  induction xs with
  | nil => exact .ok ⟨[], rfl, rfl, .nil⟩
  | cons x rest ih =>
    simp only [List.mapM_cons]
    refine (h x List.mem_cons_self).bind ?_
    rintro a b ⟨p, rfl, rfl, first⟩
    refine (ih fun y member => h y (List.mem_cons_of_mem x member)).bind ?_
    rintro as bs ⟨ps, rfl, rfl, others⟩
    exact .ok ⟨p :: ps, rfl, rfl, .cons first others⟩

end Together

def ObjectPlan.unfilled (o : ObjectPlan link) : ObjectPlan link := { o with includeMissing := false }

theorem ObjectPlan.unfilled_keeps : ObjectPlan.Keeps (@ObjectPlan.unfilled link) :=
  ⟨fun _ => rfl, fun _ => rfl, fun _ => rfl, fun _ => rfl⟩

namespace Spec

variable {s : Spec} {d : Direction α β} {k last : Key} {o : ObjectPlan Key} {v : α} {n : Nat}

/-- The declared properties that some entries leave out, in the order of their declaration, each with
the default of its schema or null. -/
def appended (s : Spec) (d : Direction α β) (o : ObjectPlan Key) (es : List (String × α)) :
    List (String × β) :=
  o.properties.filterMap fun e =>
    if e.1 ∈ Entries.keys es then none else some (e.1, s.filler d e.2.schema)

/-- A value, what it comes to without missing properties and what it comes to with them. Both are the
same but for objects that a plan built, and for what holds such objects: entries have the same names
in the same order, and with missing properties those come after them. What no plan describes is
passed on. -/
inductive Grows (s : Spec) (d : Direction α β) : Option Key → α → β → β → Prop where
  | outside (v : α) : Grows s d none v (d.pass v) (d.pass v)
  | default {k : Key} {v : α} {j : Json} (null : d.isNull v = true)
      (rule : (s.plan k).onNull = some (.default j)) :
      Grows s d (some k) v (d.ofDefault j) (d.ofDefault j)
  | keep {k : Key} {v : α} (null : d.isNull v = true) (rule : (s.plan k).onNull = some .keep) :
      Grows s d (some k) v d.null d.null
  | pass {k last : Key} {v : α} {n : Nat} (settles : s.Settles d v n k last)
      (core : (s.plan last).core = .pass) : Grows s d (some k) v (d.pass v) (d.pass v)
  | convert {k last : Key} {v : α} {n : Nat} {c : Format.Converter} {w : β}
      (settles : s.Settles d v n k last) (core : (s.plan last).core = .convert c)
      (converted : d.convert c v = .ok w) : Grows s d (some k) v w w
  | list {k last item : Key} {v : α} {n : Nat} {schema : String} {xs : List α} {pairs : List (β × β)}
      (settles : s.Settles d v n k last) (core : (s.plan last).core = .list schema item)
      (list : d.list? v = some xs) (length : xs.length = pairs.length)
      (items : ∀ x p, (x, p) ∈ xs.zip pairs → Grows s d (some item) x p.1 p.2) :
      Grows s d (some k) v (d.list (pairs.map (·.1))) (d.list (pairs.map (·.2)))
  | object {k last : Key} {v : α} {n : Nat} {o : ObjectPlan Key} {es : List (String × α)}
      {fields : List (String × β × β)} (settles : s.Settles d v n k last)
      (core : (s.plan last).core = .object o) (entries : d.entries? v = some es)
      (names : Entries.keys es = Entries.keys fields)
      (parts : ∀ e f, (e, f) ∈ es.zip fields →
        Grows s d (Entries.get? e.1 o.properties) e.2 f.2.1 f.2.2) :
      Grows s d (some k) v (d.object o.typed (Entries.mapValues (·.1) fields))
        (d.object o.typed (Entries.mapValues (·.2) fields ++ s.appended d o es))

theorem keys_appended (s : Spec) (d : Direction α β) (o : ObjectPlan Key) (es : List (String × α)) :
    Entries.keys (s.appended d o es) =
      (Entries.keys o.properties).filter (· ∉ Entries.keys es) := by
  unfold appended
  induction o.properties with
  | nil => rfl
  | cons e rest ih =>
    rw [List.filterMap_cons]
    simp only [Entries.keys, List.map_cons, List.filter_cons] at ih ⊢
    by_cases given : e.1 ∈ es.map Prod.fst
    · simpa only [given, if_true, not_true, decide_false, Bool.false_eq_true, if_false] using ih
    · simpa only [given, if_false, not_false_iff, decide_true, if_true, List.map_cons] using
        congrArg (e.1 :: ·) ih

/-- Where an object plan takes its properties and their defaults from. -/
theorem WellFormed.shape_of_core (formed : s.WellFormed) (core : (s.plan k).core = .object o) :
    ∃ shape : Shape Id, shape.Distinct ∧ o.properties = s.propertyKeys shape ∧
      o.defaults = s.defaults shape.properties := by
  obtain ⟨shape, object, rfl | ⟨m, member, rfl⟩⟩ := core_object core
  · exact ⟨shape, formed.distinct _ shape object, rfl, rfl⟩
  · exact ⟨m.shape, formed.modelDistinct m member, rfl, formed.defaults m member⟩

/-- Nothing is appended twice, nor what is there. -/
theorem WellFormed.appended_nodup (formed : s.WellFormed) (core : (s.plan k).core = .object o)
    {es : List (String × α)} (distinct : (Entries.keys es).Nodup) :
    (Entries.keys es ++ Entries.keys (s.appended d o es)).Nodup := by
  obtain ⟨shape, declared, properties, _⟩ := formed.shape_of_core core
  rw [keys_appended, properties, keys_propertyKeys]
  refine List.nodup_append.mpr ⟨distinct, declared.filter _, ?_⟩
  rintro name given _ absent rfl
  exact of_decide_eq_true (List.mem_filter.mp absent).2 given

theorem WellFormed.missing_eq_appended (formed : s.WellFormed) (core : (s.plan k).core = .object o)
    (fills : o.includeMissing = true) {es : List (String × α)} {fields : List (String × β)}
    (names : Entries.keys es = Entries.keys fields) :
    Plan.missing d o fields = s.appended d o es := by
  obtain ⟨shape, distinct, properties, defaults⟩ := formed.shape_of_core core
  simp only [Plan.missing, fills, if_true, appended, properties, propertyKeys, List.filterMap_map]
  refine List.filterMap_congr fun e member => ?_
  have default : Entries.get? e.1 (s.defaults shape.properties) = (s.node (s.concrete e.2)).default :=
    get?_defaults distinct member
  simp only [Function.comp, Entries.contains_iff, names, defaults, default, filler, key,
    formed.concrete_concrete]
  cases (s.node (s.concrete e.2)).default <;> rfl

theorem plan_unfilled {off : Options} (filled : off.includeMissing = false)
    (rest : off.useModels = s.options.useModels) (k : Key) :
    (s.under off).plan k = (s.plan k).remake ObjectPlan.unfilled := by
  refine plan_under (fun m => ?_) (fun label shape => ?_) k
  · simp only [modelPlan, under, ObjectPlan.unfilled, filled, rest]
    rfl
  · simp only [freePlan, under, ObjectPlan.unfilled, filled]
    rfl

section Parts
variable {sub sub' : Key → α → Except TransformError β} (settles : s.Settles d v n k last)
  (parts : ∀ l x, d.size x < d.size v → Together (s.Grows d (some l) x) (sub' l x) (sub l x))
include settles parts

theorem list_grows {schema : String} {item : Key} {xs : List α}
    (core : (s.plan last).core = .list schema item) (list : d.list? v = some xs) :
    Together (s.Grows d (some k) v) (((s.plan last).remake ObjectPlan.unfilled).apply d sub' v)
      ((s.plan last).apply d sub v) := by
  rw [Plan.apply_list (Plan.core_remake core) list, Plan.apply_list core list]
  have each : ∀ x ∈ xs, Together (fun y z => ∃ p : β × β, y = p.1 ∧ z = p.2 ∧
      s.Grows d (some item) x p.1 p.2) (sub' item x) (sub item x) :=
    fun x member => (parts item x (d.size_item list member)).imp fun y z grows =>
      ⟨(y, z), rfl, rfl, grows⟩
  refine (Together.mapM each).bind ?_
  rintro ys zs ⟨pairs, rfl, rfl, items⟩
  exact .ok (.list settles core list items.length_eq fun x p pair => List.forall₂_zip items pair)

omit settles in
theorem field_grows {es : List (String × α)} (entries : d.entries? v = some es)
    {e : String × α} (member : e ∈ es) :
    Together (fun f g => ∃ q : String × β × β, f = (q.1, q.2.1) ∧ g = (q.1, q.2.2) ∧ e.1 = q.1 ∧
        s.Grows d (Entries.get? e.1 o.properties) e.2 q.2.1 q.2.2)
      (Plan.field d sub' o e) (Plan.field d sub o e) := by
  simp only [Plan.field]
  cases Entries.get? e.1 o.properties with
  | some l =>
    refine (parts l e.2 (d.size_entry entries member)).bind fun y z grows => ?_
    exact .ok ⟨(e.1, y, z), rfl, rfl, rfl, grows⟩
  | none => exact .ok ⟨(e.1, d.pass e.2, d.pass e.2), rfl, rfl, rfl, .outside e.2⟩

theorem WellFormed.object_grows (formed : s.WellFormed) (core : (s.plan last).core = .object o)
    (fills : o.includeMissing = true) {es : List (String × α)} (entries : d.entries? v = some es) :
    Together (s.Grows d (some k) v) (((s.plan last).remake ObjectPlan.unfilled).apply d sub' v)
      ((s.plan last).apply d sub v) := by
  rw [Plan.apply_object (Plan.core_remake core) entries, Plan.apply_object core entries,
    Plan.field_remake ObjectPlan.unfilled_keeps]
  refine (Together.mapM fun e member => field_grows (o := o) parts entries member).bind ?_
  rintro fs gs ⟨fields, rfl, rfl, made⟩
  have names : Entries.keys es = Entries.keys fields := by
    rw [Entries.keys, Entries.keys, ← List.forall₂_eq_eq_eq, List.forall₂_map_left_iff,
      List.forall₂_map_right_iff]
    exact made.imp fun _ _ entry => entry.1
  have named : Entries.keys es = Entries.keys (Entries.mapValues (·.2) fields) := by
    rw [names, Entries.keys_mapValues]
  have nothing : Plan.missing d o.unfilled (Entries.mapValues (·.1) fields) = [] := rfl
  have filled := formed.missing_eq_appended (d := d) core fills named
  refine .ok ?_
  have grown : s.Grows d (some k) v (d.object o.typed (Entries.mapValues (·.1) fields))
      (d.object o.typed (Entries.mapValues (·.2) fields ++ s.appended d o es)) :=
    .object settles core entries names fun e f pair => (List.forall₂_zip made pair).2
  rw [← filled, ← List.append_nil (Entries.mapValues (·.1) fields), ← nothing] at grown
  exact grown

/-- Where the parts grow, so does the whole. -/
theorem WellFormed.apply_grows (formed : s.WellFormed)
    (fills : ∀ o, (s.plan last).core = .object o → o.includeMissing = true) :
    Together (s.Grows d (some k) v) (((s.plan last).remake ObjectPlan.unfilled).apply d sub' v)
      ((s.plan last).apply d sub v) := by
  cases core : (s.plan last).core with
  | object o =>
    cases entries : d.entries? v with
    | none =>
      simp only [Plan.apply, Plan.core_remake core, Core.remake, core, entries]
      exact .error _
    | some es => exact formed.object_grows settles parts core (fills o core) entries
  | list schema item =>
    cases list : d.list? v with
    | none =>
      simp only [Plan.apply, Plan.core_remake core, Core.remake, core, list]
      exact .error _
    | some xs => exact list_grows settles parts core list
  | convert c =>
    simp only [Plan.apply, Plan.core_remake core, Core.remake, core]
    cases converted : d.convert c v with
    | ok w => exact .ok (.convert settles core converted)
    | error fault => exact .error _
  | pass =>
    simp only [Plan.apply, Plan.core_remake core, Core.remake, core]
    exact .ok (.pass settles core)
  | _ =>
    simp only [Plan.apply, Plan.core_remake core, Core.remake, core]
    exact .error _

end Parts

theorem guard_grows {off on : Except TransformError β} (h : Together (s.Grows d (some k) v) off on) :
    Together (s.Grows d (some k) v) ((s.plan k).guard d v off) ((s.plan k).guard d v on) := by
  unfold Plan.guard
  split
  · rename_i null
    split
    · rename_i rule
      exact .ok (.default null rule)
    · exact .error _
    · rename_i rule
      exact .ok (.keep null rule)
    · exact h
  · exact h

theorem includeMissing_of_core (fills : s.options.includeMissing = true)
    (core : (s.plan k).core = .object o) : o.includeMissing = true := by
  obtain ⟨shape, _, rfl | ⟨m, _, rfl⟩⟩ := core_object core
  · exact fills
  · exact fills

theorem WellFormed.resultAt_grows (formed : s.WellFormed) (fills : s.options.includeMissing = true)
    {off : Options} (filled : off.includeMissing = false)
    (rest : off.useModels = s.options.useModels) (k : Key) (v : α) :
    Together (s.Grows d (some k) v) ((s.under off).resultAt d k v) (s.resultAt d k v) := by
  induction size : d.size v using Nat.strongRecOn generalizing k v with
  | ind bound ih =>
    subst size
    rcases resultAt_under ObjectPlan.unfilled_keeps (plan_unfilled filled rest) d k v with
      ⟨_, last, settles, with_fillers, without⟩ | ⟨_, with_fillers, without⟩
    · rw [with_fillers, without]
      refine guard_grows (formed.apply_grows settles (fun l x smaller => ih _ smaller l x rfl) ?_)
      exact fun o core => includeMissing_of_core fills core
    · rw [with_fillers, without]
      exact guard_grows (.error _)

/-- Filling in missing properties only appends. A document is read or refused alike with and without
it. In either direction, a value fails alike, or comes to results that differ in what is appended to
objects: the properties that the plan where tags led declares beyond the entries, in the order of their
declaration, so that no name comes twice. -/
theorem fillers_only_append (document : Json) (options : Options) (formats : Format.Registry) :
    (∀ e, build document { options with includeMissing := true } formats = .error e ↔
      build document { options with includeMissing := false } formats = .error e) ∧
    ∀ s t, build document { options with includeMissing := true } formats = .ok s →
      build document { options with includeMissing := false } formats = .ok t →
      ∀ side : Side,
        (∀ (uses others : List Use) (id : Id) (required : Bool) (v : side.In),
          Together (s.Grows side.direction (some (s.key id required)) v)
            ((t.transform ((t.after others).on side) id required).2.call side.direction true v)
            ((s.transform ((s.after uses).on side) id required).2.call side.direction true v)) ∧
        ∀ k o, (s.plan k).core = .object o → ∀ es : List (String × side.In),
          Entries.keys (s.appended side.direction o es) =
            (Entries.keys o.properties).filter (· ∉ Entries.keys es) ∧
          ((Entries.keys es).Nodup →
            (Entries.keys es ++ Entries.keys (s.appended side.direction o es)).Nodup) := by
  refine ⟨refused_under _ _, fun s t filled unfilled side => ?_⟩
  have formed := build_wellFormed filled
  have given := (build_given filled).1
  rw [built_under filled] at unfilled
  cases unfilled
  have fills : s.options.includeMissing = true := by rw [given]
  have rest : Options.useModels { options with includeMissing := false } = s.options.useModels := by
    rw [given]
  refine ⟨fun uses others id required v => ?_, fun k o core es => ?_⟩
  · rw [call_after, call_after]
    exact formed.resultAt_grows fills rfl rest (s.key id required) v
  · exact ⟨s.keys_appended side.direction o es, fun distinct => formed.appended_nodup core distinct⟩

/-- A cat gets its lives behind its own entries, and its friend all that pets have. -/
theorem fillers_only_append_of_pets :
    let v : Json := .object [("mood", .null), ("kind", .string "Cat"), ("friend", .object [])]
    ∃ s t m n, build pets ⟨true, true, true, true⟩ .standard = .ok s ∧
      build pets ⟨true, false, true, true⟩ .standard = .ok t ∧
      (t.transform ((t.after []).on .unmarshal) 0 true).2.call .unmarshal true v = .ok m ∧
      (s.transform ((s.after []).on .unmarshal) 0 true).2.call .unmarshal true v = .ok n ∧
      m.entries?.map Entries.keys = some ["mood", "kind", "friend"] ∧
      n.entries?.map Entries.keys = some ["mood", "kind", "friend", "lives"] ∧
      s.Grows .unmarshal (some (s.key 0 true)) v m n := by
  intro v
  have filled : (build pets ⟨true, true, true, true⟩ .standard).toOption.any (fun s =>
      ((s.transform ((s.after []).on .unmarshal) 0 true).2.call .unmarshal true v).toOption.any
        fun n => n.entries?.map Entries.keys = some ["mood", "kind", "friend", "lives"]) = true := by
    decide +kernel
  have unfilled : (build pets ⟨true, false, true, true⟩ .standard).toOption.any (fun t =>
      ((t.transform ((t.after []).on .unmarshal) 0 true).2.call .unmarshal true v).toOption.any
        fun m => m.entries?.map Entries.keys = some ["mood", "kind", "friend"]) = true := by
    decide +kernel
  obtain ⟨s, built, reads⟩ := Except.exists_of_any filled
  obtain ⟨n, read, names⟩ := Except.exists_of_any reads
  obtain ⟨t, built', reads'⟩ := Except.exists_of_any unfilled
  obtain ⟨m, read', names'⟩ := Except.exists_of_any reads'
  obtain ⟨_, both⟩ := fillers_only_append pets .standard .standard
  have grows := (both s t built built' .unmarshal).1 [] [] 0 true v
  have off : (t.transform ((t.after []).on .unmarshal) 0 true).2.call Side.unmarshal.direction true v =
      .ok m := read'
  have on : (s.transform ((s.after []).on .unmarshal) 0 true).2.call Side.unmarshal.direction true v =
      .ok n := read
  rw [off, on] at grows
  cases grows with
  | ok grows =>
    exact ⟨s, t, m, n, built, built', read', read, of_decide_eq_true names', of_decide_eq_true names,
      grows⟩

end Spec
end ApiPayload
