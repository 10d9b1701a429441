import ApiPayload.Proofs.Choices
import ApiPayload.Proofs.Fillers

/-
Absent properties and null ones. Where missing properties are filled in, a declared property that an object
lacks becomes what null becomes there, although the one is filled in from defaults and the other transformed.
-/
namespace ApiPayload

open Schema

variable {α β link : Type}

namespace Entries

variable {κ : Type u} {α : Type v} {before after : List (κ × α)} {p : κ}

theorem fresh_before (absent : p ∉ keys (before ++ after)) : p ∉ keys before := by
  intro member
  rw [keys, List.map_append] at absent
  exact absent (List.mem_append_left _ member)

/-- An entry for a new key, wherever it stands, is found under that key and under no other. -/
theorem get?_put [DecidableEq κ] (absent : p ∉ keys (before ++ after)) (x : α) (key : κ) :
    get? key (before ++ (p, x) :: after) = if p = key then some x else get? key (before ++ after) := by
  rw [get?_append, get?_append, get?]
  split
  · rename_i same
    rw [← same, (get?_eq_none_iff p before).mpr (fresh_before absent), Option.none_or]
  · rfl

end Entries

namespace Side

theorem string?_null {side : Side} {x : side.In} (null : side.direction.isNull x = true) :
    side.direction.string? x = none := by
  cases side <;> cases x <;> first | rfl | cases null

theorem pass_null {side : Side} {x : side.In} (null : side.direction.isNull x = true) :
    side.direction.pass x = side.direction.null := by
  cases side <;> cases x <;> first | rfl | cases null

end Side

namespace Plan

variable {d : Direction α β} {v : α} {sub : link → α → Except TransformError β} {o : ObjectPlan link}
  {before after : List (String × α)} {p : String} {x : α}

/-- What entries around a declared one become, with what becomes of that one. -/
theorem becomes_put {fields : List (String × β)} {l : link}
    (declared : Entries.get? p o.properties = some l)
    (becomes : List.Forall₂ (Becomes d sub o) (before ++ (p, x) :: after) fields) :
    ∃ first y later, sub l x = .ok y ∧ fields = first ++ (p, y) :: later ∧
      List.Forall₂ (Becomes d sub o) (before ++ after) (first ++ later) := by
  induction before generalizing fields with
  | nil =>
    obtain ⟨f, later, became, rest, rfl⟩ := List.forall₂_cons_left_iff.mp becomes
    cases became with
    | declared property result =>
      obtain rfl := Option.some.inj (declared.symm.trans property)
      exact ⟨[], _, later, result, rfl, rest⟩
    | undeclared none =>
      rw [declared] at none
      cases none
  | cons e before ih =>
    obtain ⟨f, fields, became, rest, rfl⟩ := List.forall₂_cons_left_iff.mp becomes
    obtain ⟨first, y, later, result, rfl, others⟩ := ih rest
    exact ⟨f :: first, y, later, result, rfl, .cons became others⟩

end Plan

namespace Spec

variable {s : Spec} {d : Direction α β} {k last l : Key} {o : ObjectPlan Key} {v v' x : α} {n : Nat}
  {before after : List (String × α)} {p : String} {w' y : β}

/-- A value that is no text names no subtype, and neither does a value that is not there. -/
theorem choice_put (absent : p ∉ Entries.keys (before ++ after)) (textless : d.string? x = none)
    (o : ObjectPlan link) : o.choice d (before ++ (p, x) :: after) = o.choice d (before ++ after) := by
  rw [ObjectPlan.choice_eq, ObjectPlan.choice_eq]
  refine congrArg (Option.bind _) (funext fun mark => ?_)
  rw [Entries.get?_put absent]
  split
  · rename_i same
    rw [← same, (Entries.get?_eq_none_iff p _).mpr absent, Option.bind_some, textless]
    rfl
  · rfl

/-- Only a schema that has no type, or none that is known, has no rule for null. -/
theorem unruled_kind (concrete : ∀ target, (s.node k.schema).kind ≠ .ref target)
    (unruled : (s.plan k).onNull = none) : (s.node k.schema).kind = .untyped ∧ (s.plan k).core = .pass ∨
      ∃ type, (s.plan k).core = .unknownType type := by
  unfold plan at unruled ⊢
  cases kind : (s.node k.schema).kind with
  | untyped => exact .inl ⟨rfl, by simp only [kind]⟩
  | unknown type => exact .inr ⟨type, by simp only [kind]⟩
  | ref target => exact absurd kind (concrete target)
  | primitive type format =>
    simp only [kind] at unruled
    split at unruled <;> cases unruled
  | array items => cases items <;> simp [kind] at unruled
  | object shape => simp [kind] at unruled
  | file => simp [kind] at unruled

/-- Null becomes what a missing property becomes, unless a schema without a type has a default. -/
theorem WellFormed.filler_of_null (formed : s.WellFormed) {id : Id} (link : l.schema = s.concrete id)
    (null : d.isNull x = true) (pass : d.pass x = d.null)
    (typed : (s.node l.schema).kind = .untyped → (s.node l.schema).default = none)
    (found : s.resultAt d l x = .ok y) : y = s.filler d l.schema := by
  have again : s.concrete l.schema = l.schema := by rw [link, formed.concrete_concrete]
  have concrete : ∀ target, (s.node l.schema).kind ≠ .ref target := by
    rw [link]
    exact concrete?_not_ref (formed.concrete_spec id)
  rw [filler, again]
  rcases formed.resultAt_ok found with ⟨j, _, rule, rfl⟩ | ⟨_, rule, rfl⟩ | ⟨unruled, _, last, settles, takes⟩
  · rw [default_of_rule rule]
  · rcases s.onNull_eq l with none | ruled
    · rw [none] at rule
      cases rule
    · rw [ruled, nullPolicy] at rule
      cases default : (s.node l.schema).default with
      | none => rfl
      | some j =>
        rw [default] at rule
        cases rule
  · obtain rfl : last = l := settles.last_unique (stays_of_null null l)
    rcases unruled_kind concrete (unruled null) with ⟨untyped, core⟩ | ⟨type, core⟩
    · rw [typed untyped]
      cases takes with
      | pass _ => exact pass
      | convert other _ | list other _ _ | object other _ _ =>
        rw [core] at other
        cases other
    · cases takes with
      | pass other | convert other _ | list other _ _ | object other _ _ =>
        rw [core] at other
        cases other

theorem get?_appended (s : Spec) (d : Direction α β) (o : ObjectPlan Key) (es : List (String × α))
    (key : String) : Entries.get? key (s.appended d o es) =
      if key ∈ Entries.keys es then none
      else (Entries.get? key o.properties).map fun l => s.filler d l.schema := by
  unfold appended
  induction o.properties with
  | nil => simp [Entries.get?]
  | cons e rest ih =>
    obtain ⟨name, l⟩ := e
    rw [List.filterMap_cons, Entries.get?]
    by_cases given : name ∈ Entries.keys es
    · simp only [given, if_true, ih]
      by_cases same : name = key
      · rw [if_pos (same ▸ given), if_pos (same ▸ given)]
      · rw [if_neg same]
    · simp only [given, if_false, Entries.get?]
      by_cases same : name = key
      · rw [if_pos same, if_pos same, if_neg (same ▸ given), Option.map_some]
      · rw [if_neg same, if_neg same, ih]

/-- What becomes of an object that lacks a property, when it has a result with null there. -/
theorem WellFormed.absent_of_null (formed : s.WellFormed) (fills : s.options.includeMissing = true)
    (settles : s.Settles d v n k last) (core : (s.plan last).core = .object o)
    (entries : d.entries? v = some (before ++ after))
    (entries' : d.entries? v' = some (before ++ (p, x) :: after))
    (absent : p ∉ Entries.keys (before ++ after)) (declared : Entries.get? p o.properties = some l)
    (null : d.isNull x = true) (pass : d.pass x = d.null) (textless : d.string? x = none)
    (typed : (s.node l.schema).kind = .untyped → (s.node l.schema).default = none)
    (found : s.resultAt d k v' = .ok w') :
    ∃ fields fields', s.resultAt d k v = .ok (d.object o.typed fields) ∧
      w' = d.object o.typed fields' ∧ ∀ key, Entries.get? key fields = Entries.get? key fields' := by
  have notNull : ∀ {u es}, d.entries? u = some es → d.isNull u = false := by
    intro u es has
    by_contra other
    rw [d.entries_null (by simpa using other)] at has
    cases has
  have settles' : s.Settles d v' n k last := by
    refine settles.transfer formed core entries entries' (fun stays => ?_) fun _ _ chosen => ?_
    · rw [choice_put absent textless, stays]
    · rw [choice_put absent textless, chosen]
  rw [formed.resultAt_not_null (notNull entries') settles'] at found
  obtain ⟨fields', becomes, rfl⟩ := (Plan.apply_object_eq_ok core entries').mp found
  obtain ⟨first, y, later, result, rfl, others⟩ := Plan.becomes_put declared becomes
  have made := (Plan.apply_object_eq_ok core entries).mpr ⟨_, others, rfl⟩
  rw [← formed.resultAt_not_null (notNull entries) settles] at made
  refine ⟨_, _, made, rfl, fun key => ?_⟩
  have filled := includeMissing_of_core fills core
  have names := Plan.names_of_becomes others
  have lacks : p ∉ Entries.keys (first ++ later) := names ▸ absent
  obtain ⟨shape, _, properties, _⟩ := formed.shape_of_core core
  obtain ⟨id, _, link⟩ := id_of_property (properties ▸ declared)
  have value := formed.filler_of_null link null pass typed result
  rw [formed.missing_eq_appended core filled names,
    formed.missing_eq_appended core filled (Plan.names_of_becomes becomes),
    Entries.get?_append key (first ++ later), Entries.get?_append key (first ++ (p, y) :: later),
    Entries.get?_put lacks, get?_appended, get?_appended]
  by_cases same : p = key
  · rw [if_pos same, ← same, (Entries.get?_eq_none_iff p _).mpr lacks, if_neg absent, declared, value]
    rfl
  · have others : key ∈ Entries.keys (before ++ (p, x) :: after) ↔ key ∈ Entries.keys (before ++ after) := by
      simp [Entries.keys, Ne.symm same]
    rw [if_neg same, if_congr others rfl rfl]

/-- A declared property that an object lacks might as well be null, wherever it is put, as long as it is not
that of a schema without a type that has a default: whenever the object has a result with null there, it has
one without, as an instance of the same model and with the same values. -/
theorem absent_agrees_with_null {document : Json} {options : Options} {formats : Format.Registry}
    (built : build document options formats = .ok s) (fills : options.includeMissing = true) (side : Side)
    (uses others : List Use) (id : Id) (required : Bool) {v v' x : side.In}
    {before after : List (String × side.In)} {n : Nat} {last l : Key} {o : ObjectPlan Key} {p : String}
    {w' : side.Out} (entries : side.direction.entries? v = some (before ++ after))
    (entries' : side.direction.entries? v' = some (before ++ (p, x) :: after))
    (null : side.direction.isNull x = true) (absent : p ∉ Entries.keys (before ++ after))
    (settles : s.Settles side.direction v n (s.key id required) last)
    (core : (s.plan last).core = .object o) (declared : Entries.get? p o.properties = some l)
    (typed : (s.node l.schema).kind = .untyped → (s.node l.schema).default = none)
    (found : (s.transform ((s.after uses).on side) id required).2.call side.direction true v' = .ok w') :
    ∃ fields fields',
      (s.transform ((s.after others).on side) id required).2.call side.direction true v =
        .ok (side.direction.object o.typed fields) ∧
      w' = side.direction.object o.typed fields' ∧
      ∀ key, Entries.get? key fields = Entries.get? key fields' := by
  rw [call_after] at found ⊢
  have filled : s.options.includeMissing = true := by rw [(build_given built).1, fills]
  exact (build_wellFormed built).absent_of_null filled settles core entries entries' absent declared null
    (Side.pass_null null) (Side.string?_null null) typed found

/-- The properties of an object that is made a model of this name. -/
def propertiesOf? (name : String) : Core Key → Option (List (String × Key))
  | .object o => if o.typed = some name then some o.properties else none
  | _ => none

theorem core_of_propertiesOf? {name : String} {core : Core Key} {properties : List (String × Key)}
    (found : propertiesOf? name core = some properties) :
    ∃ o, core = .object o ∧ o.typed = some name ∧ o.properties = properties := by
  cases core with
  | object o =>
    by_cases typed : o.typed = some name
    · rw [propertiesOf?, if_pos typed] at found
      exact ⟨o, rfl, typed, Option.some.inj found⟩
    · rw [propertiesOf?, if_neg typed] at found
      cases found
  | _ => cases found

/-- A cat without a word on its claws, and one whose claws are null. -/
theorem absent_agrees_with_null_in_cattery :
    let v : Json := .object [("kind", .string "Cat")]
    let v' : Json := .object [("claws", .null), ("kind", .string "Cat")]
    ∃ s fields fields', build cattery .standard .standard = .ok s ∧
      (s.transform ((s.after []).on .unmarshal) 0 true).2.call Direction.unmarshal true v' =
        .ok (.model "Cat" fields') ∧
      (s.transform ((s.after []).on .unmarshal) 0 true).2.call Direction.unmarshal true v =
        .ok (.model "Cat" fields) ∧
      Entries.keys fields' = ["claws", "kind"] ∧ Entries.keys fields = ["kind", "claws"] ∧
      ∀ key, Entries.get? key fields = Entries.get? key fields' := by
  intro v v'
  have made : (build cattery .standard .standard).toOption.any (fun s =>
      ((s.settled? .unmarshal v s.hops (s.key 0 true)).any fun last =>
        (propertiesOf? "Cat" (s.plan last).core).any fun properties =>
          (Entries.get? "claws" properties).any fun l => (s.node l.schema).default.isNone) &&
      (((s.transform ((s.after []).on .unmarshal) 0 true).2.call .unmarshal true v').toOption.any fun n =>
        n.entries?.map Entries.keys = some ["claws", "kind"]) &&
      (((s.transform ((s.after []).on .unmarshal) 0 true).2.call .unmarshal true v).toOption.any fun n =>
        n.entries?.map Entries.keys = some ["kind", "claws"])) = true := by
    decide +kernel
  obtain ⟨s, built, made⟩ := Except.exists_of_any made
  rw [Bool.and_eq_true, Bool.and_eq_true] at made
  obtain ⟨⟨plain, with_null⟩, without⟩ := made
  obtain ⟨last, settled, plain⟩ := (Option.any_eq_true _ _).mp plain
  obtain ⟨n, settles⟩ := settles_of_settled? settled
  obtain ⟨w', found, names'⟩ := Except.exists_of_any with_null
  obtain ⟨w, read, names⟩ := Except.exists_of_any without
  obtain ⟨properties, own, plain⟩ := (Option.any_eq_true _ _).mp plain
  obtain ⟨o, core, typed, rfl⟩ := core_of_propertiesOf? own
  obtain ⟨l, declared, default⟩ := (Option.any_eq_true _ _).mp plain
  have entries : Side.unmarshal.direction.entries? v = some ([] ++ [("kind", .string "Cat")]) := rfl
  have entries' : Side.unmarshal.direction.entries? v' =
    some ([] ++ ("claws", .null) :: [("kind", .string "Cat")]) := rfl
  obtain ⟨fields, fields', made, rfl, same⟩ := absent_agrees_with_null built rfl .unmarshal [] [] 0 true
    entries entries' rfl (by decide) settles core declared
    (fun _ => Option.isNone_iff_eq_none.mp default) found
  have made : (s.transform ((s.after []).on .unmarshal) 0 true).2.call .unmarshal true v =
    .ok (Direction.unmarshal.object o.typed fields) := made
  rw [typed] at made found names'
  rw [made] at read
  cases read
  exact ⟨s, fields, fields', built, found, made, Option.some.inj (of_decide_eq_true names'),
    Option.some.inj (of_decide_eq_true names), same⟩

end Spec
end ApiPayload
