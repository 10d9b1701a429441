import ApiPayload.Proofs.Results

/-
The two directions side by side. Reading a wire value and writing it as a native value take the same
way through plans: they hand the value down alike, fill in the same and fail alike. What comes out
are the two forms of one value, as long as converters do not tell the directions apart.
-/
namespace ApiPayload

open Schema Format

variable {γ δ ε ζ link : Type}

/-- The error with the text of its fault instead of the fault. -/
def TransformError.told : TransformError → TransformError
  | format name value fault => format name value (.rejected fault.message)
  | e => e

/-- Reading and then writing without a schema is writing at once, and fails with the same text. -/
def Format.Converter.Mirrors (c : Converter) : Prop :=
  ∀ v, ((c.toNative v).map Native.toJson).mapError Fault.message =
    (c.toWire (.ofJson v)).mapError Fault.message

def Format.Registry.Mirrors (r : Registry) : Prop := ∀ name c, r.find? name = some c → c.Mirrors

namespace Format

/-- The standard formats of numbers. -/
def numbers : List Converter :=
  [whole "int32" (-2147483648) 2147483647,
   whole "int64" (-9223372036854775808) 9223372036854775807, floating "float", floating "double"]

theorem whole_mirrors (name : String) (low high : Int) : (whole name low high).Mirrors := by
  intro v
  cases v with
  | number n =>
    change (((checkWhole name low high n).map Native.number).map Native.toJson).mapError _ =
      ((checkWhole name low high n).map Json.number).mapError _
    cases checkWhole name low high n <;> rfl
  | _ => rfl

theorem floating_mirrors (name : String) : (floating name).Mirrors := by
  intro v
  cases v <;> rfl

theorem numbers_mirror {c : Converter} (member : c ∈ numbers) : c.Mirrors := by
  simp only [numbers, List.mem_cons, List.not_mem_nil, or_false] at member
  rcases member with rfl | rfl | rfl | rfl
  · exact whole_mirrors _ _ _
  · exact whole_mirrors _ _ _
  · exact floating_mirrors _
  · exact floating_mirrors _

theorem empty_mirrors : Registry.empty.Mirrors := by
  intro name c found
  cases found

theorem foldl_register_mirrors {cs : List Converter} (own : ∀ c ∈ cs, c.Mirrors) :
    (cs.foldl Registry.register .empty).Mirrors :=
  fun _ c found => own c (Registry.mem_of_find? found)

end Format

/-- Both fail with the same texts, or both succeed with related values. -/
inductive Alike (same : γ → δ → Prop) : Except TransformError γ → Except TransformError δ → Prop where
  | ok {a : γ} {b : δ} (h : same a b) : Alike same (.ok a) (.ok b)
  | error {e f : TransformError} (h : e.told = f.told) : Alike same (.error e) (.error f)

namespace Alike

variable {same : γ → δ → Prop} {x : Except TransformError γ} {y : Except TransformError δ}

theorem bind {same' : ε → ζ → Prop} {f : γ → Except TransformError ε} {g : δ → Except TransformError ζ}
    (h : Alike same x y) (rest : ∀ a b, same a b → Alike same' (f a) (g b)) :
    Alike same' (x >>= f) (y >>= g) := by
  cases h with
  | ok h => exact rest _ _ h
  | error h => exact .error h

theorem mapM {xs : List ε} {f : ε → Except TransformError γ} {g : ε → Except TransformError δ}
    (h : ∀ x ∈ xs, Alike same (f x) (g x)) :
    Alike (List.Forall₂ same) (xs.mapM f) (xs.mapM g) := by
  induction xs with
  | nil => exact .ok .nil
  | cons x rest ih =>
    simp only [List.mapM_cons]
    refine (h x List.mem_cons_self).bind fun a b first => ?_
    refine (ih fun y member => h y (List.mem_cons_of_mem x member)).bind fun as bs others => ?_
    exact .ok (.cons first others)

theorem mapError_eq {f : γ → δ} (h : Alike (fun a b => f a = b) x y) :
    (x.map f).mapError TransformError.told = y.mapError TransformError.told := by
  cases h with
  | ok same => exact congrArg Except.ok same
  | error same => exact congrArg Except.error same

end Alike

/-- A native value and its wire form. -/
abbrev Wired (n : Native) (w : Json) : Prop := n.toJson = w

def WiredEntry (e : String × Native) (f : String × Json) : Prop := (e.1, e.2.toJson) = f

theorem toItems_of_forall₂ {ns : List Native} {ws : List Json} (h : List.Forall₂ Wired ns ws) :
    Native.toItems ns = ws := by
  induction h with
  | nil => rfl
  | cons first _ ih => rw [Native.toItems, first, ih]

theorem toMembers_of_forall₂ {es : List (String × Native)} {fs : List (String × Json)}
    (h : List.Forall₂ WiredEntry es fs) : Native.toMembers es = fs := by
  induction h with
  | nil => rfl
  | cons first _ ih => rw [Native.toMembers, ← first, ih]

namespace Plan

variable {v : Json} {p : Plan link}

theorem choice_ofJson (o : ObjectPlan link) (es : List (String × Json)) :
    o.choice .marshal (Entries.mapValues Native.ofJson es) = o.choice .unmarshal es := by
  simp only [ObjectPlan.choice]
  cases o.discriminator with
  | none => rfl
  | some mark =>
    cases found : Entries.get? mark es with
    | none => simp [Entries.get?_mapValues, found]
    | some x => simp [Entries.get?_mapValues, found, Direction.marshal, Direction.unmarshal,
        Native.string?_ofJson]

theorem next?_ofJson (p : Plan link) (v : Json) :
    p.next? .marshal (Native.ofJson v) = p.next? .unmarshal v := by
  cases core : p.core with
  | object o =>
    simp only [next?, core, Direction.marshal, Direction.unmarshal, Native.entries?_ofJson]
    cases v.object? with
    | none => rfl
    | some es => exact choice_ofJson o es
  | _ => simp only [next?, core]

theorem settle_ofJson (p : Plan link) (v : Json) (n : Nat) :
    p.settle .marshal (Native.ofJson v) n = p.settle .unmarshal v n := by
  induction n generalizing p with
  | zero =>
    unfold settle
    rw [next?_ofJson]
  | succ n ih =>
    unfold settle
    rw [next?_ofJson]
    split
    · rfl
    · exact congrArg (Ask.need _) (funext fun q => ih q)

theorem missing_toJson (o : ObjectPlan link) (fields : List (String × Native)) :
    missing .marshal o (Native.toMembers fields) =
      Native.toMembers (missing .unmarshal o fields) := by
  have known : ∀ name, Entries.contains name (Native.toMembers fields) =
      Entries.contains name fields := by
    intro name
    rw [Native.toMembers_eq, Entries.contains, Entries.get?_mapValues, Option.isSome_map,
      Entries.contains]
  have filler : ∀ name, ((Entries.get? name o.defaults).map Direction.marshal.ofDefault).getD .null =
      (((Entries.get? name o.defaults).map Native.ofJson).getD .null).toJson := by
    intro name
    cases Entries.get? name o.defaults with
    | none => rfl
    | some j => exact (Native.toJson_ofJson j).symm
  simp only [missing, known]
  split
  · rw [Native.toMembers_eq, Entries.mapValues, List.map_filterMap]
    congr 1
    funext e
    split
    · rfl
    · exact congrArg some (Prod.ext rfl (filler e.1))
  · rfl

theorem guard_ofJson {whole : Except TransformError Native} {written : Except TransformError Json}
    (h : Alike Wired whole written) :
    Alike Wired (p.guard .unmarshal v whole) (p.guard .marshal (Native.ofJson v) written) := by
  have null : Direction.marshal.isNull (.ofJson v) = Direction.unmarshal.isNull v :=
    Native.isNull_ofJson v
  simp only [guard, null]
  split
  · split
    · exact .ok (Native.toJson_ofJson _)
    · exact .error rfl
    · exact .ok rfl
    · exact h
  · exact h

section Parts

variable {sub : link → Json → Except TransformError Native}
  {write : link → Native → Except TransformError Json}

theorem apply_ofJson_convert {c : Converter} (core : p.core = .convert c) (mirrored : c.Mirrors) :
    Alike Wired (p.apply .unmarshal sub v) (p.apply .marshal write (Native.ofJson v)) := by
  have both := mirrored v
  simp only [apply, core, Direction.marshal, Direction.unmarshal, Native.describe_ofJson]
  cases read : c.toNative v with
  | ok n =>
    cases written : c.toWire (.ofJson v) with
    | ok w =>
      rw [read, written] at both
      exact .ok (Except.ok.inj both)
    | error f =>
      rw [read, written] at both
      cases both
  | error e =>
    cases written : c.toWire (.ofJson v) with
    | ok w =>
      rw [read, written] at both
      cases both
    | error f =>
      rw [read, written] at both
      have text : e.message = f.message := Except.error.inj both
      exact .error (by simp only [TransformError.told, text])

variable (parts : ∀ l x, x.size < v.size → Alike Wired (sub l x) (write l (.ofJson x)))
include parts

theorem apply_ofJson_list {schema : String} {item : link} {xs : List Json}
    (core : p.core = .list schema item) (list : v.array? = some xs) :
    Alike Wired (p.apply .unmarshal sub v) (p.apply .marshal write (Native.ofJson v)) := by
  have read : Direction.unmarshal.list? v = some xs := list
  have written : Direction.marshal.list? (.ofJson v) = some (xs.map .ofJson) := by
    simp only [Direction.marshal, Native.list?_ofJson, list, Option.map_some]
  rw [apply_list core read, apply_list core written, List.mapM_map]
  have items : Alike (List.Forall₂ Wired) (xs.mapM (sub item))
      (xs.mapM (write item ∘ Native.ofJson)) :=
    Alike.mapM fun x member => parts item x (Direction.unmarshal.size_item read member)
  refine items.bind fun ns ws same => .ok ?_
  exact congrArg Json.array (toItems_of_forall₂ same)

theorem field_ofJson {es : List (String × Json)} (entries : v.object? = some es)
    (o : ObjectPlan link) {e : String × Json} (member : e ∈ es) :
    Alike WiredEntry (field .unmarshal sub o e)
      (field .marshal write o (e.1, Native.ofJson e.2)) := by
  simp only [field]
  cases Entries.get? e.1 o.properties with
  | some l =>
    have smaller := Direction.unmarshal.size_entry entries (show (e.1, e.2) ∈ es from member)
    refine (parts l e.2 smaller).bind fun n w same => .ok ?_
    exact Prod.ext rfl same
  | none => exact .ok rfl

theorem apply_ofJson_object {o : ObjectPlan link} {es : List (String × Json)}
    (core : p.core = .object o) (entries : v.object? = some es) :
    Alike Wired (p.apply .unmarshal sub v) (p.apply .marshal write (Native.ofJson v)) := by
  have read : Direction.unmarshal.entries? v = some es := entries
  have written : Direction.marshal.entries? (.ofJson v) =
      some (es.map fun e => (e.1, Native.ofJson e.2)) := by
    simp only [Direction.marshal, Native.entries?_ofJson, entries, Option.map_some, Entries.mapValues]
  rw [apply_object core read, apply_object core written, List.mapM_map]
  refine (Alike.mapM fun e member => field_ofJson parts entries o member).bind ?_
  intro fields ws same
  have wired : Native.toMembers fields = ws := toMembers_of_forall₂ same
  have filled := missing_toJson o fields
  have all : Native.toMembers (fields ++ missing .unmarshal o fields) = ws ++ missing .marshal o ws := by
    rw [Native.toMembers_eq, Entries.mapValues, List.map_append, ← Entries.mapValues,
      ← Entries.mapValues, ← Native.toMembers_eq, ← Native.toMembers_eq, ← filled, wired]
  refine .ok ?_
  cases o.typed <;> exact congrArg Json.object all

/-- Where the parts go alike, so does the whole. -/
theorem apply_ofJson (mirrored : ∀ c, p.core = .convert c → c.Mirrors) :
    Alike Wired (p.apply .unmarshal sub v) (p.apply .marshal write (Native.ofJson v)) := by
  cases core : p.core with
  | pass =>
    simp only [apply, core]
    exact .ok rfl
  | unknownType type =>
    simp only [apply, core, Direction.marshal, Direction.unmarshal, Native.describe_ofJson]
    exact .error rfl
  | unknownModel model =>
    simp only [apply, core, Direction.marshal, Direction.unmarshal, Native.describe_ofJson]
    exact .error rfl
  | convert c => exact apply_ofJson_convert core (mirrored c core)
  | list schema item =>
    cases list : v.array? with
    | none =>
      simp only [apply, core, Direction.marshal, Direction.unmarshal, Native.list?_ofJson, list,
        Option.map_none, Native.typeName_ofJson, Native.describe_ofJson]
      exact .error rfl
    | some xs => exact apply_ofJson_list parts core list
  | object o =>
    cases entries : v.object? with
    | none =>
      simp only [apply, core, Direction.marshal, Direction.unmarshal, Native.entries?_ofJson, entries,
        Option.map_none, Native.typeName_ofJson, Native.describe_ofJson]
      exact .error rfl
    | some es => exact apply_ofJson_object parts core entries

end Parts

end Plan

namespace Spec

variable {s : Spec} {k : Key} {c : Converter}

/-- The converter of the registered format that a schema carries. -/
def converter? (s : Spec) (id : Id) : Option Converter :=
  match (s.node id).kind with
  | .primitive _ format => format.bind s.formats.find?
  | _ => none

theorem core_eq_convert (h : (s.plan k).core = .convert c) : s.converter? k.schema = some c := by
  unfold plan at h
  unfold converter?
  cases kind : (s.node k.schema).kind with
  | primitive type format =>
    simp only [kind] at h ⊢
    cases found : format.bind s.formats.find? with
    | none => simp [found] at h
    | some other =>
      simp only [found, Core.convert.injEq] at h
      rw [h]
  | array items => cases items <;> simp [kind] at h
  | object shape =>
    simp only [kind, objectCore] at h
    split at h
    · cases h
    · split at h <;> cases h
  | _ => simp [kind] at h

theorem converter?_mem {id : Id} (h : s.converter? id = some c) :
    ∃ name, s.formats.find? name = some c := by
  unfold converter? at h
  split at h
  · rename_i type format kind
    cases format with
    | none => cases h
    | some name => exact ⟨name, h⟩
  · cases h

theorem resultAt_ofJson (mirrored : s.formats.Mirrors) (k : Key) (v : Json) :
    Alike Wired (s.resultAt .unmarshal k v) (s.resultAt .marshal k (.ofJson v)) := by
  induction size : v.size using Nat.strongRecOn generalizing k v with
  | ind bound ih =>
    subst size
    rw [resultAt_eq, resultAt_eq, Plan.settle_ofJson]
    refine Plan.guard_ofJson ?_
    rcases s.settle_run .unmarshal v s.hops k with ⟨_, last, _, _, found⟩ | ⟨_, model, found⟩
    · rw [found]
      refine Plan.apply_ofJson (fun l x smaller => ih _ smaller l x rfl) fun c core => ?_
      obtain ⟨name, registered⟩ := converter?_mem (core_eq_convert core)
      exact mirrored name c registered
    · rw [found]
      exact .error rfl

/-- Numbers are converted alike in both directions, and with such formats alone reading a value and
writing out what was read is the same as writing the value at once: the same wire value, or the same
error with the same texts. -/
theorem directions_agree {document : Json} {options : Options} {formats : Registry} {s : Spec}
    (built : build document options formats = .ok s) (mirrored : formats.Mirrors)
    (uses others : List Use) (id : Id) (required : Bool) (v : Json) :
    (Registry.empty.Mirrors ∧
      ∀ cs : List Converter, cs ⊆ numbers → (cs.foldl Registry.register .empty).Mirrors) ∧
    (((s.transform ((s.after uses).on .unmarshal) id required).2.call .unmarshal true v).map
        Native.toJson).mapError TransformError.told =
      ((s.transform ((s.after others).on .marshal) id required).2.call .marshal true
        (.ofJson v)).mapError TransformError.told := by
  refine ⟨⟨empty_mirrors, fun cs known => ?_⟩, ?_⟩
  · exact foldl_register_mirrors fun c member => numbers_mirror (known member)
  · rw [s.call_after uses, s.call_after others]
    rw [← (build_given built).2] at mirrored
    exact (resultAt_ofJson mirrored (s.key id required) v).mapError_eq

/-- Boxes within boxes, with a width. -/
def boxes : Json :=
  .object [("definitions", .object [("Box", .object [("type", .string "object"),
    ("properties", .object [
      ("width", .object [("type", .string "integer"), ("format", .string "int32")]),
      ("parts", .object [("type", .string "array"),
        ("items", .object [("$ref", .string "#/definitions/Box")])])])])])]

theorem directions_agree_on_boxes :
    let formats := numbers.foldl Registry.register .empty
    let v : Json := .object [("parts", .array [.object [("width", .string "wide")]])]
    ∃ s, build boxes .standard formats = .ok s ∧ formats.Mirrors ∧
      (((s.transform ((s.after [.marshal 0 .null]).on .unmarshal) 0 true).2.call .unmarshal true
          v).map Native.toJson).mapError TransformError.told =
        ((s.transform ((s.after []).on .marshal) 0 true).2.call .marshal true
          (.ofJson v)).mapError TransformError.told := by
  intro formats v
  have mirrored : formats.Mirrors := foldl_register_mirrors fun c member => numbers_mirror member
  have found : (build boxes .standard formats).isOk = true := by decide +kernel
  obtain ⟨s, built⟩ := Except.exists_of_isOk found
  obtain ⟨_, same⟩ := directions_agree built mirrored [.marshal 0 .null] [] 0 true v
  exact ⟨s, built, mirrored, same⟩

end Spec
end ApiPayload
