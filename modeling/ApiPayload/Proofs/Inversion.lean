import ApiPayload.Proofs.Results

/-
What a result says of the run behind it: how a plan took the value apart and what became of each
part.
-/
namespace ApiPayload

variable {α β link : Type}

theorem right_of_forall₂ {r : α → β → Prop} {xs : List α} {ys : List β} (h : List.Forall₂ r xs ys)
    {x : α} (member : x ∈ xs) : ∃ y ∈ ys, r x y := by
  induction h with
  | nil => cases member
  | @cons a b as bs here rest ih =>
    rcases List.mem_cons.mp member with rfl | later
    · exact ⟨b, List.mem_cons_self, here⟩
    · obtain ⟨y, listed, related⟩ := ih later
      exact ⟨y, List.mem_cons_of_mem b listed, related⟩

theorem left_of_forall₂ {r : α → β → Prop} {xs : List α} {ys : List β} (h : List.Forall₂ r xs ys)
    {y : β} (member : y ∈ ys) : ∃ x ∈ xs, r x y :=
  right_of_forall₂ h.flip member

/-- Entries that are related one by one are found alike. -/
theorem Entries.get?_forall₂ {κ : Type u} [DecidableEq κ] {α : Type v} {β : Type w}
    {r : κ × α → κ × β → Prop} {es : List (κ × α)} {fs : List (κ × β)} (h : List.Forall₂ r es fs)
    (same : ∀ e f, r e f → e.1 = f.1) (key : κ) :
    (get? key es = none ∧ get? key fs = none) ∨
      ∃ a b, get? key es = some a ∧ get? key fs = some b ∧ r (key, a) (key, b) := by
  induction h with
  | nil => exact .inl ⟨rfl, rfl⟩
  | @cons e f es fs here rest ih =>
    obtain ⟨k, a⟩ := e
    obtain ⟨l, b⟩ := f
    obtain rfl : k = l := same _ _ here
    by_cases found : k = key
    · subst found
      exact .inr ⟨a, b, by simp [get?], by simp [get?], here⟩
    · simpa only [get?, found, if_false] using ih

namespace Plan

variable {d : Direction α β} {sub : link → α → Except TransformError β} {p : Plan link} {v : α}
  {w : β}

/-- What an entry becomes: the result at its property, or itself where no property is declared. -/
inductive Becomes (d : Direction α β) (sub : link → α → Except TransformError β)
    (o : ObjectPlan link) : String × α → String × β → Prop where
  | declared {name : String} {x : α} {y : β} {l : link}
      (property : Entries.get? name o.properties = some l) (result : sub l x = .ok y) :
      Becomes d sub o (name, x) (name, y)
  | undeclared {name : String} {x : α} (none : Entries.get? name o.properties = none) :
      Becomes d sub o (name, x) (name, d.pass x)

theorem Becomes.name_eq {o : ObjectPlan link} {e : String × α} {f : String × β}
    (h : Becomes d sub o e f) : e.1 = f.1 := by
  cases h <;> rfl

theorem names_of_becomes {o : ObjectPlan link} {es : List (String × α)} {fields : List (String × β)}
    (h : List.Forall₂ (Becomes d sub o) es fields) : Entries.keys es = Entries.keys fields := by
  induction h with
  | nil => rfl
  | cons here _ ih =>
    rw [Entries.keys, Entries.keys, List.map_cons, List.map_cons, here.name_eq]
    exact congrArg _ ih

theorem field_eq_ok {o : ObjectPlan link} {e : String × α} {f : String × β} :
    field d sub o e = .ok f ↔ Becomes d sub o e f := by
  obtain ⟨name, x⟩ := e
  constructor
  · intro found
    unfold field at found
    split at found
    · rename_i l property
      obtain ⟨y, result, done⟩ := Except.bind_eq_ok.mp found
      cases done
      exact .declared property result
    · rename_i none
      cases found
      exact .undeclared none
  · intro becomes
    cases becomes with
    | declared property result =>
      simp only [field, property, result]
      rfl
    | undeclared none =>
      simp only [field, none]
      rfl

theorem apply_list_eq_ok {schema : String} {item : link} {xs : List α}
    (core : p.core = .list schema item) (list : d.list? v = some xs) : p.apply d sub v = .ok w ↔
      ∃ ys, List.Forall₂ (fun x y => sub item x = .ok y) xs ys ∧ w = d.list ys := by
  rw [apply_list core list]
  constructor
  · intro found
    obtain ⟨ys, items, done⟩ := Except.bind_eq_ok.mp found
    cases done
    exact ⟨ys, Except.mapM_eq_ok.mp items, rfl⟩
  · rintro ⟨ys, items, rfl⟩
    rw [Except.mapM_eq_ok.mpr items]
    rfl

theorem apply_object_eq_ok {o : ObjectPlan link} {es : List (String × α)}
    (core : p.core = .object o) (entries : d.entries? v = some es) : p.apply d sub v = .ok w ↔
      ∃ fields, List.Forall₂ (Becomes d sub o) es fields ∧
        w = d.object o.typed (fields ++ missing d o fields) := by
  rw [apply_object core entries]
  constructor
  · intro found
    obtain ⟨fields, became, done⟩ := Except.bind_eq_ok.mp found
    cases done
    exact ⟨fields, (Except.mapM_eq_ok.mp became).imp fun _ _ => field_eq_ok.mp, rfl⟩
  · rintro ⟨fields, becomes, rfl⟩
    rw [Except.mapM_eq_ok.mpr (becomes.imp fun _ _ => field_eq_ok.mpr)]
    rfl

/-- How a plan takes a value apart when nothing fails. -/
inductive Takes (d : Direction α β) (sub : link → α → Except TransformError β) (p : Plan link)
    (v : α) : β → Prop where
  | pass (core : p.core = .pass) : Takes d sub p v (d.pass v)
  | convert {c : Format.Converter} {w : β} (core : p.core = .convert c)
      (converted : d.convert c v = .ok w) : Takes d sub p v w
  | list {schema : String} {item : link} {xs : List α} {ys : List β}
      (core : p.core = .list schema item) (list : d.list? v = some xs)
      (items : List.Forall₂ (fun x y => sub item x = .ok y) xs ys) : Takes d sub p v (d.list ys)
  | object {o : ObjectPlan link} {es : List (String × α)} {fields : List (String × β)}
      (core : p.core = .object o) (entries : d.entries? v = some es)
      (becomes : List.Forall₂ (Becomes d sub o) es fields) :
      Takes d sub p v (d.object o.typed (fields ++ missing d o fields))

theorem apply_eq_ok : p.apply d sub v = .ok w ↔ Takes d sub p v w := by
  constructor
  · intro found
    cases core : p.core with
    | pass =>
      simp only [apply, core] at found
      cases found
      exact .pass core
    | unknownType type =>
      simp only [apply, core] at found
      cases found
    | unknownModel model =>
      simp only [apply, core] at found
      cases found
    | convert c =>
      simp only [apply, core] at found
      split at found
      · rename_i w' converted
        cases found
        exact .convert core converted
      · cases found
    | list schema item =>
      cases list : d.list? v with
      | none =>
        simp only [apply, core, list] at found
        cases found
      | some xs =>
        obtain ⟨ys, items, rfl⟩ := (apply_list_eq_ok core list).mp found
        exact .list core list items
    | object o =>
      cases entries : d.entries? v with
      | none =>
        simp only [apply, core, entries] at found
        cases found
      | some es =>
        obtain ⟨fields, becomes, rfl⟩ := (apply_object_eq_ok core entries).mp found
        exact .object core entries becomes
  · intro takes
    cases takes with
    | pass core =>
      simp only [apply, core]
      rfl
    | convert core converted =>
      simp only [apply, core, converted]
      rfl
    | list core list items => exact (apply_list_eq_ok core list).mpr ⟨_, items, rfl⟩
    | object core entries becomes => exact (apply_object_eq_ok core entries).mpr ⟨_, becomes, rfl⟩

theorem apply_list_ok_iff {schema : String} {item : link} {xs : List α}
    (core : p.core = .list schema item) (list : d.list? v = some xs) :
    (∃ w, p.apply d sub v = .ok w) ↔ ∀ x ∈ xs, ∃ y, sub item x = .ok y := by
  constructor
  · rintro ⟨w, found⟩ x member
    obtain ⟨ys, items, _⟩ := (apply_list_eq_ok core list).mp found
    obtain ⟨y, _, result⟩ := right_of_forall₂ items member
    exact ⟨y, result⟩
  · intro parts
    obtain ⟨ys, items⟩ := Except.mapM_ok_of_forall parts
    exact ⟨_, (apply_list_eq_ok core list).mpr ⟨ys, Except.mapM_eq_ok.mp items, rfl⟩⟩

theorem apply_object_ok_iff {o : ObjectPlan link} {es : List (String × α)}
    (core : p.core = .object o) (entries : d.entries? v = some es) :
    (∃ w, p.apply d sub v = .ok w) ↔
      ∀ name x, (name, x) ∈ es → ∀ l, Entries.get? name o.properties = some l → ∃ y, sub l x = .ok y := by
  constructor
  · rintro ⟨w, found⟩ name x member l property
    obtain ⟨fields, becomes, _⟩ := (apply_object_eq_ok core entries).mp found
    obtain ⟨f, _, became⟩ := right_of_forall₂ becomes member
    cases became with
    | declared found result =>
      obtain rfl := Option.some.inj (property.symm.trans found)
      exact ⟨_, result⟩
    | undeclared none =>
      rw [none] at property
      cases property
  · intro parts
    have became : ∀ e ∈ es, ∃ f, field d sub o e = .ok f := by
      rintro ⟨name, x⟩ member
      cases property : Entries.get? name o.properties with
      | none => exact ⟨_, field_eq_ok.mpr (.undeclared property)⟩
      | some l =>
        obtain ⟨y, result⟩ := parts name x member l property
        exact ⟨_, field_eq_ok.mpr (.declared property result)⟩
    obtain ⟨fields, found⟩ := Except.mapM_ok_of_forall became
    have becomes := (Except.mapM_eq_ok.mp found).imp fun _ _ => field_eq_ok.mp
    exact ⟨_, (apply_object_eq_ok core entries).mpr ⟨fields, becomes, rfl⟩⟩

theorem mem_missing {o : ObjectPlan link} {fields : List (String × β)} {name : String} {y : β} :
    (name, y) ∈ missing d o fields ↔ o.includeMissing = true ∧ name ∈ Entries.keys o.properties ∧
      name ∉ Entries.keys fields ∧
      y = ((Entries.get? name o.defaults).map d.ofDefault).getD d.null := by
  unfold missing
  split
  · rename_i fills
    simp only [List.mem_filterMap, fills, true_and]
    constructor
    · rintro ⟨e, declared, made⟩
      split at made
      · cases made
      · rename_i absent
        cases made
        rw [Entries.contains_iff] at absent
        exact ⟨List.mem_map_of_mem declared, absent, rfl⟩
    · rintro ⟨declared, absent, rfl⟩
      obtain ⟨e, member, rfl⟩ := List.mem_map.mp declared
      refine ⟨e, member, ?_⟩
      rw [if_neg fun found => absent (Entries.contains_iff.mp found)]
  · rename_i none
    simp [none]

theorem filler_ofJson (o : ObjectPlan link) (name : String) :
    ((Entries.get? name o.defaults).map Direction.unmarshal.ofDefault).getD Direction.unmarshal.null =
      Native.ofJson ((Entries.get? name o.defaults).getD .null) := by
  cases Entries.get? name o.defaults <;> rfl

end Plan

namespace Spec

variable {s : Spec} {d : Direction α β} {v : α} {k last : Key} {n : Nat} {w : β}

/-- A result is what the rule for null says, or a plan where tags let the value stay gave it. -/
theorem WellFormed.resultAt_ok (formed : s.WellFormed) (found : s.resultAt d k v = .ok w) :
    (∃ j, d.isNull v = true ∧ (s.plan k).onNull = some (.default j) ∧ w = d.ofDefault j) ∨
    (d.isNull v = true ∧ (s.plan k).onNull = some .keep ∧ w = d.null) ∨
    (d.isNull v = true → (s.plan k).onNull = none) ∧ ∃ n last, s.Settles d v n k last ∧
      Plan.Takes d (s.resultAt d) (s.plan last) v w := by
  obtain ⟨n, last, settles⟩ := settles_of_ok found
  rw [formed.resultAt_settled settles] at found
  cases null : d.isNull v with
  | false =>
    rw [Plan.guard_not_null null] at found
    exact .inr (.inr ⟨fun other => (nomatch other), n, last, settles, Plan.apply_eq_ok.mp found⟩)
  | true =>
    simp only [Plan.guard, null, if_true] at found
    split at found
    · rename_i j rule
      cases found
      exact .inl ⟨j, rfl, rule, rfl⟩
    · cases found
    · rename_i rule
      cases found
      exact .inr (.inl ⟨rfl, rule, rfl⟩)
    · rename_i unruled
      exact .inr (.inr ⟨fun _ => unruled, n, last, settles, Plan.apply_eq_ok.mp found⟩)

theorem resultAt_keep (null : d.isNull v = true) (rule : (s.plan k).onNull = some .keep) :
    s.resultAt d k v = .ok d.null := by
  rw [resultAt_eq]
  simp only [Plan.guard, null, if_true, rule]
  rfl

theorem resultAt_default {j : Json} (null : d.isNull v = true)
    (rule : (s.plan k).onNull = some (.default j)) : s.resultAt d k v = .ok (d.ofDefault j) := by
  rw [resultAt_eq]
  simp only [Plan.guard, null, if_true, rule]
  rfl

theorem WellFormed.resultAt_apply (formed : s.WellFormed)
    (unruled : d.isNull v = true → (s.plan k).onNull = none) (settles : s.Settles d v n k last) :
    s.resultAt d k v = (s.plan last).apply d (s.resultAt d) v := by
  rw [formed.resultAt_settled settles]
  cases null : d.isNull v with
  | false => rw [Plan.guard_not_null null]
  | true => simp only [Plan.guard, null, if_true, unruled null]

theorem WellFormed.resultAt_not_null (formed : s.WellFormed) (notNull : d.isNull v = false)
    (settles : s.Settles d v n k last) :
    s.resultAt d k v = (s.plan last).apply d (s.resultAt d) v := by
  refine formed.resultAt_apply (fun null => ?_) settles
  rw [notNull] at null
  cases null

end Spec
end ApiPayload
