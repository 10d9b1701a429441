import Mathlib.Logic.Relation
import ApiPayload.Proofs.Keys

/-
Native values that JSON has as well. Every JSON value comes back from its native form as it was; a native value
comes back from its wire form just if it has no date, timestamp or model inside, at whatever depth.
-/
namespace ApiPayload.Native

/-- The values that a value is put together from. -/
def parts : Native → List Native
  | list xs => xs
  | map es => es.map (·.2)
  | model _ ps => ps.map (·.2)
  | _ => []

/-- A value, a part of it, a part of a part and so on. -/
def Within (inner outer : Native) : Prop := Relation.ReflTransGen (fun x y => y ∈ x.parts) outer inner

/-- The kinds of values that JSON does not have. -/
def isTyped : Native → Bool
  | date _ | dateTime _ | model _ _ => true
  | _ => false

def Untyped (n : Native) : Prop := ∀ x, Within x n → isTyped x = false

section Parts
variable {n x : Native}

theorem size_part (part : x ∈ n.parts) : x.size < n.size := by
  have inside : ∀ {es : List (String × Native)}, x ∈ es.map (·.2) → x.size < 1 + sizeEntries es := by
    intro es member
    obtain ⟨⟨k, y⟩, listed, rfl⟩ := List.mem_map.mp member
    exact Nat.lt_one_add_iff.mpr (size_le_of_mem_entries listed)
  cases n with
  | list xs => exact Nat.lt_one_add_iff.mpr (size_le_of_mem_items part)
  | map es => exact inside part
  | model name ps => exact inside part
  | _ => cases part

theorem within_iff : x.Within n ↔ x = n ∨ ∃ part ∈ n.parts, x.Within part := by
  rw [Within, Relation.ReflTransGen.cases_head_iff, eq_comm]
  rfl

theorem Within.of_part {part : Native} (listed : part ∈ n.parts) (inside : x.Within part) : x.Within n :=
  within_iff.mpr (.inr ⟨part, listed, inside⟩)

theorem untyped_iff : n.Untyped ↔ n.isTyped = false ∧ ∀ part ∈ n.parts, part.Untyped := by
  constructor
  · intro untyped
    exact ⟨untyped n (within_iff.mpr (.inl rfl)), fun part listed x inside => untyped x (.of_part listed inside)⟩
  · rintro ⟨own, parts⟩ x inside
    rcases within_iff.mp inside with rfl | ⟨part, listed, inside⟩
    · exact own
    · exact parts part listed x inside

/-- What holds of a value just if it is of a kind that JSON has and the same holds of its parts, holds just of
the values without typed ones inside. By induction on the size of the value. -/
theorem untyped_of_step {P allowed : Native → Prop} (passed : ∀ n, allowed n → ∀ part ∈ n.parts, allowed part)
    (step : ∀ n, allowed n → (P n ↔ n.isTyped = false ∧ ∀ part ∈ n.parts, P part)) (start : allowed n) :
    P n ↔ n.Untyped := by
  induction size : n.size using Nat.strongRecOn generalizing n with
  | ind bound ih =>
    subst size
    rw [step n start, untyped_iff]
    exact and_congr_right fun _ => forall₂_congr fun part listed =>
      ih _ (size_part listed) (passed n start part listed) rfl

end Parts

section Structure

theorem map_eq_self_iff {γ : Type} {f : γ → γ} {xs : List γ} : xs.map f = xs ↔ ∀ x ∈ xs, f x = x := by
  have alike := List.map_inj_left (l := xs) (f := f) (g := id)
  rwa [List.map_id] at alike

theorem ofItems_toItems_iff {xs : List Native} :
    ofItems (toItems xs) = xs ↔ ∀ x ∈ xs, ofJson x.toJson = x := by
  rw [ofItems_eq, toItems_eq, List.map_map, map_eq_self_iff]
  rfl

theorem ofMembers_toMembers_iff {es : List (String × Native)} :
    ofMembers (toMembers es) = es ↔ ∀ x ∈ es.map (·.2), ofJson x.toJson = x := by
  rw [ofMembers_eq, toMembers_eq, Entries.mapValues, Entries.mapValues, List.map_map, map_eq_self_iff,
    List.forall_mem_map]
  exact forall₂_congr fun e _ => ⟨congrArg Prod.snd, fun same => congrArg (Prod.mk e.1) same⟩

/-- Only the kinds that JSON has come back as the kinds they are. -/
theorem reread_step (n : Native) :
    ofJson n.toJson = n ↔ n.isTyped = false ∧ ∀ part ∈ n.parts, ofJson part.toJson = part := by
  cases n with
  | list xs =>
    rw [toJson, ofJson, list.injEq, ofItems_toItems_iff]
    exact ⟨fun parts => ⟨rfl, parts⟩, And.right⟩
  | map es =>
    rw [toJson, ofJson, map.injEq, ofMembers_toMembers_iff]
    exact ⟨fun parts => ⟨rfl, parts⟩, And.right⟩
  | date d | dateTime t | model name ps => exact ⟨nofun, nofun⟩
  | null | bool b | number m | string s => exact ⟨fun _ => ⟨rfl, nofun⟩, fun _ => rfl⟩

end Structure

section Equality

/-- Numbers and keys as JSON has them: every number equals itself, and no key is repeated. -/
structure Regular (n : Native) : Prop where
  unique : n.toJson.KeysUnique
  numbers : ∀ m, Within (number m) n → m.same m = true

theorem Regular.part {n x : Native} (regular : n.Regular) (listed : x ∈ n.parts) : x.Regular := by
  refine ⟨?_, fun m inside => regular.numbers m (inside.of_part listed)⟩
  have members : ∀ {es : List (String × Native)}, Json.KeysUniqueMembers (toMembers es) → x ∈ es.map (·.2) →
      x.toJson.KeysUnique := by
    intro es unique member
    obtain ⟨⟨k, y⟩, entry, rfl⟩ := List.mem_map.mp member
    rw [toMembers_eq] at unique
    exact Json.keysUniqueMembers_iff.mp unique (k, y.toJson) (List.mem_map.mpr ⟨(k, y), entry, rfl⟩)
  have whole := regular.unique
  cases n with
  | list xs =>
    rw [toJson, toItems_eq] at whole
    exact Json.keysUniqueItems_iff.mp whole _ (List.mem_map.mpr ⟨x, listed, rfl⟩)
  | map es => exact members whole.2 listed
  | model name ps => exact members whole.2 listed
  | _ => cases listed

theorem sameItems_map {f : Native → Native} {xs : List Native} :
    sameItems (xs.map f) xs = true ↔ ∀ x ∈ xs, same (f x) x = true := by
  induction xs with
  | nil => exact ⟨fun _ => nofun, fun _ => rfl⟩
  | cons x rest ih => rw [List.map_cons, sameItems, Bool.and_eq_true, ih, List.forall_mem_cons]

theorem sameEntries_mapValues {f : Native → Native} {es all : List (String × Native)}
    (found : ∀ e ∈ es, Entries.get? e.1 all = some e.2) :
    sameEntries (Entries.mapValues f es) all = true ↔ ∀ e ∈ es, same (f e.2) e.2 = true := by
  induction es with
  | nil => exact ⟨fun _ => nofun, fun _ => rfl⟩
  | cons e rest ih =>
    obtain ⟨here, later⟩ := List.forall_mem_cons.mp found
    rw [Entries.mapValues, List.map_cons, sameEntries, here, Bool.and_eq_true, List.forall_mem_cons]
    exact and_congr_right fun _ => ih later

theorem same_step (n : Native) (regular : n.Regular) : same (ofJson n.toJson) n = true ↔
    n.isTyped = false ∧ ∀ part ∈ n.parts, same (ofJson part.toJson) part = true := by
  cases n with
  | list xs =>
    rw [toJson, ofJson, same, ofItems_eq, toItems_eq, List.map_map, sameItems_map]
    exact ⟨fun parts => ⟨rfl, parts⟩, And.right⟩
  | map es =>
    have distinct : (Entries.keys es).Nodup := by
      have keys := regular.unique.1
      rwa [toMembers_eq, Entries.keys_mapValues] at keys
    have composed : ofMembers (toMembers es) = Entries.mapValues (fun x => ofJson x.toJson) es := by
      rw [ofMembers_eq, toMembers_eq, Entries.mapValues, Entries.mapValues, List.map_map]
      rfl
    have length : (Entries.mapValues (fun x => ofJson x.toJson) es).length = es.length := List.length_map _
    rw [toJson, ofJson, same, composed, length, decide_eq_true rfl, Bool.true_and,
      sameEntries_mapValues fun e listed => Entries.get?_of_mem distinct listed]
    exact ⟨fun parts => ⟨rfl, List.forall_mem_map.mpr parts⟩, fun parts => List.forall_mem_map.mp parts.2⟩
  | number m => exact iff_of_true (regular.numbers m .refl) ⟨rfl, List.forall_mem_nil _⟩
  | date d | dateTime t | model name ps =>
    exact iff_of_false Bool.false_ne_true fun untyped => Bool.false_ne_true untyped.1.symm
  | null => exact iff_of_true rfl ⟨rfl, List.forall_mem_nil _⟩
  | bool b | string s => exact iff_of_true (decide_eq_true rfl) ⟨rfl, List.forall_mem_nil _⟩

end Equality

/-- Every JSON value is the wire form of its native form, with its members in their order. A native value is the
native form of its wire form just if no date, timestamp or model is in it at any depth. The same is so where values
count as equal whatever the order of their entries, for values whose keys and numbers are as JSON has them. -/
theorem wire_form_exact : (∀ v : Json, (ofJson v).toJson = v) ∧
    (∀ n : Native, ofJson n.toJson = n ↔ n.Untyped) ∧
    ∀ n : Native, n.Regular → (same (ofJson n.toJson) n = true ↔ n.Untyped) := by
  refine ⟨toJson_ofJson, fun n => ?_, fun n regular => ?_⟩
  · have passed : ∀ n : Native, True → ∀ part ∈ n.parts, True := fun _ _ _ _ => trivial
    exact untyped_of_step (P := fun n => ofJson n.toJson = n) passed (fun n _ => reread_step n) trivial
  · exact untyped_of_step (P := fun n => same (ofJson n.toJson) n = true)
      (fun _ regular _ listed => regular.part listed) same_step regular

/-- How many pets there are, and the pets, one of which is an instance of a model. -/
def kennel : Native := list [number (.int 1), list [model "Dog" []]]

theorem wire_form_exact_in_kennel : kennel.Regular ∧ ¬ kennel.Untyped ∧ ofJson kennel.toJson ≠ kennel ∧
    same (ofJson kennel.toJson) kennel = false := by
  obtain ⟨_, exact, alike⟩ := wire_form_exact
  have regular : kennel.Regular := by
    refine ⟨?_, fun m inside => ?_⟩
    · simp [kennel, toJson, toItems, toMembers, Json.KeysUnique, Json.KeysUniqueItems, Json.KeysUniqueMembers,
        Entries.keys]
    · rcases within_iff.mp inside with whole | ⟨part, listed, inside⟩
      · cases whole
      · rcases List.mem_cons.mp listed with rfl | listed
        · rcases within_iff.mp inside with here | ⟨_, none, _⟩
          · cases here
            rfl
          · cases none
        · obtain rfl := List.mem_singleton.mp listed
          rcases within_iff.mp inside with whole | ⟨part, listed, inside⟩
          · cases whole
          · obtain rfl := List.mem_singleton.mp listed
            rcases within_iff.mp inside with whole | ⟨_, none, _⟩
            · cases whole
            · cases none
  have typed : ¬ kennel.Untyped := by
    intro untyped
    have pets : list [model "Dog" []] ∈ kennel.parts := List.mem_cons_of_mem _ List.mem_cons_self
    have dog : Within (model "Dog" []) (list [model "Dog" []]) := .of_part List.mem_cons_self .refl
    cases untyped _ (.of_part pets dog)
  exact ⟨regular, typed, mt (exact kennel).mp typed, Bool.eq_false_iff.mpr (mt (alike kennel regular).mp typed)⟩

end ApiPayload.Native
