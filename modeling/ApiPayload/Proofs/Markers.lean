import ApiPayload.Cli.Run
import ApiPayload.Proofs.Inversion
import ApiPayload.Proofs.Printing
import ApiPayload.Proofs.Unnaming

/-
Values as they are shown. A model is shown as an object with its name among its members, so a value that was
shown and is read again has the names of its models as members.
-/
namespace ApiPayload

namespace Entries

section Inserted
variable {κ : Type u} {α : Type v} {β : Type w} [DecidableEq κ]

/-- Entries that are inserted one after the other come before those that were there. -/
theorem get?_foldl_insert {es : List (κ × α)} (distinct : (keys es).Nodup) (acc : List (κ × α)) (key : κ) :
    get? key (es.foldl (fun acc e => insert e.1 e.2 acc) acc) = (get? key es).or (get? key acc) := by
  induction es generalizing acc with
  | nil => rfl
  | cons e rest ih =>
    obtain ⟨other, a⟩ := e
    obtain ⟨fresh, distinct⟩ := List.nodup_cons.mp distinct
    rw [List.foldl_cons, ih distinct, get?_insert, get?]
    by_cases same : other = key
    · subst same
      rw [if_pos rfl, if_pos rfl, (get?_eq_none_iff other rest).mpr fresh, Option.none_or, Option.some_or]
    · rw [if_neg same, if_neg same]

variable {r : κ × α → κ × β → Prop} (named : ∀ e f, r e f → e.1 = f.1)
include named

theorem forall₂_insert {es : List (κ × α)} {fs : List (κ × β)} (each : List.Forall₂ r es fs) {key : κ} {a : α}
    {b : β} (one : r (key, a) (key, b)) : List.Forall₂ r (insert key a es) (insert key b fs) := by
  induction each with
  | nil => exact .cons one .nil
  | @cons e f es fs here rest ih =>
    obtain ⟨k, x⟩ := e
    obtain ⟨l, y⟩ := f
    obtain rfl : k = l := named _ _ here
    by_cases same : k = key
    · subst same
      simp only [insert, if_true]
      exact .cons one rest
    · simp only [insert, same, if_false]
      exact .cons here ih

theorem forall₂_foldl_insert {es acc : List (κ × α)} {fs acc' : List (κ × β)} (each : List.Forall₂ r es fs)
    (before : List.Forall₂ r acc acc') : List.Forall₂ r (es.foldl (fun acc e => insert e.1 e.2 acc) acc)
      (fs.foldl (fun acc e => insert e.1 e.2 acc) acc') := by
  induction each generalizing acc acc' with
  | nil => exact before
  | @cons e f es fs here _ ih =>
    obtain ⟨k, x⟩ := e
    obtain ⟨l, y⟩ := f
    obtain rfl : k = l := named _ _ here
    exact ih (forall₂_insert named before here)

end Inserted
end Entries

namespace Cli

def marker : String := "x-model"

/-- The members that a value is shown with: a model adds its name, unless a member takes its place. -/
def titled : Option String → List (String × Json) → List (String × Json)
  | none, ms => ms
  | some name, ms => ms.foldl (fun acc e => Entries.insert e.1 e.2 acc) [(marker, .string name)]

mutual
/-- What is written for a value that was shown and read again: the names of its models are written too. -/
def marked : Native → Json → Json
  | .list xs, .array ys => .array (markedItems xs ys)
  | .map es, .object ms => .object (markedEntries es ms)
  | .model name ps, .object ms => .object (titled (some name) (markedEntries ps ms))
  | _, w => w

def markedItems : List Native → List Json → List Json
  | x :: xs, y :: ys => marked x y :: markedItems xs ys
  | _, ys => ys

def markedEntries : List (String × Native) → List (String × Json) → List (String × Json)
  | (_, x) :: es, (key, y) :: ms => (key, marked x y) :: markedEntries es ms
  | _, ms => ms
end

/-- A value that was shown, read again. -/
def reread (n : Native) : Native := .ofJson (rendered n)

section Titled
variable {typed : Option String} {ms : List (String × Json)} {key : String}

theorem get?_titled (distinct : (Entries.keys ms).Nodup) (other : typed = none ∨ key ≠ marker) :
    Entries.get? key (titled typed ms) = Entries.get? key ms := by
  cases typed with
  | none => rfl
  | some name =>
    have different : marker ≠ key := (other.resolve_left nofun).symm
    rw [titled, Entries.get?_foldl_insert distinct, Entries.get?, if_neg different, Entries.get?, Option.or_none]

theorem mem_keys_titled (distinct : (Entries.keys ms).Nodup) (given : key ∈ Entries.keys ms) :
    key ∈ Entries.keys (titled typed ms) := by
  cases typed with
  | none => exact given
  | some name =>
    rw [← Entries.contains_iff, Entries.contains] at given ⊢
    rw [titled, Entries.get?_foldl_insert distinct, Option.isSome_or, given, Bool.true_or]

theorem keysUnique_foldl_insert {acc : List (String × Json)} (each : ∀ m ∈ ms, m.2.KeysUnique)
    (whole : (Json.object acc).KeysUnique) :
    (Json.object (ms.foldl (fun acc e => Entries.insert e.1 e.2 acc) acc)).KeysUnique := by
  induction ms generalizing acc with
  | nil => exact whole
  | cons m ms ih =>
    exact ih (fun m member => each m (List.mem_cons_of_mem _ member))
      (whole.insert (each m List.mem_cons_self) m.1)

theorem keysUnique_titled (unique : (Json.object ms).KeysUnique) : (Json.object (titled typed ms)).KeysUnique := by
  cases typed with
  | none => exact unique
  | some name =>
    have first : (Json.object [(marker, .string name)]).KeysUnique := by
      simp [Json.KeysUnique, Json.KeysUniqueMembers, Entries.keys]
    exact keysUnique_foldl_insert (Json.keysUniqueMembers_iff.mp unique.2) first

end Titled

theorem rendered_object (typed : Option String) (fields : List (String × Native)) :
    rendered (Direction.unmarshal.object typed fields) = .object (titled typed (renderedEntries fields)) := by
  cases typed <;> rfl

theorem marked_object (typed : Option String) (fields : List (String × Native)) (ms : List (String × Json)) :
    marked (Direction.unmarshal.object typed fields) (.object ms) =
      .object (titled typed (markedEntries fields ms)) := by
  cases typed <;> rfl

theorem renderedItems_eq (xs : List Native) : renderedItems xs = xs.map rendered := by
  induction xs with
  | nil => rfl
  | cons x rest ih => rw [renderedItems, ih, List.map_cons]

theorem renderedEntries_eq (es : List (String × Native)) : renderedEntries es = Entries.mapValues rendered es := by
  induction es with
  | nil => rfl
  | cons e rest ih => rw [renderedEntries, ih, Entries.mapValues, Entries.mapValues, List.map_cons]

mutual
/-- Without models a value is shown as it is written. -/
theorem rendered_of_no_model : (n : Native) → n.holdsModel = false → rendered n = n.toJson
  | .null, _ | .bool _, _ | .number _, _ | .string _, _ | .date _, _ | .dateTime _, _ => rfl
  | .list xs, free => congrArg Json.array (renderedItems_of_no_model xs free)
  | .map es, free => congrArg Json.object (renderedEntries_of_no_model es free)
  | .model _ _, free => nomatch free

theorem renderedItems_of_no_model :
    (xs : List Native) → Native.itemsHoldModel xs = false → renderedItems xs = Native.toItems xs
  | [], _ => rfl
  | x :: xs, free => by
    obtain ⟨first, rest⟩ := Bool.or_eq_false_iff.mp free
    rw [renderedItems, rendered_of_no_model x first, renderedItems_of_no_model xs rest, Native.toItems]

theorem renderedEntries_of_no_model :
    (es : List (String × Native)) → Native.entriesHoldModel es = false →
      renderedEntries es = Native.toMembers es
  | [], _ => rfl
  | (key, x) :: es, free => by
    obtain ⟨first, rest⟩ := Bool.or_eq_false_iff.mp free
    rw [renderedEntries, rendered_of_no_model x first, renderedEntries_of_no_model es rest, Native.toMembers]
end

mutual
/-- Without models there are no names to write. -/
theorem marked_of_no_model : (n : Native) → (w : Json) → n.holdsModel = false → marked n w = w
  | .null, _, _ | .bool _, _, _ | .number _, _, _ | .string _, _, _ | .date _, _, _ | .dateTime _, _, _ => rfl
  | .list xs, .array ys, free => congrArg Json.array (markedItems_of_no_model xs ys free)
  | .map es, .object ms, free => congrArg Json.object (markedEntries_of_no_model es ms free)
  | .list _, .null, _ | .list _, .bool _, _ | .list _, .number _, _ | .list _, .string _, _
  | .list _, .object _, _ | .map _, .null, _ | .map _, .bool _, _ | .map _, .number _, _
  | .map _, .string _, _ | .map _, .array _, _ => rfl
  | .model _ _, _, free => nomatch free

theorem markedItems_of_no_model :
    (xs : List Native) → (ys : List Json) → Native.itemsHoldModel xs = false → markedItems xs ys = ys
  | [], _, _ | _ :: _, [], _ => rfl
  | x :: xs, y :: ys, free => by
    obtain ⟨first, rest⟩ := Bool.or_eq_false_iff.mp free
    rw [markedItems, marked_of_no_model x y first, markedItems_of_no_model xs ys rest]

theorem markedEntries_of_no_model :
    (es : List (String × Native)) → (ms : List (String × Json)) → Native.entriesHoldModel es = false →
      markedEntries es ms = ms
  | [], _, _ | _ :: _, [], _ => rfl
  | (_, x) :: es, (key, y) :: ms, free => by
    obtain ⟨first, rest⟩ := Bool.or_eq_false_iff.mp free
    rw [markedEntries, marked_of_no_model x y first, markedEntries_of_no_model es ms rest]
end

theorem ofJson_holds_no_model (v : Json) : (Native.ofJson v).holdsModel = false := by
  rw [← Native.unnamed_ofJson]
  exact Native.unnamed_holds_no_model _

@[simp] theorem rendered_ofJson (v : Json) : rendered (.ofJson v) = v := by
  rw [rendered_of_no_model _ (ofJson_holds_no_model v), Native.toJson_ofJson]

@[simp] theorem marked_ofJson (v w : Json) : marked (.ofJson v) w = w :=
  marked_of_no_model _ w (ofJson_holds_no_model v)

@[simp] theorem reread_ofJson (v : Json) : reread (.ofJson v) = .ofJson v := by
  rw [reread, rendered_ofJson]

theorem string?_rendered_ofJson (v : Json) : (rendered (.ofJson v)).string? = (Native.ofJson v).string? := by
  rw [rendered_ofJson, Native.string?_ofJson]

theorem isNull_reread (n : Native) : (reread n).isNull = n.isNull := by
  cases n <;> rfl

theorem string?_reread (n : Native) : (reread n).string? = (rendered n).string? :=
  Native.string?_ofJson _

theorem entries?_reread (typed : Option String) (fields : List (String × Native)) :
    (reread (Direction.unmarshal.object typed fields)).entries? =
      some (Entries.mapValues Native.ofJson (titled typed (Entries.mapValues rendered fields))) := by
  rw [reread, Native.entries?_ofJson, rendered_object, renderedEntries_eq]
  rfl

theorem keys_markedEntries (es : List (String × Native)) (ms : List (String × Json)) :
    Entries.keys (markedEntries es ms) = Entries.keys ms := by
  induction es generalizing ms with
  | nil => rfl
  | cons e es ih =>
    cases ms with
    | nil => rfl
    | cons m ms => exact congrArg (m.1 :: ·) (ih ms)

theorem reread_single {n : Native} (none : n.entries? = none) : (reread n).entries? = Option.none := by
  cases n with
  | map es => cases none
  | model name ps => cases none
  | _ => rfl

theorem reread_list (xs : List Native) : reread (.list xs) = .list (xs.map reread) := by
  rw [reread, rendered, renderedItems_eq, Native.ofJson, Native.ofItems_eq, List.map_map]
  rfl

end Cli
end ApiPayload
