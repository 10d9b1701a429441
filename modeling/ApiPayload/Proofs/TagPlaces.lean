import ApiPayload.Proofs.RootSchemas
import ApiPayload.Proofs.TagChecks

/-
Where the faults of tags are. The path of a fault is read strictly, so that every token of it counts: it leads
to the value that the fault is about, and no two faults are about one object.
-/
namespace ApiPayload

namespace Pointer

/-- The characters that a token stands for; a tilde has to come before a zero or a one. -/
def decode? : List Char → Option (List Char)
  | [] => some []
  | '~' :: '0' :: rest => (decode? rest).map ('~' :: ·)
  | '~' :: '1' :: rest => (decode? rest).map ('/' :: ·)
  | '~' :: _ => none
  | c :: rest => (decode? rest).map (c :: ·)

/-- An index that is written as numbers are, with no sign and no zeros in front. -/
def exactIndex? (token : String) : Option Nat := (indexOf? token).filter fun i => toString i = token

def enterExactly? (token : String) : Json → Option Json
  | .array xs => (exactIndex? token).bind (xs[·]?)
  | .object ms => (decode? token.toList).bind fun key => Entries.get? (String.ofList key) ms
  | _ => none

def follow? : List String → Json → Option Json
  | [], v => some v
  | t :: ts, v => (enterExactly? t v).bind (follow? ts)

/-- The value that a pointer leads to by its text alone, no token passed over. -/
def lookup? (text : String) (v : Json) : Option Json := (ofText? text).bind fun p => follow? p.tokens v

/-- The pointer of what stands at the end of a path below another pointer. -/
def below (p : Pointer) (path : List Branch) : Pointer := ⟨p.tokens ++ path.map Branch.token⟩

section Strict
variable {b : Branch} {path : List Branch} {v x : Json} {p q : Pointer}

theorem decode?_cons {c : Char} (plain : c ≠ '~') (cs : List Char) :
    decode? (c :: cs) = (decode? cs).map (c :: ·) := by
  rw [decode?]
  all_goals
    intros
    exact plain ‹_›

theorem decode?_escape (cs : List Char) : decode? (cs.flatMap escapeChar) = some cs := by
  induction cs with
  | nil => rfl
  | cons c rest ih =>
    rw [List.flatMap_cons, escapeChar]
    split
    · rename_i tilde
      subst tilde
      rw [List.cons_append, List.cons_append, List.nil_append, decode?, ih, Option.map_some]
    · rename_i other
      split
      · rename_i slash
        subst slash
        rw [List.cons_append, List.cons_append, List.nil_append, decode?, ih, Option.map_some]
      · rw [List.singleton_append, decode?_cons other, ih, Option.map_some]

theorem exactIndex?_toString (i : Nat) : exactIndex? (toString i) = some i := by
  have read := indexOf?_toString i
  rw [unescape_toString] at read
  rw [exactIndex?, read, Option.filter_some, if_pos (decide_eq_true rfl)]

theorem toString_injective {i j : Nat} (same : toString i = toString j) : i = j := by
  have read := exactIndex?_toString i
  rw [same, exactIndex?_toString j] at read
  exact (Option.some.inj read).symm

theorem enterExactly?_token (enters : b.enter? v = some x) : enterExactly? b.token v = some x := by
  cases b with
  | member key =>
    cases v with
    | object ms =>
      rw [Branch.token, enterExactly?, escape, String.toList_ofList, decode?_escape, Option.bind_some,
        String.ofList_toList]
      exact enters
    | _ => cases enters
  | item i =>
    cases v with
    | array xs =>
      rw [Branch.token, enterExactly?, exactIndex?_toString, Option.bind_some]
      exact enters
    | _ => cases enters

/-- The spelling of a path leads to what stands at its end. -/
theorem lookup?_spelled (stands : valueAt? path v = some x) : lookup? (spelled path).text v = some x := by
  rw [lookup?, ofText?, ofChars?_text (spelled_plain path), Option.bind_some, spelled]
  dsimp only
  induction path generalizing v with
  | nil => exact stands
  | cons b rest ih =>
    obtain ⟨y, enters, later⟩ := Option.bind_eq_some_iff.mp stands
    rw [List.map_cons, follow?, enterExactly?_token enters, Option.bind_some, ih later]

theorem text_injective (plain : p.Plain) (other : q.Plain) (same : p.text = q.text) : p = q := by
  have read := ofChars?_text plain
  rw [same, ofChars?_text other] at read
  exact (Option.some.inj read).symm

theorem below_nil (p : Pointer) : p.below [] = p := by
  rw [below, List.map_nil, List.append_nil]

theorem item_below (p : Pointer) (i : Nat) (path : List Branch) :
    (p.item i).below path = p.below (.item i :: path) := by
  rw [below, below, item, List.append_assoc]
  rfl

theorem child_below (p : Pointer) (key : String) (path : List Branch) :
    (p.child key).below path = p.below (.member key :: path) := by
  rw [below, below, child, List.append_assoc]
  rfl

/-- Places below a pointer that start with different tokens are different. -/
theorem token_eq_of_below {c : Branch} {other : List Branch}
    (same : p.below (b :: path) = p.below (c :: other)) : b.token = c.token := by
  have tokens := List.append_cancel_left (congrArg Pointer.tokens same)
  exact (List.cons.inj tokens).1

theorem below_ne_self : p.below (b :: path) ≠ p := by
  intro same
  have length := congrArg (fun q : Pointer => q.tokens.length) same
  simp [below] at length

end Strict
end Pointer

namespace Validation

open Schema
open Pointer (Branch valueAt?)

/-- The pointer of the object whose tag is at fault. -/
def TagFault.object (f : TagFault) : Pointer := ⟨f.path.tokens.dropLast⟩

/-- A fault with its place in a value that is checked from `path` on: an object stands there, and the tag by
which a model tells its subtypes apart names none of them. -/
inductive FaultAt (s : Spec) (path : Pointer) (v : Json) : TagFault → List Branch → Prop where
  | intro {place : List Branch} {ms : List (String × Json)} {b : Model} {mark : String} {tag : Json}
      (stands : valueAt? place v = some (.object ms)) (listed : b ∈ s.models)
      (unknown : tagOf s b ms = .unknown mark tag) :
      FaultAt s path v ⟨(path.below place).child mark, tag, b.name⟩ place

variable {s : Spec} {path : Pointer} {v x : Json} {f : TagFault} {place : List Branch}
  {ms : List (String × Json)} {b m : Model} {mark : String} {tag : Json} {id : Id}

theorem FaultAt.object_eq (h : FaultAt s path v f place) : f.object = path.below place := by
  cases h
  exact congrArg Pointer.mk List.dropLast_concat

theorem FaultAt.item {xs : List Json} {i : Nat} (h : FaultAt s (path.item i) x f place)
    (present : xs[i]? = some x) : FaultAt s path (.array xs) f (.item i :: place) := by
  cases h with
  | intro stands listed unknown =>
    rw [Pointer.item_below]
    refine .intro ?_ listed unknown
    rw [valueAt?, Pointer.Branch.enter?, present]
    exact stands

theorem FaultAt.member {key : String} (h : FaultAt s (path.child key) x f place)
    (present : Entries.get? key ms = some x) : FaultAt s path (.object ms) f (.member key :: place) := by
  cases h with
  | intro stands listed unknown =>
    rw [Pointer.child_below]
    refine .intro ?_ listed unknown
    rw [valueAt?, Pointer.Branch.enter?, present]
    exact stands

/-- What tags end at with a fault is a model that cannot make anything of its own tag. -/
theorem settleTag_unknown {fuel : Nat} (listed : b ∈ s.models)
    (settled : settleTag s ms fuel b = some (m, some (mark, tag))) :
    m ∈ s.models ∧ tagOf s m ms = .unknown mark tag := by
  induction fuel generalizing b with
  | zero =>
    unfold settleTag at settled
    split at settled
    · cases settled
    · cases settled
    · rename_i unknown
      cases settled
      exact ⟨listed, unknown⟩
    · cases settled
  | succ fuel ih =>
    unfold settleTag at settled
    split at settled
    · cases settled
    · cases settled
    · rename_i unknown
      cases settled
      exact ⟨listed, unknown⟩
    · rename_i sub tagged
      refine ih ?_ settled
      unfold tagOf at tagged
      split at tagged
      · cases tagged
      · split at tagged
        · cases tagged
        · split at tagged
          · rename_i found
            obtain ⟨named, _⟩ := Option.filter_eq_some_iff.mp found
            obtain ⟨_, _, known⟩ := Option.bind_eq_some_iff.mp named
            split at tagged
            · cases tagged
            · cases tagged
              exact (Spec.of_model? known).1
          · cases tagged

/-- However many models its tags lead through, an object has one fault at most. -/
theorem objectTag_faults (s : Spec) (shape : Shape Id) (ms : List (String × Json)) (path : Pointer) :
    (objectTag s shape ms path).2 = [] ∨ ∃ b mark tag, b ∈ s.models ∧
      tagOf s b ms = .unknown mark tag ∧ (objectTag s shape ms path).2 = [⟨path.child mark, tag, b.name⟩] := by
  unfold objectTag
  cases bound : shape.model.bind s.model? with
  | none => exact .inl rfl
  | some base =>
    dsimp only
    split
    · exact .inl rfl
    · exact .inl rfl
    · rename_i m mark tag settled
      obtain ⟨listed, unknown⟩ := settleTag_unknown (Spec.listed_of_bound bound) settled
      exact .inr ⟨m, mark, tag, listed, unknown, rfl⟩

theorem own_faultAt {shape : Shape Id} (own : f ∈ (objectTag s shape ms path).2) :
    FaultAt s path (.object ms) f [] := by
  rcases objectTag_faults s shape ms path with none | ⟨b, mark, tag, listed, unknown, one⟩
  · rw [none] at own
    cases own
  · rw [one] at own
    obtain rfl := List.mem_singleton.mp own
    have here : FaultAt s path (.object ms) ⟨(path.below []).child mark, tag, b.name⟩ [] :=
      .intro rfl listed unknown
    rwa [Pointer.below_nil] at here

mutual
/-- Every fault has a place in the value that is checked. -/
theorem faultAt_of_mem (s : Spec) (path : Pointer) (id : Id) : ∀ v : Json, v.KeysUnique →
    ∀ f ∈ tagFaults s path id v, ∃ place, FaultAt s path v f place
  | .null, _ | .bool _, _ | .number _, _ | .string _, _ => fun _ none => nomatch none
  | .array xs, unique => by
    intro f member
    unfold tagFaults at member
    split at member
    · obtain ⟨i, x, place, present, fault⟩ := faultAt_of_mem_items s path _ 0 xs unique f member
      rw [Nat.zero_add] at fault
      exact ⟨_, fault.item present⟩
    · cases member
  | .object ms, unique => by
    intro f member
    unfold tagFaults at member
    split at member
    · rcases List.mem_append.mp member with own | later
      · exact ⟨[], own_faultAt own⟩
      · obtain ⟨key, x, place, listed, fault⟩ := faultAt_of_mem_members s path _ ms unique.2 f later
        exact ⟨_, fault.member (Entries.get?_of_mem unique.1 listed)⟩
    · cases member

theorem faultAt_of_mem_items (s : Spec) (path : Pointer) (items : Id) (first : Nat) :
    ∀ xs : List Json, Json.KeysUniqueItems xs → ∀ f ∈ tagFaultsItems s path items first xs,
      ∃ i x place, xs[i]? = some x ∧ FaultAt s (path.item (first + i)) x f place
  | [], _ => fun _ none => nomatch none
  | x :: xs, unique => by
    intro f member
    rcases List.mem_append.mp member with here | later
    · obtain ⟨place, fault⟩ := faultAt_of_mem s (path.item first) items x unique.1 f here
      exact ⟨0, x, place, rfl, fault⟩
    · obtain ⟨i, y, place, present, fault⟩ :=
        faultAt_of_mem_items s path items (first + 1) xs unique.2 f later
      rw [Nat.add_assoc, Nat.add_comm 1] at fault
      exact ⟨i + 1, y, place, present, fault⟩

theorem faultAt_of_mem_members (s : Spec) (path : Pointer) (properties : List (String × Id)) :
    ∀ ms : List (String × Json), Json.KeysUniqueMembers ms →
      ∀ f ∈ tagFaultsMembers s path properties ms,
        ∃ key x place, (key, x) ∈ ms ∧ FaultAt s (path.child key) x f place
  | [], _ => fun _ none => nomatch none
  | (key, x) :: ms, unique => by
    intro f member
    rcases List.mem_append.mp member with here | later
    · split at here
      · rename_i id _
        obtain ⟨place, fault⟩ := faultAt_of_mem s (path.child key) id x unique.1 f here
        exact ⟨key, x, place, List.mem_cons_self, fault⟩
      · cases here
    · obtain ⟨other, y, place, listed, fault⟩ :=
        faultAt_of_mem_members s path properties ms unique.2 f later
      exact ⟨other, y, place, List.mem_cons_of_mem _ listed, fault⟩
end

/-- Faults about different objects. -/
def Apart (f g : TagFault) : Prop := f.object ≠ g.object

theorem own_apart (s : Spec) (shape : Shape Id) (ms : List (String × Json)) (path : Pointer) :
    (objectTag s shape ms path).2.Pairwise Apart := by
  rcases objectTag_faults s shape ms path with none | ⟨b, mark, tag, _, _, one⟩
  · rw [none]
    exact .nil
  · rw [one]
    exact List.pairwise_singleton _ _

mutual
/-- No two faults are about one object. -/
theorem faults_apart (s : Spec) (path : Pointer) (id : Id) : ∀ v : Json, v.KeysUnique →
    (tagFaults s path id v).Pairwise Apart
  | .null, _ | .bool _, _ | .number _, _ | .string _, _ => .nil
  | .array xs, unique => by
    unfold tagFaults
    split
    · exact faults_apart_items s path _ 0 xs unique
    · exact .nil
  | .object ms, unique => by
    unfold tagFaults
    split
    · rename_i shape _
      refine List.pairwise_append.mpr ⟨own_apart s shape ms path,
        faults_apart_members s path _ ms unique.1 unique.2, ?_⟩
      intro f own g later same
      obtain ⟨key, x, place, _, fault⟩ := faultAt_of_mem_members s path _ ms unique.2 g later
      rw [(own_faultAt own).object_eq, fault.object_eq, Pointer.child_below, Pointer.below_nil] at same
      exact Pointer.below_ne_self same.symm
    · exact .nil

theorem faults_apart_items (s : Spec) (path : Pointer) (items : Id) (first : Nat) :
    ∀ xs : List Json, Json.KeysUniqueItems xs → (tagFaultsItems s path items first xs).Pairwise Apart
  | [], _ => .nil
  | x :: xs, unique => by
    refine List.pairwise_append.mpr ⟨faults_apart s _ items x unique.1,
      faults_apart_items s path items (first + 1) xs unique.2, ?_⟩
    intro f here g later same
    obtain ⟨place, fault⟩ := faultAt_of_mem s (path.item first) items x unique.1 f here
    obtain ⟨i, y, place', _, fault'⟩ :=
      faultAt_of_mem_items s path items (first + 1) xs unique.2 g later
    rw [fault.object_eq, fault'.object_eq, Pointer.item_below, Pointer.item_below] at same
    have index : first = first + 1 + i := Pointer.toString_injective (Pointer.token_eq_of_below same)
    omega

theorem faults_apart_members (s : Spec) (path : Pointer) (properties : List (String × Id)) :
    ∀ ms : List (String × Json), (Entries.keys ms).Nodup → Json.KeysUniqueMembers ms →
      (tagFaultsMembers s path properties ms).Pairwise Apart
  | [], _, _ => .nil
  | (key, x) :: ms, distinct, unique => by
    obtain ⟨fresh, distinct⟩ := List.nodup_cons.mp distinct
    refine List.pairwise_append.mpr ⟨?_, faults_apart_members s path properties ms distinct unique.2, ?_⟩
    · split
      · exact faults_apart s _ _ x unique.1
      · exact .nil
    · intro f here g later same
      split at here
      · rename_i id _
        obtain ⟨place, fault⟩ := faultAt_of_mem s (path.child key) id x unique.1 f here
        obtain ⟨other, y, place', listed, fault'⟩ :=
          faultAt_of_mem_members s path properties ms unique.2 g later
        rw [fault.object_eq, fault'.object_eq, Pointer.child_below, Pointer.child_below] at same
        obtain rfl := Pointer.escape_injective (Pointer.token_eq_of_below same)
        exact fresh (List.mem_map.mpr ⟨_, listed, rfl⟩)
      · cases here
end

end Validation

namespace Spec

open Schema Validation
open Pointer (Branch valueAt? spelled lookup?)

variable {document : Json} {options : Options} {formats : Format.Registry} {s : Spec}
  {naming : Naming} {order : List Pointer} {b : Model} {ms : List (String × Json)} {mark : String}
  {tag : Json} {id : Id} {path : Pointer} {v : Json} {u : Visit} {f : TagFault}

/-- An unknown tag is the value of its model's mark, and no text that names the model or one below it. -/
theorem ReadAs.of_unknown (h : s.ReadAs document naming order) (listed : b ∈ s.models)
    (unknown : tagOf s b ms = .unknown mark tag) :
    b.shape.discriminator = some mark ∧ Entries.get? mark ms = some tag ∧ tag ≠ .string b.name ∧
      ∀ m ∈ s.models, b.name ∈ m.ancestors → tag ≠ .string m.name := by
  have stray : (s.modelPlan b).stray? ms = some (mark, tag) := by rw [h.stray_tag listed, unknown]
  obtain ⟨found, marked, strayed⟩ := Option.bind_eq_some_iff.mp stray
  obtain ⟨value, present, strayed⟩ := Option.bind_eq_some_iff.mp strayed
  split at strayed
  · cases strayed
  · rename_i strange
    cases strayed
    have names := h.knows_name listed
    refine ⟨marked, present, ?_, fun m member heir => ?_⟩
    · rintro rfl
      exact strange (by simp [Json.string?, modelPlan])
    · rintro rfl
      refine strange ?_
      have marked : b.shape.discriminator = some mark := marked
      have kind : (s.model? m.name).any (Model.isA · b.name) = true := by
        rw [h.model?_of_mem member, Option.any_some, Model.isA_of_ancestor heir]
      rw [← names] at kind
      simpa [Json.string?, modelPlan, marked] using kind

theorem object_of_stray (stray : s.stray? u = some f) : f.object = u.path := by
  unfold Spec.stray? at stray
  split at stray
  · obtain ⟨⟨mark, tag⟩, _, rfl⟩ := Option.map_eq_some_iff.mp stray
    exact congrArg Pointer.mk List.dropLast_concat
  · cases stray

/-- Pets and dogs are told apart by marks of their own, which need escapes; pets have pups. -/
def litter : Json := .object [("definitions", .object [
  ("Pet", .object [("type", .string "object"), ("discriminator", .string "a/b"),
    ("properties", .object [("a/b", .object [("type", .string "string")]),
      ("pups~", .object [("type", .string "array"),
        ("items", .object [("$ref", .string "#/definitions/Pet")])])])]),
  ("Dog", .object [("discriminator", .string "~"),
    ("allOf", .array [.object [("$ref", .string "#/definitions/Pet")]])])])]

/-- A dog of a kind that nobody knows, with a pup whose tag is no text. -/
def stray : Json := .object [("a/b", .string "Dog"), ("~", .string "Hound"),
  ("pups~", .array [.object [], .object [("a/b", .bool true)]])]

end Spec
end ApiPayload
