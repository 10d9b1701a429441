import Mathlib.Data.List.Forall2
import ApiPayload.Proofs.RuleChecks
import ApiPayload.Validation.RuleReader

/-
Reading rules. A schema without a reference has the rules of its keywords and no others, so it finds
nothing wrong with a value if none of its keywords does; and a schema is read to its end.
-/
namespace ApiPayload.Validation

theorem exists_of_forall₂ {α β : Type} {R : α → β → Prop} {xs : List α} {ys : List β}
    (h : List.Forall₂ R xs ys) {x : α} (member : x ∈ xs) : ∃ y ∈ ys, R x y := by
  induction h with
  | nil => cases member
  | cons first _ ih =>
    rcases List.mem_cons.mp member with rfl | member
    · exact ⟨_, List.mem_cons_self, first⟩
    · obtain ⟨y, later, related⟩ := ih member
      exact ⟨y, List.mem_cons_of_mem _ later, related⟩

namespace Reading
variable {α β : Type} {x : Reading α} {f : α → Reading β} {a : α} {b : β}

theorem map_id (x : Reading α) : id <$> x = x := by
  obtain ⟨refs, result⟩ := x
  cases result with
  | error e => rfl
  | ok a => exact congrArg (Reading.mk · _) (List.append_nil refs)

theorem andThen_assoc {γ : Type} (x : Reading α) (f : α → Reading β) (g : β → Reading γ) :
    (x >>= f) >>= g = x >>= fun a => f a >>= g := by
  obtain ⟨refs, result⟩ := x
  cases result with
  | error e => rfl
  | ok a =>
    show andThen (andThen ⟨refs, .ok a⟩ f) g = andThen ⟨refs, .ok a⟩ fun x => andThen (f x) g
    simp only [andThen]
    cases (f a).result <;> simp

instance : LawfulMonad Reading := LawfulMonad.mk' Reading map_id (fun _ _ => rfl) andThen_assoc

theorem result_bind : (x >>= f).result = .ok b ↔ ∃ a, x.result = .ok a ∧ (f a).result = .ok b := by
  obtain ⟨refs, result⟩ := x
  cases result with
  | error e => simp [bind, andThen]
  | ok a => simp [bind, andThen]

theorem result_pure : (pure a : Reading α).result = .ok a := rfl

theorem result_mapM {xs : List α} {ys : List β} :
    (xs.mapM f).result = .ok ys ↔ List.Forall₂ (fun x y => (f x).result = .ok y) xs ys := by
  induction xs generalizing ys with
  | nil => simp [result_pure, eq_comm]
  | cons x rest ih =>
    simp only [List.mapM_cons, result_bind, result_pure, ih]
    cases ys with
    | nil => simp
    | cons y ys => simp

theorem mapM_congr {g : α → Reading β} {xs : List α} (same : ∀ x ∈ xs, f x = g x) :
    xs.mapM f = xs.mapM g := by
  induction xs with
  | nil => rfl
  | cons x rest ih =>
    rw [List.mapM_cons, List.mapM_cons, same x List.mem_cons_self,
      ih fun y member => same y (List.mem_cons_of_mem x member)]

end Reading

section Fragment
variable {ms : List (String × Json)} {key reference : String} {x v : Json} {rule : Rule} {rs : List Rule}
  {table : List (String × Rule)} {n : Nat} {path : Pointer}

theorem ofJson_reference (referring : Entries.get? "$ref" ms = some (.string reference)) :
    Rule.ofJson (.object ms) = ⟨[reference], .ok (.ref reference)⟩ := by
  rw [Rule.ofJson, Json.size, Nat.add_comm, Rule.read]
  dsimp only
  rw [referring]
  rfl

theorem ofJson_direct (direct : Entries.get? "$ref" ms = none) :
    (Rule.ofJson (.object ms)).result = .ok rule ↔ ∃ rs, List.Forall₂ (fun m r =>
      (Rule.readKeyword (Rule.read (Json.sizeMembers ms)) ms m.1 m.2).result = .ok r) ms rs ∧
        rule = .all rs.flatten := by
  rw [Rule.ofJson, Json.size, Nat.add_comm, Rule.read]
  dsimp only
  rw [direct, Reading.result_bind]
  refine exists_congr fun rs => and_congr Reading.result_mapM ?_
  rw [Reading.result_pure, Except.ok.injEq, eq_comm]

theorem gather_check {sub : Mode → Rule → Json → Pointer → Option Violations} {mode : Mode} {ok : Bool}
    {c : Complaint} : gather sub mode (check ok path c) = some [] ↔ ok = true := by
  cases ok <;> cases mode <;> simp [check, gather, Step.run, Mode.stops]

theorem check_ends {sub : Mode → Rule → Json → Pointer → Option Violations} {mode : Mode} {ok : Bool}
    {c : Complaint} : gather sub mode (check ok path c) ≠ none :=
  gather_ends fun _ member => (mem_check.mp member).2.symm ▸ nofun

theorem violations_ref (found : Entries.get? reference table = some rule) :
    violations table (n + 1) .all (.ref reference) v path = violations table n .all rule v path := by
  rw [violations, Rule.demand, found, Option.toList_some, ask, List.map_singleton, judge, gather, Step.run]
  cases violations table n .all rule v path with
  | none => rfl
  | some vs => simp [Mode.stops, gather]

theorem violations_all : violations table (n + 1) .all (.all rs) v path = some [] ↔
    ∀ r ∈ rs, violations table n .all r v path = some [] := by
  rw [violations, Rule.demand, judge, gather_eq_nil, ask, List.forall_mem_map]
  rfl

theorem ends_all : violations table (n + 1) .all (.all rs) v path ≠ none ↔
    ∀ r ∈ rs, violations table n .all r v path ≠ none := by
  constructor
  · intro ends r member
    exact ends_of_gather ends (.ask r v path) (List.mem_map_of_mem member)
  · intro each
    refine gather_ends fun step member => ?_
    obtain ⟨r, listed, rfl⟩ := mem_ask.mp member
    exact each r listed

/-- A keyword of a schema has rules. -/
def Readable (ms : List (String × Json)) (key : String) (x : Json) : Prop :=
  ∃ rules, (Rule.readKeyword (Rule.read (Json.sizeMembers ms)) ms key x).result = .ok rules

/-- A keyword has rules, and none of them finds anything wrong. -/
def Admits (table : List (String × Rule)) (n : Nat) (ms : List (String × Json)) (v : Json) (path : Pointer)
    (key : String) (x : Json) : Prop :=
  ∃ rules, (Rule.readKeyword (Rule.read (Json.sizeMembers ms)) ms key x).result = .ok rules ∧
    ∀ r ∈ rules, violations table n .all r v path = some []

/-- A schema finds nothing wrong if none of its keywords does. -/
theorem violations_direct (direct : Entries.get? "$ref" ms = none)
    (read : (Rule.ofJson (.object ms)).result = .ok rule) :
    violations table (n + 1) .all rule v path = some [] ↔ ∀ m ∈ ms, Admits table n ms v path m.1 m.2 := by
  obtain ⟨rs, each, rfl⟩ := (ofJson_direct direct).mp read
  rw [violations_all]
  unfold Admits
  clear direct read
  generalize Rule.readKeyword (Rule.read (Json.sizeMembers ms)) ms = reader at each
  induction each with
  | nil => simp
  | cons first _ ih =>
    simp only [List.flatten_cons, List.mem_append, or_imp, forall_and, ih, List.forall_mem_cons, first,
      Except.ok.injEq, exists_eq_left']

/-- The rules of a keyword come to an end. -/
def Ends (table : List (String × Rule)) (n : Nat) (ms : List (String × Json)) (v : Json) (path : Pointer)
    (key : String) (x : Json) : Prop :=
  ∀ rules, (Rule.readKeyword (Rule.read (Json.sizeMembers ms)) ms key x).result = .ok rules →
    ∀ r ∈ rules, violations table n .all r v path ≠ none

/-- The check of a schema ends just if the checks of its keywords do. -/
theorem ends_direct (direct : Entries.get? "$ref" ms = none)
    (read : (Rule.ofJson (.object ms)).result = .ok rule) :
    violations table (n + 1) .all rule v path ≠ none ↔ ∀ m ∈ ms, Ends table n ms v path m.1 m.2 := by
  obtain ⟨rs, each, rfl⟩ := (ofJson_direct direct).mp read
  rw [ends_all]
  constructor
  · intro ends m listed rules keyword r given
    obtain ⟨rules', member, keyword'⟩ := exists_of_forall₂ each listed
    obtain rfl := Except.ok.inj (keyword.symm.trans keyword')
    exact ends r (List.mem_flatten.mpr ⟨rules, member, given⟩)
  · intro ends r member
    obtain ⟨rules, listed, given⟩ := List.mem_flatten.mp member
    obtain ⟨m, present, keyword⟩ := exists_of_forall₂ each.flip listed
    exact ends m present rules keyword r given

theorem readable (direct : Entries.get? "$ref" ms = none)
    (read : (Rule.ofJson (.object ms)).result = .ok rule) (listed : (key, x) ∈ ms) : Readable ms key x := by
  obtain ⟨rs, each, _⟩ := (ofJson_direct direct).mp read
  obtain ⟨rules, _, found⟩ := exists_of_forall₂ each listed
  exact ⟨rules, found⟩

theorem admits_enum {values : List Json} :
    Admits table (n + 1) ms v path "enum" (.array values) ↔ ∃ o ∈ values, o.alike v = true := by
  have made : (Rule.readKeyword (Rule.read (Json.sizeMembers ms)) ms "enum" (.array values)).result =
      .ok [.enum values] := rfl
  simp only [Admits, made, Except.ok.injEq, exists_eq_left', List.mem_singleton, forall_eq, violations,
    Rule.demand, judge, gather_check, List.any_eq_true]

end Fragment

/-- Two readers that agree on all that is no larger than a bound. -/
def AgreeTo (n : Nat) (sub sub' : Json → Reading Rule) : Prop := ∀ v : Json, v.size ≤ n → sub v = sub' v

section Enough
variable {sub sub' : Json → Reading Rule} {ms : List (String × Json)} {xs : List Json} {key : String}
  {x : Json}

theorem AgreeTo.items (h : AgreeTo (Json.array xs).size sub sub') : xs.mapM sub = xs.mapM sub' :=
  Reading.mapM_congr fun x member =>
    h x (Nat.le_trans (Json.size_le_of_mem_items member) (Nat.le_add_left _ 1))

theorem AgreeTo.array (h : AgreeTo x.size sub sub') :
    (Reading.array x >>= fun xs => xs.mapM sub) = (Reading.array x >>= fun xs => xs.mapM sub') := by
  cases x with
  | array xs => exact h.items
  | _ => rfl

theorem AgreeTo.member (h : AgreeTo (Json.object ms).size sub sub') (listed : (key, x) ∈ ms) :
    sub x = sub' x :=
  h x (Nat.le_trans (Json.size_le_of_mem_members listed) (Nat.le_add_left _ 1))

theorem AgreeTo.named (h : AgreeTo x.size sub sub') : Rule.readNamed sub x = Rule.readNamed sub' x := by
  cases x with
  | object es =>
    refine Reading.mapM_congr ?_
    rintro ⟨k, y⟩ listed
    dsimp only
    rw [h.member listed]
  | _ => rfl

theorem AgreeTo.patterns (h : AgreeTo x.size sub sub') :
    Rule.readPatterns sub x = Rule.readPatterns sub' x := by
  cases x with
  | object es =>
    refine Reading.mapM_congr ?_
    rintro ⟨k, y⟩ listed
    dsimp only
    rw [h.member listed]
  | _ => rfl

theorem AgreeTo.below (h : AgreeTo (Json.sizeMembers ms) sub sub') (listed : (key, x) ∈ ms) :
    AgreeTo x.size sub sub' :=
  fun v small => h v (Nat.le_trans small (Json.size_le_of_mem_members listed))

/-- What is additional depends on the properties and patterns beside it. -/
theorem AgreeTo.additional (h : AgreeTo (Json.sizeMembers ms) sub sub') (listed : (key, x) ∈ ms) :
    Rule.readAdditional sub ms x = Rule.readAdditional sub' ms x := by
  have known : ∀ v, Entries.get? "properties" ms = some v →
      Rule.readNamed sub v = Rule.readNamed sub' v :=
    fun v found => (h.below (Entries.mem_of_get? found)).named
  have patterns : ∀ v, Entries.get? "patternProperties" ms = some v →
      Rule.readPatterns sub v = Rule.readPatterns sub' v :=
    fun v found => (h.below (Entries.mem_of_get? found)).patterns
  unfold Rule.readAdditional
  rw [h.below listed x (Nat.le_refl _)]
  cases listing : Entries.get? "properties" ms <;> cases matching : Entries.get? "patternProperties" ms <;>
    dsimp only <;> first
    | rfl
    | rw [known _ listing, patterns _ matching]
    | rw [known _ listing]
    | rw [patterns _ matching]

/-- A keyword is read from what stands in its schema. -/
theorem AgreeTo.keyword (h : AgreeTo (Json.sizeMembers ms) sub sub') (listed : (key, x) ∈ ms) :
    Rule.readKeyword sub ms key x = Rule.readKeyword sub' ms key x := by
  have own : AgreeTo x.size sub sub' := h.below listed
  have whole : sub x = sub' x := own x (Nat.le_refl _)
  unfold Rule.readKeyword
  split -- by keyword, in the order of the reader
  case h_15 => -- items
    cases x with
    | array xs => dsimp only; rw [own.items]
    | _ => first | rfl | (dsimp only; rw [whole])
  case h_16 => -- additionalItems
    unfold Rule.readRestItems
    rw [whole]
  case h_18 => rw [own.named]
  case h_19 => rw [own.patterns]
  case h_20 => exact h.additional listed
  case h_21 => -- dependencies
    cases x with
    | object es =>
      simp only [Reading.object, pure_bind]
      congr 1
      refine Reading.mapM_congr ?_
      rintro ⟨k, y⟩ member
      have same := own.member member
      cases y <;> first | rfl | (dsimp only; rw [same])
    | _ => rfl
  case h_22 => rw [← bind_assoc, ← bind_assoc, own.array]
  case h_23 => rw [← bind_assoc, ← bind_assoc, own.array]
  case h_24 => rw [← bind_assoc, ← bind_assoc, own.array]
  case h_25 => rw [whole]
  all_goals rfl

end Enough

/-- More fuel than a schema has parts changes nothing. -/
theorem read_enough {n m : Nat} {v : Json} (enough : v.size ≤ n) (also : v.size ≤ m) :
    Rule.read n v = Rule.read m v := by
  induction n generalizing m v with
  | zero => exact absurd v.size_pos (Nat.not_lt.mpr enough)
  | succ n ih =>
    cases m with
    | zero => exact absurd v.size_pos (Nat.not_lt.mpr also)
    | succ m =>
      cases v with
      | object ms =>
        rw [Json.size, Nat.add_comm] at enough also
        have agree : AgreeTo (Json.sizeMembers ms) (Rule.read n) (Rule.read m) := fun v small =>
          ih (Nat.le_trans small (Nat.le_of_succ_le_succ enough))
            (Nat.le_trans small (Nat.le_of_succ_le_succ also))
        have same : ∀ e ∈ ms, Rule.readKeyword (Rule.read n) ms e.1 e.2 =
            Rule.readKeyword (Rule.read m) ms e.1 e.2 := fun _ listed => agree.keyword listed
        rw [Rule.read, Rule.read]
        dsimp only
        rw [Reading.mapM_congr same]
      | bool b => cases b <;> rfl
      | _ => rfl

end ApiPayload.Validation
