import ApiPayload.Proofs.Coverage
import ApiPayload.Schema.Arena

/-
Assembling an arena does what numbering does. Slots are reserved in the order of the numbers, and a
slot that is reserved while other fragments are read has its node by the time its request is answered.
-/
namespace ApiPayload.Schema

open Spec

section Aliases
variable {document : Json} {source p q : Pointer} {seen : List Pointer}

/-- Each place of a chain of aliases refers to a place of the chain or to its end. -/
def Chained (document : Json) (ends : Pointer → Prop) (seen : List Pointer) : Prop :=
  ∀ x ∈ seen, ∃ reference y, (x.find? document).bind (Json.member? "$ref") = some reference ∧
    target x reference = .ok y ∧ (y ∈ seen ∨ ends y)

theorem unalias_circle (chained : Chained document (fun _ => False) seen) (inside : p ∈ seen)
    (fuel : Nat) : unalias document source fuel p = .error (.invalidSchema source .circularAlias) := by
  induction fuel generalizing p with
  | zero => rfl
  | succ fuel ih =>
    obtain ⟨reference, y, referring, aimed, again | none⟩ := chained p inside
    · rw [unalias]
      simp only [referring, aimed]
      exact ih again
    · exact none.elim

/-- Remembering the places of a chain finds a circle where a long enough walk does not end. -/
theorem follow_eq_unalias {fuel fuel' : Nat} (named : p ∈ referenced document)
    (chained : Chained document (· = p) seen)
    (few : Walk.left (referenced document) ⟨seen, []⟩ < fuel)
    (few' : Walk.left (referenced document) ⟨seen, []⟩ < fuel') :
    follow document source fuel seen p = unalias document source fuel' p := by
  induction fuel generalizing fuel' p seen with
  | zero => omega
  | succ fuel ih =>
    obtain ⟨fuel', rfl⟩ := Nat.exists_eq_succ_of_ne_zero (Nat.ne_of_gt (Nat.zero_lt_of_lt few'))
    rw [follow, unalias]
    cases referring : (p.find? document).bind (Json.member? "$ref") with
    | none => rfl
    | some reference =>
      dsimp only
      by_cases again : p ∈ seen
      · rw [if_pos again]
        have closed : Chained document (fun _ => False) seen := by
          intro x member
          obtain ⟨reference, y, refers, aimed, inside⟩ := chained x member
          refine ⟨reference, y, refers, aimed, .inl ?_⟩
          rcases inside with inside | rfl
          · exact inside
          · exact again
        have round : unalias document source (fuel' + 1) p =
            .error (.invalidSchema source .circularAlias) := unalias_circle closed again _
        rw [unalias, referring] at round
        exact round.symm
      · rw [if_neg again]
        cases aimed : target p reference with
        | error e => rfl
        | ok next =>
          obtain ⟨v, found, refers⟩ := Option.bind_eq_some_iff.mp referring
          have fewer : Walk.left (referenced document) ⟨p :: seen, []⟩ <
              Walk.left (referenced document) ⟨seen, []⟩ :=
            Walk.left_lt (w := ⟨seen, []⟩) named again
          refine ih (target_referenced aimed (reference_within found refers)) ?_ (by omega) (by omega)
          intro x member
          rcases List.mem_cons.mp member with rfl | member
          · exact ⟨reference, next, referring, aimed, .inr rfl⟩
          · obtain ⟨reference, y, refers, aimed, inside⟩ := chained x member
            refine ⟨reference, y, refers, aimed, .inl ?_⟩
            rcases inside with inside | rfl
            · exact List.mem_cons_of_mem _ inside
            · exact List.mem_cons_self

theorem partAt_eq {limit i : Nat} {part : Json} (deep : placeLimit document ≤ limit)
    (present : (allOf (membersAt document p))[i]? = some part) :
    partPlace document p i part = partAt document limit p i part >>= fun place =>
      match place.find? document with
      | some (.object _) => .ok place
      | _ => .error (.unresolvable p place.label) := by
  unfold partPlace partAt
  cases referring : part.member? "$ref" with
  | none => rfl
  | some reference =>
    dsimp only
    cases aimed : target p reference with
    | error e => rfl
    | ok aim =>
      have named := target_referenced aimed (reference_within (find?_part present) referring)
      have few : Walk.left (referenced document) ⟨[], []⟩ ≤ (referenced document).length :=
        List.countP_le_length
      have size := length_referenced document
      have room : document.size + 1 ≤ placeLimit document :=
        Nat.le_trans (Nat.le_mul_of_pos_left _ (by omega)) (Nat.le_of_eq rfl)
      have same : follow document p limit [] aim = unalias document p (aliasLimit document) aim := by
        refine follow_eq_unalias named (fun _ none => nomatch none) (by omega) ?_
        rw [aliasLimit]
        omega
      exact congrArg (fun found : Except SpecError Pointer => found >>= fun place =>
        match place.find? document with
        | some (.object _) => Except.ok place
        | _ => .error (SpecError.unresolvable p place.label)) same.symm

end Aliases

section Steps
variable {α β : Type} {document : Json} {naming : Naming} {order order' : List Pointer} {p : Pointer}
  {a a' : Arena} {e : SpecError}

theorem Builder.bind_ok {x : Builder α} {v : α} (done : x a = .ok v a') (f : α → Builder β) :
    (x >>= f) a = f v a' := by
  show EStateM.bind x f a = _
  rw [EStateM.bind, done]

theorem Builder.modify_bind (g : Arena → Arena) (f : Unit → Builder β) (a : Arena) :
    (modify g >>= f) a = f () (g a) := rfl

theorem Builder.bind_error {x : Builder α} (failed : x a = .error e a') (f : α → Builder β) :
    (x >>= f) a = .error e a' := by
  show EStateM.bind x f a = _
  rw [EStateM.bind, failed]

/-- The places of a list have their numbers in the order of the list. -/
structure Arena.Numbers (a : Arena) (order : List Pointer) : Prop where
  length : a.slots.length = order.length
  table : ∀ p, Entries.get? p a.table = if p ∈ order then some (order.idxOf p) else none

theorem empty_numbers : Arena.empty.Numbers [] := ⟨rfl, fun _ => rfl⟩

theorem Arena.Numbers.note (h : a.Numbers order) (event : Event) : (a.note event).Numbers order :=
  ⟨h.length, h.table⟩

theorem Arena.Numbers.fill (h : a.Numbers order) (id : Id) (n : Node) :
    (a.fill id n).Numbers order := by
  refine ⟨?_, h.table⟩
  rw [Arena.fill, List.length_set]
  exact h.length

theorem Arena.Numbers.reserve (h : a.Numbers order) (p : Pointer) :
    (a.reserve p).Numbers (order ++ [p]) := by
  refine ⟨by simp [Arena.reserve, h.length], fun q => ?_⟩
  rw [Arena.reserve, Entries.get?_append, h.table, List.idxOf_append]
  by_cases known : q ∈ order
  · simp [known]
  · by_cases same : p = q
    · subst same
      simp [known, Entries.get?, h.length]
    · simp [known, Entries.get?, same, Ne.symm same]

/-- Every place that has got a number since has got its node. -/
def Filled (document : Json) (naming : Naming) (order : List Pointer) (a : Arena)
    (order' : List Pointer) (a' : Arena) : Prop :=
  ∃ new, order' = order ++ new ∧ (∀ p ∈ new, Provided document order' p) ∧
    a'.slots = a.slots ++ new.map fun p => some (nodeAt document naming order' p)

theorem Filled.same (slots : a'.slots = a.slots) : Filled document naming order a order a' :=
  ⟨[], (List.append_nil order).symm, fun _ none => (nomatch none),
    slots.trans (List.append_nil a.slots).symm⟩

theorem Filled.trans {order'' : List Pointer} {a'' : Arena}
    (first : Filled document naming order a order' a')
    (later : Filled document naming order' a' order'' a'') :
    Filled document naming order a order'' a'' := by
  obtain ⟨new, rfl, provided, slots⟩ := first
  obtain ⟨more, rfl, provided', slots'⟩ := later
  refine ⟨new ++ more, List.append_assoc .., fun p member => ?_, ?_⟩
  · rcases List.mem_append.mp member with member | member
    · exact (provided p member).mono fun q => List.mem_append_left _
    · exact provided' p member
  · have same : ∀ p ∈ new, some (nodeAt document naming (order ++ new ++ more) p) =
        some (nodeAt document naming (order ++ new) p) := by
      intro p member
      rw [nodeAt_append (provided p member)]
    rw [slots', slots, List.map_append, List.append_assoc, List.map_congr_left same]

theorem Filled.kept (h : Filled document naming order a order' a') (known : p ∈ order) :
    p ∈ order' ∧ order'.idxOf p = order.idxOf p := by
  obtain ⟨new, rfl, _⟩ := h
  exact ⟨List.mem_append_left _ known, by rw [List.idxOf_append, if_pos known]⟩

/-- Building ends as numbering does: in the same fault, or with all that was numbered filled. -/
inductive Ends (document : Json) (naming : Naming) (order : List Pointer) (a : Arena)
    (holds : List Pointer → α → Prop) :
    EStateM.Result SpecError Arena α → Except SpecError (List Pointer) → Prop where
  | ok {v : α} {a' : Arena} {order' : List Pointer} (numbers : a'.Numbers order')
      (filled : Filled document naming order a order' a') (here : holds order' v) :
      Ends document naming order a holds (.ok v a') (.ok order')
  | error {e : SpecError} {a' : Arena} : Ends document naming order a holds (.error e a') (.error e)

theorem Ends.bind {holds : List Pointer → α → Prop} {holds' : List Pointer → β → Prop}
    {x : Builder α} {f : α → Builder β} {n : Except SpecError (List Pointer)}
    {k : List Pointer → Except SpecError (List Pointer)}
    (h : Ends document naming order a holds (x a) n)
    (rest : ∀ v a' order', a'.Numbers order' → Filled document naming order a order' a' →
      holds order' v → Ends document naming order' a' holds' (f v a') (k order')) :
    Ends document naming order a holds' ((x >>= f) a) (n >>= k) := by
  generalize same : x a = r at h
  cases h with
  | error =>
    rw [Builder.bind_error same]
    exact .error
  | ok numbers filled here =>
    rw [Builder.bind_ok same]
    have later := rest _ _ _ numbers filled here
    generalize f _ _ = r' at later ⊢
    show Ends document naming order a holds' r' (k _)
    generalize k _ = n' at later ⊢
    cases later with
    | error => exact .error
    | ok numbers' filled' here' => exact .ok numbers' (filled.trans filled') here'

theorem Ends.error_bind {holds : List Pointer → β → Prop} {x : Builder α} {f : α → Builder β}
    (failed : x a = .error e a') (k : List Pointer → Except SpecError (List Pointer)) :
    Ends document naming order a holds ((x >>= f) a) (.error e >>= k) := by
  rw [Builder.bind_error failed]
  exact .error

theorem Ends.start {holds : List Pointer → α → Prop} {r : EStateM.Result SpecError Arena α}
    {n : Except SpecError (List Pointer)} (h : Ends document naming order a' holds r n)
    (slots : a'.slots = a.slots) : Ends document naming order a holds r n := by
  cases h with
  | error => exact .error
  | ok numbers filled here => exact .ok numbers ((Filled.same slots).trans filled) here

theorem Ends.eq_error {holds : List Pointer → α → Prop} {n : Except SpecError (List Pointer)}
    (h : Ends document naming order a holds (.error e a') n) : n = .error e := by
  cases h
  rfl

theorem Ends.eq_ok {holds : List Pointer → α → Prop} {n : Except SpecError (List Pointer)} {v : α}
    (h : Ends document naming order a holds (.ok v a') n) : ∃ order', n = .ok order' ∧
      a'.Numbers order' ∧ Filled document naming order a order' a' ∧ holds order' v := by
  cases h with
  | ok numbers filled here => exact ⟨_, rfl, numbers, filled, here⟩

theorem Ends.imp {holds holds' : List Pointer → α → Prop} {r : EStateM.Result SpecError Arena α}
    {n : Except SpecError (List Pointer)} (h : Ends document naming order a holds r n)
    (weaker : ∀ order' v, n = .ok order' → holds order' v → holds' order' v) :
    Ends document naming order a holds' r n := by
  cases h with
  | error => exact .error
  | ok numbers filled here => exact .ok numbers filled (weaker _ _ rfl here)

theorem Ends.map {holds : List Pointer → α → Prop} {Q : List Pointer → β → Prop} {x : Builder α}
    {n : Except SpecError (List Pointer)} (h : Ends document naming order a holds (x a) n) (g : α → β)
    (weaker : ∀ order' v, n = .ok order' → holds order' v → Q order' (g v)) :
    Ends document naming order a Q ((x >>= fun v => pure (g v)) a) n := by
  generalize same : x a = r at h
  cases h with
  | error =>
    rw [Builder.bind_error same]
    exact .error
  | ok numbers filled here =>
    rw [Builder.bind_ok same]
    exact .ok numbers filled (weaker _ _ rfl here)

end Steps

end ApiPayload.Schema
