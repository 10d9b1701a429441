import Mathlib.Data.List.Nodup
import Mathlib.Data.Set.Insert
import ApiPayload.Proofs.Walks

/-
Post-order as a relation between places and what is listed from them. It has one list for each start,
which shows every place that is reached just once, and walks of limited depth keep to it where the
limit does no harm.
-/
namespace ApiPayload.Schema

section Relation
variable {α β : Type} {next : α → List α → Prop} {seen : Set α} {xs ys out more : List α} {x y : α}

/-- What is listed from some places when others have been seen: each place at its first visit, behind
all that is listed from the places next to it. -/
inductive Postorder (next : α → List α → Prop) : Set α → List α → List α → Prop where
  | nil {seen : Set α} : Postorder next seen [] []
  | again {seen : Set α} {x : α} {xs out : List α} (known : x ∈ seen)
      (rest : Postorder next seen xs out) : Postorder next seen (x :: xs) out
  | first {seen : Set α} {x : α} {xs below out more : List α} (fresh : x ∉ seen)
      (leads : next x below) (under : Postorder next (insert x seen) below out)
      (rest : Postorder next (insert x seen ∪ {y | y ∈ out}) xs more) :
      Postorder next seen (x :: xs) (out ++ x :: more)

namespace Postorder

theorem unique (functional : ∀ x ys zs, next x ys → next x zs → ys = zs)
    (h : Postorder next seen xs out) {other : List α} (also : Postorder next seen xs other) :
    out = other := by
  induction h generalizing other with
  | nil =>
    cases also
    rfl
  | again known _ ih =>
    cases also with
    | again _ rest => exact ih rest
    | first fresh => exact absurd known fresh
  | first fresh leads _ _ ihUnder ihRest =>
    cases also with
    | again known => exact absurd known fresh
    | first _ leads' under' rest' =>
      obtain rfl := functional _ _ _ leads leads'
      obtain rfl := ihUnder under'
      rw [ihRest rest']

theorem append (h : Postorder next seen xs out)
    (later : Postorder next (seen ∪ {y | y ∈ out}) ys more) :
    Postorder next seen (xs ++ ys) (out ++ more) := by
  induction h generalizing more with
  | @nil seen =>
    have same : seen ∪ {y | y ∈ ([] : List α)} = seen := by
      ext y
      simp
    rw [same] at later
    exact later
  | again known _ ih => exact .again known (ih later)
  | @first seen x xs below out rest fresh leads under _ _ ih =>
    have same : seen ∪ {y | y ∈ out ++ x :: rest} =
        insert x seen ∪ {y | y ∈ out} ∪ {y | y ∈ rest} := by
      ext y
      simp only [Set.mem_union, Set.mem_insert_iff, Set.mem_ofPred_eq, List.mem_append, List.mem_cons]
      grind
    rw [same] at later
    rw [List.append_assoc]
    exact .first fresh leads under (ih later)

/-- Nothing is listed twice, nor what has been seen. -/
theorem nodup (h : Postorder next seen xs out) : out.Nodup ∧ ∀ y ∈ out, y ∉ seen := by
  induction h with
  | nil => exact ⟨List.nodup_nil, fun _ member => absurd member List.not_mem_nil⟩
  | again _ _ ih => exact ih
  | @first seen x xs below out more fresh _ _ _ ihUnder ihRest =>
    obtain ⟨distinct, unseen⟩ := ihUnder
    obtain ⟨distinct', unseen'⟩ := ihRest
    have apart : x ∉ more := fun again => unseen' x again (.inl (.inl rfl))
    have others : ∀ y ∈ out, ∀ z ∈ x :: more, y ≠ z := by
      rintro y listed z later rfl
      rcases List.mem_cons.mp later with rfl | later
      · exact unseen y listed (.inl rfl)
      · exact unseen' y later (.inr listed)
    refine ⟨List.nodup_append.mpr ⟨distinct, List.nodup_cons.mpr ⟨apart, distinct'⟩, others⟩, ?_⟩
    intro y listed known
    rcases List.mem_append.mp listed with listed | listed
    · exact unseen y listed (.inr known)
    · rcases List.mem_cons.mp listed with rfl | listed
      · exact fresh known
      · exact unseen' y listed (.inl (.inr known))

theorem covers (h : Postorder next seen xs out) (member : x ∈ xs) : x ∈ seen ∨ x ∈ out := by
  induction h with
  | nil => cases member
  | again known _ ih =>
    rcases List.mem_cons.mp member with rfl | member
    · exact .inl known
    · exact ih member
  | @first seen z xs below out more _ _ _ _ _ ih =>
    rcases List.mem_cons.mp member with rfl | member
    · exact .inr (List.mem_append_right out List.mem_cons_self)
    · rcases ih member with ((rfl | known) | listed) | listed
      · exact .inr (List.mem_append_right out List.mem_cons_self)
      · exact .inl known
      · exact .inr (List.mem_append_left _ listed)
      · exact .inr (List.mem_append_right out (List.mem_cons_of_mem z listed))

/-- What is next to a listed place has been seen or is listed. -/
theorem closed (h : Postorder next seen xs out) (listed : x ∈ out) :
    ∃ below, next x below ∧ ∀ y ∈ below, y ∈ seen ∨ y ∈ out := by
  induction h with
  | nil => cases listed
  | again _ _ ih => exact ih listed
  | @first seen z xs below out more _ leads under _ ihUnder ihRest =>
    have kept : ∀ y, y ∈ insert z seen ∨ y ∈ out → y ∈ seen ∨ y ∈ out ++ z :: more := by
      intro y known
      rcases known with (rfl | known) | known
      · exact .inr (List.mem_append_right out List.mem_cons_self)
      · exact .inl known
      · exact .inr (List.mem_append_left _ known)
    rcases List.mem_append.mp listed with listed | listed
    · obtain ⟨ys, leads, all⟩ := ihUnder listed
      exact ⟨ys, leads, fun y near => kept y (all y near)⟩
    · rcases List.mem_cons.mp listed with rfl | listed
      · exact ⟨below, leads, fun y near => kept y (under.covers near)⟩
      · obtain ⟨ys, leads, all⟩ := ihRest listed
        refine ⟨ys, leads, fun y near => ?_⟩
        rcases all y near with known | later
        · exact kept y known
        · exact .inr (List.mem_append_right out (List.mem_cons_of_mem z later))

theorem reached {r : α → α → Prop} (near : ∀ x below y, next x below → y ∈ below → r x y)
    (h : Postorder next seen xs out) (listed : y ∈ out) : ∃ x ∈ xs, Relation.ReflTransGen r x y := by
  induction h with
  | nil => cases listed
  | @again seen x xs out _ _ ih =>
    obtain ⟨z, member, way⟩ := ih listed
    exact ⟨z, List.mem_cons_of_mem x member, way⟩
  | @first seen x xs below out more _ leads _ _ ihUnder ihRest =>
    rcases List.mem_append.mp listed with listed | listed
    · obtain ⟨z, step, way⟩ := ihUnder listed
      exact ⟨x, List.mem_cons_self, .head (near x below z leads step) way⟩
    · rcases List.mem_cons.mp listed with rfl | listed
      · exact ⟨y, List.mem_cons_self, .refl⟩
      · obtain ⟨z, member, way⟩ := ihRest listed
        exact ⟨z, List.mem_cons_of_mem x member, way⟩

/-- From one place all is listed that it leads to, in any number of steps. -/
theorem mem_iff {r : α → α → Prop} (near : ∀ x below y, next x below → (y ∈ below ↔ r x y))
    (h : Postorder next ∅ [x] out) : y ∈ out ↔ Relation.ReflTransGen r x y := by
  constructor
  · intro listed
    obtain ⟨z, start, way⟩ := h.reached (fun x below y leads => (near x below y leads).mp) listed
    obtain rfl := List.mem_singleton.mp start
    exact way
  · intro way
    induction way with
    | refl => exact (h.covers (List.mem_singleton_self x)).resolve_left (Set.notMem_empty x)
    | @tail y z _ step ih =>
      obtain ⟨below, leads, all⟩ := h.closed ih
      exact (all z ((near y below z leads).mpr step)).resolve_left (Set.notMem_empty z)

/-- A start is listed behind all that it leads to. -/
theorem start_last (h : Postorder next ∅ [x] out) : ∃ before, out = before ++ [x] := by
  cases h with
  | again known => exact absurd known (Set.notMem_empty x)
  | first _ _ _ rest =>
    cases rest
    exact ⟨_, rfl⟩

/-- Post-order under other names, as long as what is met has such names. -/
theorem of_renamed {f : β → α} (injective : Function.Injective f) {next' : β → List β → Prop}
    (steps : ∀ b bs, next (f b) (bs.map f) → next' b bs) (h : Postorder next seen xs out)
    (named : ∀ y, y ∈ seen ∨ y ∈ out → ∃ b, f b = y) : ∃ bs out', xs = bs.map f ∧
      out = out'.map f ∧ Postorder next' {b | f b ∈ seen} bs out' := by
  induction h with
  | nil => exact ⟨[], [], rfl, rfl, .nil⟩
  | @again seen x xs out known rest ih =>
    obtain ⟨b, rfl⟩ := named x (.inl known)
    obtain ⟨bs, out', rfl, rfl, listed⟩ := ih named
    exact ⟨b :: bs, out', rfl, rfl, .again known listed⟩
  | @first seen x xs below out more fresh leads _ _ ihUnder ihRest =>
    obtain ⟨b, rfl⟩ := named x (.inr (List.mem_append_right out List.mem_cons_self))
    have namedUnder : ∀ y, y ∈ insert (f b) seen ∨ y ∈ out → ∃ c, f c = y := by
      rintro y ((rfl | known) | listed)
      · exact ⟨b, rfl⟩
      · exact named y (.inl known)
      · exact named y (.inr (List.mem_append_left _ listed))
    obtain ⟨below', out', rfl, rfl, under⟩ := ihUnder namedUnder
    obtain ⟨bs, more', rfl, rfl, rest⟩ := ihRest fun y known => by
      rcases known with known | listed
      · exact namedUnder y known
      · exact named y (.inr (List.mem_append_right _ (List.mem_cons_of_mem _ listed)))
    have inside : {c | f c ∈ insert (f b) seen} = insert b {c | f c ∈ seen} := by
      ext c
      simp only [Set.mem_ofPred_eq, Set.mem_insert_iff, injective.eq_iff]
    have inside' : {c | f c ∈ insert (f b) seen ∪ {y | y ∈ out'.map f}} =
        insert b {c | f c ∈ seen} ∪ {c | c ∈ out'} := by
      ext c
      simp only [Set.mem_ofPred_eq, Set.mem_union, Set.mem_insert_iff, injective.eq_iff,
        List.mem_map_of_injective injective]
    rw [inside] at under
    rw [inside'] at rest
    refine ⟨b :: bs, out' ++ b :: more', rfl, by simp only [List.map_append, List.map_cons], ?_⟩
    exact .first fresh (steps b below' leads) under rest

end Postorder
end Relation

namespace Walk
variable {α : Type} [DecidableEq α] {next : α → List α} {w w' w'' : Walk α} {x y : α}
  {xs ys : List α} {inside : α → Prop} {rooms : List α}

/-- What a walk adds from some places on is what post-order lists. -/
def Lists (next : α → List α) (w : Walk α) (xs : List α) (w' : Walk α) : Prop :=
  ∃ out, w'.done = w.done ++ out ∧ (∀ y, y ∈ w'.seen ↔ y ∈ w.seen ∨ y ∈ out) ∧
    Postorder (fun x below => next x = below) {y | y ∈ w.seen} xs out

namespace Lists

omit [DecidableEq α]

theorem nil (w : Walk α) : Lists next w [] w :=
  ⟨[], (List.append_nil _).symm, fun y => by simp, .nil⟩

theorem again (known : x ∈ w.seen) : Lists next w [x] w :=
  ⟨[], (List.append_nil _).symm, fun y => by simp, .again known .nil⟩

theorem seen (h : Lists next w xs w') : ∀ y ∈ w.seen, y ∈ w'.seen := by
  obtain ⟨out, _, seen, _⟩ := h
  exact fun y known => (seen y).mpr (.inl known)

theorem append (h : Lists next w xs w') (later : Lists next w' ys w'') :
    Lists next w (xs ++ ys) w'' := by
  obtain ⟨out, done, seen, listed⟩ := h
  obtain ⟨more, done', seen', listed'⟩ := later
  have known : {y | y ∈ w'.seen} = {y | y ∈ w.seen} ∪ {y | y ∈ out} := Set.ext seen
  rw [known] at listed'
  refine ⟨out ++ more, by rw [done', done, List.append_assoc], fun y => ?_, listed.append listed'⟩
  rw [seen', seen, List.mem_append, or_assoc]

theorem first (fresh : x ∉ w.seen) (below : Lists next ⟨x :: w.seen, w.done⟩ (next x) w') :
    Lists next w [x] ⟨w'.seen, w'.done ++ [x]⟩ := by
  obtain ⟨out, done, seen, listed⟩ := below
  have known : {y | y ∈ x :: w.seen} = insert x {y | y ∈ w.seen} := by
    ext y
    simp only [Set.mem_ofPred_eq, Set.mem_insert_iff, List.mem_cons]
  rw [known] at listed
  refine ⟨out ++ [x], by rw [← List.append_assoc]; exact congrArg (· ++ [x]) done, fun y => ?_,
    .first fresh rfl listed .nil⟩
  show y ∈ w'.seen ↔ _
  rw [seen, List.mem_append, List.mem_cons, List.mem_singleton]
  grind

end Lists

theorem visit_lists (confined : Confined next inside rooms) {fuel : Nat} (here : inside x)
    (deep : left rooms w < fuel) : Lists next w [x] (visit next fuel w x) := by
  induction fuel generalizing w x with
  | zero => omega
  | succ fuel ih =>
    rw [visit]
    by_cases known : x ∈ w.seen
    · rw [if_pos known]
      exact .again known
    · rw [if_neg known]
      have each : ∀ ys, (∀ y ∈ ys, y ∈ next x) → ∀ w', (∀ y ∈ x :: w.seen, y ∈ w'.seen) →
          Lists next w' ys (ys.foldl (visit next fuel) w') := by
        intro ys near
        induction ys with
        | nil => exact fun w' _ => .nil w'
        | cons y rest ih' =>
          intro w' more
          have step : y ∈ next x := near y List.mem_cons_self
          have fewer : left rooms w' ≤ left rooms ⟨x :: w.seen, w.done⟩ := left_le more
          have one := left_lt (confined.listed here (List.ne_nil_of_mem step)) known
          have first := ih (confined.stays here step) (w := w') (by omega)
          exact first.append (ih' (fun z member => near z (List.mem_cons_of_mem y member)) _
            fun z member => first.seen z (more z member))
      exact .first known (each (next x) (fun _ near => near) _ fun _ member => member)

/-- A walk from one place lists it in post-order. -/
theorem postorder_lists (confined : Confined next inside rooms) {fuel : Nat} (here : inside x)
    (deep : rooms.length < fuel) :
    Postorder (fun x below => next x = below) ∅ [x] (postorder next fuel x) := by
  have few : left rooms ⟨[], []⟩ ≤ rooms.length := List.countP_le_length
  obtain ⟨out, done, _, listed⟩ := visit_lists (w := ⟨[], []⟩) confined here (by omega : _ < fuel)
  have none : {y | y ∈ ([] : List α)} = ∅ := by
    ext y
    simp
  rw [none] at listed
  rw [postorder, done]
  exact listed

end Walk
end ApiPayload.Schema
