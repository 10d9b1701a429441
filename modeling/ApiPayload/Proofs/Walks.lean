import Mathlib.Logic.Relation
import ApiPayload.Schema.Walk

/-
Depth-first walks list what can be reached, in spite of places that lead back to one another. The
limit on their depth does no harm where few enough places lead on.
-/
namespace ApiPayload.Schema.Walk

section Growth
variable {α : Type} {next : α → List α} {w w' : Walk α} {x y : α}

def Reaches (next : α → List α) : α → α → Prop := Relation.ReflTransGen fun x y => y ∈ next x

/-- What a walk has added by the time it returns: places seen anew are done, and whatever is next
to a place that was done meanwhile has been seen. -/
structure Grown (next : α → List α) (w w' : Walk α) : Prop where
  seen : ∀ x ∈ w.seen, x ∈ w'.seen
  done : ∀ x ∈ w.done, x ∈ w'.done
  finished : ∀ x ∈ w'.seen, x ∈ w.seen ∨ x ∈ w'.done
  closed : ∀ x ∈ w'.done, x ∈ w.done ∨ x ∉ w.seen ∧ x ∈ w'.seen ∧ ∀ y ∈ next x, y ∈ w'.seen

theorem Grown.refl (next : α → List α) (w : Walk α) : Grown next w w :=
  ⟨fun _ h => h, fun _ h => h, fun _ h => .inl h, fun _ h => .inl h⟩

theorem Grown.trans {w'' : Walk α} (first : Grown next w w') (later : Grown next w' w'') :
    Grown next w w'' := by
  refine ⟨fun x h => later.seen x (first.seen x h), fun x h => later.done x (first.done x h), ?_, ?_⟩
  · intro x h
    rcases later.finished x h with h | h
    · rcases first.finished x h with h | h
      · exact .inl h
      · exact .inr (later.done x h)
    · exact .inr h
  · intro x h
    rcases later.closed x h with h | ⟨fresh, seen, below⟩
    · rcases first.closed x h with h | ⟨fresh, seen, below⟩
      · exact .inl h
      · exact .inr ⟨fresh, later.seen x seen, fun y near => later.seen y (below y near)⟩
    · exact .inr ⟨fun h => fresh (first.seen x h), seen, below⟩

/-- A place is listed once all that follows from it has been walked. -/
theorem Grown.list (fresh : x ∉ w.seen) (below : Grown next ⟨x :: w.seen, w.done⟩ w')
    (near : ∀ y ∈ next x, y ∈ w'.seen) : Grown next w ⟨w'.seen, w'.done ++ [x]⟩ := by
  refine ⟨fun y h => below.seen y (List.mem_cons_of_mem x h),
    fun y h => List.mem_append_left _ (below.done y h), ?_, ?_⟩
  · intro y h
    rcases below.finished y h with h | h
    · rcases List.mem_cons.mp h with rfl | h
      · exact .inr (List.mem_append_right _ (List.mem_singleton_self y))
      · exact .inl h
    · exact .inr (List.mem_append_left _ h)
  · intro y h
    rcases List.mem_append.mp h with h | h
    · rcases below.closed y h with h | ⟨other, seen, rest⟩
      · exact .inl h
      · exact .inr ⟨fun h => other (List.mem_cons_of_mem x h), seen, rest⟩
    · obtain rfl := List.mem_singleton.mp h
      exact .inr ⟨fresh, below.seen y List.mem_cons_self, near⟩

theorem foldl_grown {f : Walk α → α → Walk α} {xs : List α}
    (each : ∀ x ∈ xs, ∀ w', Grown next w w' → Grown next w' (f w' x) ∧ x ∈ (f w' x).seen) :
    Grown next w (xs.foldl f w) ∧ ∀ x ∈ xs, x ∈ (xs.foldl f w).seen := by
  induction xs generalizing w with
  | nil => exact ⟨.refl next w, fun x h => nomatch h⟩
  | cons x rest ih =>
    obtain ⟨first, here⟩ := each x List.mem_cons_self w (.refl next w)
    obtain ⟨later, others⟩ := ih (w := f w x) fun y member w' grown =>
      each y (List.mem_cons_of_mem x member) w' (first.trans grown)
    refine ⟨first.trans later, fun y member => ?_⟩
    rcases List.mem_cons.mp member with rfl | member
    · exact later.seen y here
    · exact others y member

theorem foldl_done {f : Walk α → α → Walk α} {r : α → α → Prop}
    (each : ∀ w x, y ∈ (f w x).done → y ∈ w.done ∨ r x y) {xs : List α}
    (h : y ∈ (xs.foldl f w).done) : y ∈ w.done ∨ ∃ x ∈ xs, r x y := by
  induction xs generalizing w with
  | nil => exact .inl h
  | cons x rest ih =>
    rcases ih h with h | ⟨z, member, found⟩
    · rcases each w x h with h | found
      · exact .inl h
      · exact .inr ⟨x, List.mem_cons_self, found⟩
    · exact .inr ⟨z, List.mem_cons_of_mem x member, found⟩

/-- Places that walks do not leave, with a list of those among them that lead on. -/
structure Confined (next : α → List α) (inside : α → Prop) (rooms : List α) : Prop where
  stays : ∀ {x y}, inside x → y ∈ next x → inside y
  listed : ∀ {x}, inside x → next x ≠ [] → x ∈ rooms

end Growth

section Depth
variable {α : Type} [DecidableEq α] {next : α → List α} {w w' : Walk α} {x y : α}
  {inside : α → Prop} {rooms : List α}

/-- The rooms not seen so far. -/
def left (rooms : List α) (w : Walk α) : Nat := rooms.countP (· ∉ w.seen)

theorem left_cons (x : α) (rooms : List α) (w : Walk α) :
    left (x :: rooms) w = left rooms w + if x ∈ w.seen then 0 else 1 := by
  by_cases seen : x ∈ w.seen <;> simp [left, seen]

theorem left_le (more : ∀ x ∈ w.seen, x ∈ w'.seen) : left rooms w' ≤ left rooms w := by
  refine List.countP_mono_left fun x _ unseen => ?_
  rw [decide_eq_true_eq] at unseen ⊢
  exact fun seen => unseen (more x seen)

theorem left_lt (listed : x ∈ rooms) (fresh : x ∉ w.seen) :
    left rooms ⟨x :: w.seen, w.done⟩ < left rooms w := by
  induction rooms with
  | nil => cases listed
  | cons y rest ih =>
    rw [left_cons, left_cons]
    by_cases same : y = x
    · subst same
      have fewer : left rest ⟨y :: w.seen, w.done⟩ ≤ left rest w :=
        left_le fun z seen => List.mem_cons_of_mem y seen
      rw [if_pos List.mem_cons_self, if_neg fresh]
      omega
    · have later := ih (List.mem_of_ne_of_mem (Ne.symm same) listed)
      simp only [List.mem_cons, same, false_or]
      omega

theorem visit_grown (confined : Confined next inside rooms) {fuel : Nat} (here : inside x)
    (deep : left rooms w < fuel) :
    Grown next w (visit next fuel w x) ∧ x ∈ (visit next fuel w x).seen := by
  induction fuel generalizing w x with
  | zero => omega
  | succ fuel ih =>
    rw [visit]
    by_cases known : x ∈ w.seen
    · rw [if_pos known]
      exact ⟨.refl next w, known⟩
    · rw [if_neg known]
      have each : ∀ y ∈ next x, ∀ w', Grown next ⟨x :: w.seen, w.done⟩ w' →
          Grown next w' (visit next fuel w' y) ∧ y ∈ (visit next fuel w' y).seen := by
        intro y near w' grown
        have fewer : left rooms w' ≤ left rooms ⟨x :: w.seen, w.done⟩ := left_le grown.seen
        have one := left_lt (confined.listed here (List.ne_nil_of_mem near)) known
        exact ih (confined.stays here near) (by omega)
      obtain ⟨below, near⟩ := foldl_grown each
      exact ⟨below.list known near, below.seen x List.mem_cons_self⟩

/-- A walk lists nothing but what it reaches, however deep it may go. -/
theorem visit_done {fuel : Nat} (h : y ∈ (visit next fuel w x).done) :
    y ∈ w.done ∨ Reaches next x y := by
  induction fuel generalizing w x with
  | zero => exact .inl h
  | succ fuel ih =>
    rw [visit] at h
    split at h
    · exact .inl h
    · rcases List.mem_append.mp h with h | h
      · rcases foldl_done (r := Reaches next) (fun w z => ih) h with h | ⟨z, near, reached⟩
        · exact .inl h
        · exact .inr (.head near reached)
      · obtain rfl := List.mem_singleton.mp h
        exact .inr .refl

theorem reaches_of_mem_postorder {fuel : Nat} (h : y ∈ postorder next fuel x) : Reaches next x y := by
  rcases visit_done h with h | h
  · cases h
  · exact h

theorem mem_postorder (confined : Confined next inside rooms) {fuel : Nat} (here : inside x)
    (deep : rooms.length < fuel) : y ∈ postorder next fuel x ↔ Reaches next x y := by
  refine ⟨reaches_of_mem_postorder, fun reached => ?_⟩
  have few : left rooms ⟨[], []⟩ ≤ rooms.length := List.countP_le_length
  have room : left rooms ⟨[], []⟩ < fuel := by omega
  obtain ⟨grown, start⟩ := visit_grown confined here room
  have listed : ∀ z ∈ (visit next fuel ⟨[], []⟩ x).seen, z ∈ postorder next fuel x := by
    intro z seen
    rcases grown.finished z seen with h | h
    · cases h
    · exact h
  induction reached with
  | refl => exact listed x start
  | tail _ near ih =>
    rcases grown.closed _ ih with h | ⟨_, _, below⟩
    · cases h
    · exact listed _ (below _ near)

/-- A walk from all places next to a start that must not be entered again lists what is reached
from there in one step or more, apart from the start. -/
theorem mem_visitAll (confined : Confined next inside rooms) {fuel : Nat} (here : inside x)
    (deep : rooms.length < fuel) : y ∈ (visitAll next fuel ⟨[x], []⟩ (next x)).done ↔
      y ≠ x ∧ Relation.TransGen (fun a b => b ∈ next a) x y := by
  have each : ∀ z ∈ next x, ∀ w', Grown next ⟨[x], []⟩ w' →
      Grown next w' (visit next fuel w' z) ∧ z ∈ (visit next fuel w' z).seen := by
    intro z near w' _
    have few : left rooms w' ≤ rooms.length := List.countP_le_length
    exact visit_grown confined (confined.stays here near) (by omega)
  obtain ⟨grown, start⟩ := foldl_grown each
  constructor
  · intro h
    rcases grown.closed y h with h' | ⟨fresh, _, _⟩
    · cases h'
    · refine ⟨fun same => fresh (List.mem_singleton.mpr same), ?_⟩
      have listed : y ∈ ((next x).foldl (visit next fuel) ⟨[x], []⟩).done := h
      rcases foldl_done (r := Reaches next) (fun w z => visit_done) listed with
        h | ⟨z, near, reached⟩
      · cases h
      · exact .head' near reached
  · rintro ⟨other, reached⟩
    have seen : y ∈ (visitAll next fuel ⟨[x], []⟩ (next x)).seen := by
      clear other
      induction reached with
      | single near => exact start _ near
      | @tail b c _ near ih =>
        -- where the way comes back to the start, its first step may be forgotten
        by_cases round : b = x
        · subst round
          exact start c near
        · rcases grown.finished b ih with h | h
          · exact absurd (List.mem_singleton.mp h) round
          · rcases grown.closed b h with h | ⟨_, _, below⟩
            · cases h
            · exact below c near
    rcases grown.finished y seen with h | h
    · exact absurd (List.mem_singleton.mp h) other
    · exact h

end Depth
end ApiPayload.Schema.Walk
