import ApiPayload.Proofs.Ancestry

/-
Lineage. Ancestors looked for name by name: the names still to look at grow by the parents of each new
ancestor, and the start is passed over whenever it comes up again. The search ends after no more turns than
there are parents in the table, with just the names that parents lead to.
-/
namespace ApiPayload.Spec

/-- The names to look at, the next one first, and the ancestors found so far. -/
structure Search where
  pending : List String
  found : NameSet

namespace Search
variable {parents : Parents} {name parent : String} {w : Search}

def start (parents : Parents) (name : String) : Search := ⟨(above parents name).reverse, .empty⟩

/-- One turn. The next name is always the one that was put down last. -/
def turn (parents : Parents) (name : String) : Search → Search
  | ⟨[], found⟩ => ⟨[], found⟩
  | ⟨parent :: rest, found⟩ =>
    if parent = name ∨ parent ∈ found then ⟨rest, found⟩
    else ⟨(above parents parent).reverse ++ rest, found.insert parent⟩

def after (parents : Parents) (name : String) : Nat → Search
  | 0 => start parents name
  | turns + 1 => turn parents name (after parents name turns)

section Ending

/-- The parents in the table, without those of some names. -/
def listed (parents : Parents) (seen : List String) : Nat :=
  ((parents.filter (·.1 ∉ seen)).map (·.2.length)).sum

theorem listed_cons (e : String × List String) (parents : Parents) (seen : List String) :
    listed (e :: parents) seen = (if e.1 ∈ seen then 0 else e.2.length) + listed parents seen := by
  by_cases known : e.1 ∈ seen <;> simp [listed, known]

theorem listed_mono {seen seen' : List String} (more : seen ⊆ seen') :
    listed parents seen' ≤ listed parents seen := by
  induction parents with
  | nil => exact Nat.le_refl _
  | cons e rest ih =>
    rw [listed_cons, listed_cons]
    by_cases known : e.1 ∈ seen
    · simpa [known, more known] using ih
    · split <;> omega

/-- What a name adds to the list is taken from what is left in the table. -/
theorem above_le_listed (parents : Parents) {seen seen' : List String} (fresh : parent ∉ seen)
    (taken : ∀ other, other ∈ seen' ↔ other = parent ∨ other ∈ seen) :
    (above parents parent).length + listed parents seen' ≤ listed parents seen := by
  induction parents with
  | nil => exact Nat.le_refl _
  | cons e rest ih =>
    obtain ⟨k, ps⟩ := e
    rw [listed_cons, listed_cons]
    by_cases same : k = parent
    · subst same
      have here : above ((k, ps) :: rest) k = ps := by simp [above, Entries.get?]
      have fewer : listed rest seen' ≤ listed rest seen :=
        listed_mono fun other old => (taken other).mpr (.inr old)
      rw [here, if_pos ((taken k).mpr (.inl rfl)), if_neg fresh, Nat.zero_add]
      exact Nat.add_le_add_left fewer ps.length
    · have elsewhere : above ((k, ps) :: rest) parent = above rest parent := by
        simp [above, Entries.get?, same]
      have alike : k ∈ seen' ↔ k ∈ seen := by simp [taken, same]
      rw [elsewhere]
      simp only [alike]
      omega

/-- What is still to do: the names on the list, and the parents that can yet be put on it. -/
def left (parents : Parents) (name : String) (w : Search) : Nat :=
  w.pending.length + listed parents (name :: w.found.names)

theorem left_start (parents : Parents) (name : String) :
    left parents name (start parents name) ≤ listed parents [] := by
  have taken : (above parents name).length + listed parents [name] ≤ listed parents [] :=
    above_le_listed parents List.not_mem_nil (by simp)
  simpa [left, start, NameSet.empty] using taken

theorem left_turn (more : w.pending ≠ []) : left parents name (turn parents name w) < left parents name w := by
  obtain ⟨pending, found⟩ := w
  cases pending with
  | nil => exact absurd rfl more
  | cons parent rest =>
    rw [turn]
    split
    · exact Nat.add_lt_add_right (Nat.lt_succ_self rest.length) _
    · rename_i fresh
      have taken : ∀ other, other ∈ name :: (found.insert parent).names ↔
          other = parent ∨ other ∈ name :: found.names := by
        intro other
        rw [List.mem_cons, List.mem_cons]
        exact (or_congr_right NameSet.mem_insert).trans or_left_comm
      have unread := above_le_listed parents (mt List.mem_cons.mp fresh) taken
      simp only [left, List.length_append, List.length_reverse, List.length_cons]
      omega

theorem ends_from (parents : Parents) (name : String) (turns : Nat) :
    ∃ more ≤ left parents name (after parents name turns), (after parents name (turns + more)).pending = [] := by
  induction bound : left parents name (after parents name turns) using Nat.strongRecOn generalizing turns with
  | ind n ih =>
    by_cases none : (after parents name turns).pending = []
    · exact ⟨0, Nat.zero_le _, none⟩
    · have less : left parents name (after parents name (turns + 1)) < n := bound ▸ left_turn none
      obtain ⟨more, few, ended⟩ := ih _ less (turns + 1) rfl
      refine ⟨more + 1, by omega, ?_⟩
      rwa [Nat.add_assoc, Nat.add_comm 1] at ended

end Ending

section Finding

/-- Parents lead to all that is found or on the list, and from what is found to nothing else. -/
structure Sound (parents : Parents) (name : String) (w : Search) : Prop where
  found : ∀ other ∈ w.found, other ≠ name
  reached : ∀ other, other ∈ w.found ∨ other ∈ w.pending →
    Relation.TransGen (fun a b => b ∈ above parents a) name other
  closed : ∀ other, other = name ∨ other ∈ w.found → ∀ parent ∈ above parents other,
    parent = name ∨ parent ∈ w.found ∨ parent ∈ w.pending

theorem start_sound (parents : Parents) (name : String) : Sound parents name (start parents name) where
  found other none := absurd none (NameSet.not_mem_empty other)
  reached other := by
    rintro (none | listed)
    · exact absurd none (NameSet.not_mem_empty other)
    · exact .single (List.mem_reverse.mp listed)
  closed other := by
    rintro (rfl | none) parent listed
    · exact .inr (.inr (List.mem_reverse.mpr listed))
    · exact absurd none (NameSet.not_mem_empty other)

/-- The start is not opened again: its parents were on the list from the beginning. -/
theorem Sound.turn (sound : Sound parents name w) : Sound parents name (turn parents name w) := by
  obtain ⟨pending, found⟩ := w
  cases pending with
  | nil => exact sound
  | cons parent rest =>
    have onward := sound.reached parent (.inr List.mem_cons_self)
    rw [Search.turn]
    split
    case isTrue known =>
      refine ⟨sound.found, fun other here => ?_, fun other here next above => ?_⟩
      · exact sound.reached other (here.imp_right (List.mem_cons_of_mem _))
      · rcases sound.closed other here next above with start | old | listed
        · exact .inl start
        · exact .inr (.inl old)
        · rcases List.mem_cons.mp listed with rfl | listed
          · exact known.imp_right .inl
          · exact .inr (.inr listed)
    case isFalse fresh =>
      obtain ⟨different, unknown⟩ := not_or.mp fresh
      constructor
      · intro other here
        rcases NameSet.mem_insert.mp here with rfl | old
        · exact different
        · exact sound.found other old
      · rintro other (here | here)
        · rcases NameSet.mem_insert.mp here with rfl | old
          · exact onward
          · exact sound.reached other (.inl old)
        · rcases List.mem_append.mp here with above | listed
          · exact onward.tail (List.mem_reverse.mp above)
          · exact sound.reached other (.inr (List.mem_cons_of_mem _ listed))
      · intro other here next above
        by_cases same : other = parent
        · subst same
          exact .inr (.inr (List.mem_append_left _ (List.mem_reverse.mpr above)))
        · have old : other = name ∨ other ∈ found :=
            here.imp_right fun here => (NameSet.mem_insert.mp here).resolve_left same
          rcases sound.closed other old next above with start | old | listed
          · exact .inl start
          · exact .inr (.inl (NameSet.mem_insert.mpr (.inr old)))
          · rcases List.mem_cons.mp listed with rfl | listed
            · exact .inr (.inl (NameSet.mem_insert.mpr (.inl rfl)))
            · exact .inr (.inr (List.mem_append_right _ listed))

theorem after_sound (parents : Parents) (name : String) (turns : Nat) :
    Sound parents name (after parents name turns) := by
  induction turns with
  | zero => exact start_sound parents name
  | succ turns ih => exact ih.turn

/-- With nothing left to look at, all whom parents lead to are found, the start aside. -/
theorem Sound.mem_found (sound : Sound parents name w) (ended : w.pending = []) {other : String} :
    other ∈ w.found ↔ other ≠ name ∧ Relation.TransGen (fun a b => b ∈ above parents a) name other := by
  constructor
  · intro here
    exact ⟨sound.found other here, sound.reached other (.inl here)⟩
  · rintro ⟨different, leads⟩
    have found : other = name ∨ other ∈ w.found := by
      clear different
      induction leads with
      | single above => simpa [ended] using sound.closed name (.inl rfl) _ above
      | tail _ above ih => simpa [ended] using sound.closed _ ih _ above
    exact found.resolve_left different

end Finding

end Search

/-- Looking for ancestors comes to an end whatever parents lead to, after no more turns than there are parents
in the table. It finds the set of ancestors: the names other than the start that one or more steps from parent
to parent lead to. -/
theorem search_finds_ancestors (parents : Parents) (name : String) :
    ∃ turns ≤ (parents.map (·.2.length)).sum,
      Search.after parents name turns = ⟨[], ancestors parents name⟩ ∧
      ∀ other, other ∈ ancestors parents name ↔
        other ≠ name ∧ Relation.TransGen (fun a b => b ∈ above parents a) name other := by
  obtain ⟨turns, few, ended⟩ := Search.ends_from parents name 0
  rw [Nat.zero_add] at ended
  have sound := Search.after_sound parents name turns
  have same : (Search.after parents name turns).found = ancestors parents name :=
    NameSet.ext fun other => (sound.mem_found ended).trans mem_ancestors.symm
  refine ⟨turns, ?_, ?_, fun other => mem_ancestors⟩
  · have whole := few.trans (Search.left_start parents name)
    simpa [Search.listed] using whole
  · rw [← ended, ← same]

/-- Two that are parents of one another, of whom one is its own parent and has a parent twice that is no key. -/
example : (ancestors [("Mason", ["Carver"]), ("Carver", ["Mason", "Guest", "Carver", "Guest"])] "Mason").names =
    ["Carver", "Guest"] := by
  decide +kernel

end ApiPayload.Spec
