import ApiPayload.Proofs.Rewriting

/-
Results of validation by any library of schemas: the library refuses the document, a check never ends, or the
faults that the checks find decide.
-/
namespace ApiPayload.Spec

open Schema Validation

variable {library : Library} {s : Spec} {id : Id} {check : Json → Option (List PayloadFault)} {v : Json}
  {faults : List PayloadFault} {e : SpecError} {r : Rules}

theorem faults?_eq_none : s.faults? id check v = none ↔ check v = none ∨ tagFaults? s id v = none := by
  rw [faults?]
  cases check v <;> cases tagFaults? s id v <;> simp

theorem faults?_eq_nil : s.faults? id check v = some [] ↔ check v = some [] ∧ tagFaults? s id v = some [] := by
  rw [faults?]
  cases check v <;> cases tagFaults? s id v <;> simp

theorem validateBy_refused (refused : s.checkBy library id = .error e) (v : Json) :
    s.validateBy library id v = .error (.spec e) := by
  rw [validateBy, refused]

section Checked
variable (checked : s.checkBy library id = .ok check)
include checked

theorem validateBy_ok : s.validateBy library id v = .ok () ↔ s.faults? id check v = some [] := by
  rw [validateBy, checked]
  dsimp only
  generalize s.faults? id check v = found
  rcases found with _ | _ | ⟨f, rest⟩ <;> simp

theorem validateBy_invalid : s.validateBy library id v = .error (.invalid faults) ↔
    faults ≠ [] ∧ s.faults? id check v = some faults := by
  rw [validateBy, checked]
  dsimp only
  generalize s.faults? id check v = found
  rcases found with _ | _ | ⟨f, rest⟩
  · simp
  · simp [eq_comm]
  · simp only [Except.error.injEq, ValidateError.invalid.injEq, Option.some.injEq]
    exact ⟨fun same => ⟨same ▸ List.cons_ne_nil f rest, same⟩, And.right⟩

theorem validateBy_spec : s.validateBy library id v = .error (.spec e) ↔
    s.faults? id check v = none ∧ e = .invalidSchema (s.node id).pointer .unending := by
  rw [validateBy, checked]
  dsimp only
  generalize s.faults? id check v = found
  rcases found with _ | _ | ⟨f, rest⟩
  · simp [eq_comm]
  · simp
  · simp

end Checked

section Draft4

theorem checkBy_draft4 (read : s.rules id = .ok r) :
    s.checkBy draft4 id = .ok fun v => (r.violations v).map (·.map Violation.fault) := by
  unfold rules at read
  unfold checkBy draft4
  cases compiled : Rules.compile (s.plainDocument id) with
  | error f =>
    rw [compiled] at read
    cases read
  | ok r' =>
    rw [compiled] at read
    cases read
    rfl

theorem checkBy_draft4_refused (failed : s.rules id = .error e) : s.checkBy draft4 id = .error e := by
  unfold rules at failed
  unfold checkBy draft4
  cases compiled : Rules.compile (s.plainDocument id) with
  | error f =>
    rw [compiled] at failed
    cases failed
    rfl
  | ok r =>
    rw [compiled] at failed
    cases failed

theorem validate_unread (failed : s.rules id = .error e) (v : Json) : s.validate id v = .error (.spec e) :=
  validateBy_refused (checkBy_draft4_refused failed) v

theorem validate_ok (read : s.rules id = .ok r) :
    s.validate id v = .ok () ↔ r.violations v = some [] ∧ tagFaults? s id v = some [] := by
  rw [validate, validateBy_ok (checkBy_draft4 read), faults?_eq_nil]
  simp

theorem validate_unending (read : s.rules id = .ok r) : s.validate id v = .error (.spec e) ↔
    (r.violations v = none ∨ tagFaults? s id v = none) ∧
      e = .invalidSchema (s.node id).pointer .unending := by
  rw [validate, validateBy_spec (checkBy_draft4 read), faults?_eq_none, Option.map_eq_none_iff]

theorem validate_invalid (read : s.rules id = .ok r) (ends : r.violations v ≠ none) (also : tagFaults? s id v ≠ none) :
    (∃ faults, s.validate id v = .error (.invalid faults)) ↔ s.validate id v ≠ .ok () := by
  have checked := checkBy_draft4 read
  have done : s.faults? id (fun v => (r.violations v).map (·.map Violation.fault)) v ≠ none := by
    rw [Ne, faults?_eq_none, Option.map_eq_none_iff]
    exact not_or.mpr ⟨ends, also⟩
  obtain ⟨faults, found⟩ := Option.ne_none_iff_exists'.mp done
  rw [validate, Ne, validateBy_ok checked, found]
  simp only [validateBy_invalid checked, found, Option.some.injEq]
  constructor
  · rintro ⟨_, wrong, rfl⟩
    exact wrong
  · exact fun wrong => ⟨faults, wrong, rfl⟩

theorem invalid_of_violations
    (found : (s.rules id).toOption.any (fun r => (r.violations v).any fun vs => !vs.isEmpty) = true)
    (ends : (tagFaults? s id v).isSome = true) : ∃ faults, s.validate id v = .error (.invalid faults) := by
  obtain ⟨r, read, wrong⟩ := Except.exists_of_any found
  obtain ⟨vs, violations, wrong⟩ := (Option.any_eq_true _ _).mp wrong
  refine (validate_invalid read ?_ (Option.isSome_iff_ne_none.mp ends)).mpr fun valid => ?_
  · rw [violations]
    exact nofun
  · rw [((validate_ok read).mp valid).1] at violations
    cases violations
    cases wrong

end Draft4
end ApiPayload.Spec
