import ApiPayload.Proofs.Runs

/-
Computations with more and more fuel. Without enough of it there is no result; a result does not
change with more.
-/
namespace ApiPayload

variable {α β γ δ link : Type}

/-- The computation that has a result as soon as some fuel gives one. -/
structure Limit (f : Nat → ExceptT TransformError Option γ) (y : ExceptT TransformError Option γ) :
    Prop where
  sound : ∀ n r, f n = some r → y = some r
  reached : ∀ r, y = some r → ∃ n, ∀ m, n ≤ m → f m = some r

namespace Limit

theorem const (y : ExceptT TransformError Option γ) : Limit (fun _ => y) y :=
  ⟨fun _ _ h => h, fun _ h => ⟨0, fun _ _ => h⟩⟩

theorem shift {f : Nat → ExceptT TransformError Option γ} {y : ExceptT TransformError Option γ}
    (nothing : f 0 = none) (h : Limit (fun n => f (n + 1)) y) : Limit f y := by
  constructor
  · intro n r found
    cases n with
    | zero => rw [nothing] at found; cases found
    | succ n => exact h.sound n r found
  · intro r found
    obtain ⟨n, later⟩ := h.reached r found
    refine ⟨n + 1, fun m le => ?_⟩
    cases m with
    | zero => omega
    | succ m => exact later m (by omega)

theorem never {f : Nat → ExceptT TransformError Option γ} (nothing : ∀ n, f n = none) :
    Limit f none := by
  constructor
  · intro n r found
    rw [nothing n] at found
    cases found
  · intro r found
    cases found

theorem bind_ok {x : ExceptT TransformError Option γ} {a : γ} (h : x = some (.ok a))
    (f : γ → ExceptT TransformError Option δ) : (x >>= f) = f a := by
  subst h
  rfl

theorem bind_error {x : ExceptT TransformError Option γ} {e : TransformError}
    (h : x = some (.error e)) (f : γ → ExceptT TransformError Option δ) :
    (x >>= f) = some (.error e) := by
  subst h
  rfl

theorem bind {f : Nat → ExceptT TransformError Option γ} {y : ExceptT TransformError Option γ}
    {g : Nat → γ → ExceptT TransformError Option δ} {k : γ → ExceptT TransformError Option δ}
    (h : Limit f y) (rest : ∀ a, Limit (fun n => g n a) (k a)) :
    Limit (fun n => f n >>= g n) (y >>= k) := by
  constructor
  · intro n r found
    cases first : f n with
    | none => rw [first] at found; cases found
    | some result =>
      have same := h.sound n result first
      cases result with
      | error e =>
        rw [bind_error first] at found
        rwa [bind_error same]
      | ok a =>
        rw [bind_ok first] at found
        rw [bind_ok same]
        exact (rest a).sound n r found
  · intro r found
    cases first : y with
    | none => rw [first] at found; cases found
    | some result =>
      obtain ⟨n, later⟩ := h.reached result first
      cases result with
      | error e =>
        rw [bind_error first] at found
        exact ⟨n, fun m le => (bind_error (later m le) _).trans found⟩
      | ok a =>
        rw [bind_ok first] at found
        obtain ⟨n', later'⟩ := (rest a).reached r found
        refine ⟨max n n', fun m le => ?_⟩
        rw [bind_ok (later m (by omega))]
        exact later' m (by omega)

theorem mapM {f : Nat → γ → ExceptT TransformError Option δ}
    {g : γ → ExceptT TransformError Option δ} {xs : List γ}
    (h : ∀ x ∈ xs, Limit (fun n => f n x) (g x)) :
    Limit (fun n => xs.mapM (f n)) (xs.mapM g) := by
  induction xs with
  | nil => exact const _
  | cons x rest ih =>
    simp only [List.mapM_cons]
    refine (h x List.mem_cons_self).bind fun a => ?_
    exact (ih fun y member => h y (List.mem_cons_of_mem x member)).bind fun as => const _

section Plans
variable {d : Direction α β} {v : α}

theorem guard {f : Nat → ExceptT TransformError Option β} {y : ExceptT TransformError Option β}
    (h : Limit f y) (p : Plan link) : Limit (fun n => p.guard d v (f n)) (p.guard d v y) := by
  unfold Plan.guard
  split
  · split
    · exact const _
    · exact const _
    · exact const _
    · exact h
  · exact h

theorem apply {sub : Nat → link → α → ExceptT TransformError Option β}
    {other : link → α → ExceptT TransformError Option β} (p : Plan link)
    (h : ∀ l ∈ p.links, ∀ x, d.size x < d.size v → Limit (fun n => sub n l x) (other l x)) :
    Limit (fun n => p.apply d (sub n) v) (p.apply d other v) := by
  cases core : p.core with
  | list schema item =>
    have linked : item ∈ p.links := by simp [Plan.links, core, Core.links]
    simp only [Plan.apply, core]
    cases list : d.list? v with
    | none => exact const _
    | some xs =>
      have parts := mapM fun x member => h item linked x (d.size_item list member)
      exact parts.bind fun ys => const _
  | object o =>
    simp only [Plan.apply, core]
    cases entries : d.entries? v with
    | none => exact const _
    | some es =>
      refine bind (mapM fun e member => ?_) fun fields => const _
      have smaller := d.size_entry entries (show (e.1, e.2) ∈ es from member)
      cases found : Entries.get? e.1 o.properties with
      | none => exact const _
      | some l => exact (h l (Plan.property_mem core found) e.2 smaller).bind fun w => const _
  | _ =>
    simp only [Plan.apply, core]
    exact const _

end Plans

end Limit
end ApiPayload
