import ApiPayload.Proofs.Slots

/-
Workers that take turns at one cache. Each open slot belongs to exactly one worker, which alone
fills it; no step of a worker depends on what another one holds open.
-/
namespace ApiPayload
namespace Worker

def pending (w : Worker) : Option Key :=
  match w.phase with
  | .probe k | .read k | .enter k | .look k | .count k => some k
  | .work => none
  | .answer l => some l.key

/-- The slots that a worker took and has not filled. -/
def owned (w : Worker) : List Key :=
  match w.phase with
  | .count k => k :: w.frames.map (·.key)
  | _ => w.frames.map (·.key)

/-- What the lowest frame is for, or else what is asked for now. -/
def lowest : Option Key → List Frame → Option Key
  | asked, [] => asked
  | _, f :: rest => lowest (some f.key) rest

def goal? (w : Worker) : Option Key := lowest w.pending w.frames

def isCounting (w : Worker) : Bool :=
  match w.phase with
  | .count _ => true
  | _ => false

def filling? (w : Worker) : Option Key :=
  match w.phase, w.frames with
  | .work, f :: _ => if f.todo = [] then some f.key else none
  | _, _ => none

theorem eq_of_answer {w : Worker} {l : Link} (h : w.answer? = some l) : w = ⟨[], .answer l⟩ := by
  obtain ⟨frames, phase⟩ := w
  unfold answer? at h
  split at h
  · rename_i empty answered
    cases h
    change frames = [] at empty
    rw [empty, ← answered]
  · cases h

/-- All that a step can do to the cache and to the worker, with what it has seen. -/
inductive Move (s : Spec) (c : Cache) : Worker → Cache → Worker → Prop where
  | present {fs : List Frame} {k : Key} (taken : c.isTaken k = true) :
      Move s c ⟨fs, .probe k⟩ c ⟨fs, .read k⟩
  | absent {fs : List Frame} {k : Key} (free : c.isTaken k = false) :
      Move s c ⟨fs, .probe k⟩ c ⟨fs, .enter k⟩
  | hit {fs : List Frame} {k : Key} (filled : c.isResolved k = true) :
      Move s c ⟨fs, .read k⟩ c ⟨fs, .answer (.strong k)⟩
  | miss {fs : List Frame} {k : Key} (unfilled : c.isResolved k = false) :
      Move s c ⟨fs, .read k⟩ c ⟨fs, .enter k⟩
  | occupied {fs : List Frame} {k : Key} (taken : c.isTaken k = true) :
      Move s c ⟨fs, .enter k⟩ c ⟨fs, .look k⟩
  | take {fs : List Frame} {k : Key} (free : c.isTaken k = false) :
      Move s c ⟨fs, .enter k⟩ (c.take k) ⟨fs, .count k⟩
  | strong {fs : List Frame} {k : Key} (filled : c.isResolved k = true) :
      Move s c ⟨fs, .look k⟩ c ⟨fs, .answer (.strong k)⟩
  | weak {fs : List Frame} {k : Key} (unfilled : c.isResolved k = false) :
      Move s c ⟨fs, .look k⟩ c ⟨fs, .answer (.weak k)⟩
  | begin {fs : List Frame} {k : Key} :
      Move s c ⟨fs, .count k⟩ c.count ⟨⟨k, s.plan k, (s.plan k).links, []⟩ :: fs, .work⟩
  | request {fs : List Frame} {key k : Key} {p : Plan Key} {todo : List Key} {ls : List Link} :
      Move s c ⟨⟨key, p, k :: todo, ls⟩ :: fs, .work⟩ c ⟨⟨key, p, todo, ls⟩ :: fs, .probe k⟩
  | fill {fs : List Frame} {key : Key} {p : Plan Key} {ls : List Link} :
      Move s c ⟨⟨key, p, [], ls⟩ :: fs, .work⟩ (c.resolve key (p.relink ls))
        ⟨fs, .answer (.strong key)⟩
  | attach {fs : List Frame} {key : Key} {p : Plan Key} {todo : List Key} {ls : List Link}
      {l : Link} :
      Move s c ⟨⟨key, p, todo, ls⟩ :: fs, .answer l⟩ c ⟨⟨key, p, todo, ls ++ [l]⟩ :: fs, .work⟩
  | finished {l : Link} : Move s c ⟨[], .answer l⟩ c ⟨[], .answer l⟩
  | idle : Move s c ⟨[], .work⟩ c ⟨[], .work⟩

theorem step_move (s : Spec) (c : Cache) (w : Worker) :
    Move s c w (w.step s c).1 (w.step s c).2 := by
  obtain ⟨frames, phase⟩ := w
  cases phase with
  | probe k =>
    cases seen : c.isTaken k
    · simpa [step, seen] using Move.absent seen
    · simpa [step, seen] using Move.present seen
  | read k =>
    cases seen : c.isResolved k
    · simpa [step, seen] using Move.miss seen
    · simpa [step, seen] using Move.hit seen
  | enter k =>
    cases seen : c.isTaken k
    · simpa [step, seen] using Move.take seen
    · simpa [step, seen] using Move.occupied seen
  | look k =>
    cases seen : c.isResolved k
    · simpa [step, seen] using Move.weak seen
    · simpa [step, seen] using Move.strong seen
  | count k => exact Move.begin
  | work =>
    cases frames with
    | nil => exact Move.idle
    | cons f rest =>
      obtain ⟨key, p, todo, ls⟩ := f
      cases todo with
      | nil => exact Move.fill
      | cons k todo => exact Move.request
  | answer l =>
    cases frames with
    | nil => exact Move.finished
    | cons f rest => exact Move.attach

variable {s : Spec} {c after : Cache} {w next : Worker}

theorem Move.extends (m : Move s c w after next) : c.Extends after := by
  cases m with
  | take => exact .take c _
  | begin => exact .count c
  | fill => exact .resolve c _ _
  | _ => exact .refl c

theorem Move.goal (m : Move s c w after next) : next.goal? = w.goal? := by
  cases m <;> rfl

/-- Frames with the plans of their keys: the links they have, then the key asked for, then the keys
still to do are all that the plan needs. The key of a frame is what the frame below asked for. -/
def Stacked (s : Spec) : Option Key → List Frame → Prop
  | _, [] => True
  | asked, f :: rest =>
    f.plan = s.plan f.key ∧ f.plan.links = f.links.map Link.key ++ asked.toList ++ f.todo ∧
      Stacked s (some f.key) rest

structure Sound (s : Spec) (c : Cache) (w : Worker) : Prop where
  stacked : Stacked s w.pending w.frames
  linked : ∀ f ∈ w.frames, ∀ l ∈ f.links, c.Holds l
  looked : ∀ k, w.phase = .look k → c.isTaken k = true
  answered : ∀ l, w.phase = .answer l → c.Holds l
  busy : w.phase = .work → w.frames ≠ []

theorem Sound.mono (h : w.Sound s c) (e : c.Extends after) : w.Sound s after where
  stacked := h.stacked
  linked f member l held := (h.linked f member l held).mono e
  looked k phase := e.taken k (h.looked k phase)
  answered l phase := (h.answered l phase).mono e
  busy := h.busy

theorem start_sound (s : Spec) (c : Cache) (k : Key) : (start k).Sound s c where
  stacked := trivial
  linked f member := by simp [start] at member
  looked k phase := by cases phase
  answered l phase := by cases phase
  busy phase := by cases phase

/-- The plan that a worker is about to fill in is the plan of its key, linked. -/
theorem Sound.fills {fs : List Frame} {key : Key} {p : Plan Key} {ls : List Link}
    (h : Worker.Sound s c ⟨⟨key, p, [], ls⟩ :: fs, .work⟩) :
    ∃ q, p.relink ls = some q ∧ q.map Link.key = s.plan key ∧ ∀ l ∈ q.links, c.Holds l := by
  obtain ⟨same, all, _⟩ := h.stacked
  have complete : p.links = ls.map Link.key := by simpa [pending] using all
  obtain ⟨q, filled, keyed, links⟩ := relink_exact complete
  refine ⟨q, filled, keyed.trans same, ?_⟩
  intro l member
  rw [links] at member
  exact h.linked _ List.mem_cons_self l member

/-- `owned` are the keys a worker holds open, so a filled slot must be among them. -/
theorem Sound.step (h : w.Sound s c) (held : ∀ k ∈ w.owned, c.isOpen k = true)
    (m : Move s c w after next) : next.Sound s after := by
  have kept := h.mono m.extends
  cases m with
  | present | absent | miss => exact ⟨h.stacked, h.linked, by simp, by simp, by simp⟩
  | idle | finished => exact h
  | hit filled | strong filled =>
    refine ⟨h.stacked, h.linked, by simp, ?_, by simp⟩
    intro l same
    cases same
    exact filled
  | occupied taken =>
    refine ⟨h.stacked, h.linked, ?_, by simp, by simp⟩
    intro k same
    cases same
    exact taken
  | take free => exact ⟨kept.stacked, kept.linked, by simp, by simp, by simp⟩
  | weak unfilled =>
    refine ⟨h.stacked, h.linked, by simp, ?_, by simp⟩
    intro l same
    cases same
    exact h.looked _ rfl
  | begin =>
    refine ⟨⟨rfl, by simp [pending], h.stacked⟩, ?_, by simp, by simp, by simp⟩
    intro f member l held
    rcases List.mem_cons.mp member with rfl | below
    · simp at held
    · exact kept.linked f below l held
  | request =>
    obtain ⟨same, all, below⟩ := h.stacked
    refine ⟨⟨same, by simpa [pending] using all, below⟩, ?_, by simp, by simp, by simp⟩
    intro f member l held
    rcases List.mem_cons.mp member with rfl | under
    · exact h.linked _ List.mem_cons_self l held
    · exact h.linked f (List.mem_cons_of_mem _ under) l held
  | fill =>
    obtain ⟨q, filled, _, _⟩ := h.fills
    refine ⟨h.stacked.2.2, ?_, by simp, ?_, by simp⟩
    · intro f member
      exact kept.linked f (List.mem_cons_of_mem _ member)
    · intro l same
      cases same
      have unfilled := (Cache.isOpen_iff.mp (held _ List.mem_cons_self)).2
      refine Cache.isResolved_iff.mpr ⟨q, ?_⟩
      rw [Cache.plan?_resolve unfilled, if_pos rfl, filled]
  | attach =>
    obtain ⟨same, all, below⟩ := h.stacked
    refine ⟨⟨same, by simpa [pending] using all, below⟩, ?_, by simp, by simp, by simp⟩
    intro f member l held
    rcases List.mem_cons.mp member with rfl | under
    · rcases List.mem_append.mp held with old | new
      · exact h.linked _ List.mem_cons_self l old
      · rw [List.mem_singleton.mp new]
        exact h.answered _ rfl
    · exact h.linked f (List.mem_cons_of_mem _ under) l held

end Worker
end ApiPayload
