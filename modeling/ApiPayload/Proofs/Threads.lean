import ApiPayload.Proofs.Agreement

/-
Threads at one spec. A thread obtains transforms and calls those that it has. Nothing that it does
to obtain one waits for anybody; a call waits at a link whose slot is not filled yet.
-/
namespace ApiPayload

open Schema

inductive Task where
  | obtain (side : Side) (id : Id) (required : Bool)
  | call (side : Side) (n : Nat) (v : side.In)

structure Held where
  side : Side
  id : Id
  required : Bool
  link : Link

structure Outcome where
  side : Side
  id : Id
  required : Bool
  value : side.In
  result : Except TransformError side.Out

inductive Activity where
  | free
  | preparing (side : Side) (id : Id) (required : Bool) (w : Worker)
  | calling (side : Side) (h : Held) (v : side.In) (rest : Ask Link side.Out)

structure Thread where
  tasks : List Task
  held : List Held
  outcomes : List Outcome
  now : Activity

def Task.request? (side : Side) : Task → Option (Id × Bool)
  | obtain at_side id required => if at_side = side then some (id, required) else none
  | call .. => none

def requestsOf (side : Side) (tasks : List Task) : List (Id × Bool) :=
  tasks.filterMap (Task.request? side)

namespace Thread

def start (tasks : List Task) : Thread := ⟨tasks, [], [], .free⟩

def heldBy (side : Side) (t : Thread) : List Held := t.held.filter (·.side = side)

/-- One step, if there is one: a thread at the end of its tasks has none, and neither has one that
waits for a slot. -/
def step (s : Spec) (cs : Caches) (t : Thread) : Option (Caches × Thread) :=
  match t.now with
  | .free =>
    match t.tasks with
    | [] => none
    | .obtain side id required :: tasks =>
      some (cs, { t with
        tasks := tasks, now := .preparing side id required (.start (s.key id required)) })
    | .call side n v :: tasks =>
      match (t.heldBy side)[n]? with
      | none => some (cs, { t with tasks := tasks })
      | some h =>
        some (cs, { t with
          tasks := tasks, now := .calling side h v (transformBy side.direction s.hops h.link v) })
  | .preparing side id required w =>
    match w.answer? with
    | some l => some (cs, { t with held := t.held ++ [⟨side, id, required, l⟩], now := .free })
    | none =>
      let (c, w) := w.step s (cs.on side)
      some (cs.put c side, { t with now := .preparing side id required w })
  | .calling side h v (.done r) =>
    some (cs, { t with outcomes := t.outcomes ++ [⟨side, h.id, h.required, v, r⟩], now := .free })
  | .calling side h v (.need l next) =>
    ((cs.on side).plan? l.key).map fun p => (cs, { t with now := .calling side h v (next p) })

def isDone (t : Thread) : Bool :=
  match t.now, t.tasks with
  | .free, [] => true
  | _, _ => false

def awaits? (cs : Caches) (t : Thread) : Option (Side × Key) :=
  match t.now with
  | .calling side _ _ (.need l _) => if (cs.on side).isResolved l.key then none else some (side, l.key)
  | _ => none

def worker? (side : Side) (t : Thread) : Option Worker :=
  match t.now with
  | .preparing at_side _ _ w => if at_side = side then some w else none
  | _ => none

def owned (side : Side) (t : Thread) : List Key := (t.worker? side).toList.flatMap Worker.owned

def filling (t : Thread) : List (Side × Key) :=
  match t.now with
  | .preparing side _ _ w => w.filling?.toList.map (side, ·)
  | _ => []

def asking (side : Side) (t : Thread) : List (Id × Bool) :=
  match t.now with
  | .preparing at_side id required _ => if at_side = side then [(id, required)] else []
  | _ => []

/-- All transforms of one side that a thread ever asks for, those first that it has. -/
def requests (side : Side) (t : Thread) : List (Id × Bool) :=
  (t.heldBy side).map (fun h => (h.id, h.required)) ++ t.asking side ++ requestsOf side t.tasks

end Thread

/-- Threads, their caches, and every filling of a slot so far. -/
structure Crew where
  caches : Caches
  threads : List Thread
  fills : List (Side × Key)

namespace Crew

def start (plans : List (List Task)) : Crew := ⟨.empty, plans.map .start, []⟩

def step (s : Spec) (crew : Crew) (i : Nat) : Crew :=
  match crew.threads[i]? with
  | none => crew
  | some t =>
    match t.step s crew.caches with
    | none => crew
    | some (cs, t') => ⟨cs, crew.threads.set i t', crew.fills ++ t.filling⟩

def run (s : Spec) (plans : List (List Task)) (schedule : List Nat) : Crew :=
  schedule.foldl (step s) (start plans)

end Crew

namespace Thread

/-- All that a step of a thread can be. -/
inductive Turn (s : Spec) (cs : Caches) : Thread → Caches → Thread → Prop where
  | hire {side : Side} {id : Id} {required : Bool} {tasks : List Task} {held : List Held}
      {outcomes : List Outcome} :
      Turn s cs ⟨.obtain side id required :: tasks, held, outcomes, .free⟩ cs
        ⟨tasks, held, outcomes, .preparing side id required (.start (s.key id required))⟩
  | skip {side : Side} {n : Nat} {v : side.In} {tasks : List Task} {held : List Held}
      {outcomes : List Outcome} :
      Turn s cs ⟨.call side n v :: tasks, held, outcomes, .free⟩ cs ⟨tasks, held, outcomes, .free⟩
  | call {side : Side} {n : Nat} {v : side.In} {tasks : List Task} {held : List Held}
      {outcomes : List Outcome} {h : Held} (mine : h ∈ held) (same : h.side = side) :
      Turn s cs ⟨.call side n v :: tasks, held, outcomes, .free⟩ cs
        ⟨tasks, held, outcomes, .calling side h v (transformBy side.direction s.hops h.link v)⟩
  | work {side : Side} {id : Id} {required : Bool} {w next : Worker} {c : Cache} {tasks : List Task}
      {held : List Held} {outcomes : List Outcome} (did : w.step s (cs.on side) = (c, next)) :
      Turn s cs ⟨tasks, held, outcomes, .preparing side id required w⟩ (cs.put c side)
        ⟨tasks, held, outcomes, .preparing side id required next⟩
  | receive {side : Side} {id : Id} {required : Bool} {l : Link} {tasks : List Task}
      {held : List Held} {outcomes : List Outcome} :
      Turn s cs ⟨tasks, held, outcomes, .preparing side id required ⟨[], .answer l⟩⟩ cs
        ⟨tasks, held ++ [⟨side, id, required, l⟩], outcomes, .free⟩
  | follow {side : Side} {h : Held} {v : side.In} {l : Link} {next : Plan Link → Ask Link side.Out}
      {p : Plan Link} {tasks : List Task} {held : List Held} {outcomes : List Outcome}
      (ready : (cs.on side).plan? l.key = some p) :
      Turn s cs ⟨tasks, held, outcomes, .calling side h v (.need l next)⟩ cs
        ⟨tasks, held, outcomes, .calling side h v (next p)⟩
  | finish {side : Side} {h : Held} {v : side.In} {r : Except TransformError side.Out}
      {tasks : List Task} {held : List Held} {outcomes : List Outcome} :
      Turn s cs ⟨tasks, held, outcomes, .calling side h v (.done r)⟩ cs
        ⟨tasks, held, outcomes ++ [⟨side, h.id, h.required, v, r⟩], .free⟩

theorem step_turn {s : Spec} {cs after : Caches} {t next : Thread}
    (stepped : t.step s cs = some (after, next)) : Turn s cs t after next := by
  obtain ⟨tasks, held, outcomes, now⟩ := t
  cases now with
  | free =>
    cases tasks with
    | nil => cases stepped
    | cons task tasks =>
      cases task with
      | obtain side id required =>
        cases stepped
        exact .hire
      | call side n v =>
        cases found : (heldBy side ⟨.call side n v :: tasks, held, outcomes, .free⟩)[n]? with
        | none =>
          simp only [step, found] at stepped
          cases stepped
          exact .skip
        | some h =>
          simp only [step, found] at stepped
          cases stepped
          have kept := List.mem_filter.mp (List.mem_of_getElem? found)
          exact .call kept.1 (by simpa using kept.2)
  | preparing side id required w =>
    cases answer : w.answer? with
    | some l =>
      simp only [step, answer] at stepped
      cases stepped
      obtain rfl := Worker.eq_of_answer answer
      exact .receive
    | none =>
      simp only [step, answer] at stepped
      cases stepped
      exact .work rfl
  | calling side h v rest =>
    cases rest with
    | done r =>
      cases stepped
      exact .finish
    | need l next =>
      simp only [step, Option.map_eq_some_iff] at stepped
      obtain ⟨p, ready, same⟩ := stepped
      cases same
      exact .follow ready

theorem done_or_awaits {s : Spec} {cs : Caches} {t : Thread} (stuck : t.step s cs = none) :
    t.isDone = true ∨ ∃ slot, t.awaits? cs = some slot := by
  obtain ⟨tasks, held, outcomes, now⟩ := t
  cases now with
  | free =>
    cases tasks with
    | nil => exact .inl rfl
    | cons task tasks =>
      cases task with
      | obtain side id required => cases stuck
      | call side n v =>
        simp only [step] at stuck
        split at stuck <;> cases stuck
  | preparing side id required w =>
    simp only [step] at stuck
    split at stuck <;> cases stuck
  | calling side h v rest =>
    cases rest with
    | done r => cases stuck
    | need l next =>
      simp only [step, Option.map_eq_none_iff] at stuck
      have unfilled : (cs.on side).isResolved l.key = false := by simp [Cache.isResolved, stuck]
      exact .inr ⟨(side, l.key), by simp [awaits?, unfilled]⟩

theorem preparing_steps (s : Spec) (cs : Caches) {side : Side} {t : Thread} {w : Worker}
    (works : t.worker? side = some w) : (t.step s cs).isSome = true := by
  cases stuck : t.step s cs with
  | some next => rfl
  | none =>
    obtain ⟨tasks, held, outcomes, now⟩ := t
    cases now with
    | preparing at_side id required w =>
      simp only [step] at stuck
      split at stuck <;> cases stuck
    | _ => cases works

end Thread
end ApiPayload
