import ApiPayload.Proofs.Depths

/-
What reading a document does, also where it fails. All that is asked for stands at or below a root or
a place that a reference names; no fragment is read twice, and none is merged twice for one owner.
-/
namespace ApiPayload.Schema

open Spec

section Events

/-- The places that were read, in their order. -/
def reads (journal : List Event) : List Pointer :=
  journal.filterMap fun
    | .read p => some p
    | _ => none

/-- The places that were merged, each with the owner that it was merged for. -/
def merges (journal : List Event) : List (Pointer × Pointer) :=
  journal.filterMap fun
    | .merge owner p => some (owner, p)
    | _ => none

variable {document : Json} {a a' a'' : Arena} {p q owner : Pointer} {mine : Pointer → Prop}

theorem reads_note (e : Event) (a : Arena) : reads (a.note e).journal =
    reads a.journal ++ reads [e] := List.filterMap_append

theorem merges_note (e : Event) (a : Arena) : merges (a.note e).journal =
    merges a.journal ++ merges [e] := List.filterMap_append

/-- The journal of an arena that may have been left by a fault. -/
structure Sound (document : Json) (a : Arena) : Prop where
  listed : reads a.journal = Entries.keys a.table
  once : (Entries.keys a.table).Nodup
  merged : (merges a.journal).Nodup
  owned : ∀ e ∈ merges a.journal, e.1 ∈ Entries.keys a.table
  standing : ∀ e ∈ merges a.journal, e.2 ∈ spots document
  asked : ∀ p, .ask p ∈ a.journal → p ∈ spots document
  answered : ∀ p ∈ Entries.keys a.table, .ask p ∈ a.journal

theorem empty_sound (document : Json) : Sound document .empty :=
  ⟨rfl, List.nodup_nil, List.nodup_nil, nofun, nofun, nofun, nofun⟩

theorem merges_ask (p : Pointer) (a : Arena) : merges (a.note (.ask p)).journal = merges a.journal :=
  (merges_note _ a).trans (List.append_nil _)

theorem merges_read (p : Pointer) (a : Arena) : merges (a.note (.read p)).journal = merges a.journal :=
  (merges_note _ a).trans (List.append_nil _)

theorem Sound.ask (h : Sound document a) (standing : Standing document p) :
    Sound document (a.note (.ask p)) := by
  have same : reads (a.note (.ask p)).journal = reads a.journal := by
    rw [reads_note]
    exact List.append_nil _
  have same' := merges_ask p a
  refine ⟨same.trans h.listed, h.once, same' ▸ h.merged, same' ▸ h.owned, same' ▸ h.standing,
    fun q member => ?_, fun q known => List.mem_append_left _ (h.answered q known)⟩
  rcases List.mem_append.mp member with member | last
  · exact h.asked q member
  · cases List.mem_singleton.mp last
    exact standing.spot

theorem Sound.read (h : Sound document a) (fresh : p ∉ Entries.keys a.table)
    (asked : .ask p ∈ a.journal) : Sound document ((a.reserve p).note (.read p)) := by
  have keys : Entries.keys (a.reserve p).table = Entries.keys a.table ++ [p] := List.map_append
  have same : merges ((a.reserve p).note (.read p)).journal = merges a.journal := merges_read p _
  refine ⟨?_, ?_, same ▸ h.merged, fun e member => ?_, same ▸ h.standing, fun q member => ?_,
    fun q known => ?_⟩
  · show reads ((a.reserve p).note (.read p)).journal = Entries.keys (a.reserve p).table
    rw [reads_note, keys, ← h.listed]
    rfl
  · show (Entries.keys (a.reserve p).table).Nodup
    rw [keys, List.nodup_append]
    refine ⟨h.once, List.nodup_singleton p, ?_⟩
    rintro q known r last rfl
    exact fresh (List.mem_singleton.mp last ▸ known)
  · rw [same] at member
    show e.1 ∈ Entries.keys (a.reserve p).table
    rw [keys]
    exact List.mem_append_left _ (h.owned e member)
  · rcases List.mem_append.mp member with member | last
    · exact h.asked q member
    · cases List.mem_singleton.mp last
  · refine List.mem_append_left _ ?_
    have known : q ∈ Entries.keys (a.reserve p).table := known
    rw [keys] at known
    rcases List.mem_append.mp known with known | last
    · exact h.answered q known
    · rw [List.mem_singleton.mp last]
      exact asked

theorem Sound.merge (h : Sound document a) (known : owner ∈ Entries.keys a.table)
    (spot : q ∈ spots document) (fresh : (owner, q) ∉ merges a.journal) : Sound document (a.note (.merge owner q)) := by
  have more : merges (a.note (.merge owner q)).journal = merges a.journal ++ [(owner, q)] :=
    merges_note _ a
  have same : reads (a.note (.merge owner q)).journal = reads a.journal := by
    rw [reads_note]
    exact List.append_nil _
  refine ⟨same.trans h.listed, h.once, ?_, fun e member => ?_, fun e member => ?_, fun r member => ?_,
    fun r known => List.mem_append_left _ (h.answered r known)⟩
  · rw [more, List.nodup_append]
    refine ⟨h.merged, List.nodup_singleton _, ?_⟩
    rintro e listed f last rfl
    exact fresh (List.mem_singleton.mp last ▸ listed)
  · rw [more] at member
    rcases List.mem_append.mp member with member | last
    · exact h.owned e member
    · rw [List.mem_singleton.mp last]
      exact known
  · rw [more] at member
    rcases List.mem_append.mp member with member | last
    · exact h.standing e member
    · rw [List.mem_singleton.mp last]
      exact spot
  · rcases List.mem_append.mp member with member | last
    · exact h.asked r member
    · cases List.mem_singleton.mp last

theorem Sound.fill (h : Sound document a) (id : Id) (n : Node) : Sound document (a.fill id n) :=
  ⟨h.listed, h.once, h.merged, h.owned, h.standing, h.asked, h.answered⟩

theorem Sound.reads_nodup (h : Sound document a) : (reads a.journal).Nodup := h.listed ▸ h.once

theorem Sound.length_reads (h : Sound document a) : (reads a.journal).length < placeLimit document := by
  have within : reads a.journal ⊆ spots document := by
    intro p read
    rw [h.listed] at read
    exact h.asked p (h.answered p read)
  have few := (List.subperm_of_subset h.reads_nodup within).length_le
  exact Nat.lt_of_le_of_lt few (length_spots document)

/-- What a run does to a sound arena. It merges for owners that had not been read, and for its own. -/
structure Moved (document : Json) (mine : Pointer → Prop) (a a' : Arena) : Prop where
  sound : Sound document a'
  kept : ∀ p ∈ Entries.keys a.table, p ∈ Entries.keys a'.table
  before : ∀ e ∈ merges a.journal, e ∈ merges a'.journal
  since : ∀ e ∈ merges a'.journal, e ∈ merges a.journal ∨ e.1 ∉ Entries.keys a.table ∨ mine e.1

theorem Moved.refl (h : Sound document a) : Moved document mine a a :=
  ⟨h, fun _ => id, fun _ => id, fun _ => .inl⟩

theorem Moved.trans (first : Moved document mine a a') (later : Moved document mine a' a'') :
    Moved document mine a a'' := by
  refine ⟨later.sound, fun p known => later.kept p (first.kept p known),
    fun e member => later.before e (first.before e member), fun e member => ?_⟩
  rcases later.since e member with member | fresh | own
  · exact first.since e member
  · exact .inr (.inl fun known => fresh (first.kept _ known))
  · exact .inr (.inr own)

theorem Moved.mono {more : Pointer → Prop} (h : Moved document mine a a')
    (wider : ∀ p, mine p → more p) : Moved document more a a' := by
  refine ⟨h.sound, h.kept, h.before, fun e member => ?_⟩
  rcases h.since e member with member | fresh | own
  · exact .inl member
  · exact .inr (.inl fresh)
  · exact .inr (.inr (wider _ own))

theorem Moved.unmerged (sound : Sound document a')
    (kept : ∀ p ∈ Entries.keys a.table, p ∈ Entries.keys a'.table)
    (same : merges a'.journal = merges a.journal) : Moved document mine a a' :=
  ⟨sound, kept, fun _ member => same ▸ member, fun _ member => .inl (same ▸ member)⟩

/-- Seen from before its place was read, what is merged for it is merged for a new owner. -/
theorem Moved.own (first : Moved document mine a a')
    (fresh : p ∉ Entries.keys a.table) (later : Moved document (· = p) a' a'') :
    Moved document mine a a'' := by
  refine ⟨later.sound, fun q known => later.kept q (first.kept q known),
    fun e member => later.before e (first.before e member), fun e member => ?_⟩
  rcases later.since e member with member | unknown | rfl
  · exact first.since e member
  · exact .inr (.inl fun known => unknown (first.kept _ known))
  · exact .inr (.inl fresh)

/-- How a run leaves the arena, and what it returns if it does. -/
inductive Leaves {α : Type} (always : Arena → Prop) (holds : α → Arena → Prop) :
    EStateM.Result SpecError Arena α → Prop where
  | ok {v : α} {a : Arena} (left : always a) (here : holds v a) : Leaves always holds (.ok v a)
  | error {e : SpecError} {a : Arena} (left : always a) : Leaves always holds (.error e a)

section Leaves
variable {α β : Type} {always : Arena → Prop} {holds : α → Arena → Prop}

theorem Leaves.bind {holds' : β → Arena → Prop} {x : Builder α} {f : α → Builder β}
    (h : Leaves always holds (x a))
    (rest : ∀ v a', always a' → holds v a' → Leaves always holds' (f v a')) :
    Leaves always holds' ((x >>= f) a) := by
  generalize same : x a = r at h
  cases h with
  | ok left here =>
    rw [Builder.bind_ok same]
    exact rest _ _ left here
  | error left =>
    rw [Builder.bind_error same]
    exact .error left

theorem Leaves.imp {always' : Arena → Prop} {holds' : α → Arena → Prop}
    {r : EStateM.Result SpecError Arena α} (h : Leaves always holds r)
    (left : ∀ a, always a → always' a) (here : ∀ v a, always a → holds v a → holds' v a) :
    Leaves always' holds' r := by
  cases h with
  | ok done met => exact .ok (left _ done) (here _ _ done met)
  | error done => exact .error (left _ done)

end Leaves
end Events

section Runs
variable {document raw : Json} {naming : Naming} {limit fuel : Nat} {source p q owner : Pointer}
  {ask : Pointer → Pointer → Builder Id} {a a' : Arena} {acc : Merged}

/-- The places visited for an owner are those that were merged for it. -/
def Visited (owner : Pointer) (acc : Merged) (a : Arena) : Prop :=
  ∀ r, (owner, r) ∈ merges a.journal ↔ r ∈ acc.visited

def Nobody (_ : Pointer) : Prop := False

def Asks (document : Json) (ask : Pointer → Pointer → Builder Id) : Prop :=
  ∀ source p a, Standing document p → Sound document a →
    Leaves (Moved document Nobody a) (fun _ _ => True) (ask source p a)

theorem Moved.visited (h : Moved document Nobody a a') (known : owner ∈ Entries.keys a.table)
    (visited : Visited owner acc a) : Visited owner acc a' := by
  intro r
  refine ⟨fun member => ?_, fun member => h.before _ ((visited r).mpr member)⟩
  rcases h.since _ member with member | fresh | none
  · exact (visited r).mp member
  · exact absurd known fresh
  · exact none.elim

/-- A run that goes on merging for an owner. -/
abbrev Merging (document : Json) (owner : Pointer) (a : Arena) :
    EStateM.Result SpecError Arena Merged → Prop :=
  Leaves (Moved document (· = owner) a) (Visited owner)

theorem Merging.bind {x : Builder Merged} {f : Merged → Builder Merged}
    (h : Merging document owner a (x a)) (known : owner ∈ Entries.keys a.table)
    (rest : ∀ acc a', Sound document a' → owner ∈ Entries.keys a'.table → Visited owner acc a' →
      Merging document owner a' (f acc a')) : Merging document owner a ((x >>= f) a) := by
  refine Leaves.bind h fun acc a' moved visited => ?_
  have later := rest acc a' moved.sound (moved.kept _ known) visited
  exact later.imp (fun _ => moved.trans) fun _ _ _ => id

theorem Merging.foldlM {α : Type} {f : Merged → α → Builder Merged} {xs : List α}
    (each : ∀ x ∈ xs, ∀ acc a, Sound document a → owner ∈ Entries.keys a.table → Visited owner acc a →
      Merging document owner a (f acc x a))
    (sound : Sound document a) (known : owner ∈ Entries.keys a.table) (visited : Visited owner acc a) :
    Merging document owner a (xs.foldlM f acc a) := by
  induction xs generalizing a acc with
  | nil => exact .ok (.refl sound) visited
  | cons x rest ih =>
    rw [List.foldlM_cons]
    exact Merging.bind (each x List.mem_cons_self acc a sound known visited) known
      fun acc a => ih fun y member => each y (List.mem_cons_of_mem x member)

theorem own_leaves (asks : Asks document ask) (standing : Standing document q) {name : String}
    (own : name ∈ propertyNames (membersAt document q)) (sound : Sound document a)
    (known : owner ∈ Entries.keys a.table) (visited : Visited owner acc a) :
    Merging document owner a (mergeOwn ask q acc name a) := by
  have listed : (name, ownPlace q name) ∈ ownProperties document q := by
    rw [ownProperties_eq]
    exact List.mem_map_of_mem own
  have asked : Leaves (Moved document (· = owner) a) (fun _ => Visited owner acc)
      (ask q (ownPlace q name) a) :=
    (asks q _ a ((standing_passed document).property standing listed) sound).imp (fun _ moved => moved.mono fun _ => False.elim)
      fun _ _ moved _ => moved.visited known visited
  exact asked.bind fun id a' moved visited => .ok moved visited

theorem Visited.enter (visited : Visited owner acc a) : Visited owner
    { acc with visited := q :: acc.visited } (a.note (.merge owner q)) := by
  intro r
  rw [merges_note, List.mem_append, visited r, List.mem_cons, or_comm]
  refine or_congr_left ?_
  show (owner, r) ∈ [(owner, q)] ↔ r = q
  rw [List.mem_singleton, Prod.mk.injEq]
  exact and_iff_right rfl

theorem Moved.merge (sound : Sound document a) (known : owner ∈ Entries.keys a.table)
    (spot : q ∈ spots document) (fresh : (owner, q) ∉ merges a.journal) :
    Moved document (· = owner) a (a.note (.merge owner q)) := by
  refine ⟨sound.merge known spot fresh, fun _ => id, fun e member => ?_, fun e member => ?_⟩
  · rw [merges_note]
    exact List.mem_append_left _ member
  · rw [merges_note] at member
    rcases List.mem_append.mp member with member | last
    · exact .inl member
    · rw [List.mem_singleton.mp last]
      exact .inr (.inr rfl)

theorem merge_leaves (asks : Asks document ask) (deep : placeLimit document ≤ limit)
    (standing : Standing document q) (sound : Sound document a) (known : owner ∈ Entries.keys a.table)
    (visited : Visited owner acc a) : Merging document owner a
      (merge document limit ask owner fuel (membersAt document q) q acc a) := by
  induction fuel generalizing q acc a with
  | zero => exact .error (.refl sound)
  | succ fuel ih =>
    rw [merge_succ]
    split
    · exact .ok (.refl sound) visited
    · rename_i fresh
      have moved : Moved document (· = owner) a (a.note (.merge owner q)) :=
        .merge sound known standing.spot fun member => fresh ((visited q).mp member)
      have parts : ∀ part ∈ (allOf (membersAt document q)).zipIdx, ∀ acc a, Sound document a →
          owner ∈ Entries.keys a.table → Visited owner acc a →
          Merging document owner a (mergePart document limit ask owner fuel q acc part a) := by
        intro part member acc a sound known visited
        have present := List.mem_zipIdx_iff_getElem?.mp member
        rw [mergePart_eq deep present]
        cases placed : partPlace document q part.2 part.1 with
        | error e => exact .error (.refl sound)
        | ok place => exact ih ((standing_passed document).part standing present placed) sound known visited
      rw [Builder.modify_bind]
      refine Leaves.imp (Merging.bind (Merging.foldlM parts moved.sound known visited.enter) known
        fun acc a sound known visited => Merging.bind (Merging.foldlM (fun name own acc a =>
          own_leaves asks standing own) sound known visited) known
          fun acc a sound known visited => .ok (.refl sound) visited)
        (fun _ => moved.trans) fun _ _ _ => id

/-- What reading does where no reference hides the rest: nothing, or it merges, or asks for the items. -/
theorem readNode_direct {ms : Members} (direct : Entries.get? "$ref" ms = none) :
    (∃ k, readNode document naming limit ask p (.object ms) = pure (nodeOf p (.object ms) k)) ∨
    (∃ k : Merged → Kind Id, readNode document naming limit ask p (.object ms) =
      merge document limit ask p limit ms p ⟨[], .empty, []⟩ >>= fun merged =>
        pure (nodeOf p (.object ms) (k merged))) ∨
    ∃ q, itemsPlace? p ms = some q ∧ readNode document naming limit ask p (.object ms) =
      ask p q >>= fun id => pure (nodeOf p (.object ms) (.array (some id))) := by
  simp only [readNode, direct]
  split
  · exact .inl ⟨_, rfl⟩
  · exact .inr (.inl ⟨fun merged => .object ⟨merged.properties, merged.required, discriminator ms,
      ((Entries.get? "x-model" ms).bind Json.string?).or (Entries.get? p naming)⟩, rfl⟩)
  · split
    · rename_i q placed
      exact .inr (.inr ⟨q, placed, rfl⟩)
    · exact .inl ⟨_, rfl⟩
  · exact .inl ⟨_, rfl⟩
  · split
    · exact .inl ⟨_, rfl⟩
    · exact .inl ⟨_, rfl⟩

theorem readNode_leaves (asks : Asks document ask) (deep : placeLimit document ≤ limit)
    (standing : Standing document p) (found : p.find? document = some raw) (sound : Sound document a)
    (known : p ∈ Entries.keys a.table) (unmerged : Visited p ⟨[], .empty, []⟩ a) :
    Leaves (Moved document (· = p) a) (fun _ _ => True)
      (readNode document naming limit ask p raw a) := by
  have asked : ∀ (q : Pointer) (k : Id → Kind Id), Standing document q →
      Leaves (Moved document (· = p) a) (fun _ _ => True)
        ((ask p q >>= fun id => pure (nodeOf p raw (k id))) a) := by
    intro q k standing
    have asked : Leaves (Moved document (· = p) a) (fun _ _ => True) (ask p q a) :=
      (asks p q a standing sound).imp (fun _ moved => moved.mono fun _ => False.elim) fun _ _ _ => id
    exact asked.bind fun _ _ moved _ => .ok moved trivial
  cases raw with
  | object ms =>
    cases referring : Entries.get? "$ref" ms with
    | some reference =>
      simp only [readNode, referring]
      cases aimed : target p reference with
      | error e => exact .error (.refl sound)
      | ok q =>
        exact asked q .ref ((standing_passed document).named q
          (target_referenced aimed (reference_within found referring)))
    | none =>
      rcases @readNode_direct document naming limit p ask ms referring with ⟨k, read⟩ | ⟨k, read⟩ | ⟨q, placed, read⟩
      · rw [read]
        exact .ok (.refl sound) trivial
      · have own : membersAt document p = ms := by rw [membersAt, found]
        have merged : Merging document p a
            (merge document limit ask p limit (membersAt document p) p ⟨[], .empty, []⟩ a) :=
          merge_leaves asks deep standing sound known unmerged
        rw [own] at merged
        rw [read]
        exact Leaves.bind merged fun _ _ moved _ => .ok moved trivial
      · obtain ⟨rfl, v, listed⟩ := items_place placed
        rw [read]
        exact asked _ (fun id => .array (some id)) (standing.child found listed (.inl (by decide)))
  | bool b => exact .ok (.refl sound) trivial
  | _ => exact .error (.refl sound)

theorem request_leaves (deep : placeLimit document ≤ limit) (fuel : Nat) :
    Asks document (request document naming limit fuel) := by
  induction fuel with
  | zero => exact fun _ _ _ _ sound => .error (.refl sound)
  | succ fuel ih =>
    intro source p a standing sound
    have noted := sound.ask standing
    have start : Moved document Nobody a (a.note (.ask p)) :=
      .unmerged noted (fun _ => id) (merges_ask p a)
    rw [request_succ]
    cases listed : Entries.get? p a.table with
    | some id => exact .ok start trivial
    | none =>
      cases found : p.find? document with
      | none => exact .error start
      | some raw =>
        have fresh : p ∉ Entries.keys a.table := (Entries.get?_eq_none_iff p a.table).mp listed
        have asked : .ask p ∈ (a.note (.ask p)).journal :=
          List.mem_append_right _ (List.mem_singleton_self _)
        have same : merges (((a.note (.ask p)).reserve p).note (.read p)).journal = merges a.journal :=
          (merges_read p _).trans (merges_ask p a)
        have keys : Entries.keys (((a.note (.ask p)).reserve p).note (.read p)).table =
            Entries.keys a.table ++ [p] := List.map_append
        have reserved : Moved document Nobody a (((a.note (.ask p)).reserve p).note (.read p)) := by
          refine .unmerged (noted.read fresh asked) (fun q known => ?_) same
          rw [keys]
          exact List.mem_append_left _ known
        have known : p ∈ Entries.keys (((a.note (.ask p)).reserve p).note (.read p)).table := by
          rw [keys]
          exact List.mem_append_right _ (List.mem_singleton_self p)
        have unmerged : Visited p ⟨[], .empty, []⟩ (((a.note (.ask p)).reserve p).note (.read p)) := by
          intro r
          rw [same]
          exact ⟨fun member => absurd (sound.owned _ member) fresh, nofun⟩
        have read : Leaves (Moved document (· = p) (((a.note (.ask p)).reserve p).note (.read p)))
            (fun _ _ => True) (readNode document naming limit (request document naming limit fuel) p raw
              (((a.note (.ask p)).reserve p).note (.read p))) :=
          readNode_leaves ih deep standing found reserved.sound known unmerged
        have owned : Leaves (Moved document Nobody a) (fun _ _ => True) _ :=
          read.imp (fun _ moved => reserved.own fresh moved) fun _ _ _ => id
        dsimp only
        rw [Builder.modify_bind, Builder.modify_bind]
        refine Leaves.bind owned fun n a' moved _ => ?_
        exact .ok ⟨moved.sound.fill _ n, moved.kept, moved.before, moved.since⟩ trivial

theorem assemble_leaves (naming : Naming) (deep : placeLimit document ≤ limit) :
    Leaves (Sound document) (fun _ _ => True) (assemble document naming limit .empty) := by
  have all : ∀ (ps : List Pointer) a, (∀ p ∈ ps, Standing document p) → Sound document a →
      Leaves (Sound document) (fun _ _ => True)
        (ps.forM (fun p => discard (request document naming limit limit p p)) a) := by
    intro ps
    induction ps with
    | nil => exact fun a _ sound => .ok sound trivial
    | cons p rest ih =>
      intro a standing sound
      have first : Leaves (Sound document) (fun _ _ => True) (request document naming limit limit p p a) :=
        (request_leaves deep limit p p a (standing p List.mem_cons_self) sound).imp
          (fun _ moved => moved.sound) fun _ _ _ => id
      have dropped : Leaves (Sound document) (fun _ _ => True)
          ((discard (request document naming limit limit p p) : Builder Unit) a) :=
        first.bind fun _ _ sound _ => .ok sound trivial
      exact dropped.bind fun _ a sound _ =>
        ih a (fun q member => standing q (List.mem_cons_of_mem p member)) sound
  exact all _ _ (fun p root => standing_start (List.mem_append_left _ root)) (empty_sound document)

end Runs

section Outcome
variable {α : Type} {document : Json} {naming : Naming} {order : List Pointer} {a : Arena}
  {r : EStateM.Result SpecError Arena α}

/-- How a run ends, and the arena that it leaves. -/
def Arena.outcome : EStateM.Result SpecError Arena α → Except SpecError α × Arena
  | .ok v a => (.ok v, a)
  | .error e a => (.error e, a)

theorem Leaves.outcome {always : Arena → Prop} {holds : α → Arena → Prop} (h : Leaves always holds r) :
    always (Arena.outcome r).2 := by
  cases h with
  | ok left => exact left
  | error left => exact left

theorem Ends.outcome {holds : List Pointer → Unit → Prop} {n : Except SpecError (List Pointer)}
    {r : EStateM.Result SpecError Arena Unit} (h : Ends document naming order a holds r n) :
    (Arena.outcome r).1 = n.map fun _ => () := by
  cases h with
  | ok => rfl
  | error => rfl

end Outcome
end ApiPayload.Schema

namespace ApiPayload.Spec

open Schema

/-- Reading a document comes to an end, with or without a fault, whatever circles its references make:
a deeper recursion changes nothing, each place that is asked for is a root or is named by a reference
or stands below one of these, and nothing is read twice or merged twice for one owner. -/
theorem assembly_terminates (document : Json) (naming : Naming) : ∃ ended left,
    (∀ limit, placeLimit document ≤ limit →
      Arena.outcome (assemble document naming limit .empty) = (ended, left)) ∧
    ended = (numbering document).map (fun _ => ()) ∧ (∀ e, ended = .error e → ¬ cutOff e) ∧
    (∀ p, .ask p ∈ left.journal → ∃ start ∈ roots document ++ referenced document,
      p = start ∨ ∃ v, start.find? document = some v ∧ p ∈ v.places start) ∧
    (reads left.journal).Nodup ∧ (reads left.journal).length < placeLimit document ∧
    (merges left.journal).Nodup ∧ ∀ e ∈ merges left.journal,
      e.1 ∈ reads left.journal ∧ e.2 ∈ spots document := by
  have sound := (assemble_leaves naming (Nat.le_refl (placeLimit document))).outcome
  have ends := (assemble_ends naming (Nat.le_refl (placeLimit document))).outcome
  refine ⟨_, _, fun limit deep => ?_, ends, fun e failed cut => ?_,
    fun p asked => mem_spots.mp (sound.asked p asked), sound.reads_nodup, sound.length_reads,
    sound.merged, fun e merged => ⟨sound.listed ▸ sound.owned e merged, sound.standing e merged⟩⟩
  · rw [assemble_deeper deep]
  · cases ran : assemble document naming (placeLimit document) .empty with
    | ok => rw [ran] at failed; cases failed
    | error other a =>
      rw [ran] at failed
      cases failed
      exact assemble_not_cutOff ran cut

end ApiPayload.Spec
