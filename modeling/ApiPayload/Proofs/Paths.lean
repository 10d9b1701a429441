import ApiPayload.Proofs.Locations

/-
Paths and the pointers that are written for them. A pointer does not say which of its tokens are keys and
which are indices, so what it leads to is what stands at the end of some path that it can be understood
as.
-/
namespace ApiPayload.Pointer

section Replacing

/-- Each pair of two characters becomes one character, from left to right. -/
def replacePair (first second merged : Char) : List Char → List Char
  | x :: y :: rest =>
    if x = first ∧ y = second then merged :: replacePair first second merged rest
    else x :: replacePair first second merged (y :: rest)
  | cs => cs

variable {first second merged c : Char}

theorem replacePair_cons (other : c ≠ first) (cs : List Char) :
    replacePair first second merged (c :: cs) = c :: replacePair first second merged cs := by
  cases cs with
  | nil => rfl
  | cons d rest => rw [replacePair, if_neg fun same => other same.1]

theorem replacePair_pair (rest : List Char) :
    replacePair first second merged (first :: second :: rest) = merged :: replacePair first second merged rest := by
  rw [replacePair, if_pos ⟨rfl, rfl⟩]

theorem replacePair_lone {cs : List Char} (apart : cs.head? ≠ some second) :
    replacePair first second merged (first :: cs) = first :: replacePair first second merged cs := by
  cases cs with
  | nil => rfl
  | cons d rest =>
    rw [replacePair, if_neg]
    rintro ⟨_, rfl⟩
    exact apart rfl

/-- A replacement brings no character to the front but the one that it puts in. -/
theorem head?_replacePair {cs : List Char} (apart : cs.head? ≠ some c) (other : merged ≠ c) :
    (replacePair first second merged cs).head? ≠ some c := by
  unfold replacePair
  split
  · split
    · exact fun same => other (Option.some.inj same)
    · exact apart
  · exact apart

/-- Decoding in one pass is decoding the slashes first and then the tildes. -/
theorem unescapeChars_eq (cs : List Char) :
    unescapeChars cs = replacePair '~' '0' '~' (replacePair '~' '1' '/' cs) := by
  induction cs using unescapeChars.induct with
  | case1 rest ih => rw [unescapeChars, replacePair_pair, replacePair_cons (by decide), ih]
  | case2 rest ih =>
    rw [unescapeChars, replacePair_lone (by simp), replacePair_cons (c := '0') (by decide),
      replacePair_pair, ih]
  | case3 c rest slash tilde ih =>
    have kept : unescapeChars (c :: rest) = c :: unescapeChars rest := by
      rw [unescapeChars]
      · exact slash
      · exact tilde
    rw [kept]
    by_cases mark : c = '~'
    · subst mark
      have no_slash : rest.head? ≠ some '1' := by
        rintro head
        obtain ⟨after, rfl⟩ := List.head?_eq_some_iff.mp head
        exact slash after rfl rfl
      have no_tilde : rest.head? ≠ some '0' := by
        rintro head
        obtain ⟨after, rfl⟩ := List.head?_eq_some_iff.mp head
        exact tilde after rfl rfl
      rw [replacePair_lone no_slash, replacePair_lone (head?_replacePair no_tilde (by decide)), ih]
    · rw [replacePair_cons mark, replacePair_cons mark, ih]
  | case4 => rfl

/-- Escaping in one pass is escaping the tildes first and then the slashes. -/
theorem escapeChars_eq (cs : List Char) : cs.flatMap escapeChar =
    (cs.flatMap fun c => if c = '~' then ['~', '0'] else [c]).flatMap
      fun c => if c = '/' then ['~', '1'] else [c] := by
  rw [List.flatMap_assoc]
  refine congrArg (fun f => cs.flatMap f) (funext fun c => ?_)
  unfold escapeChar
  split
  · rfl
  · rw [List.flatMap_singleton]

end Replacing

/-- The value that a step leads to. -/
def Branch.enter? : Branch → Json → Option Json
  | member key, .object ms => Entries.get? key ms
  | item i, .array xs => xs[i]?
  | _, _ => none

/-- The value at the end of a path. A path that has none leaves the document. -/
def valueAt? : List Branch → Json → Option Json
  | [], v => some v
  | b :: path, v => (b.enter? v).bind (valueAt? path)

/-- What a written step can be understood as: itself, a key the index that it spells, with a plus sign or
zeros in front or without, and an index the key that spells it. -/
inductive Branch.Understood : Branch → Branch → Prop where
  | same (b : Branch) : Understood b b
  | index {key : String} {i : Nat} (spells : indexOf? key = some i) : Understood (member key) (item i)
  | key (i : Nat) : Understood (item i) (member (toString i))

variable {document v x : Json} {path read : List Branch} {b : Branch}

theorem isDigit_of_mem_toString {i : Nat} {c : Char} (member : c ∈ (toString i).toList) :
    c.isDigit = true := by
  rw [show toString i = i.repr from rfl, Nat.repr_eq_ofList_toDigits, String.toList_ofList] at member
  exact Nat.isDigit_of_mem_toDigits (by decide) (by decide) member

theorem unescape_toString (i : Nat) : unescape (toString i) = toString i := by
  have plain : '~' ∉ (toString i).toList := fun member =>
    absurd (isDigit_of_mem_toString member) (by decide)
  rw [unescape, unescapeChars_plain plain, String.ofList_toList]

theorem escape_toString (i : Nat) : escape (toString i) = toString i := by
  have plain : (toString i).toList.flatMap escapeChar = (toString i).toList.flatMap fun c => [c] := by
    refine List.flatMap_congr fun c member => ?_
    have digit := isDigit_of_mem_toString member
    rw [escapeChar, if_neg, if_neg]
    · rintro rfl
      exact absurd digit (by decide)
    · rintro rfl
      exact absurd digit (by decide)
  rw [escape, plain, List.flatMap_singleton', String.ofList_toList]

theorem step_token : step b.token v = some x ↔ ∃ c, b.Understood c ∧ c.enter? v = some x := by
  constructor
  · intro found
    cases v with
    | array xs =>
      obtain ⟨i, spells, present⟩ := Option.bind_eq_some_iff.mp found
      cases b with
      | member key =>
        rw [Branch.token, unescape_escape] at spells
        exact ⟨.item i, .index spells, present⟩
      | item j =>
        rw [Branch.token, indexOf?_toString] at spells
        cases spells
        exact ⟨_, .same _, present⟩
    | object ms =>
      cases b with
      | member key =>
        rw [step, Branch.token, unescape_escape] at found
        exact ⟨.member key, .same _, found⟩
      | item j =>
        rw [step, Branch.token, unescape_toString] at found
        exact ⟨.member (toString j), .key j, found⟩
    | _ => cases found
  · rintro ⟨c, understood, found⟩
    cases understood with
    | same =>
      cases b with
      | member key =>
        cases v with
        | object ms => rwa [step, Branch.token, unescape_escape]
        | _ => cases found
      | item i =>
        cases v with
        | array xs => rwa [step, Branch.token, indexOf?_toString]
        | _ => cases found
    | index spells =>
      cases v with
      | array xs => rwa [step, Branch.token, unescape_escape, spells]
      | _ => cases found
    | key i =>
      cases v with
      | object ms => rwa [step, Branch.token, unescape_toString]
      | _ => cases found

theorem walk_tokens : walk (path.map Branch.token) document = some v ↔
    ∃ read, List.Forall₂ Branch.Understood path read ∧ valueAt? read document = some v := by
  induction path generalizing document with
  | nil =>
    constructor
    · intro found
      exact ⟨[], .nil, found⟩
    · rintro ⟨_, ⟨⟩, found⟩
      exact found
  | cons b rest ih =>
    rw [List.map_cons, walk, Option.bind_eq_some_iff]
    constructor
    · rintro ⟨x, first, later⟩
      obtain ⟨c, understood, enters⟩ := step_token.mp first
      obtain ⟨read, understoods, found⟩ := ih.mp later
      exact ⟨c :: read, .cons understood understoods, by rwa [valueAt?, enters]⟩
    · rintro ⟨_, understood, found⟩
      obtain ⟨c, read, first, others, rfl⟩ := List.forall₂_cons_left_iff.mp understood
      obtain ⟨x, enters, later⟩ := Option.bind_eq_some_iff.mp found
      exact ⟨x, step_token.mpr ⟨c, first, enters⟩, ih.mpr ⟨read, others, later⟩⟩

theorem token_eq_empty : b.token = "" ↔ b = .member "" := by
  constructor
  · intro empty
    cases b with
    | member key => rw [escape_injective (empty.trans (show "" = escape "" from rfl))]
    | item i => exact absurd empty (toString_ne_empty i)
  · rintro rfl
    rfl

theorem child_eq_child {p q : Pointer} {first second : String} (same : p.child first = q.child second) :
    p = q ∧ first = second := by
  obtain ⟨above, last⟩ := List.append_inj' (congrArg Pointer.tokens same) rfl
  exact ⟨congrArg Pointer.mk above, escape_injective (List.cons.inj last).1⟩

theorem spelled_plain (path : List Branch) : (spelled path).Plain := by
  intro t listed
  obtain ⟨b, _, rfl⟩ := List.mem_map.mp listed
  have root : root.Plain := fun _ => nofun
  cases b with
  | member key => exact root.child key _ (List.mem_singleton_self _)
  | item i => exact root.item i _ (List.mem_singleton_self _)

theorem find?_spelled : (spelled path).find? document = some v ↔ ∃ read,
    List.Forall₂ Branch.Understood (path.dropWhile (· = .member "")) read ∧
      valueAt? read document = some v := by
  have passed : (path.map Branch.token).dropWhile (· = "") =
      (path.dropWhile (· = .member "")).map Branch.token := by
    rw [List.dropWhile_map]
    refine congrArg (fun f => (path.dropWhile f).map Branch.token) (funext fun b => ?_)
    exact decide_eq_decide.mpr token_eq_empty
  rw [find?, spelled, passed, walk_tokens]

theorem dropWhile_named (named : path.head? ≠ some (.member "")) :
    path.dropWhile (· = .member "") = path := by
  cases path with
  | nil => rfl
  | cons b rest =>
    refine List.dropWhile_cons_of_neg ?_
    simpa using named

/-- A path leads where its pointer leads, as long as it does not start with an empty key. -/
theorem find?_of_valueAt (named : path.head? ≠ some (.member "")) (found : valueAt? path document = some v) :
    (spelled path).find? document = some v := by
  refine find?_spelled.mpr ⟨path, ?_, found⟩
  rw [dropWhile_named named]
  exact List.forall₂_same.mpr fun b _ => .same b

/-- Where keys spell no index but in its own way, steps that are understood otherwise are written alike. -/
theorem spelled_of_understood (spells : ∀ key i, .member key ∈ path → indexOf? key = some i → key = toString i)
    (understood : List.Forall₂ Branch.Understood path read) : spelled read = spelled path := by
  rw [spelled, spelled, Pointer.mk.injEq]
  induction understood with
  | nil => rfl
  | @cons b c rest others first _ ih =>
    have same : c.token = b.token := by
      cases first with
      | same => rfl
      | index spelled =>
        rw [spells _ _ List.mem_cons_self spelled, Branch.token, Branch.token, escape_toString]
      | key i => exact escape_toString i
    rw [List.map_cons, List.map_cons, same,
      ih fun key i member => spells key i (List.mem_cons_of_mem _ member)]

theorem hashless_label (p : Pointer) : hashless p.label = hashless p.text := by
  rw [hashless, hashless, label, String.toList_append]
  exact List.dropWhile_cons_of_pos (by decide)

theorem ofFragment_label (p : Pointer) : ofFragment p.label = ofFragment p.text := by
  rw [ofFragment, ofFragment, hashless_label]

/-- Keys are escaped and tokens are decoded by one replacement after another. A written path leads, with a
mark in front or without, to what stands at the end of a path that it can be understood as, empty keys in
front left out. So a path in the document that does not start with an empty key leads to its own value; and
one that leaves the document leads nowhere if no path in the document is written alike and none of its keys
spells an index with a plus sign or with zeros in front. -/
theorem path_read_back (document : Json) (path : List Branch) :
    (∀ key, (escape key).toList =
        (key.toList.flatMap fun c => if c = '~' then ['~', '0'] else [c]).flatMap
          (fun c => if c = '/' then ['~', '1'] else [c]) ∧
      (unescape key).toList = replacePair '~' '0' '~' (replacePair '~' '1' '/' key.toList)) ∧
    (ofFragment (spelled path).label).find? document = (ofFragment (spelled path).text).find? document ∧
    (∀ v, (ofFragment (spelled path).text).find? document = some v ↔ ∃ read,
      List.Forall₂ Branch.Understood (path.dropWhile (· = .member "")) read ∧
        valueAt? read document = some v) ∧
    (path.head? ≠ some (.member "") →
      (∀ v, valueAt? path document = some v →
        (ofFragment (spelled path).text).find? document = some v) ∧
      ((∀ key i, .member key ∈ path → indexOf? key = some i → key = toString i) →
        (∀ other, spelled other = spelled path → valueAt? other document = none) →
        (ofFragment (spelled path).text).find? document = none)) := by
  have leads := find?_ofFragment (spelled_plain path) document
  rw [ofFragment_label, leads]
  refine ⟨fun key => ?_, rfl, fun v => find?_spelled, fun named => ⟨fun v found => ?_, fun spells leaves => ?_⟩⟩
  · rw [escape, unescape, String.toList_ofList, String.toList_ofList]
    exact ⟨escapeChars_eq _, unescapeChars_eq _⟩
  · exact find?_of_valueAt named found
  · refine Option.eq_none_iff_forall_ne_some.mpr fun v found => ?_
    obtain ⟨read, understood, found⟩ := find?_spelled.mp found
    rw [dropWhile_named named] at understood
    rw [leaves read (spelled_of_understood spells understood)] at found
    cases found

/-- A cabinet with labels that are hard to write in a pointer. -/
def cabinet : Json := .object [
  ("#", .object [("", .object [("~1/", .array [.null, .object [("0", .bool true), ("01", .null)]])])])]

theorem path_read_back_in_cabinet :
    let path : List Branch := [.member "#", .member "", .member "~1/", .item 1, .member "0"]
    (spelled path).text = "/#//~01~1/1/0" ∧ path.head? ≠ some (.member "") ∧
      valueAt? path cabinet = some (.bool true) ∧
      (ofFragment "/#//~01~1/1/0").find? cabinet = some (.bool true) ∧
      (ofFragment "#/#//~01~1/1/0").find? cabinet = some (.bool true) := by
  intro path
  have written : (spelled path).text = "/#//~01~1/1/0" := by decide +kernel
  have marked : (spelled path).label = "#/#//~01~1/1/0" := by decide +kernel
  have stands : valueAt? path cabinet = some (.bool true) := by decide +kernel
  have named : path.head? ≠ some (.member "") := by decide
  obtain ⟨_, alike, _, reads⟩ := path_read_back cabinet path
  have found := (reads named).1 _ stands
  rw [marked] at alike
  rw [written] at alike found
  exact ⟨written, named, stands, found, alike.trans found⟩

/-- An empty key in front is passed over: what stands under it is not found, the whole document is, and this
also where no such key is there. And a number with a zero in front is taken for an index. -/
theorem empty_key_passed_over :
    let dresser : Json := .object [("", .bool true)]
    let shelf : Json := .array [.null, .bool true]
    valueAt? [.member ""] dresser = some (.bool true) ∧
      (ofFragment (spelled [.member ""]).text).find? dresser = some dresser ∧
      dresser ≠ .bool true ∧
      valueAt? [.member ""] shelf = none ∧
      (ofFragment (spelled [.member ""]).text).find? shelf = some shelf ∧
      (∀ path, spelled path = spelled [.member "01"] → valueAt? path shelf = none) ∧
      (ofFragment (spelled [.member "01"]).text).find? shelf = some (.bool true) := by
  intro dresser shelf
  refine ⟨by decide +kernel, by decide +kernel, by decide, by decide, by decide +kernel, ?_,
    by decide +kernel⟩
  intro path same
  rw [spelled, spelled, Pointer.mk.injEq] at same
  obtain ⟨b, rfl, token⟩ := List.map_eq_singleton_iff.mp same
  cases b with
  | member key => rfl
  | item i =>
    have read := indexOf?_toString i
    rw [show toString i = "01" from token] at read
    have one : i = 1 := by
      have spelled_one : indexOf? (unescape "01") = some 1 := by decide +kernel
      exact Option.some.inj (read.symm.trans spelled_one)
    subst one
    exact absurd token (by decide)

end ApiPayload.Pointer
