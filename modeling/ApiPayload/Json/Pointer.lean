import ApiPayload.Json.Basic

/-
JSON pointers. A pointer is its list of reference tokens as written, so two spellings of one place
stay apart; tokens are decoded on the way into a document.
-/
namespace ApiPayload

structure Pointer where
  tokens : List String
  deriving DecidableEq, Inhabited

namespace Pointer

def escapeChar (c : Char) : List Char :=
  if c = '~' then ['~', '0'] else if c = '/' then ['~', '1'] else [c]

def escape (key : String) : String := String.ofList (key.toList.flatMap escapeChar)

def unescapeChars : List Char → List Char
  | '~' :: '1' :: rest => '/' :: unescapeChars rest
  | '~' :: '0' :: rest => '~' :: unescapeChars rest
  | c :: rest => c :: unescapeChars rest
  | [] => []

/-- The key that a token names; a tilde before any other character stands for itself. -/
def unescape (token : String) : String := String.ofList (unescapeChars token.toList)

def root : Pointer := ⟨[]⟩

def child (p : Pointer) (key : String) : Pointer := ⟨p.tokens ++ [escape key]⟩

def item (p : Pointer) (i : Nat) : Pointer := ⟨p.tokens ++ [toString i]⟩

def text (p : Pointer) : String :=
  String.ofList (p.tokens.flatMap fun t => '/' :: t.toList)

/-- The parts between slashes; there is one more part than slashes. -/
def splitSlashes : List Char → List (List Char)
  | [] => [[]]
  | c :: rest =>
    if c = '/' then [] :: splitSlashes rest
    else match splitSlashes rest with
      | part :: parts => (c :: part) :: parts
      | [] => [[c]]

def ofParts (cs : List Char) : Pointer := ⟨(splitSlashes cs).map String.ofList⟩

def ofChars? : List Char → Option Pointer
  | [] => some root
  | '/' :: rest => some (ofParts rest)
  | _ => none

def ofText? (s : String) : Option Pointer := ofChars? s.toList

def hashless (s : String) : List Char := s.toList.dropWhile (· = '#')

/-- The place that a fragment names, its leading marks ignored. -/
def ofFragment (s : String) : Pointer :=
  match (hashless s).dropWhile (· = '/') with
  | [] => root
  | cs => ofParts cs

/-- A decimal array index; a plus sign may come first. -/
def indexOf? (token : String) : Option Nat :=
  let ds := match token.toList with
    | '+' :: rest => rest
    | cs => cs
  if ds.isEmpty ∨ ¬ ds.all Char.isDigit then none
  else some (ds.foldl (fun n d => n * 10 + (d.toNat - '0'.toNat)) 0)

def step (token : String) : Json → Option Json
  | .array xs => (indexOf? (unescape token)).bind (xs[·]?)
  | .object ms => Entries.get? (unescape token) ms
  | _ => none

def walk : List String → Json → Option Json
  | [], v => some v
  | t :: ts, v => (step t v).bind (walk ts)

/-- The value at a pointer. Empty tokens in front lead nowhere and are passed over. -/
def find? (p : Pointer) (document : Json) : Option Json :=
  walk (p.tokens.dropWhile (· = "")) document

def label (p : Pointer) : String := "#" ++ p.text

end Pointer
end ApiPayload
