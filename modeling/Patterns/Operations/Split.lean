import Patterns.Operations.Replace

/-!
# Splitting a subject

The pieces are the texts between separators; the groups of a separator come after the piece before
it. An empty separator splits between characters and never off an empty piece.
-/
namespace Patterns
open Patterns.Text

abbrev Pieces := List (Option String)

/-- A split under way: the pieces so far, where the last separator ended and how long it was. -/
structure Cut where
  pieces : Pieces
  last : Nat
  length : Nat

/-- What a separator adds. -/
def Cut.add {s : Subject} (c : Cut) (found : Match s) : Cut :=
  let groups := if found.start < s.size then found.groupTexts else []
  ⟨c.pieces ++ some (s.slice c.last found.start) :: groups, found.stop, found.stop - found.start⟩

namespace Matcher

/-- Cuts at the separators from position `i` on, until there are enough pieces. -/
def cutFrom (m : Matcher) (s : Subject) (enough : Nat → Bool) (i : Nat) (c : Cut) :
    Except Error Cut :=
  if _h : i ≤ s.size then
    match m.searchAt s i false with
    | .error e => .error e
    | .ok none => .ok c
    | .ok (some ⟨found, _⟩) =>
      if c.last < found.stop then
        let c := c.add found
        if enough c.pieces.length then .ok c else m.cutFrom s enough found.resume c
      else m.cutFrom s enough found.resume c
  else .ok c
  termination_by s.size + 1 - i
  decreasing_by
    all_goals
      have := found.start_lt_resume
      omega

/-- The last piece; an empty one stands only behind a separator that is not empty, or where the
separator does not match empty text. -/
def lastPiece (m : Matcher) (s : Subject) (c : Cut) : Except Error Pieces :=
  if c.last = s.size then
    if c.length > 0 then .ok [some ""]
    else do
      match ← m.searchAt (.ofString "") 0 false with
      | none => return [some ""]
      | some _ => return []
  else .ok [some (s.slice c.last s.size)]

def split (m : Matcher) (s : Subject) (limit : Option Nat) : Except Error Pieces :=
  if limit = some 0 then .ok []
  else do
    let c ← m.cutFrom s (fun n => limit.any (· ≤ n)) 0 ⟨[], 0, 0⟩
    let pieces := c.pieces ++ (← m.lastPiece s c)
    return match limit with
      | some n => pieces.take n
      | none => pieces

end Matcher

def split (s : Subject) (needle : Needle) (limit : Option Nat) : Except Error Pieces := do
  (← needle.toMatcher).split s limit

end Patterns
