import Patterns.Matcher

/-!
# The matches of a subject

Every iterating operation visits the same matches: the first search starts at the front, and each
later one where the match before it ended, or a character further when that match was empty. A
search that fails ends the run, after the matches before it.
-/
namespace Patterns
open Patterns.Text

/-- The result of an operation, and the cursor of its matcher afterwards. -/
structure Outcome (α : Type) where
  result : Except Error α
  cursor : Nat

structure MatchRun (s : Subject) where
  found : List (Match s)
  failure : Option Error

namespace MatchRun

variable {s : Subject}

def nil : MatchRun s := ⟨[], none⟩

def cons (m : Match s) (r : MatchRun s) : MatchRun s := { r with found := m :: r.found }

def close (r : MatchRun s) : Except Error Unit :=
  match r.failure with
  | none => .ok ()
  | some e => .error e

end MatchRun

namespace Matcher

/-- The matches from position `i` on. -/
def runFrom (m : Matcher) (s : Subject) (i : Nat) : MatchRun s :=
  if _h : i ≤ s.size then
    match m.searchAt s i m.sticky with
    | .error e => ⟨[], some e⟩
    | .ok none => .nil
    | .ok (some ⟨found, _⟩) => .cons found (m.runFrom s found.resume)
  else .nil
  termination_by s.size + 1 - i
  decreasing_by
    have := found.start_lt_resume
    omega

def run (m : Matcher) (s : Subject) : MatchRun s := m.runFrom s 0

/-- The first match alone. -/
def runOnce (m : Matcher) (s : Subject) : MatchRun s :=
  match m.searchAt s 0 m.sticky with
  | .error e => ⟨[], some e⟩
  | .ok none => .nil
  | .ok (some ⟨found, _⟩) => ⟨[found], none⟩

end Matcher

end Patterns
