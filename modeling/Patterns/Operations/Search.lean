import Patterns.Operations.Run

/-!
# Searching and visiting

The cursor of a global matcher follows what its operations find; other cursors stay where they
are. No operation reads a cursor.
-/
namespace Patterns
open Patterns.Text

inductive MatchScope where
  | one | all
  deriving DecidableEq, Repr

inductive Matched where
  | one (text : Option String)
  | all (texts : List String)
  deriving DecidableEq, Repr

/-- A match as a callback sees it. -/
structure Visit (s : Subject) where
  found : Match s
  ordinal : Nat
  cursor : Nat

namespace Matcher

/-- Where the cursor goes when an operation ends well. -/
def settled (m : Matcher) (cursor : Nat) : Nat := if m.global then cursor else m.cursor

/-- Searches from a byte offset. -/
def exec (m : Matcher) (s : Subject) (byte : Nat) (sticky : Bool) : Outcome (Option (Match s)) :=
  match m.searchFrom s byte (sticky || m.sticky) with
  | .error e => ⟨.error e, m.cursor⟩
  | .ok found => ⟨.ok found, m.settled ((found.map (·.byteStop)).getD 0)⟩

def test (m : Matcher) (s : Subject) (byte : Nat) (sticky : Bool) : Outcome Bool :=
  let o := m.exec s byte sticky
  ⟨o.result.map Option.isSome, o.cursor⟩

/-- The text of the first match, or of every match; a global matcher asks for every match. -/
def matchScoped (m : Matcher) (s : Subject) (scope : Option MatchScope) : Outcome Matched :=
  match scope.getD (if m.global then .all else .one) with
  | .one =>
    let o := m.exec s 0 false
    ⟨o.result.map fun found => .one (found.map (·.text)), o.cursor⟩
  | .all =>
    let run := m.run s
    match run.failure with
    | some e => ⟨.error e, m.cursor⟩
    | none => ⟨.ok (.all (run.found.map (·.text))), m.settled 0⟩

/-- Visits matches in order; the callback may move the cursor. -/
def visitAll {s : Subject} (m : Matcher) (callback : Visit s → Nat) :
    List (Match s) → (ordinal cursor : Nat) → List (Visit s) × Nat
  | [], _, cursor => ([], cursor)
  | found :: rest, ordinal, cursor =>
    let visit : Visit s := ⟨found, ordinal, if m.global then found.byteStop else cursor⟩
    let (visits, cursor) := m.visitAll callback rest (ordinal + 1) (callback visit)
    (visit :: visits, cursor)

/-- Visits every match; `callback` gives the cursor that it leaves. -/
def forEach (m : Matcher) (s : Subject) (callback : Visit s → Nat) : Outcome (List (Visit s)) :=
  let run := m.run s
  let (visits, cursor) := m.visitAll callback run.found 0 m.cursor
  match run.failure with
  | some e => ⟨.error e, cursor⟩
  | none => ⟨.ok visits, if m.global then 0 else cursor⟩

end Matcher

end Patterns
