import Patterns.Operations.Search
import Patterns.Operations.Template

/-!
# Replacing matches

What lies between the matches stays as it is. While matches are replaced the cursor of a global
matcher stands at the end of the match at hand.
-/
namespace Patterns
open Patterns.Text

/-- What to look for: a literal text, or the matches of a matcher. -/
inductive Needle where
  | text (t : String)
  | matcher (m : Matcher)

namespace Needle

def toMatcher : Needle → Except Error Matcher
  | .text t => Matcher.literal t
  | .matcher m => .ok m

end Needle

inductive Replacement where
  | template (text : String)
  /-- A function of the match and of the cursor; it may move the cursor. -/
  | function (f : {s : Subject} → Match s → (cursor : Nat) → String × Nat)

/-- What is written for a match, and the cursor after that. -/
def Replacement.write {s : Subject} (m : Match s) (cursor : Nat) :
    Replacement → Except Error (String × Nat)
  | .template text => (Template.expand text m).map (·, cursor)
  | .function f => .ok (f m cursor)

inductive ReplaceScope where
  | one | all
  deriving DecidableEq, Repr

namespace Matcher

variable {s : Subject}

/-- The text from position `last` on with its matches replaced, or the first error; and the
cursor after the last match that was tried. -/
def substitute (m : Matcher) (r : Replacement) :
    (found : List (Match s)) → (last cursor : Nat) → Except Error String × Nat
  | [], last, cursor => (.ok (s.slice last s.size), cursor)
  | found :: rest, last, cursor =>
    let cursor := if m.global then found.byteStop else cursor
    match r.write found cursor with
    | .error e => (.error e, cursor)
    | .ok (text, cursor) =>
      let (others, cursor) := m.substitute r rest found.stop cursor
      (others.map fun others => s.slice last found.start ++ text ++ others, cursor)

def replace (m : Matcher) (s : Subject) (r : Replacement) (all : Bool) : Outcome String :=
  let run := if all then m.run s else m.runOnce s
  match m.substitute r run.found 0 m.cursor with
  | (.error e, cursor) => ⟨.error e, cursor⟩
  | (.ok text, cursor) =>
    match run.failure with
    | some e => ⟨.error e, cursor⟩
    | none => ⟨.ok text, if m.global then 0 else cursor⟩

end Matcher

/-- Replaces the first match or all matches. Without a scope a global matcher replaces all of
them, and a literal text is replaced once. -/
def replace (s : Subject) (needle : Needle) (r : Replacement) (scope : Option ReplaceScope) :
    Outcome String :=
  match needle.toMatcher with
  | .error e => ⟨.error e, 0⟩
  | .ok m =>
    let all := match scope with
      | some scope => scope == .all
      | none => m.global
    m.replace s r all

structure ReplaceStep where
  needle : Needle
  replacement : Replacement
  scope : Option ReplaceScope

/-- Runs each step over the text that the one before it made; also the cursors that the steps
leave. -/
def replaceEach (text : String) : List ReplaceStep → Except Error String × List Nat
  | [] => (.ok text, [])
  | step :: steps =>
    let o := replace (.ofString text) step.needle step.replacement step.scope
    match o.result with
    | .error e => (.error e, [o.cursor])
    | .ok text =>
      let (result, cursors) := replaceEach text steps
      (result, o.cursor :: cursors)

end Patterns
