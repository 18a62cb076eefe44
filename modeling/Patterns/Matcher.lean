import Patterns.Flags
import Patterns.Literal
import Patterns.Match
import Patterns.Plain.Regex

/-!
# Matchers

A matcher is a compiled plain pattern with its flags, the names of its groups, the pattern that it
was compiled from, and a cursor in bytes that iteration moves. A sticky search uses the pattern
anchored at the search start where that form can be compiled, and otherwise drops matches that
start elsewhere.
-/
namespace Patterns
open Patterns.Text Patterns.Plain

inductive Origin where
  | plain
  | extended (source flags : String)
  deriving DecidableEq, Repr

def compilePlain? (source : String) (flags : PlainFlags) : Option Regex :=
  Regex.compile? source flags.ignoreCase flags.multiline

/-- The form of a pattern that matches only where a search starts. -/
def anchored? (source : String) (flags : PlainFlags) (groups : Nat) : Option Regex :=
  (compilePlain? ("\\G(?:" ++ source ++ ")") flags).filter (·.groups == groups)

structure Matcher where
  source : String
  flags : PlainFlags
  names : List (Option String)
  origin : Origin
  body : Regex
  anchored : Thunk (Option Regex)
  cursor : Nat
  body_eq : compilePlain? source flags = some body
  anchored_eq : anchored.get = anchored? source flags body.groups

namespace Matcher

/-- Compiles a plain pattern; `shown` are the flags that a refusal names. -/
def build (source shown : String) (flags : PlainFlags) (origin : Origin)
    (names : Regex → Except Error (List (Option String))) : Except Error Matcher :=
  match h : compilePlain? source flags with
  | none => .error (.rejected source shown)
  | some body => do
    let names ← names body
    return { source, flags, names, origin, body, cursor := 0, body_eq := h
             anchored := Thunk.mk fun _ => anchored? source flags body.groups
             anchored_eq := rfl }

def plain (source flags : String) : Except Error Matcher := do
  build source flags (← Flags.parsePlain flags) .plain fun body => .ok body.names

/-- Finds a literal text. -/
def literal (needle : String) : Except Error Matcher := plain (Literal.escape needle) ""

def ofCompiled (source : String) (flags : PlainFlags) (names : List (Option String))
    (pattern shown : String) : Except Error Matcher :=
  build source shown flags (.extended pattern shown) fun body =>
    if body.groups = names.length then .ok names
    else .error (.groupCount source body.groups names.length)

def global (m : Matcher) : Bool := m.flags.global

def sticky (m : Matcher) : Bool := m.flags.sticky

def groupCount (m : Matcher) : Nat := m.names.length

def hasNamedGroup (m : Matcher) : Bool := m.names.any Option.isSome

def isPlain (m : Matcher) : Bool := m.origin == .plain

def originSource? (m : Matcher) : Option String :=
  match m.origin with
  | .plain => none
  | .extended source _ => some source

def originFlags? (m : Matcher) : Option String :=
  match m.origin with
  | .plain => none
  | .extended _ flags => some flags

def groupIndex? (m : Matcher) (name : String) : Option Nat := indexOfName? m.names name

def withCursor (m : Matcher) (cursor : Nat) : Matcher := { m with cursor }

/-- Searches from position `i`; a sticky search accepts only a match that starts there. -/
def find (m : Matcher) (s : Subject) (i : Nat) (sticky : Bool) :
    Except Error (Option (Match s)) :=
  let regex := if sticky then m.anchored.get.getD m.body else m.body
  match regex.search s i with
  | .error .tooManyReturns => .error .searchLimit
  | .ok none => .ok none
  | .ok (some f) =>
    if sticky && f.start != i then .ok none
    else .ok (some ⟨f.start, f.stop, f.groups, m.names, f.start_le, f.stop_le⟩)

abbrev Hit (s : Subject) (i : Nat) := { m : Match s // i ≤ m.start }

/-- What operations that go on from match to match find: a match that starts at `i` or later. One
that starts before `i`, where they have been already, ends them. -/
def searchAt (m : Matcher) (s : Subject) (i : Nat) (sticky : Bool) :
    Except Error (Option (Hit s i)) :=
  match m.find s i sticky with
  | .error e => .error e
  | .ok none => .ok none
  | .ok (some f) => if h : i ≤ f.start then .ok (some ⟨f, h⟩) else .ok none

/-- Searches from a byte offset. An offset inside of a character counts as the next position,
unless the search is sticky. -/
def searchFrom (m : Matcher) (s : Subject) (byte : Nat) (sticky : Bool) :
    Except Error (Option (Match s)) :=
  match if sticky then s.position? byte else s.ceil? byte with
  | none => .ok none
  | some i => m.find s i sticky

end Matcher

end Patterns
