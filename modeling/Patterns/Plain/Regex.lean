import Patterns.Plain.Machine
import Patterns.Plain.Reader

/-!
# Compiled plain patterns

A search tries each position from its start on and answers with the first match. A pattern can move
the start of its match, even to a place before the search. `groups` counts the groups after the
whole match.
-/
namespace Patterns.Plain
open Patterns.Text

inductive Engine where
  | text (cs : List Char)
  | automaton (a : Automaton)
  | machine (p : Program)

structure Regex where
  engine : Engine
  groups : Nat
  names : List (Option String)

structure Found (s : Subject) where
  start : Nat
  stop : Nat
  groups : List (Option Span)
  start_le : start ≤ stop
  stop_le : stop ≤ s.size

/-- The search came back to earlier choices too often. -/
inductive SearchLimit where
  | tooManyReturns
  deriving DecidableEq, Repr

namespace Regex

/-- The name of each group. Of groups with one name the last keeps it, and stands first in
`names`. -/
private def namesOf (groups : Nat) (names : List (String × Nat)) : List (Option String) :=
  (List.range groups).map fun i =>
    (names.find? fun (name, n) => n == i + 1 && names.lookup name == some n).map (·.1)

/-- Reads and compiles a pattern, or refuses it. In a pattern that is regular as a whole the flags
hold throughout; in others its inline modes can switch them off. -/
def compile? (source : String) (anyCase multiline : Bool) : Option Regex := do
  let text ← readPattern source anyCase multiline {}
  let shape := text.expr.shape text.referenced
  if shape.regular then
    let text ← readPattern source anyCase multiline { anyCase, lines := multiline }
    let groups := text.expr.groups.foldl max 0
    let a ← Automaton.ofExpr? text.expr
    let engine := match text.expr.text? with
      | some cs => .text cs
      | none => .automaton a
    return ⟨engine, groups, namesOf groups text.names⟩
  else
    let p ← Program.ofExpr? text.referenced text.opened text.expr
    return ⟨.machine p, text.opened, namesOf text.opened text.names⟩

private def slot? (slots : Slots) (r : Nat) : Option Nat := (slots[r]?).join

private def spans (groups : Nat) (slots : Slots) : List (Option Span) :=
  (List.range groups).map fun i =>
    match slot? slots (2 * (i + 1)), slot? slots (2 * (i + 1) + 1) with
    | some start, some stop => some ⟨start, stop⟩
    | _, _ => none

def hasTextAt (s : Subject) : List Char → Nat → Bool
  | [], _ => true
  | c :: cs, i => s.next? i == some c && hasTextAt s cs (i + 1)

inductive Attempt where
  | found (start stop : Nat) (groups : List (Option Span))
  | failed (budget : Nat)
  | exhausted

/-- A match found at `i`, whose bounds are group 0 where the pattern sets them. A start that was
moved past the end is the end. -/
private def attemptOf (groups i stop : Nat) (slots : Slots) : Attempt :=
  let stop := (slot? slots 1).getD stop
  .found (min ((slot? slots 0).getD i) stop) stop (spans groups slots)

/-- A match at `i`. Leaving a position counts as a return of the machine. -/
def attempt (r : Regex) (s : Subject) (origin budget i : Nat) : Attempt :=
  match r.engine with
  | .text cs => if hasTextAt s cs i then .found i (i + cs.length) [] else .failed budget
  | .automaton a =>
    match a.match? s r.groups i (s.size - i) with
    | some (stop, slots) => attemptOf r.groups i stop slots
    | none => .failed budget
  | .machine p =>
    match p.match? s origin budget i with
    | .matched stop slots => attemptOf r.groups i stop slots
    | .failed 0 | .exhausted => .exhausted
    | .failed (budget + 1) => .failed budget

def floating (r : Regex) : Bool :=
  match r.engine with
  | .machine p => p.floating
  | _ => true

/-- Tries position `i` and, while it may move on, the `left` positions after it. -/
def searchFrom (r : Regex) (s : Subject) (origin : Nat) :
    (left budget i : Nat) → Except SearchLimit (Option (Found s))
  | left, budget, i =>
    match r.attempt s origin budget i with
    | .found start stop groups =>
      if h : start ≤ stop ∧ stop ≤ s.size then .ok (some ⟨start, stop, groups, h.1, h.2⟩)
      else .ok none
    | .exhausted => .error .tooManyReturns
    | .failed budget =>
      match left with
      | 0 => .ok none
      | left + 1 => if r.floating then r.searchFrom s origin left budget (i + 1) else .ok none

/-- The match at the first position from `origin` on that has one. -/
def search (r : Regex) (s : Subject) (origin : Nat) : Except SearchLimit (Option (Found s)) :=
  if origin ≤ s.size then r.searchFrom s origin (s.size - origin) Program.maxReturns origin
  else .ok none

variable {r : Regex} {s : Subject} {origin left budget i start stop : Nat}
  {groups : List (Option Span)}

theorem length_groups_of_attempt (h : r.attempt s origin budget i = .found start stop groups) :
    groups.length ≤ r.groups := by
  rw [attempt] at h
  split at h
  · split at h
    · cases h
      exact Nat.zero_le _
    · cases h
  · split at h
    · cases h
      simp [spans]
    · cases h
  · split at h <;> cases h
    simp [spans]

theorem length_groups_of_searchFrom {f : Found s}
    (h : r.searchFrom s origin left budget i = .ok (some f)) : f.groups.length ≤ r.groups := by
  induction left generalizing budget i with
  | zero =>
    rw [searchFrom] at h
    split at h
    · next hattempt =>
      split at h <;> cases h
      exact length_groups_of_attempt hattempt
    · cases h
    · cases h
  | succ left ih =>
    rw [searchFrom] at h
    split at h
    · next hattempt =>
      split at h <;> cases h
      exact length_groups_of_attempt hattempt
    · cases h
    · dsimp only at h
      split at h
      · exact ih h
      · cases h

/-- A match has no more groups than its pattern. -/
theorem length_groups_of_search {f : Found s} (h : r.search s origin = .ok (some f)) :
    f.groups.length ≤ r.groups := by
  rw [search] at h
  split at h
  · exact length_groups_of_searchFrom h
  · cases h

end Regex

end Patterns.Plain
