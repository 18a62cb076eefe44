import Patterns.Plain.Shape

/-!
# Automata for regular expressions

A regular expression becomes an array of nodes. A run keeps its threads in order of preference, at
most one for each node, so it takes time proportional to the text: the first thread that accepts
cuts off the ones behind it. Each thread carries the slots where groups began and ended. An
automaton can also read a text from its end.
-/
namespace Patterns.Plain
open Patterns.Text

abbrev Slots := Array (Option Nat)

inductive Node where
  | dead
  | accept
  | eat (s : CharSet) (next : Nat)
  | check (a : Assertion) (next : Nat)
  | split (first second : Nat)
  | save (slot next : Nat)
  deriving Inhabited

structure Automaton where
  nodes : Array Node
  start : Nat
  /-- Reads the character before a position, and moves towards the front. -/
  backwards : Bool

namespace Automaton

abbrev Builder := StateM (Array Node)

def emit (n : Node) : Builder Nat := modifyGet fun ns => (ns.size, ns.push n)

def place (i : Nat) (n : Node) : Builder Unit := modify fun ns => ns.setIfInBounds i n

def branch (greedy : Bool) (body exit : Nat) : Node :=
  if greedy then .split body exit else .split exit body

/-- `n` copies in front of `next`. -/
def copies (build : Nat → Builder Nat) : Nat → Nat → Builder Nat
  | 0, next => pure next
  | n + 1, next => do copies build n (← build next)

/-- Up to `n` copies, each of which may be the last. -/
def optionals (greedy : Bool) (build : Nat → Builder Nat) (exit : Nat) : Nat → Builder Nat
  | 0 => pure exit
  | n + 1 => do
    let body ← build (← optionals greedy build exit n)
    emit (branch greedy body exit)

/-- One copy or more. -/
def repeated (greedy : Bool) (build : Nat → Builder Nat) (exit : Nat) : Builder Nat := do
  let again ← emit .dead
  let body ← build again
  place again (branch greedy body exit)
  return body

/-- An unbounded loop of an expression that can be empty is an optional loop of at least one
round, which keeps the order of preference. -/
def unbounded (greedy canBeEmpty : Bool) (build : Nat → Builder Nat) (exit : Nat) :
    Nat → Builder Nat
  | 0 => do
    if canBeEmpty then
      let body ← repeated greedy build exit
      emit (branch greedy body exit)
    else
      let again ← emit .dead
      let body ← build again
      place again (branch greedy body exit)
      return again
  | n + 1 => do copies build n (← repeated greedy build exit)

mutual

/-- The node where `e` starts when `next` comes after it. -/
def build : Expr → Nat → Builder Nat
  | .empty, next => pure next
  | .char c anyCase, next => emit (.eat (CharSet.foldIf anyCase (.single c)) next)
  | .set s, next => emit (.eat s next)
  | .assertion a, next => emit (.check a next)
  | .concat es, next => buildAll es next
  | .alt es, next => buildAny es next
  | .group i e, next => do
    let close ← emit (.save (2 * i + 1) next)
    let body ← build e close
    emit (.save (2 * i) body)
  | .loop e least most greedy, next =>
    match most with
    | none => unbounded greedy ((e.shape []).minSize == 0) (build e) next least
    | some n => do copies (build e) least (← optionals greedy (build e) next (n - least))
  | _, _ => emit .dead

def buildAll : List Expr → Nat → Builder Nat
  | [], next => pure next
  | e :: es, next => do build e (← buildAll es next)

def buildAny : List Expr → Nat → Builder Nat
  | [], _ => emit .dead
  | [e], next => build e next
  | e :: es, next => do
    let others ← buildAny es next
    let first ← build e next
    emit (.split first others)

end

def ofExpr (e : Expr) (backwards : Bool) : Automaton :=
  let (start, nodes) := (do build e (← emit .accept)).run #[]
  ⟨nodes, start, backwards⟩

/-- The largest room that a compiled expression may take. -/
def maxWeight : Nat := 10 * 1024 * 1024

def ofExpr? (e : Expr) : Option Automaton :=
  if e.countsInOrder && e.weight ≤ maxWeight then some (ofExpr e false) else none

/-- Reads the texts of `e` from their ends. -/
def ofReversed? (e : Expr) : Option Automaton :=
  if e.countsInOrder && e.weight ≤ maxWeight then some (ofExpr e.reverse true) else none

def read? (a : Automaton) (s : Subject) (i : Nat) : Option Char :=
  if a.backwards then s.previous? i else s.next? i

/-- The position behind the character that is read at `i`. -/
def beyond (a : Automaton) (i : Nat) : Nat := if a.backwards then i - 1 else i + 1

structure Thread where
  node : Nat
  slots : Slots

structure Front where
  /-- The latest thread comes first. -/
  threads : List Thread
  seen : Array Bool

/-- Follows nodes that take no character, the preferred ones first; a thread stops where a
character is taken or the automaton accepts. -/
def follow (a : Automaton) (s : Subject) (i : Nat) : (fuel : Nat) → List Thread → Front → Front
  | 0, _, front => front
  | _, [], front => front
  | fuel + 1, t :: pending, front =>
    if front.seen[t.node]?.getD true then a.follow s i fuel pending front
    else
      let seen := front.seen.setIfInBounds t.node true
      match a.nodes[t.node]?.getD .dead with
      | .dead => a.follow s i fuel pending { front with seen }
      | .accept | .eat .. => a.follow s i fuel pending ⟨t :: front.threads, seen⟩
      | .check c next =>
        if c.holds s i then a.follow s i fuel (⟨next, t.slots⟩ :: pending) { front with seen }
        else a.follow s i fuel pending { front with seen }
      | .split first second =>
        a.follow s i fuel (⟨first, t.slots⟩ :: ⟨second, t.slots⟩ :: pending) { front with seen }
      | .save slot next =>
        a.follow s i fuel (⟨next, t.slots.setIfInBounds slot (some i)⟩ :: pending)
          { front with seen }

def emptyFront (a : Automaton) : Front := ⟨[], Array.replicate a.nodes.size false⟩

/-- Each node is entered once and adds at most one pending thread. -/
def enter (a : Automaton) (s : Subject) (i : Nat) (t : Thread) (front : Front) : Front :=
  a.follow s i (2 * a.nodes.size + 2) [t] front

/-- One character further: the threads that take it, and the slots of the first thread that
accepts before it. -/
def advance (a : Automaton) (s : Subject) (i : Nat) :
    List Thread → Front → Front × Option Slots
  | [], front => (front, none)
  | t :: ts, front =>
    match a.nodes[t.node]?.getD .dead with
    | .accept => (front, some t.slots)
    | .eat set next =>
      match a.read? s i with
      | some c =>
        if set.mem c then
          a.advance s i ts (a.enter s (a.beyond i) ⟨next, t.slots⟩ front)
        else a.advance s i ts front
      | none => a.advance s i ts front
    | _ => a.advance s i ts front

/-- Runs from position `i` with `left` characters to go. -/
def run (a : Automaton) (s : Subject) :
    (left i : Nat) → List Thread → Option (Nat × Slots) → Option (Nat × Slots)
  | _, _, [], best => best
  | 0, i, t :: ts, best =>
    match (a.advance s i (t :: ts) a.emptyFront).2 with
    | some slots => some (i, slots)
    | none => best
  | left + 1, i, t :: ts, best =>
    let (front, accepted) := a.advance s i (t :: ts) a.emptyFront
    let best := match accepted with
      | some slots => some (i, slots)
      | none => best
    a.run s left (a.beyond i) front.threads.reverse best

/-- The preferred match that begins at `i` and takes at most `left` characters: where it ends, and
its slots. -/
def match? (a : Automaton) (s : Subject) (groups i left : Nat) : Option (Nat × Slots) :=
  let slots := Array.replicate (2 * (groups + 1)) none
  let front := a.enter s i ⟨a.start, slots⟩ a.emptyFront
  a.run s left i front.threads.reverse none

end Automaton

end Patterns.Plain
