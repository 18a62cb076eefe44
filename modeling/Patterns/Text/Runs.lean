/-!
# Tables of runs of code points

A table is written as words: a code point in lower-case hexadecimal where a run starts and, for
`Runs`, the value that holds from there on. `Flips` lists where membership in a set changes.
-/
namespace Patterns.Text

private def hexDigit (c : Char) : Option Nat :=
  if '0' ≤ c ∧ c ≤ '9' then some (c.toNat - '0'.toNat)
  else if 'a' ≤ c ∧ c ≤ 'f' then some (c.toNat - 'a'.toNat + 10)
  else none

private def hexWord (start : Nat) : List Char → Nat × List Char
  | [] => (start, [])
  | c :: rest =>
    match hexDigit c with
    | some d => hexWord (16 * start + d) rest
    | none => (start, c :: rest)

/-- The largest index below `last` whose key is at most `n`, given that `first` is one. -/
private def lastAtMost (key : Nat → Nat) (n first last : Nat) : Nat :=
  if last ≤ first + 1 then first
  else
    let middle := (first + last) / 2
    if key middle ≤ n then lastAtMost key n middle last else lastAtMost key n first middle
  termination_by last - first

structure Runs (α : Type) where
  starts : Array (Nat × α)

namespace Runs

def ofTable {α : Type} (value : String → α) (table : List String) : Runs α :=
  ⟨((table.flatMap (·.splitOn " ")).map fun word =>
    let (start, code) := hexWord 0 word.toList
    (start, value (String.ofList code))).toArray⟩

def find? {α : Type} (r : Runs α) (n : Nat) : Option α :=
  let key (i : Nat) : Nat := (r.starts[i]?.map (·.1)).getD 0
  r.starts[lastAtMost key n 0 r.starts.size]?.map (·.2)

end Runs

structure Flips where
  points : Array Nat

namespace Flips

def ofTable (table : List String) : Flips :=
  ⟨((table.flatMap (·.splitOn " ")).map fun word => (hexWord 0 word.toList).1).toArray⟩

/-- An odd number of changes lies at or before a member. -/
def mem (f : Flips) (n : Nat) : Bool :=
  match f.points[0]? with
  | none => false
  | some p => p ≤ n && lastAtMost (fun i => f.points[i]?.getD 0) n 0 f.points.size % 2 == 0

end Flips

end Patterns.Text
