import Patterns.Plain.CharSet
import Patterns.Text.Subject

/-!
# Expressions of the plain pattern language

`Expr` is what a plain pattern means before it is compiled. Children of a sequence and of an
alternation are kept in lists, because the compiler looks at runs of neighbours.
-/
namespace Patterns.Plain
open Patterns.Text

inductive Assertion where
  | textStart | textEnd | lineStart | lineEnd
  | wordBoundary | notWordBoundary | wordStart | wordEnd
  deriving DecidableEq, Repr

namespace Assertion

/-- Word assertions look at both neighbours of a position. -/
def isWordTest : Assertion → Bool
  | .wordBoundary | .notWordBoundary | .wordStart | .wordEnd => true
  | _ => false

def holds (a : Assertion) (s : Subject) (i : Nat) : Bool :=
  let isWordAt (c : Option Char) : Bool := c.any isWord
  let before := isWordAt (s.previous? i)
  let after := isWordAt (s.next? i)
  match a with
  | .textStart => i == 0
  | .textEnd => i == s.size
  | .lineStart => i == 0 || s.previous? i == some '\n'
  | .lineEnd => i == s.size || s.next? i == some '\n'
  | .wordBoundary => before != after
  | .notWordBoundary => before == after
  | .wordStart => !before && after
  | .wordEnd => before && !after

end Assertion

inductive Expr where
  | empty
  | char (c : Char) (anyCase : Bool)
  | set (s : CharSet)
  | assertion (a : Assertion)
  | concat (es : List Expr)
  | alt (es : List Expr)
  | group (index : Nat) (e : Expr)
  | loop (e : Expr) (least : Nat) (most : Option Nat) (greedy : Bool)
  | look (behind negative : Bool) (e : Expr)
  | atomic (e : Expr)
  /-- `size` is known where the group always takes that many characters and is closed already. -/
  | backref (index : Nat) (anyCase : Bool) (size : Option Nat)
  | resetStart
  | searchStart
  | groupTest (index : Nat)
  | cond (test yes no : Expr)

namespace Expr

def isEmpty : Expr → Bool
  | .empty => true
  | _ => false

/-- Nothing, and a look around, cannot be repeated. -/
def isRepeatable : Expr → Bool
  | .empty | .look .. => false
  | _ => true

def ofList : List Expr → Expr
  | [] => .empty
  | [e] => e
  | es => .concat es

mutual

/-- The groups that remain when repetitions of no times are dropped. -/
def groups : Expr → List Nat
  | .group i e => i :: e.groups
  | .concat es | .alt es => groupsIn es
  | .loop e _ hi _ => if hi = some 0 then [] else e.groups
  | .look _ _ e | .atomic e => e.groups
  | .cond t y f => t.groups ++ y.groups ++ f.groups
  | _ => []

def groupsIn : List Expr → List Nat
  | [] => []
  | e :: es => e.groups ++ groupsIn es

end

mutual

/-- The expression that reads the same texts from their ends; its groups are dropped. -/
def reverse : Expr → Expr
  | .concat es => .concat (reverseAll [] es)
  | .alt es => .alt (reverseEach es)
  | .group _ e => e.reverse
  | .loop e lo hi g => .loop e.reverse lo hi g
  | e => e

def reverseAll (read : List Expr) : List Expr → List Expr
  | [] => read
  | e :: es => reverseAll (e.reverse :: read) es

def reverseEach : List Expr → List Expr
  | [] => []
  | e :: es => e.reverse :: reverseEach es

end

/-- A look ahead at the end of a sequence needs no way back: it is read after the match, which is
then group 0. -/
def exposeLast : Expr → Expr
  | .concat es =>
    match es.getLast? with
    | some (.look false false e) => .concat [.group 0 (.concat es.dropLast), e]
    | _ => .concat es
  | e => e

/-- The characters of an expression that is nothing but text. -/
def text? : Expr → Option (List Char)
  | .char c false => some [c]
  | .concat es => es.mapM fun
    | .char c false => some c
    | _ => none
  | _ => none

end Expr

end Patterns.Plain
