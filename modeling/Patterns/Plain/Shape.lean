import Patterns.Plain.Expr

/-!
# Shapes of expressions

The shape of an expression says how many characters it takes at least, whether it always takes
that many, and whether it is regular, which means that no choice inside it depends on text matched
elsewhere. `weight` estimates the room a regular expression takes once compiled.
-/
namespace Patterns.Plain

structure Shape where
  minSize : Nat
  fixed : Bool
  regular : Bool
  deriving DecidableEq, Repr

namespace Shape

def nothing : Shape := ⟨0, true, true⟩

def one : Shape := ⟨1, true, true⟩

def irregular : Shape := ⟨0, true, false⟩

def append (a b : Shape) : Shape :=
  ⟨a.minSize + b.minSize, a.fixed && b.fixed, a.regular && b.regular⟩

def either (a b : Shape) : Shape :=
  ⟨min a.minSize b.minSize, a.fixed && b.fixed && a.minSize == b.minSize, a.regular && b.regular⟩

end Shape

namespace Expr

mutual

/-- `referenced` lists the groups that the pattern refers back to; they are not regular. -/
def shape (referenced : List Nat) : Expr → Shape
  | .empty => .nothing
  | .char .. | .set _ => .one
  | .assertion a => if a.isWordTest then .irregular else .nothing
  | .concat es => concatShape referenced es
  | .alt es => altShape referenced es
  | .group i e =>
    let inner := e.shape referenced
    { inner with regular := inner.regular && !referenced.contains i }
  | .loop e lo hi _ =>
    let inner := e.shape referenced
    ⟨inner.minSize * lo, inner.fixed && some lo == hi, inner.regular⟩
  | .look .. => .irregular
  | .atomic e =>
    let inner := e.shape referenced
    { inner with regular := false }
  | .backref _ _ size => ⟨size.getD 0, size.isSome, false⟩
  | .resetStart | .searchStart | .groupTest _ => .irregular
  | .cond t y f =>
    let both := (t.shape referenced).append (y.shape referenced)
    let rest := f.shape referenced
    let test := t.shape referenced
    ⟨test.minSize + min (y.shape referenced).minSize rest.minSize,
      both.fixed && rest.fixed && both.minSize == rest.minSize, false⟩

def concatShape (referenced : List Nat) : List Expr → Shape
  | [] => .nothing
  | e :: es => (e.shape referenced).append (concatShape referenced es)

def altShape (referenced : List Nat) : List Expr → Shape
  | [] => .nothing
  | [e] => e.shape referenced
  | e :: es => (e.shape referenced).either (altShape referenced es)

end

mutual

def weight : Expr → Nat
  | .char c anyCase => (CharSet.foldIf anyCase (.single c)).weight
  | .set s => s.weight
  | .concat es | .alt es => weightIn es
  | .group _ e | .look _ _ e | .atomic e => e.weight + 64
  | .loop e lo hi _ => (e.weight + 32) * max 1 (hi.getD lo)
  | .cond t y f => t.weight + y.weight + f.weight
  | _ => 32

def weightIn : List Expr → Nat
  | [] => 32
  | e :: es => e.weight + 32 + weightIn es

end

mutual

/-- No repetition counts backwards or past the largest count of 32 bits. -/
def countsInOrder : Expr → Bool
  | .concat es | .alt es => countsInOrderIn es
  | .group _ e | .look _ _ e | .atomic e => e.countsInOrder
  | .loop e lo hi _ =>
    lo < 2 ^ 32 && hi.all (fun h => lo ≤ h && h < 2 ^ 32) && e.countsInOrder
  | _ => true

def countsInOrderIn : List Expr → Bool
  | [] => true
  | e :: es => e.countsInOrder && countsInOrderIn es

end

end Expr

end Patterns.Plain
