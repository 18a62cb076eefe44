import Patterns.Text.Classes
import Patterns.Text.Script
import Patterns.Text.CaseFold

/-!
# Sets of characters

`CharSet` is what a class, a dot or a property denotes. `folded s` is `s` closed under simple case
folding; `weight` estimates the room that a set takes in a compiled pattern.
-/
namespace Patterns.Plain
open Patterns.Text

inductive CharSet where
  | none | all
  | range (first last : Char)
  | word | digit | blank
  | having (p : BinaryProperty)
  | categories (cs : List Category)
  | script (s : Script)
  /-- Characters used with a script, be it their own or not. -/
  | usedWith (s : Script)
  | compl (s : CharSet)
  | union (s t : CharSet)
  | inter (s t : CharSet)
  | folded (s : CharSet)
  deriving Repr, BEq

namespace CharSet

def single (c : Char) : CharSet := .range c c

def ofRanges (rs : List (Char × Char)) : CharSet :=
  rs.foldr (fun (a, b) s => .union (.range a b) s) .none

def diff (s t : CharSet) : CharSet := .inter s (.compl t)

def symmDiff (s t : CharSet) : CharSet := .union (diff s t) (diff t s)

def negateIf (b : Bool) (s : CharSet) : CharSet := if b then .compl s else s

def foldIf (b : Bool) (s : CharSet) : CharSet := if b then .folded s else s

def ascii : CharSet := .range '\x00' '\x7f'

def mem : CharSet → Char → Bool
  | .none, _ => false
  | .all, _ => true
  | .range a b, c => a ≤ c && c ≤ b
  | .word, c => isWord c
  | .digit, c => isDigit c
  | .blank, c => isBlank c
  | .having p, c => p.holds c
  | .categories cs, c => cs.contains (category c)
  | .script s, c => script? c == some s
  | .usedWith s, c => (scriptExtensions c).contains s
  | .compl s, c => !s.mem c
  | .union s t, c => s.mem c || t.mem c
  | .inter s t, c => s.mem c && t.mem c
  | .folded s, c => s.mem c || (variants c).any s.mem

def weight : CharSet → Nat
  | .none => 32
  | .all => 500
  | .range a b =>
    if b.toNat < 0x80 then 32 else if a == b then 32 * a.utf8Size else 300
  | .word => 47000
  | .having p =>
    if p.categories.isEmpty then 4000 else if p.categories.length < 6 then 20000 else 47000
  | .categories _ => 20000
  | .digit => 3000
  | .blank => 600
  | .script _ | .usedWith _ => 4000
  | .compl s => s.weight + 400
  | .union s t => s.weight + t.weight
  | .inter s t => min s.weight t.weight
  | .folded s => s.weight + 32

@[simp] theorem mem_single (a c : Char) : (single a).mem c = (c == a) := by
  simp only [single, mem]
  rw [Bool.eq_iff_iff]
  simp only [Bool.and_eq_true, decide_eq_true_eq, beq_iff_eq]
  exact ⟨fun h => Char.le_antisymm h.2 h.1, fun h => h ▸ ⟨Char.le_refl _, Char.le_refl _⟩⟩

@[simp] theorem mem_negateIf (b : Bool) (s : CharSet) (c : Char) :
    (negateIf b s).mem c = (b ^^ s.mem c) := by cases b <;> simp [negateIf, mem]

end CharSet

end Patterns.Plain
