import Patterns.Proofs.Reading

/-!
# Syntax trees of patterns

`Tree.text` prints a tree as an extended pattern, and `Tree.plain` is the plain text that belongs
to it. Both go from left to right: a tree stands behind the groups `before` that are recorded to
its left, and before the text `after` that is printed to its right.
-/
namespace Patterns.Extended
open Patterns.Text

abbrev Groups := List (Option String)

def Literal := {c : Char // c ∉ ['\\', '[', '\x7b', '(', ')', '.', '*', '+', '?', '|']}

/-- A character that a backslash takes for itself. -/
def Escaped := {c : Char // c.isDigit = false ∧ c ∉ ['k', 'x', 'u', 'U', 'p', 'P']}

def GroupName := {name : List Char // IsName name ∧ ¬AreDigits name}

def GroupName.string (name : GroupName) : String := String.ofList name.1

inductive ClassItem where
  | char (c : {c : Char // c ≠ '\\' ∧ c ≠ ']'})
  | escape (c : Escaped)

namespace ClassItem

def text : ClassItem → List Char
  | .char c => [c.1]
  | .escape c => ['\\', c.1]

/-- Characters that mean something in the class of another language are escaped. -/
def plain : ClassItem → List Char
  | .char c => if c.1 ∈ ['[', '&', '~'] then ['\\', c.1] else [c.1]
  | .escape c => ['\\', c.1]

end ClassItem

def ClassBody :=
  {items : List ClassItem //
    items.flatMap ClassItem.text ≠ [] ∧ items.flatMap ClassItem.text ≠ ['^']}

namespace ClassBody

def text (body : ClassBody) : List Char := body.1.flatMap ClassItem.text

def plain (body : ClassBody) : List Char := body.1.flatMap ClassItem.plain

end ClassBody

inductive Amount where
  | many | some | optional
  | exactly (n : Nat)
  | atLeast (n : Nat)
  | between (n m : Nat)

structure Quantifier where
  amount : Amount
  isLazy : Bool

namespace Quantifier

def mark (q : Quantifier) : List Char := if q.isLazy then ['?'] else []

def text (q : Quantifier) : List Char :=
  (match q.amount with
    | .many => ['*']
    | .some => ['+']
    | .optional => ['?']
    | .exactly n => '\x7b' :: (Nat.toDigits 10 n ++ ['\x7d'])
    | .atLeast n => '\x7b' :: (Nat.toDigits 10 n ++ [',', '\x7d'])
    | .between n m => '\x7b' :: (Nat.toDigits 10 n ++ ',' :: (Nat.toDigits 10 m ++ ['\x7d'])))
    ++ q.mark

end Quantifier

inductive Opener where
  | unnamed
  /-- A named group, with the mark `P` or without it. -/
  | named (marked : Bool) (name : GroupName)
  | gathering
  | ahead (negated : Bool)
  | behind (negated : Bool)

namespace Opener

def text : Opener → List Char
  | .unnamed => ['(']
  | .named marked name =>
    ['(', '?'] ++ (if marked then ['P', '<'] else ['<']) ++ name.1 ++ ['>']
  | .gathering => ['(', '?', ':']
  | .ahead negated => ['(', '?', if negated then '!' else '=']
  | .behind negated => ['(', '?', '<', if negated then '!' else '=']

/-- An opener without its name. -/
def bare : Opener → List Char
  | .unnamed | .named _ _ => ['(']
  | o => o.text

/-- Under the flag `n` a group without a name captures nothing. -/
def plain (flags : List Char) : Opener → List Char
  | .unnamed => if flags.contains 'n' then ['(', '?', ':'] else ['(']
  | o => o.bare

def groups (flags : List Char) : Opener → Groups
  | .unnamed => if flags.contains 'n' then [] else [none]
  | .named _ name => [some name.string]
  | _ => []

def IsFresh (before : Groups) : Opener → Prop
  | .named _ name => some name.string ∉ before
  | _ => True

instance (before : Groups) : (o : Opener) → Decidable (o.IsFresh before)
  | .named _ name => inferInstanceAs (Decidable (some name.string ∉ before))
  | .unnamed | .gathering | .ahead _ | .behind _ => .isTrue trivial

end Opener

inductive Tree where
  | empty
  | char (c : Literal)
  | dot
  | escape (c : Escaped)
  | oneOf (body : ClassBody)
  | reference (n : Nat)
  | namedReference (name : GroupName)
  | group (opener : Opener) (body : Tree)
  | quantified (atom : Tree) (q : Quantifier)
  | concat (left right : Tree)
  | alternation (left right : Tree)

namespace Tree

def isAtom : Tree → Bool
  | .empty | .quantified _ _ | .concat _ _ | .alternation _ _ => false
  | _ => true

/-- No character of a tree outside of its classes would be removed as spacing. -/
def isSolid : Tree → Bool
  | .char c => !isBlank c.1 && c.1 != '#'
  | .group _ body => body.isSolid
  | .quantified atom _ => atom.isSolid
  | .concat left right | .alternation left right => left.isSolid && right.isSolid
  | _ => true

/-- A tree with its openers printed by `opener`. -/
def print (opener : Opener → List Char) : Tree → List Char
  | .empty => []
  | .char c => [c.1]
  | .dot => ['.']
  | .escape c => ['\\', c.1]
  | .oneOf body => '[' :: (body.text ++ [']'])
  | .reference n => '\\' :: Nat.toDigits 10 n
  | .namedReference name => ['\\', 'k', '<'] ++ name.1 ++ ['>']
  | .group o body => opener o ++ body.print opener ++ [')']
  | .quantified atom q => atom.print opener ++ q.text
  | .concat left right => left.print opener ++ right.print opener
  | .alternation left right => left.print opener ++ '|' :: right.print opener

def text (t : Tree) : List Char := t.print Opener.text

/-- The capturing groups of a tree in the order of their openers. -/
def groups (flags : List Char) : Tree → Groups
  | .group o body => o.groups flags ++ body.groups flags
  | .quantified atom _ => atom.groups flags
  | .concat left right | .alternation left right => left.groups flags ++ right.groups flags
  | _ => []

/-- Quantifiers stand behind atoms, names are new where they are given, references go to groups
on their left, and no digit is printed right after a number. -/
def WellFormed (flags : List Char) : Groups → List Char → Tree → Prop
  | before, after, .reference n =>
    1 ≤ n ∧ n ≤ before.length ∧ after.head?.any Char.isDigit = false
  | before, _, .namedReference name => some name.string ∈ before
  | before, after, .group o body =>
    o.IsFresh before ∧ body.WellFormed flags (before ++ o.groups flags) (')' :: after)
  | before, after, .quantified atom q =>
    atom.isAtom = true ∧ atom.WellFormed flags before (q.text ++ after)
  | before, after, .concat left right =>
    left.WellFormed flags before (right.text ++ after) ∧
      right.WellFormed flags (before ++ left.groups flags) after
  | before, after, .alternation left right =>
    left.WellFormed flags before ('|' :: (right.text ++ after)) ∧
      right.WellFormed flags (before ++ left.groups flags) after
  | _, _, _ => True

instance decidableWellFormed (flags : List Char) : (before : Groups) → (after : List Char) →
    (t : Tree) → Decidable (t.WellFormed flags before after)
  | _, _, .empty | _, _, .char _ | _, _, .dot | _, _, .escape _ | _, _, .oneOf _ => .isTrue trivial
  | _, _, .reference _ => inferInstanceAs (Decidable (_ ∧ _ ∧ _))
  | before, _, .namedReference name => inferInstanceAs (Decidable (some name.string ∈ before))
  | before, after, .group o body =>
    have := decidableWellFormed flags (before ++ o.groups flags) (')' :: after) body
    inferInstanceAs (Decidable (_ ∧ _))
  | before, after, .quantified atom q =>
    have := decidableWellFormed flags before (q.text ++ after) atom
    inferInstanceAs (Decidable (_ ∧ _))
  | before, after, .concat left right =>
    have := decidableWellFormed flags before (right.text ++ after) left
    have := decidableWellFormed flags (before ++ left.groups flags) after right
    inferInstanceAs (Decidable (_ ∧ _))
  | before, after, .alternation left right =>
    have := decidableWellFormed flags before ('|' :: (right.text ++ after)) left
    have := decidableWellFormed flags (before ++ left.groups flags) after right
    inferInstanceAs (Decidable (_ ∧ _))

/-- The plain text of a tree. -/
def plain (flags : List Char) : Groups → List Char → Tree → List Char
  | _, _, .empty => []
  | _, _, .char c => if c.1 ∈ [']', '\x7d'] then ['\\', c.1] else [c.1]
  | _, _, .dot => if flags.contains 's' then anyChar else ['.']
  | _, _, .escape c => ['\\', c.1]
  | _, _, .oneOf body => '[' :: (body.plain ++ [']'])
  | _, _, .reference n => referenceTo n
  | before, after, .namedReference name =>
    referenceTo (before.idxOf (some name.string) + 1) ++
      if after.head?.any Char.isDigit then ['(', '?', ':', ')'] else []
  | before, after, .group o body =>
    o.plain flags ++ body.plain flags (before ++ o.groups flags) (')' :: after) ++ [')']
  | before, after, .quantified atom q => atom.plain flags before (q.text ++ after) ++ q.text
  | before, after, .concat left right =>
    left.plain flags before (right.text ++ after) ++
      right.plain flags (before ++ left.groups flags) after
  | before, after, .alternation left right =>
    left.plain flags before ('|' :: (right.text ++ after)) ++
      '|' :: right.plain flags (before ++ left.groups flags) after

variable {flags : List Char} {before : Groups} {after : List Char}

theorem text_ne_nil {t : Tree} (h : t.isAtom = true) : t.text ≠ [] := by
  cases t with
  | group o body => simp [text, print]
  | _ => simp_all [isAtom, text, print]

/-- A tree never starts with the mark that would turn an opener into another one. -/
theorem head?_text {t : Tree} (h : t.WellFormed flags before after) :
    t.text.head? ≠ some '?' := by
  induction t generalizing before after with
  | char c =>
    intro he
    have hc : c.1 = '?' := by simpa [text, print] using he
    exact c.2 (by simp [hc])
  | group o body =>
    cases o <;> simp [text, print, Opener.text]
  | quantified atom q ih =>
    obtain ⟨hatom, hwf⟩ := h
    obtain ⟨c, cs, hc⟩ := List.exists_cons_of_ne_nil (text_ne_nil hatom)
    have hi := ih hwf
    simp only [text, print] at hc hi ⊢
    rw [hc] at hi ⊢
    exact hi
  | concat left right ihl ihr =>
    have hl := ihl h.1
    have hr := ihr h.2
    simp only [text, print] at hl hr ⊢
    cases hp : left.print Opener.text with
    | nil => simpa using hr
    | cons c cs =>
      rw [hp] at hl
      exact hl
  | alternation left right ihl _ =>
    have hl := ihl h.1
    simp only [text, print] at hl ⊢
    cases hp : left.print Opener.text with
    | nil => simp
    | cons c cs =>
      rw [hp] at hl
      exact hl
  | _ => simp [text, print]

theorem head?_text_append {t : Tree} {r : List Char} (h : t.WellFormed flags before after)
    (hr : r.head? ≠ some '?') : (t.text ++ r).head? ≠ some '?' := by
  have ht := head?_text h
  cases hc : t.text with
  | nil => exact hr
  | cons a as =>
    rw [hc] at ht
    exact ht

end Tree

end Patterns.Extended
