import Patterns.Flags
import Patterns.Text.Blank

/-!
# Lexemes of extended patterns

A pattern is read from left to right. Some pieces of it have a meaning of their own in the
extended language (`Lexeme`); others are copied as a whole (`copiedLength?`), so that nothing
inside of them is taken for a lexeme. Lengths count characters.
-/
namespace Patterns.Extended
open Patterns.Text

inductive Scope where
  | outside | inClass
  deriving DecidableEq, Repr

inductive Lexeme where
  /-- `[]` and `[^]`. -/
  | emptyClass (negated : Bool)
  /-- `(?#...)`. -/
  | comment
  /-- `(?imnsx)` where the pattern starts. -/
  | modifier (flags : List Char)
  /-- `\k<name>`. -/
  | namedReference (name : List Char)
  /-- A backslash and digits. -/
  | numberedReference (digits : List Char)
  /-- White space and line comments in spaced mode. -/
  | spacing
  /-- A dot that matches line ends too. -/
  | dot
  | namedGroup (name : List Char)
  | group
  /-- A name in double braces. -/
  | subpattern (name : List Char)
  deriving DecidableEq, Repr

namespace Lexeme

/-- A name, and what follows the closing text. -/
def nameUpTo? (close : List Char) (cs : List Char) : Option (List Char) :=
  let name := cs.takeWhile Flags.isFlagChar
  if !name.isEmpty && close.isPrefixOf (cs.drop name.length) then some name else none

/-- The length of white space and line comments. -/
def spacingLength (inComment : Bool) : List Char → Nat
  | [] => 0
  | c :: rest =>
    if inComment then
      if c == '\n' || c == '\r' then 1 + spacingLength false rest
      else 1 + spacingLength true rest
    else if isBlank c then 1 + spacingLength false rest
    else if c == '#' then 1 + spacingLength true rest
    else 0

structure Settings where
  atStart : Bool
  spaced : Bool
  dotAll : Bool
  building : Bool

/-- The lexeme at the front of a text, and its length. -/
def scan? (settings : Settings) (scope : Scope) (cs : List Char) : Option (Lexeme × Nat) :=
  let numbered? (body : List Char) : Option (Lexeme × Nat) :=
    let digits := body.takeWhile Char.isDigit
    if digits.isEmpty then none else some (.numberedReference digits, 1 + digits.length)
  let subpattern? (body : List Char) : Option (Lexeme × Nat) :=
    if settings.building then
      (nameUpTo? ['\x7d', '\x7d'] body).map fun name => (.subpattern name, name.length + 4)
    else none
  match scope, cs with
  | _, '\x7b' :: '\x7b' :: body => subpattern? body
  | .inClass, '\\' :: body => numbered? body
  | .inClass, _ => none
  | .outside, '\\' :: 'k' :: '<' :: body =>
    (nameUpTo? ['>'] body).map fun name => (.namedReference name, name.length + 4)
  | .outside, '\\' :: body => numbered? body
  | .outside, '[' :: ']' :: _ => some (.emptyClass false, 2)
  | .outside, '[' :: '^' :: ']' :: _ => some (.emptyClass true, 3)
  | .outside, '(' :: '?' :: '#' :: body =>
    (body.findIdx? (· == ')')).map fun n => (.comment, n + 4)
  | .outside, '(' :: '?' :: '<' :: body =>
    (nameUpTo? ['>'] body).map fun name => (.namedGroup name, name.length + 4)
  | .outside, '(' :: '?' :: 'P' :: '<' :: body =>
    (nameUpTo? ['>'] body).map fun name => (.namedGroup name, name.length + 5)
  | .outside, '(' :: '?' :: body =>
    if settings.atStart then
      (nameUpTo? [')'] body).map fun flags => (.modifier flags, flags.length + 3)
    else none
  | .outside, '(' :: _ => some (.group, 1)
  | .outside, '.' :: _ => if settings.dotAll then some (.dot, 1) else none
  | .outside, cs =>
    if settings.spaced then
      let n := spacingLength false cs
      if n = 0 then none else some (.spacing, n)
    else none

end Lexeme

def braced? : List Char → Option Nat
  | '\x7b' :: body => (body.findIdx? (· == '\x7d')).map (· + 2)
  | _ => none

def isHex (c : Char) : Bool :=
  c.isDigit || ('a' ≤ c && c ≤ 'f') || ('A' ≤ c && c ≤ 'F')

def hexRun (n : Nat) (cs : List Char) : Nat :=
  if (cs.take n).length = n ∧ (cs.take n).all isHex then n else 0

/-- The length of an escape after its backslash. -/
def escapeLength : List Char → Nat
  | [] => 0
  | c :: cs =>
    1 + match c with
      | 'x' => (braced? cs).getD (hexRun 2 cs)
      | 'u' => (braced? cs).getD (hexRun 4 cs)
      | 'U' => hexRun 8 cs
      | 'p' | 'P' => (braced? cs).getD (if cs.head?.any Char.isAlpha then 1 else 0)
      | _ => 0

/-- The length of a counted quantifier, with its lazy mark. -/
def quantifierLength? : List Char → Option Nat
  | '\x7b' :: body =>
    let least := (body.takeWhile Char.isDigit).length
    if least = 0 then none
    else
      let (most, rest) := match body.drop least with
        | ',' :: rest =>
          let n := (rest.takeWhile Char.isDigit).length
          (n + 1, rest.drop n)
        | rest => (0, rest)
      match rest with
      | '\x7d' :: '?' :: _ => some (least + most + 3)
      | '\x7d' :: _ => some (least + most + 2)
      | _ => none
  | _ => none

def startsWithQuantifier : List Char → Bool
  | '?' :: _ | '*' :: _ | '+' :: _ => true
  | cs => (quantifierLength? cs).isSome

/-- The length of a piece that is copied as it stands: an escape, the opener of a group that
captures nothing, a lazy or a counted quantifier. -/
def copiedLength? (scope : Scope) : List Char → Option Nat
  | '\\' :: cs => some (1 + escapeLength cs)
  | cs =>
    match scope, cs with
    | .inClass, _ => none
    | .outside, '(' :: '?' :: '<' :: '=' :: _ | .outside, '(' :: '?' :: '<' :: '!' :: _ => some 4
    | .outside, '(' :: '?' :: ':' :: _ | .outside, '(' :: '?' :: '=' :: _
    | .outside, '(' :: '?' :: '!' :: _ | .outside, '(' :: '?' :: '>' :: _ => some 3
    | .outside, '?' :: '?' :: _ | .outside, '*' :: '?' :: _ | .outside, '+' :: '?' :: _ => some 2
    | .outside, cs => quantifierLength? cs

/-- A mode modifier where none is allowed. -/
def startsWithModifier : List Char → Bool
  | '(' :: '?' :: body =>
    let run := (body.takeWhile fun c => c.isAlpha || c == '-').length
    run > 0 && (body[run]? == some ')' || body[run]? == some ':')
  | _ => false

end Patterns.Extended
