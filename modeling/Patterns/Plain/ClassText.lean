import Patterns.Plain.CharSet

/-!
# Text of bracketed classes

Between brackets stand characters, ranges, sets, classes of their own and the operators
intersection, difference and symmetric difference, which bind alike and from the left. A class in
which case is ignored is closed under case folding before it is negated.
-/
namespace Patterns.Plain

/-- What a class is written with; an escaped character never acts as punctuation. -/
inductive ClassToken where
  | mark (c : Char)
  | literal (c : Char)
  | set (s : CharSet)
  | nested (s : CharSet)

namespace ClassToken

def isMark (c : Char) : ClassToken → Bool
  | .mark d => c == d
  | _ => false

def char? : ClassToken → Option Char
  | .mark c | .literal c => some c
  | .set _ | .nested _ => none

end ClassToken

inductive ClassOperator where
  | intersection | difference | symmetricDifference

namespace ClassOperator

def apply : ClassOperator → CharSet → CharSet → CharSet
  | .intersection => .inter
  | .difference => CharSet.diff
  | .symmetricDifference => CharSet.symmDiff

def ofMark? : Char → Option ClassOperator
  | '&' => some .intersection
  | '-' => some .difference
  | '~' => some .symmetricDifference
  | _ => none

end ClassOperator

namespace ClassText

private def asciiClass? : String → Option CharSet
  | "alnum" => some (.ofRanges [('0', '9'), ('A', 'Z'), ('a', 'z')])
  | "alpha" => some (.ofRanges [('A', 'Z'), ('a', 'z')])
  | "ascii" => some .ascii
  | "blank" => some (.ofRanges [('\t', '\t'), (' ', ' ')])
  | "cntrl" => some (.ofRanges [('\x00', '\x1f'), ('\x7f', '\x7f')])
  | "digit" => some (.range '0' '9')
  | "graph" => some (.range '!' '~')
  | "lower" => some (.range 'a' 'z')
  | "print" => some (.range ' ' '~')
  | "punct" => some (.ofRanges [('!', '/'), (':', '@'), ('[', '\x60'), ('\x7b', '~')])
  | "space" => some (.ofRanges [('\t', '\r'), (' ', ' ')])
  | "upper" => some (.range 'A' 'Z')
  | "word" => some (.ofRanges [('0', '9'), ('A', 'Z'), ('_', '_'), ('a', 'z')])
  | "xdigit" => some (.ofRanges [('0', '9'), ('A', 'F'), ('a', 'f')])
  | _ => none

private def marks : List ClassToken → List Char
  | .mark c :: rest => c :: marks rest
  | _ => []

/-- A named class such as `[:alpha:]`, after its opening bracket. -/
private def named? (anyCase : Bool) (ts : List ClassToken) :
    Option (CharSet × List ClassToken) := do
  let ':' :: body := marks ts | none
  let negated := body.head? == some '^'
  let body := if negated then body.drop 1 else body
  let name := body.takeWhile (· != ':')
  let ':' :: ']' :: _ := body.drop name.length | none
  let s ← asciiClass? (String.ofList name)
  let used := 1 + (if negated then 1 else 0) + name.length + 2
  return (CharSet.negateIf negated (CharSet.foldIf anyCase s), ts.drop used)

def hyphens (s : CharSet) : List ClassToken → CharSet × List ClassToken
  | .mark '-' :: rest => hyphens (.union s (.single '-')) rest
  | ts => (s, ts)

/-- What stands first: a caret that negates, hyphens, or else a closing bracket taken literally. -/
def opening (ts : List ClassToken) : Bool × CharSet × List ClassToken :=
  let (negated, ts) := match ts with
    | .mark '^' :: rest => (true, rest)
    | _ => (false, ts)
  match ts with
  | .mark ']' :: rest => (negated, .single ']', rest)
  | _ =>
    let (s, rest) := hyphens .none ts
    (negated, s, rest)

def setOf : ClassToken → CharSet
  | .mark c | .literal c => .single c
  | .set s | .nested s => s

/-- A range, or a single member. -/
def item? : List ClassToken → Option (CharSet × List ClassToken)
  | [] => none
  | first :: rest =>
    match rest with
    | .mark '-' :: last :: more =>
      if last.isMark ']' || last.isMark '-' then some (setOf first, rest)
      else do
        let a ← first.char?
        let b ← last.char?
        if a ≤ b then some (.range a b, more) else none
    | _ => some (setOf first, rest)

def settle (anyCase : Bool) (left : Option (ClassOperator × CharSet)) (s : CharSet) :
    CharSet :=
  match left with
  | none => s
  | some (op, l) => op.apply (CharSet.foldIf anyCase l) (CharSet.foldIf anyCase s)

def operator? : List ClassToken → Option (ClassOperator × List ClassToken)
  | .mark a :: .mark b :: rest =>
    if a == b then (ClassOperator.ofMark? a).map (·, rest) else none
  | _ => none

mutual

/-- A class after its opening bracket, and what follows its closing one. -/
def bracket (anyCase : Bool) : (fuel : Nat) → List ClassToken → Option (CharSet × List ClassToken)
  | 0, _ => none
  | fuel + 1, ts => do
    let (negated, s, ts) := opening ts
    let (s, rest) ← body anyCase fuel none s ts
    return (CharSet.negateIf negated (CharSet.foldIf anyCase s), rest)

def body (anyCase : Bool) : (fuel : Nat) → Option (ClassOperator × CharSet) → CharSet →
    List ClassToken → Option (CharSet × List ClassToken)
  | 0, _, _, _ => none
  | fuel + 1, left, s, ts =>
    match ts with
    | [] => none
    | .mark '[' :: rest =>
      match named? anyCase rest with
      | some (t, rest) => body anyCase fuel left (.union s t) rest
      | none => do
        let (t, rest) ← bracket anyCase fuel rest
        body anyCase fuel left (.union s t) rest
    | .mark ']' :: rest => some (settle anyCase left s, rest)
    | .nested t :: rest => body anyCase fuel left (.union s t) rest
    | ts =>
      match operator? ts with
      | some (op, rest) => body anyCase fuel (some (op, settle anyCase left s)) .none rest
      | none => do
        let (t, rest) ← item? ts
        body anyCase fuel left (.union s t) rest

end

/-- The set that a whole class denotes; nothing may follow its closing bracket. -/
def set? (anyCase : Bool) (ts : List ClassToken) : Option CharSet := do
  let (s, rest) ← bracket anyCase (2 * ts.length + 2) ts
  if rest.isEmpty then some s else none

end ClassText

end Patterns.Plain
