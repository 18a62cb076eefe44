import Patterns.Plain.ClassText
import Patterns.Plain.Property
import Patterns.Plain.Shape

/-!
# Reading plain patterns

A reader holds the text still to be read, the modes in force, and the groups met so far.
`readPattern` reads a whole pattern or refuses it. Recursion is bounded by the length of the text,
since each level of it takes a character.
-/
namespace Patterns.Plain
open Patterns.Text

structure Modes where
  anyCase : Bool := false
  multiline : Bool := false
  dotAll : Bool := false
  lazy : Bool := false
  spaced : Bool := false

/-- What holds in all of a pattern, whatever its modes say. -/
structure Throughout where
  anyCase : Bool := false
  /-- The ends of the text are the ends of lines. -/
  lines : Bool := false

structure Reader where
  rest : List Char
  modes : Modes
  throughout : Throughout := {}
  opened : Nat := 0
  names : List (String × Nat) := []
  referenced : List Nat := []
  /-- How many characters each closed group takes, if always as many. -/
  sizes : List (Nat × Option Nat) := []
  numbered : Bool := false
  /-- Numbered references stay below half of the bytes of the pattern. -/
  referenceLimit : Nat

abbrev Read := StateT Reader Option

namespace Reader

/-- What follows a comment, in which a backslash hides the character after it. -/
def afterComment : List Char → Option (List Char)
  | [] | ['\\'] => none
  | ')' :: rest => some rest
  | '\\' :: _ :: rest => afterComment rest
  | _ :: rest => afterComment rest

theorem afterComment_length {cs rest : List Char} (h : afterComment cs = some rest) :
    rest.length < cs.length := by
  fun_induction afterComment cs with
  | case1 => simp at h
  | case2 => simp at h
  | case3 => simp_all
  | case4 _ _ ih => have := ih h; simp; omega
  | case5 _ _ _ _ _ ih => have := ih h; simp; omega

/-- Skips comments and, in spaced mode, blanks and line comments. -/
def skipBlanks (spaced : Bool) (cs : List Char) : Option (List Char) :=
  match cs with
  | [] => some []
  | '(' :: '?' :: '#' :: body =>
    match _h : afterComment body with
    | none => none
    | some rest => skipBlanks spaced rest
  | c :: rest =>
    if spaced && c == '#' then skipBlanks spaced ((rest.dropWhile (· != '\n')).drop 1)
    else if spaced && (c == ' ' || c == '\r' || c == '\n' || c == '\t') then
      skipBlanks spaced rest
    else some (c :: rest)
  termination_by cs.length
  decreasing_by
    · have := afterComment_length _h; simp; omega
    · have := (List.dropWhile_sublist (l := rest) (· != '\n')).length_le
      simp only [List.length_drop, List.length_cons]; omega
    · simp

def blanks : Read Unit := do
  let r ← get
  let rest ← skipBlanks r.modes.spaced r.rest
  set { r with rest }

def peek : Read (List Char) := return (← get).rest

def setRest (rest : List Char) : Read Unit := modify fun r => { r with rest }

def expect (c : Char) : Read Unit := do
  let d :: rest ← peek | failure
  if c == d then setRest rest else failure

def closeGroup : Read Unit := do
  blanks
  expect ')'

/-- Decimal digits as a number of 64 bits. -/
def decimal? (cs : List Char) : Option (Nat × List Char) :=
  let digits := cs.takeWhile Char.isDigit
  let n := digits.foldl (fun n d => 10 * n + (d.toNat - '0'.toNat)) 0
  if digits.isEmpty || n ≥ UInt64.size then none else some (n, cs.drop digits.length)

def isHexDigit (c : Char) : Bool :=
  c.isDigit || ('a' ≤ c && c ≤ 'f') || ('A' ≤ c && c ≤ 'F')

def hexValue (ds : List Char) : Nat :=
  ds.foldl (fun n d =>
    16 * n + (if d.isDigit then d.toNat - '0'.toNat else d.toLower.toNat - 'a'.toNat + 10)) 0

def scalar? (n : Nat) : Option Char := if n.isValidChar then some (Char.ofNat n) else none

/-- A character by its code: exactly `width` hexadecimal digits, or up to eight in braces. -/
def hexChar? (width : Nat) (cs : List Char) : Option (Char × List Char) :=
  let short := cs.take width
  if short.length == width && short.all isHexDigit then
    (scalar? (hexValue short)).map (·, cs.drop width)
  else
    match cs with
    | '\x7b' :: body =>
      let digits := body.takeWhile isHexDigit
      match body.drop digits.length with
      | '\x7d' :: rest =>
        if digits.isEmpty || digits.length > 8 then none
        else (scalar? (hexValue digits)).map (·, rest)
      | _ => none
    | _ => none

def isNameChar (c : Char) : Bool := isLetterOrNumber c || c == '_'

/-- A name that ends at `close`. -/
def name? (close : Char) (cs : List Char) : Option (String × List Char) :=
  let name := cs.takeWhile isNameChar
  match cs.drop name.length with
  | c :: rest => if c == close && !name.isEmpty then some (String.ofList name, rest) else none
  | [] => none

/-- How a reference names its group: by name or number, or counted from the group opened last. -/
inductive Target where
  | named (name : String)
  | back (n : Nat)
  | ahead (n : Nat)

def target? (close : Char) (cs : List Char) : Option (Target × List Char) :=
  let relative (make : Nat → Target) (body : List Char) : Option (Target × List Char) :=
    match decimal? body with
    | some (n, c :: rest) => if c == close && n != 0 then some (make n, rest) else none
    | _ => none
  match cs with
  | '-' :: body => relative .back body
  | '+' :: body => relative .ahead body
  | _ => (name? close cs).map fun (name, rest) => (.named name, rest)

def resolve? (r : Reader) : Target → Option Nat
  | .named name =>
    (r.names.lookup name).orElse fun _ =>
      match decimal? name.toList with
      | some (n, []) => some n
      | _ => none
  | .back n => if n ≤ r.opened then some (r.opened + 1 - n) else none
  | .ahead n => some (r.opened + n)

def reference (index : Nat) : Read Expr := do
  let r ← get
  set { r with referenced := index :: r.referenced }
  return .backref index r.modes.anyCase (r.sizes.lookup index).join

/-- Records the size of a group that is closed now. -/
def closed (index : Nat) (e : Expr) : Read Unit :=
  let shape := e.shape []
  let size := if shape.fixed then some shape.minSize else none
  modify fun r => { r with sizes := (index, size) :: r.sizes }

def ignoresCase : Read Bool := do
  let r ← get
  return r.modes.anyCase || r.throughout.anyCase

def targetGroup (close : Char) : Read Nat := do
  let r ← get
  let (target, rest) ← target? close r.rest
  set { r with rest }
  resolve? r target

def number : Read Nat := do
  let r ← get
  let (n, rest) ← decimal? r.rest
  if n < r.referenceLimit then
    set { r with rest }
    return n
  else failure

def numberedReference : Read Expr := do
  let n ← number
  modify fun r => { r with numbered := true }
  reference n

/-- A reference between marks: angle brackets or apostrophes. -/
def markedTarget : Read Nat := do
  match ← peek with
  | '\'' :: rest => setRest rest; targetGroup '\''
  | '<' :: rest => setRest rest; targetGroup '>'
  | _ => failure

def property (negated : Bool) : Read CharSet := do
  let anyCase ← ignoresCase
  match ← peek with
  | '\x7b' :: body =>
    let name := body.takeWhile (· != '\x7d')
    let '\x7d' :: rest := body.drop name.length | failure
    setRest rest
    let s ← Property.ofText? (String.ofList name)
    return CharSet.negateIf negated (CharSet.foldIf anyCase s)
  | c :: rest =>
    setRest rest
    let s ← Property.ofLetter? c
    return CharSet.negateIf negated (CharSet.foldIf anyCase s)
  | [] => failure

def hexDigits : CharSet := .ofRanges [('0', '9'), ('A', 'F'), ('a', 'f')]

/-- Escapes that mean the same inside and outside of a class. A character by its code takes part
in case folding, and others do not. -/
inductive CommonEscape where
  | char (c : Char)
  | code (c : Char)
  | set (s : CharSet)
  | nested (s : CharSet)

/-- Letters that a class takes for themselves after a backslash. -/
def classLetters : List Char := ['k', 'A', 'z', 'B', 'K', 'G']

def commonEscape (c : Char) : Read CommonEscape := do
  match c with
  | 'd' => return .set .digit
  | 'D' => return .set (.compl .digit)
  | 's' => return .set .blank
  | 'S' => return .set (.compl .blank)
  | 'w' => return .set .word
  | 'W' => return .set (.compl .word)
  | 'h' => return .nested hexDigits
  | 'H' => return .nested (.compl hexDigits)
  | 'x' => hex 2
  | 'u' => hex 4
  | 'U' => hex 8
  | 'p' => return .set (← property false)
  | 'P' => return .set (← property true)
  | 'a' => return .char '\x07'
  | 'b' => return .char '\x08'
  | 'e' => return .char '\x1b'
  | 'f' => return .char '\x0c'
  | 'n' => return .char '\n'
  | 'r' => return .char '\r'
  | 't' => return .char '\t'
  | 'v' => return .char '\x0b'
  | _ => if c.isAlpha then failure else return .char c
where
  hex (width : Nat) : Read CommonEscape := do
    let (c, rest) ← hexChar? width (← peek)
    setRest rest
    return .code c

def literal (c : Char) : Read Expr := return .char c (← ignoresCase)

def atStart (multiline : Bool) : Read Expr := do
  return .assertion (if multiline || (← get).throughout.lines then .lineStart else .textStart)

def atEnd (multiline : Bool) : Read Expr := do
  return .assertion (if multiline || (← get).throughout.lines then .lineEnd else .textEnd)

/-- The end of the text or a place where only line ends follow. -/
def atLastLines : Read Expr := do
  let r ← get
  return .look false false
    (.concat [.loop (.char '\n' r.throughout.anyCase) 0 none true, ← atEnd false])

/-- An escape outside of a class, after its backslash. -/
def escape : Read Expr := do
  let c :: rest ← peek | failure
  if c.isDigit then numberedReference
  else do
    setRest rest
    match c with
    | 'k' => reference (← markedTarget)
    | 'A' => atStart false
    | 'z' => atEnd false
    | 'Z' => atLastLines
    | 'b' => if rest.head? == some '\x7b' then failure else return .assertion .wordBoundary
    | 'B' => return .assertion .notWordBoundary
    | '<' => return .assertion .wordStart
    | '>' => return .assertion .wordEnd
    | 'K' => return .resetStart
    | 'G' => return .searchStart
    | 'O' => return .set .all
    | _ =>
      match ← commonEscape c with
      | .code d => literal d
      | .char d => return .char d (← get).throughout.anyCase
      | .set s | .nested s => return .set s

/-- The rest of a class with `depth` brackets open. -/
def classTokens : (fuel depth : Nat) → List ClassToken → Read (List ClassToken)
  | 0, _, _ => failure
  | fuel + 1, depth, found => do
    let c :: rest ← peek | failure
    setRest rest
    match c with
    | '\\' => do
      let d :: rest ← peek | failure
      setRest rest
      if classLetters.contains d then classTokens fuel depth (.literal d :: found)
      else
        match ← commonEscape d with
        | .char e | .code e =>
          if d.isDigit then failure else classTokens fuel depth (.literal e :: found)
        | .set s => classTokens fuel depth (.set s :: found)
        | .nested s => classTokens fuel depth (.nested s :: found)
    | '[' => classTokens fuel (depth + 1) (.mark c :: found)
    | ']' =>
      if depth ≤ 1 then return (.mark c :: found).reverse
      else classTokens fuel (depth - 1) (.mark c :: found)
    | _ => classTokens fuel depth (.mark c :: found)

/-- A class after its opening bracket. -/
def bracketed : Read Expr := do
  let mut found : List ClassToken := []
  if let '^' :: rest ← peek then
    setRest rest
    found := [.mark '^']
  if let ']' :: rest ← peek then
    setRest rest
    found := .mark ']' :: found
  let r ← get
  let ts ← classTokens (r.rest.length + 1) 1 found
  let s ← ClassText.set? (← ignoresCase) ts
  return .set s

/-- The largest number of 64 bits stands for no bound. -/
def bound (n : Nat) : Option Nat := if n = UInt64.size - 1 then none else some n

/-- The bounds of a counted repetition, after its opening brace. -/
def counts? (spaced : Bool) (cs : List Char) : Option (Nat × Option Nat × List Char) := do
  let cs ← skipBlanks spaced cs
  let (least, cs) ← if cs.head? == some ',' then some (0, cs) else decimal? cs
  let c :: rest ← skipBlanks spaced cs | none
  match c with
  | '\x7d' => some (least, bound least, rest)
  | ',' =>
    let rest ← skipBlanks spaced rest
    let (most, rest) := match decimal? rest with
      | some (n, rest) => (bound n, rest)
      | none => (none, rest)
    let '\x7d' :: rest ← skipBlanks spaced rest | none
    some (least, most, rest)
  | _ => none

/-- A repetition mark, if one follows. -/
def quantifier? (spaced : Bool) : List Char → Option (Nat × Option Nat × List Char)
  | '?' :: rest => some (0, some 1, rest)
  | '*' :: rest => some (0, none, rest)
  | '+' :: rest => some (1, none, rest)
  | '\x7b' :: rest => counts? spaced rest
  | _ => none

def quantified (e : Expr) : Read Expr := do
  blanks
  let r ← get
  match quantifier? r.modes.spaced r.rest with
  | none => return e
  | some (least, most, rest) =>
    if !e.isRepeatable then failure
    setRest rest
    blanks
    let mut lazy := r.modes.lazy
    if let '?' :: rest ← peek then
      setRest rest
      lazy := !lazy
    let e := Expr.loop e least most !lazy
    match ← peek with
    | '+' :: rest =>
      setRest rest
      return .atomic e
    | _ => return e

def setMode (c : Char) (on : Bool) (m : Modes) : Option Modes :=
  match c with
  | 'i' => some { m with anyCase := on }
  | 'm' => some { m with multiline := on }
  | 's' => some { m with dotAll := on }
  | 'U' => some { m with lazy := on }
  | 'x' => some { m with spaced := on }
  | 'u' => if on then some m else none
  | _ => none

/-- Mode letters up to the parenthesis or colon that ends them; the answer is whether a colon
does. -/
def modeLetters : (fuel : Nat) → (count : Nat) → (negated hyphen : Bool) → Read Bool
  | 0, _, _, _ => failure
  | fuel + 1, count, negated, hyphen => do
    blanks
    let c :: rest ← peek | failure
    setRest rest
    match c with
    | ')' => if count == 0 || hyphen then failure else return false
    | ':' => if hyphen then failure else return true
    | '-' => if negated then failure else modeLetters fuel (count + 1) true true
    | _ => do
      let r ← get
      let modes ← setMode c (!negated) r.modes
      set { r with modes }
      modeLetters fuel (count + 1) negated false

def newGroup (name : Option String) : Read Nat := do
  let r ← get
  let index := r.opened + 1
  let names := match name with
    | some n => (n, index) :: r.names
    | none => r.names
  set { r with opened := index, names }
  return index

def maxDepth : Nat := 63

/-- The alternatives of a conditional: the first, and the others. -/
def branches : Expr → Expr × Expr
  | .alt [yes, no] => (yes, no)
  | .alt (yes :: others) => (yes, .alt others)
  | e => (e, .empty)

mutual

def alternatives : (fuel depth : Nat) → Read Expr
  | 0, _ => failure
  | fuel + 1, depth => do
    let first ← sequence fuel depth []
    blanks
    match ← peek with
    | '|' :: _ => return .alt (first :: (← moreAlternatives fuel depth))
    | _ =>
      let r ← get
      if r.numbered && !r.names.isEmpty then failure else return first

def moreAlternatives : (fuel depth : Nat) → Read (List Expr)
  | 0, _ => failure
  | fuel + 1, depth => do
    match ← peek with
    | '|' :: rest =>
      setRest rest
      let e ← sequence fuel depth []
      blanks
      return e :: (← moreAlternatives fuel depth)
    | _ => return []

def sequence : (fuel depth : Nat) → List Expr → Read Expr
  | 0, _, _ => failure
  | fuel + 1, depth, found => do
    let before ← peek
    if before.isEmpty then return .ofList found.reverse
    let e ← piece fuel depth
    let after ← peek
    if after.length == before.length then return .ofList found.reverse
    else sequence fuel depth (if e.isEmpty then found else e :: found)

def piece : (fuel depth : Nat) → Read Expr
  | 0, _ => failure
  | fuel + 1, depth => do
    blanks
    let e ← match ← peek with
      | [] => pure .empty
      | c :: rest =>
        match c with
        | '.' =>
          setRest rest
          pure (.set (if (← get).modes.dotAll then .all else .compl (.single '\n')))
        | '^' => setRest rest; atStart (← get).modes.multiline
        | '$' => setRest rest; atEnd (← get).modes.multiline
        | '(' => setRest rest; group fuel (depth + 1)
        | '\\' => setRest rest; escape
        | '[' => setRest rest; bracketed
        | '+' | '*' | '?' | '|' | ')' => pure .empty
        | _ => setRest rest; literal c
    quantified e

/-- A group after its opening parenthesis. -/
def group : (fuel depth : Nat) → Read Expr
  | 0, _ => failure
  | fuel + 1, depth => do
    if depth > maxDepth then failure
    blanks
    let enclosed (make : Expr → Expr) (rest : List Char) : Read Expr := do
      setRest rest
      let e ← alternatives fuel depth
      closeGroup
      return make e
    let captured (index : Nat) (rest : List Char) : Read Expr := do
      let e ← enclosed id rest
      closed index e
      return .group index e
    let named (close : Char) (rest : List Char) : Read Expr := do
      let (name, rest) ← name? close rest
      captured (← newGroup (some name)) rest
    match ← peek with
    | '?' :: '=' :: rest => enclosed (.look false false) rest
    | '?' :: '!' :: rest => enclosed (.look false true) rest
    | '?' :: '<' :: '=' :: rest => enclosed (.look true false) rest
    | '?' :: '<' :: '!' :: rest => enclosed (.look true true) rest
    | '?' :: '<' :: rest => named '>' rest
    | '?' :: '\'' :: rest => named '\'' rest
    | '?' :: 'P' :: '<' :: rest => named '>' rest
    | '?' :: 'P' :: '=' :: rest => do
      let (name, rest) ← name? ')' rest
      setRest rest
      let n ← resolve? (← get) (.named name)
      reference n
    | '?' :: '>' :: rest => enclosed .atomic rest
    | '?' :: '(' :: rest => do
      setRest rest
      conditional fuel depth
    | '?' :: rest => do
      let modes := (← get).modes
      setRest rest
      if ← modeLetters (rest.length + 1) 0 false false then
        let e ← alternatives fuel depth
        expect ')'
        modify fun r => { r with modes }
        return e
      else return .empty
    | rest => do captured (← newGroup none) rest

/-- A conditional after the parenthesis that opens its test. -/
def conditional : (fuel depth : Nat) → Read Expr
  | 0, _ => failure
  | fuel + 1, depth => do
    let c :: _ ← peek | failure
    let test ←
      if c.isDigit then numberedReference
      else if c == '\'' || c == '<' then reference (← markedTarget)
      else alternatives fuel depth
    closeGroup
    let before ← peek
    let e ← alternatives fuel depth
    let after ← peek
    closeGroup
    let test' := match test with
      | .backref n .. => .groupTest n
      | e => e
    if after.length == before.length then
      match test with
      | .backref .. => return test'
      | _ => failure
    else
      match branches e with
      | (.empty, .empty) => return test'
      | (yes, no) => return .cond test' yes no

end

end Reader

/-- A pattern as read: its meaning, how many groups it opens, their names, and the groups that it
refers back to. -/
structure PatternText where
  expr : Expr
  opened : Nat
  names : List (String × Nat)
  referenced : List Nat

def readPattern (source : String) (anyCase multiline : Bool) (throughout : Throughout) :
    Option PatternText := do
  let cs := source.toList
  let start : Reader :=
    { rest := cs, modes := { anyCase, multiline }, throughout,
      referenceLimit := source.utf8ByteSize / 2 }
  let (e, r) ← (Reader.alternatives (8 * cs.length + 16) 0).run start
  if !r.rest.isEmpty then none
  else if r.referenced.any fun n => n == 0 || n > r.opened then none
  else some ⟨e.exposeLast, r.opened, r.names, r.referenced⟩

end Patterns.Plain
