import Patterns.Extended.Token

/-!
# Compilation of extended patterns

`Setting.toPlain` reads a pattern from left to right and writes plain text. Where a token asks for
it, what it wrote is read again in its place; the number of such expansions is limited. Every other
step moves on by a character at least, so reading ends.
-/
namespace Patterns.Extended
open Patterns.Text

/-- What is written for a piece of a pattern. -/
structure Piece where
  length : Nat
  output : List Char
  context : Context
  reparse : Bool := false

/-- Keeps the neighbours of removed text apart, unless a quantifier follows, which would then
apply to nothing. -/
def separator (after : List Char) : List Char :=
  if startsWithQuantifier after then [] else ['(', '?', ':', ')']

def referenceTo (index : Nat) : List Char := '\\' :: Nat.toDigits 10 index

def anyChar : List Char := ['[', '\\', 's', '\\', 'S', ']']

def setModifierFlags (custom : List Char) (written : String) :
    List Char → Context → Except Error Context
  | [], c => .ok c
  | flag :: rest, c =>
    if Flags.iteration.contains flag then .error (.modifierFlag flag written)
    else if !Flags.isKnown custom flag then .error (.unknownModifierFlag flag written)
    else setModifierFlags custom written rest (c.setFlag flag)

def digitsValue (ds : List Char) : Nat :=
  ds.foldl (fun n d => 10 * n + (d.toNat - '0'.toNat)) 0

abbrev Subpatterns := List (String × String)

/-- What is written for a lexeme; `written` is its text and `after` the text behind it. -/
def Lexeme.emit (lexeme : Lexeme) (scope : Scope) (written : String) (after : List Char)
    (custom : List Char) (subpatterns : Option Subpatterns) (c : Context) :
    Except Error (List Char × Context) :=
  match lexeme with
  | .emptyClass negated => .ok (if negated then anyChar else ['\\', 'b', '\\', 'B'], c)
  | .comment | .spacing => .ok (separator after, c)
  | .modifier flags => do return ([], ← setModifierFlags custom written flags c)
  | .namedReference name =>
    match c.groupIndex? (String.ofList name) with
    | none => .error (.undefinedGroup written)
    | some index =>
      let apart := if after.head?.any Char.isDigit then ['(', '?', ':', ')'] else []
      .ok (referenceTo index ++ apart, c)
  | .numberedReference digits =>
    if digits = ['0'] then .ok (['\\', 'x', '0', '0'], c)
    else if digits.head? = some '0' then .error (.octalEscape written)
    else if scope = .inClass then .error (.referenceInClass written)
    else if digitsValue digits ≤ c.groupCount then .ok (referenceTo (digitsValue digits), c)
    else .error (.undefinedGroup written)
  | .dot => .ok (anyChar, c)
  | .namedGroup name => do return (['('], ← c.addGroup (some (String.ofList name)))
  | .group =>
    if c.hasFlag 'n' then .ok (['(', '?', ':'], c)
    else do return (['('], ← c.addGroup none)
  | .subpattern name =>
    match (subpatterns.getD []).lookup (String.ofList name) with
    | none => .error (.undefinedSubpattern (String.ofList name))
    | some text => .ok (['(', '?', ':'] ++ text.toList ++ [')'], c)

def Lexeme.isReparsed : Lexeme → Bool
  | .subpattern _ => true
  | _ => false

/-- The state of reading a pattern: the text with its expansions in place, the part of it that is
still to be read, and the pieces written so far, the latest first. Only tokens look at the whole
pattern, so it is put together when one does. -/
structure Scan where
  working : Thunk Subject
  place : Nat
  rest : List Char
  scope : Scope
  context : Context
  pieces : List (List Char)
  place_le : place ≤ working.get.size
  rest_eq : rest = working.get.toList.drop place

private theorem get_mk {α : Type} (f : Unit → α) : (Thunk.mk f).get = f () := rfl

namespace Scan

def start (pattern : String) (c : Context) : Scan :=
  { working := Thunk.mk fun _ => .ofString pattern, place := 0, rest := pattern.toList,
    scope := .outside, context := c, pieces := [], place_le := Nat.zero_le _
    rest_eq := by rw [get_mk]; simp [Subject.ofString] }

def written (s : Scan) : List Char := s.pieces.reverse.flatten

theorem place_add_length (s : Scan) : s.place + s.rest.length = s.working.get.size := by
  have := s.place_le
  rw [s.rest_eq, List.length_drop, Subject.length_toList]
  omega

/-- Moves on by `n` characters and writes `output`. -/
def write (s : Scan) (n : Nat) (output : List Char) (scope : Scope) (context : Context) : Scan :=
  { s with
    place := s.place + (s.rest.take n).length, rest := s.rest.drop n
    pieces := output :: s.pieces, scope, context
    place_le := by
      have := s.place_add_length
      rw [List.length_take]
      omega
    rest_eq := by
      rw [← List.drop_drop, ← s.rest_eq, List.length_take]
      rcases Nat.le_total n s.rest.length with h | h
      · rw [Nat.min_eq_left h]
      · rw [Nat.min_eq_right h, List.drop_eq_nil_of_le h, List.drop_length] }

private theorem place_le_splice (s : Scan) (n : Nat) (output : List Char) :
    s.place ≤ (Thunk.mk fun _ => s.working.get.splice s.place n output).get.size := by
  have := s.place_le
  rw [get_mk, ← Subject.length_toList, Subject.toList_splice]
  simp only [List.length_append, List.length_take, Subject.length_toList]
  omega

private theorem rest_eq_splice (s : Scan) (n : Nat) (output : List Char) :
    output ++ s.rest.drop n =
      (Thunk.mk fun _ => s.working.get.splice s.place n output).get.toList.drop s.place := by
  have := s.place_le
  rw [get_mk, Subject.toList_splice, List.drop_append_of_le_length (by simp; omega), s.rest_eq]
  simp [List.drop_drop]

/-- Puts `output` in the place of `n` characters, where it is read next. -/
def splice (s : Scan) (n : Nat) (output : List Char) (context : Context) : Scan :=
  { s with
    working := Thunk.mk fun _ => s.working.get.splice s.place n output
    rest := output ++ s.rest.drop n, context
    place_le := s.place_le_splice n output
    rest_eq := s.rest_eq_splice n output }

@[simp] theorem rest_write (s : Scan) (n : Nat) (output : List Char) (scope : Scope)
    (context : Context) : (s.write n output scope context).rest = s.rest.drop n := rfl

theorem written_write (s : Scan) (n : Nat) (output : List Char) (scope : Scope)
    (context : Context) : (s.write n output scope context).written = s.written ++ output := by
  simp [written, write]

end Scan

/-- Everything that the plain text of a pattern depends on. -/
structure Setting where
  dialect : Dialect
  surroundings : Surroundings
  subpatterns : Option Subpatterns
  pattern : String

namespace Setting

/-- The newest token that is triggered and matches here. -/
def tokenPiece? (e : Setting) (s : Scan) : List Token → Except Error (Option Piece)
  | [] => .ok none
  | t :: ts =>
    if t.isTriggered s.scope s.context then do
      match ← t.pattern.searchAt s.working.get s.place true with
      | none => e.tokenPiece? s ts
      | some ⟨found, _⟩ =>
        let (output, later) ← t.handler ⟨s.working.get, found, s.scope, e.surroundings⟩ s.context
        return some ⟨found.stop - found.start, output.toList, later.context, t.reparse⟩
    else e.tokenPiece? s ts

def lexemePiece? (e : Setting) (s : Scan) : Except Error (Option Piece) :=
  let settings : Lexeme.Settings :=
    { atStart := s.place = 0, spaced := s.context.hasFlag 'x', dotAll := s.context.hasFlag 's',
      building := e.subpatterns.isSome }
  match Lexeme.scan? settings s.scope s.rest with
  | none => .ok none
  | some (lexeme, n) => do
    let (output, context) ← lexeme.emit s.scope (String.ofList (s.rest.take n)) (s.rest.drop n)
      e.dialect.flags e.subpatterns s.context
    return some ⟨n, output, context, lexeme.isReparsed⟩

def piece? (e : Setting) (s : Scan) : Except Error (Option Piece) := do
  match ← e.tokenPiece? s e.dialect.tokens with
  | some p => return some p
  | none => e.lexemePiece? s

/-- What a single character is written as, and the scope behind it. -/
def single (scope : Scope) (c : Char) : List Char × Scope :=
  match scope, c with
  | .outside, '[' => ([c], .inClass)
  | .inClass, ']' => ([c], .outside)
  | .inClass, '[' | .inClass, '&' | .inClass, '~' => (['\\', c], scope)
  | .outside, '\x7b' | .outside, '\x7d' | .outside, ']' => (['\\', c], scope)
  | _, _ => ([c], scope)

inductive Step (s : Scan) where
  | expanded (next : Scan)
  | moved (next : Scan) (shorter : next.rest.length < s.rest.length)

/-- One step from a place before the end. -/
def step (e : Setting) (s : Scan) (more : s.rest ≠ []) : Except Error (Step s) :=
  have positive : 0 < s.rest.length := List.length_pos_iff.mpr more
  let move (n : Nat) (output : List Char) (scope : Scope) (context : Context) : Step s :=
    .moved (s.write (max 1 n) output scope context) (by simp; omega)
  match e.piece? s with
  | .error err => .error err
  | .ok (some p) =>
    if p.reparse then .ok (.expanded (s.splice p.length p.output p.context))
    else .ok (move p.length p.output s.scope p.context)
  | .ok none =>
    match copiedLength? s.scope s.rest with
    | some n => .ok (move n (s.rest.take n) s.scope s.context)
    | none =>
      if s.scope = .outside ∧ startsWithModifier s.rest then .error (.strayModifier e.pattern)
      else
        let (output, scope) := single s.scope (s.rest.head more)
        .ok (move 1 output scope s.context)

/-- Reads to the end with at most `left` of the `limit` expansions. -/
def finish (e : Setting) (limit left : Nat) (s : Scan) : Except Error Scan :=
  if more : s.rest = [] then .ok s
  else
    match e.step s more with
    | .error err => .error err
    | .ok (.moved next _) => e.finish limit left next
    | .ok (.expanded next) =>
      match left with
      | 0 => .error (.tooManyExpansions limit e.pattern)
      | left + 1 => e.finish limit left next
  termination_by (left, s.rest.length)

/-- The plain text of a pattern, and the context at its end. -/
def toPlain (e : Setting) (limit : Nat) (c : Context) : Except Error (List Char × Context) := do
  let s ← e.finish limit limit (.start e.pattern c)
  return (s.written, s.context)

end Setting

/-- Compiles an extended pattern. -/
def compile (d : Dialect) (w : Surroundings) (limit : Nat) (pattern flags : String)
    (subpatterns : Option Subpatterns) : Except Error Matcher := do
  Flags.validate d.flags flags
  let setting : Setting := { dialect := d, surroundings := w, subpatterns, pattern }
  let (output, c) ← setting.toPlain limit (.ofFlags flags)
  Matcher.ofCompiled (String.ofList output) (.ofList c.flags) c.groups pattern flags

end Patterns.Extended
