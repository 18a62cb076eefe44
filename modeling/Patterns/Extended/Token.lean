import Patterns.Extended.Context
import Patterns.Extended.Lexeme
import Patterns.Matcher

/-!
# Custom tokens

A token replaces what its pattern matches in an extended pattern by what its handler writes. While
a pattern is compiled the compiler cannot be entered again: a handler may only look up matchers
that are stored already.
-/
namespace Patterns.Extended
open Patterns.Text

/-- Where a token applies. -/
inductive Reach where
  | outside | inClass | everywhere
  deriving DecidableEq, Repr

def Reach.admits : Reach → Scope → Bool
  | .everywhere, _ => true
  | .outside, scope => scope == .outside
  | .inClass, scope => scope == .inClass

/-- What a handler can ask the compiler that runs it. -/
structure Surroundings where
  extensible : Bool
  stored? : (pattern flags : String) → Option Matcher

namespace Surroundings

def compile (_ : Surroundings) (_pattern _flags : String) : Except Error Matcher :=
  .error .nestedCompile

def cache (w : Surroundings) (pattern flags : String) : Except Error Matcher :=
  match w.stored? pattern flags with
  | some m => .ok m
  | none => w.compile pattern flags

def register (w : Surroundings) : Except Error Unit :=
  .error (if w.extensible then .registrationWhileCompiling else .registrationClosed)

end Surroundings

/-- What a handler is told about the place where its token matched. -/
structure Occurrence where
  working : Subject
  found : Match working
  scope : Scope
  surroundings : Surroundings

/-- Writes plain text, and may set flags and record groups. -/
abbrev Handler := Occurrence → (c : Context) → Except Error (String × c.Later)

structure TokenOptions where
  reach : Reach := .outside
  trigger : Option (Context → Bool) := none
  flag : Option Char := none
  optionalFlags : List Char := []
  reparse : Bool := false
  /-- The text given for `flag` when it is not one flag character. -/
  invalidFlag : Option String := none

namespace TokenOptions

def withFlag (o : TokenOptions) (text : String) : TokenOptions :=
  match text.toList with
  | [c] =>
    if Flags.isFlagChar c then { o with flag := some c } else { o with invalidFlag := some text }
  | _ => { o with invalidFlag := some text }

def check (o : TokenOptions) : Except Error Unit := do
  if let some text := o.invalidFlag then throw (.invalidTokenFlag text)
  if let some c := o.optionalFlags.find? (!Flags.isFlagChar ·) then throw (.invalidOptionalFlag c)

end TokenOptions

structure Token where
  pattern : Matcher
  handler : Handler
  reach : Reach
  flag : Option Char
  trigger : Option (Context → Bool)
  reparse : Bool

def Token.isTriggered (t : Token) (scope : Scope) (c : Context) : Bool :=
  t.reach.admits scope && t.flag.all c.hasFlag && t.trigger.all (· c)

/-- The syntax that tokens add: newest tokens first, and the flags that came with them. -/
structure Dialect where
  tokens : List Token := []
  flags : List Char := []

namespace Dialect

def addFlag (d : Dialect) (c : Char) : Dialect :=
  if Flags.isKnown d.flags c then d else { d with flags := c :: d.flags }

def register (d : Dialect) (pattern : Matcher) (handler : Handler) (o : TokenOptions) :
    Except Error Dialect := do
  o.check
  let d := (o.flag.toList ++ o.optionalFlags).foldl addFlag d
  let token : Token :=
    { pattern, handler, reach := o.reach, flag := o.flag, trigger := o.trigger,
      reparse := o.reparse }
  return { d with tokens := token :: d.tokens }

end Dialect

end Patterns.Extended
