import Patterns.Text.Quoted

/-!
# Errors

An error is known by its cause; `Error.kind` and `Error.message` say how it is reported.
-/
namespace Patterns
open Patterns.Text

inductive Side where
  | left | right
  deriving DecidableEq, Repr

def Side.name : Side → String
  | .left => "left"
  | .right => "right"

inductive ErrorKind where
  /-- Flags, patterns and templates that cannot be read. -/
  | malformed
  /-- Arguments of the wrong shape. -/
  | argument
  /-- Names and numbers that refer to nothing. -/
  | reference
  /-- Operations that are not allowed now. -/
  | misuse
  /-- A search that was given up. -/
  | searching
  /-- A delimiter without a partner. -/
  | unbalanced
  deriving DecidableEq, Repr

inductive Error where
  | duplicateFlag (flag : Char) (flags : String)
  | unknownFlag (flag : Char) (flags : String)
  | duplicatePlainFlag (flags : String)
  | unknownPlainFlag (flag : Char) (flags : String)
  | rejected (source flags : String)
  | groupCount (source : String) (found recorded : Nat)
  | modifierFlag (flag : Char) (modifier : String)
  | unknownModifierFlag (flag : Char) (modifier : String)
  | strayModifier (pattern : String)
  | undefinedGroup (reference : String)
  | octalEscape (escape : String)
  | referenceInClass (escape : String)
  | invalidGroupName (name : String)
  | numericGroupName (name : String)
  | repeatedGroupName (name : String)
  | noPatterns
  | noStages
  | undefinedSubpattern (name : String)
  | undefinedStageGroup (group : String)
  | nestedCompile
  | registrationClosed
  | registrationWhileCompiling
  | unknownFeature (name : String)
  | zeroReparseLimit
  | zeroTraceLimit
  | invalidTokenFlag (text : String)
  | invalidOptionalFlag (flag : Char)
  | tooManyExpansions (limit : Nat) (pattern : String)
  | searchLimit
  | unbalanced (side : Side) (position : Nat)
  /-- An error that a token handler raises by itself. -/
  | raised (kind : ErrorKind) (text : String)
  deriving DecidableEq, Repr

namespace Error

def kind : Error → ErrorKind
  | .duplicateFlag .. | .unknownFlag .. | .duplicatePlainFlag _ | .unknownPlainFlag ..
  | .rejected .. | .groupCount .. | .modifierFlag .. | .unknownModifierFlag ..
  | .strayModifier _ | .undefinedGroup _ | .octalEscape _ | .referenceInClass _
  | .invalidGroupName _ | .numericGroupName _ | .repeatedGroupName _ => .malformed
  | .noPatterns | .noStages => .argument
  | .undefinedSubpattern _ | .undefinedStageGroup _ => .reference
  | .nestedCompile | .registrationClosed | .registrationWhileCompiling | .unknownFeature _
  | .zeroReparseLimit | .zeroTraceLimit | .invalidTokenFlag _ | .invalidOptionalFlag _
  | .tooManyExpansions .. => .misuse
  | .searchLimit => .searching
  | .unbalanced .. => .unbalanced
  | .raised kind _ => kind

/-- Stands for the reason why the plain language refuses a pattern or gives up a search. -/
def unexplained : String := "<host>"

def detail : Error → String
  | .duplicateFlag flag flags =>
    "invalid duplicate regular expression flag " ++ quoteChar flag ++ " in " ++ quote flags
  | .unknownFlag flag flags =>
    "unknown regular expression flag " ++ quoteChar flag ++ " in " ++ quote flags
  | .duplicatePlainFlag flags => "invalid duplicate regular expression flag: " ++ flags
  | .unknownPlainFlag flag flags =>
    "unknown regular expression flag " ++ quoteChar flag ++ " for a native pattern: " ++ flags
  | .rejected source flags =>
    "invalid regular expression: /" ++ source ++ "/" ++ flags ++ ": " ++ unexplained
  | .groupCount source found recorded =>
    "compiled pattern /" ++ source ++ "/ has " ++ toString found ++ " capturing groups but "
      ++ toString recorded
      ++ " were recorded; a token emitted a group without registering it"
  | .modifierFlag flag modifier =>
    "can't use flag " ++ String.singleton flag ++ " in mode modifier " ++ modifier
  | .unknownModifierFlag flag modifier =>
    "unknown flag " ++ String.singleton flag ++ " in mode modifier " ++ modifier
  | .strayModifier pattern => "mode modifier only allowed at pattern start: /" ++ pattern ++ "/"
  | .undefinedGroup reference => "backreference to undefined group " ++ reference
  | .octalEscape escape => "octal escapes are not supported: " ++ escape
  | .referenceInClass escape =>
    "can't use backreference " ++ escape ++ " inside a character class"
  | .invalidGroupName name => "invalid capture group name: " ++ quote name
  | .numericGroupName name => "can't use integer as capture name: " ++ name
  | .repeatedGroupName name => "can't use same name for multiple groups: " ++ name
  | .noPatterns => "must provide a nonempty list of patterns to merge"
  | .noStages => "match chain needs at least one stage"
  | .undefinedSubpattern name => "undefined subpattern: " ++ name
  | .undefinedStageGroup group => "backreference to undefined group: " ++ group
  | .nestedCompile => "can't compile a pattern from inside a token handler"
  | .registrationClosed => "extensibility must be installed before adding new tokens"
  | .registrationWhileCompiling => "can't register tokens while a pattern is compiling"
  | .unknownFeature name => "unknown feature: " ++ name
  | .zeroReparseLimit => "reparse limit must be greater than zero"
  | .zeroTraceLimit => "trace log limit must be greater than zero"
  | .invalidTokenFlag text =>
    "flag must be a single character A-Za-z0-9_$, got " ++ quote text
  | .invalidOptionalFlag flag =>
    "flags must be characters A-Za-z0-9_$, got " ++ quoteChar flag
  | .tooManyExpansions limit pattern =>
    "token reparsing exceeded " ++ toString limit ++ " expansions while compiling /" ++ pattern
      ++ "/"
  | .searchLimit => unexplained
  | .unbalanced side position =>
    "unbalanced " ++ side.name ++ " delimiter found in string at position " ++ toString position
  | .raised _ text => text

def label : ErrorKind → String
  | .malformed => "syntax error: "
  | .argument => "type error: "
  | .reference => "reference error: "
  | .misuse => "usage error: "
  | .searching => "regular expression runtime error: "
  | .unbalanced => ""

def message (e : Error) : String := label e.kind ++ e.detail

end Error

end Patterns
