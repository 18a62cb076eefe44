import Patterns.Engine
import Patterns.Operations.Replace

/-!
# Matchers made from matchers

A copy is compiled again from where its matcher came from. A union joins texts and matchers: names
of groups stay, and numbered references move past the groups of earlier parts. A pattern can be
built from named subpatterns, which may refer to each other.
-/
namespace Patterns
open Patterns.Text Patterns.Extended

namespace Engine

/-- Compiles a matcher again with flags added and removed. -/
def copy (m : Matcher) (add remove : String) : EngineM Matcher :=
  match m.origin with
  | .extended source flags => compile source (Flags.adjust flags add remove)
  | .plain =>
    ExceptT.mk (pure (Matcher.plain m.source (Flags.adjust m.flags.toString add remove)))

def globalize (m : Matcher) : EngineM Matcher := copy m "g" ""

inductive Conjunction where
  | or | none
  deriving DecidableEq, Repr

/-- Writes plain text with names for its capturing groups and with its references moved by
`offset`. Classes and escapes stay as they are. -/
def renumber (offset : Nat) (inClass : Bool) (names : List (Option String)) :
    List Char → List Char
  | [] => []
  | '\\' :: rest =>
    let digits := rest.takeWhile Char.isDigit
    if !inClass && !digits.isEmpty && digits.head? != some '0'
        && digitsValue digits < UInt64.size then
      '\\' :: Nat.toDigits 10 (digitsValue digits + offset)
        ++ renumber offset inClass names (rest.drop digits.length)
    else '\\' :: rest.take 1 ++ renumber offset inClass names (rest.drop 1)
  | '[' :: rest => '[' :: renumber offset true names rest
  | ']' :: rest => ']' :: renumber offset false names rest
  | '(' :: rest =>
    if inClass || rest.head? == some '?' then '(' :: renumber offset inClass names rest
    else
      let opener := match names.head?.join with
        | some name => "(?<" ++ name ++ ">"
        | none => "("
      opener.toList ++ renumber offset inClass names.tail rest
  | c :: rest => c :: renumber offset inClass names rest
  termination_by cs => cs.length

/-- The names of a part, and those of its recompilation where it has none. -/
def mergeNames : (own again : List (Option String)) → List (Option String)
  | _, [] => []
  | [], again => again
  | a :: own, b :: again => a.or b :: mergeNames own again

/-- The text of each part, when `prior` groups stand before it. -/
def unionParts : (prior : Nat) → List Needle → EngineM (List String)
  | _, [] => return []
  | prior, .text t :: parts => do return Literal.escape t :: (← unionParts prior parts)
  | prior, .matcher m :: parts => do
    let again ← compile m.source ""
    let names := mergeNames m.names again.names
    let text := String.ofList (renumber prior false names again.source.toList)
    return text :: (← unionParts (prior + names.length) parts)

def union (parts : List Needle) (flags : String) (conjunction : Conjunction) : EngineM Matcher := do
  if parts.isEmpty then throw .noPatterns
  let texts ← unionParts 0 parts
  let mark := match conjunction with
    | .or => "|"
    | .none => ""
  compile (mark.intercalate texts) flags

/-- Text without an anchor at either end; a dollar behind an odd number of backslashes is none. -/
def stripAnchors (source : List Char) : List Char :=
  let body := if source.head? = some '^' then source.tail else source
  match body.reverse with
  | '$' :: front =>
    if (front.takeWhile (· == '\\')).length % 2 = 0 then front.reverse else body
  | _ => body

def subpatternText : Needle → String
  | .text t => t
  | .matcher m => String.ofList (stripAnchors m.source.toList)

/-- Of subpatterns with one name the last counts. -/
def build (pattern : String) (subpatterns : List (String × Needle)) (flags : String) :
    EngineM Matcher :=
  compileWith pattern flags
    (some (subpatterns.map fun (name, sub) => (name, subpatternText sub)).reverse)

end Engine

end Patterns
