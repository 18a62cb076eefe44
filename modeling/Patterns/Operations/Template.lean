import Patterns.Flags
import Patterns.Match

/-!
# Replacement templates

In a template a dollar starts a reference: to the match, to the text around it, or to a group. A
dollar that starts none stands for itself.
-/
namespace Patterns.Template
open Patterns.Text

inductive Reference where
  | literal (text : List Char)
  | before | after
  | group (n : Nat)
  | named (name : String)
  | undefined (written : List Char)
  deriving DecidableEq, Repr

def valueOf (ds : List Char) : Nat :=
  ds.foldl (fun n d => 10 * n + (d.toNat - '0'.toNat)) 0

/-- A reference in braces, and its length; `none` if the dollar before it is literal. -/
def braced? (groups : Nat) (hasName : String → Bool) (body : List Char) :
    Option (Reference × Nat) :=
  let name := body.takeWhile (· != '\x7d')
  if name.length = body.length || name.isEmpty || !name.all Flags.isFlagChar then none
  else
    let length := name.length + 2
    if name.all Char.isDigit then
      if valueOf name ≤ groups then some (.group (valueOf name), length)
      else some (.undefined ('\x7b' :: name ++ ['\x7d']), length)
    else if hasName (String.ofList name) then some (.named (String.ofList name), length)
    else some (.undefined ('\x7b' :: name ++ ['\x7d']), length)

/-- A reference by one digit or two. Two digits are taken where they name a group. -/
def numbered (groups : Nat) (first : Char) (rest : List Char) : Reference × Nat :=
  let isGroup (n : Nat) : Bool := 1 ≤ n && n ≤ groups
  let one := valueOf [first]
  match rest.head?.filter Char.isDigit with
  | some second =>
    let two := valueOf [first, second]
    if isGroup two then (.group two, 2)
    else if isGroup one then (.group one, 1)
    else if two = 0 then (.literal ['$', first, second], 2)
    else (.undefined [first, second], 2)
  | none =>
    if isGroup one then (.group one, 1)
    else if one = 0 then (.literal ['$', first], 1)
    else (.undefined [first], 1)

/-- What a dollar before `tail` refers to, and how much of `tail` it takes. -/
def reference (groups : Nat) (hasName : String → Bool) (tail : List Char) : Reference × Nat :=
  match tail with
  | '$' :: _ => (.literal ['$'], 1)
  | '&' :: _ => (.group 0, 1)
  | '\x60' :: _ => (.before, 1)
  | '\'' :: _ => (.after, 1)
  | '\x7b' :: body => (braced? groups hasName body).getD (.literal ['$'], 0)
  | c :: rest => if c.isDigit then numbered groups c rest else (.literal ['$'], 0)
  | [] => (.literal ['$'], 0)

variable {s : Subject}

/-- The text of a reference; a group that takes no part is empty. -/
def Reference.text (m : Match s) : Reference → Except Error String
  | .literal text => .ok (String.ofList text)
  | .before => .ok (s.slice 0 m.start)
  | .after => .ok (s.slice m.stop s.size)
  | .group n => .ok ((m.group? n).getD "")
  | .named name => .ok ((m.named? name).getD "")
  | .undefined written => .error (.undefinedGroup (String.ofList ('$' :: written)))

def expandList (m : Match s) : List Char → Except Error String
  | [] => .ok ""
  | c :: rest =>
    if c = '$' then do
      let (r, n) := reference m.groupCount m.hasName rest
      return (← r.text m) ++ (← expandList m (rest.drop n))
    else do return String.singleton c ++ (← expandList m rest)
  termination_by cs => cs.length
  decreasing_by all_goals simp only [List.length_drop, List.length_cons]; omega

def expand (template : String) (m : Match s) : Except Error String := expandList m template.toList

end Patterns.Template
