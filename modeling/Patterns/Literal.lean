import Patterns.Text.Blank

/-!
# Literal text as a pattern

`Literal.escape` writes text so that the plain and the extended language both take it literally,
in spaced mode too.
-/
namespace Patterns.Literal
open Patterns.Text

def metacharacters : List Char :=
  ['-', '[', ']', '\x7b', '\x7d', '(', ')', '*', '+', '?', '.', ',', '\\', '^', '$', '|', '#', ' ']

def escapeChar (c : Char) : List Char :=
  if isBlank c && c != ' ' then
    '\\' :: 'x' :: '\x7b' :: (Nat.toDigits 16 c.toNat).map Char.toUpper ++ ['\x7d']
  else if metacharacters.contains c then ['\\', c]
  else [c]

def escapeList (cs : List Char) : List Char := cs.flatMap escapeChar

def escape (text : String) : String := String.ofList (escapeList text.toList)

/-- Text that is its own escaped form. -/
def isPlain (text : String) : Bool :=
  text.toList.all fun c => !isBlank c && !metacharacters.contains c

theorem escapeList_append (a b : List Char) :
    escapeList (a ++ b) = escapeList a ++ escapeList b := by simp [escapeList]

end Patterns.Literal
