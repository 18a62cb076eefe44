import Patterns.Text.BinaryProperty
import Patterns.Text.Blank

/-!
# Classes of characters

The classes that patterns, names and quoted text go by.
-/
namespace Patterns.Text

def isAlphabetic (c : Char) : Bool := BinaryProperty.alphabetic.holds c

def isDigit (c : Char) : Bool := category c == .decimalNumber

private def isAsciiWord (c : Char) : Bool := c.isAlphanum || c == '_'

/-- Letters, marks, digits, connecting punctuation and joiners. -/
def isWord (c : Char) : Bool :=
  if c.toNat < 0x80 then isAsciiWord c
  else
    match category c with
    | .nonspacingMark | .spacingMark | .enclosingMark | .decimalNumber
    | .connectorPunctuation => true
    | _ => isAlphabetic c || c.toNat == 0x200c || c.toNat == 0x200d

/-- Letters and numbers of any kind. -/
def isLetterOrNumber (c : Char) : Bool :=
  if c.toNat < 0x80 then c.isAlphanum
  else
    match category c with
    | .decimalNumber | .letterNumber | .otherNumber => true
    | _ => isAlphabetic c

/-- Characters that join the character before them. -/
def isExtender (c : Char) : Bool := BinaryProperty.graphemeExtend.holds c

/-- Characters with a shape of their own, and the space. -/
def isPrintable (c : Char) : Bool :=
  match category c with
  | .spaceSeparator => c == ' '
  | .lineSeparator | .paragraphSeparator | .control | .format | .surrogate | .privateUse
  | .unassigned => false
  | _ => true

end Patterns.Text
