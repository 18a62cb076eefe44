import Patterns.Flags
import Patterns.Match

/-!
# The context of a compilation

The context holds the flags in force and the capturing groups recorded so far. Names of groups
are distinct, and every capturing group that is written must be recorded.
-/
namespace Patterns.Extended

structure Context where
  flags : List Char
  groups : List (Option String)

namespace Context

def ofFlags (flags : String) : Context := ⟨flags.toList, []⟩

def hasFlag (c : Context) (flag : Char) : Bool := c.flags.contains flag

def setFlag (c : Context) (flag : Char) : Context :=
  if c.hasFlag flag then c else { c with flags := c.flags ++ [flag] }

def groupCount (c : Context) : Nat := c.groups.length

def hasNamedGroup (c : Context) : Bool := c.groups.any Option.isSome

def groupIndex? (c : Context) (name : String) : Option Nat := indexOfName? c.groups name

def record (c : Context) (name : Option String) : Context :=
  { c with groups := c.groups ++ [name] }

def checkName (c : Context) (name : String) : Except Error Unit :=
  if name.isEmpty || !name.toList.all Flags.isFlagChar then .error (.invalidGroupName name)
  else if name.toList.all Char.isDigit then .error (.numericGroupName name)
  else if (c.groupIndex? name).isSome then .error (.repeatedGroupName name)
  else .ok ()

/-- Records a capturing group; its number is the new count of groups. -/
def addGroup (c : Context) : Option String → Except Error Context
  | none => .ok (c.record none)
  | some name => do
    c.checkName name
    return c.record (some name)

/-- What setting flags and recording groups can make of a context. -/
inductive Leads (c : Context) : Context → Prop
  | refl : Leads c c
  | setFlag {d : Context} (flag : Char) : Leads c d → Leads c (d.setFlag flag)
  | addGroup {d e : Context} {name : Option String} :
    Leads c d → d.addGroup name = .ok e → Leads c e

structure Later (c : Context) where
  context : Context
  leads : c.Leads context

namespace Later

variable {c : Context}

def here (c : Context) : c.Later := ⟨c, .refl⟩

def setFlag (l : c.Later) (flag : Char) : c.Later := ⟨l.context.setFlag flag, l.leads.setFlag flag⟩

def addGroup (l : c.Later) (name : Option String) : Except Error c.Later :=
  match h : l.context.addGroup name with
  | .ok e => .ok ⟨e, l.leads.addGroup h⟩
  | .error err => .error err

end Later

end Context

end Patterns.Extended
