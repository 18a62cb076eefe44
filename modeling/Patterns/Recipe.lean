import Patterns.Extended.Token

/-!
# Recipes

A recipe describes by parts what a replacement function or a token handler writes.
-/
namespace Patterns
open Patterns.Text Patterns.Extended

inductive MatchPart where
  | text (s : String)
  | group (n : Nat)
  | named (name : String)
  | hasName (name : String)
  | whole | start | stop | subject | groupCount
  | cursor

namespace MatchPart

def missing : String := "<none>"

def truth (b : Bool) : String := if b then "true" else "false"

def write {s : Subject} (m : Match s) (cursor : Nat) : MatchPart → String
  | .text t => t
  | .group n => (m.group? n).getD missing
  | .named name => (m.named? name).getD missing
  | .hasName name => truth (m.hasName name)
  | .whole => m.text
  | .start => toString m.byteStart
  | .stop => toString m.byteStop
  | .subject => s.toString
  | .groupCount => toString m.groupCount
  | .cursor => toString cursor

end MatchPart

/-- A replacement function sees the match and the cursor of the matcher. -/
def replacementRecipe (parts : List MatchPart) {s : Subject} (m : Match s) (cursor : Nat) :
    String :=
  String.join (parts.map (·.write m cursor))

inductive HandlerPart where
  | view (p : MatchPart)
  | scope | currentFlags | captures | captureCount | hasNamed
  | capture (name : Option String) (shown : Bool)
  | setFlags (set : List Char)
  | ifFlags (wanted : List Char) (yes no : List HandlerPart)
  | captureIndex (name : String)
  | fail (kind : ErrorKind) (text : String)
  | compile (pattern : String)
  | cache (pattern : String)
  | register (pattern : String)

namespace HandlerPart

def scopeName : Scope → String
  | .outside => "Default"
  | .inClass => "Class"

variable {c : Context}

mutual

def write (o : Occurrence) (l : c.Later) : HandlerPart → Except Error (String × c.Later)
  | .view p => .ok (p.write o.found 0, l)
  | .scope => .ok (scopeName o.scope, l)
  | .currentFlags => .ok (String.ofList l.context.flags, l)
  | .captures => .ok (",".intercalate (l.context.groups.map (·.getD "-")), l)
  | .captureCount => .ok (toString l.context.groupCount, l)
  | .hasNamed => .ok (MatchPart.truth l.context.hasNamedGroup, l)
  | .capture name shown => do
    let l ← l.addGroup name
    return (if shown then toString l.context.groupCount else "", l)
  | .setFlags set => .ok ("", set.foldl (·.setFlag ·) l)
  | .ifFlags wanted yes no =>
    if wanted.all l.context.hasFlag then writeAll o l yes else writeAll o l no
  | .captureIndex name =>
    .ok (((l.context.groupIndex? name).map toString).getD MatchPart.missing, l)
  | .fail kind text => .error (.raised kind text)
  | .compile pattern => do return ((← o.surroundings.compile pattern "").source, l)
  | .cache pattern => do return ((← o.surroundings.cache pattern "").source, l)
  | .register pattern => do
    let _ ← Matcher.plain pattern ""
    o.surroundings.register
    return ("", l)

def writeAll (o : Occurrence) (l : c.Later) : List HandlerPart → Except Error (String × c.Later)
  | [] => .ok ("", l)
  | p :: ps => do
    let (first, l) ← p.write o l
    let (others, l) ← writeAll o l ps
    return (first ++ others, l)

end

end HandlerPart

def handlerRecipe (parts : List HandlerPart) : Handler := fun o c =>
  HandlerPart.writeAll o (.here c) parts

/-- Conditions under which a token is tried. -/
inductive Trigger where
  | flags (wanted : List Char)
  | captures (least : Nat)
  | hasName (name : String)
  | hasNamed (b : Bool)
  | not (t : Trigger)

def Trigger.holds (c : Context) : Trigger → Bool
  | .flags wanted => wanted.all c.hasFlag
  | .captures least => least ≤ c.groupCount
  | .hasName name => (c.groupIndex? name).isSome
  | .hasNamed b => c.hasNamedGroup == b
  | .not t => !t.holds c

end Patterns
