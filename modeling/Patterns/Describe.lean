import Patterns.Engine
import Patterns.Operations.Replace

/-!
# Descriptions

Descriptions show the settings of a value on one line, without its functions.
-/
namespace Patterns
open Patterns.Text Patterns.Extended

namespace Describe

private def truthText (b : Bool) : String := if b then "true" else "false"

private def optional : Option String → String
  | none => "None"
  | some s => "Some(" ++ s ++ ")"

private def record (name : String) (fields : List (String × String)) : String :=
  name ++ " \x7b " ++ ", ".intercalate (fields.map fun (k, v) => k ++ ": " ++ v) ++ " \x7d"

def reach : Reach → String
  | .outside => "Default"
  | .inClass => "Class"
  | .everywhere => "All"

def engine (e : Engine) : String :=
  record "Engine"
    [("custom_tokens", toString e.dialect.tokens.length),
     ("extensibility", truthText e.extensible),
     ("cached", toString e.cached.length),
     ("reparse_limit", toString e.reparseLimit),
     ("trace", truthText e.trace.enabled)]

def tokenOptions (o : TokenOptions) : String :=
  record "TokenOptions"
    [("scope", reach o.reach),
     ("trigger", optional (o.trigger.map fun _ => quote "<fn>")),
     ("flag", optional (o.flag.map quoteChar)),
     ("optional_flags", "[" ++ ", ".intercalate (o.optionalFlags.map quoteChar) ++ "]"),
     ("reparse", truthText o.reparse)]

def replacement : Replacement → String
  | .template text => "Text(" ++ quote text ++ ")"
  | .function _ => "With(<fn>)"

end Describe

end Patterns
