import Patterns.Plain.CharSet

/-!
# Properties of characters by name

Names are compared in a normal form without case, blanks, hyphens and underscores.
-/
namespace Patterns.Plain
open Patterns.Text

namespace Property

def normalize (name : String) : String :=
  let plain (cs : List Char) :=
    (cs.filter fun c => c.toNat < 0x80 && c != ' ' && c != '_' && c != '-').map Char.toLower
  let cs := name.toList
  match cs with
  | a :: b :: rest =>
    if a.toLower == 'i' && b.toLower == 's' then
      match plain rest with
      | ['c'] => "isc"
      | short => String.ofList short
    else String.ofList (plain cs)
  | _ => String.ofList (plain cs)

private def binary? (name : String) : Option CharSet :=
  if name == "whitespace" || name == "wspace" || name == "space" then some .blank
  else (BinaryProperty.named? name).map .having

def category? : String → Option CharSet
  | "any" => some .all
  | "ascii" => some .ascii
  | "assigned" => some (.compl (.categories [.unassigned]))
  | name => (Category.named? name).map .categories

def script? (name : String) : Option CharSet :=
  (Script.named? name).map .script

private def one? (name : String) : Option CharSet :=
  let key := normalize name
  (binary? key).orElse fun _ => (category? key).orElse fun _ => script? key

private def valued? (name value : String) : Option CharSet :=
  match normalize name with
  | "generalcategory" | "gc" => category? (normalize value)
  | "script" | "sc" => script? (normalize value)
  | "scriptextensions" | "scx" => (Script.named? (normalize value)).map .usedWith
  | _ => none

/-- The text between braces: a name, or a name and a value. -/
def ofText? (text : String) : Option CharSet :=
  match text.splitOn "!=" with
  | name :: value :: more =>
    (valued? name ("!=".intercalate (value :: more))).map .compl
  | _ =>
    let mark := if text.contains ':' then ":" else "="
    match text.splitOn mark with
    | name :: value :: more => valued? name (mark.intercalate (value :: more))
    | _ => one? text

/-- A single letter without braces names general categories only. -/
def ofLetter? (c : Char) : Option CharSet := category? (normalize (String.singleton c))

end Property

end Patterns.Plain
