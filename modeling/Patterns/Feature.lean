import Patterns.Error
import Patterns.Text.Blank

/-!
# Features

A feature is off until it is installed.
-/
namespace Patterns
open Patterns.Text

inductive Feature where
  /-- Tokens may be registered. -/
  | extensibility
  deriving DecidableEq, Repr

namespace Feature

def all : List Feature := [.extensibility]

def name : Feature → String
  | .extensibility => "extensibility"

def parse (name : String) : Except Error Feature :=
  match all.find? (·.name == name) with
  | some f => .ok f
  | none => .error (.unknownFeature name)

private def words : List Char → List (List Char)
  | [] => [[]]
  | c :: rest =>
    if isBlank c || c == ',' then [] :: words rest
    else
      match words rest with
      | [] => [[c]]
      | w :: ws => (c :: w) :: ws

private def ofWords : List String → Except Error (List Feature)
  | [] => .ok []
  | w :: ws => do
    let first ← if w = "all" then .ok all else (parse w).map ([·])
    return first ++ (← ofWords ws)

/-- Names between blanks or commas; `all` names every feature. -/
def parseList (text : String) : Except Error (List Feature) :=
  ofWords (((words text.toList).filter (!·.isEmpty)).map String.ofList)

end Feature

end Patterns
