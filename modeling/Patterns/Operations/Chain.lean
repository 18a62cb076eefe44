import Patterns.Operations.Search

/-!
# Chains of matchers

Each stage of a chain looks at every text that the stage before it found. A stage passes on whole
matches or one group of them.
-/
namespace Patterns
open Patterns.Text

inductive GroupChoice where
  | whole
  | index (n : Nat)
  | name (name : String)

structure Stage where
  matcher : Matcher
  choice : GroupChoice

namespace Stage

/-- What a stage passes on; a group that takes no part is empty. -/
def pick {s : Subject} (m : Match s) : GroupChoice → Except Error String
  | .whole => .ok m.text
  | .index n =>
    if n ≤ m.groupCount then .ok ((m.group? n).getD "")
    else .error (.undefinedStageGroup (toString n))
  | .name name =>
    if m.hasName name then .ok ((m.named? name).getD "")
    else .error (.undefinedStageGroup name)

/-- The texts that a stage passes on from one text. -/
def texts (st : Stage) (value : String) : Except Error (List String) := do
  let run := st.matcher.run (.ofString value)
  let picked ← run.found.mapM (pick · st.choice)
  run.close
  return picked

def apply (st : Stage) : List String → Except Error (List String)
  | [] => .ok []
  | value :: rest => do return (← st.texts value) ++ (← st.apply rest)

end Stage

/-- The texts that come out of the last stage, and the cursors of the stages that ran to their end.
A stage that finds nothing ends the chain. -/
def runStages (values : List String) : List Stage → Except Error (List String) × List Nat
  | [] => (.ok values, [])
  | st :: stages =>
    match st.apply values with
    | .error e => (.error e, [])
    | .ok [] => (.ok [], [st.matcher.settled 0])
    | .ok texts =>
      let (result, cursors) := runStages texts stages
      (result, st.matcher.settled 0 :: cursors)

def matchChain (text : String) : List Stage → Except Error (List String) × List Nat
  | [] => (.error .noStages, [])
  | stages => runStages [text] stages

end Patterns
