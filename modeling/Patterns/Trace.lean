/-!
# Traces

A trace keeps the newest lines that were written while it was enabled, up to a limit.
-/
namespace Patterns

structure Trace where
  enabled : Bool := false
  limit : Nat := 10000
  /-- The newest line comes first. -/
  newest : List String := []

namespace Trace

def lines (t : Trace) : List String := t.newest.reverse

def write (t : Trace) (line : String) : Trace :=
  if t.enabled then { t with newest := (line :: t.newest).take t.limit } else t

def setLimit (t : Trace) (limit : Nat) : Trace :=
  { t with limit, newest := t.newest.take limit }

def clear (t : Trace) : Trace := { t with newest := [] }

end Trace

end Patterns
