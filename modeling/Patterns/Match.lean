import Patterns.Text.Subject

/-!
# Matches

A match knows the subject that it was found in, so its texts and byte offsets need nothing else.
Group 0 is the whole match.
-/
namespace Patterns
open Patterns.Text

structure Match (s : Subject) where
  start : Nat
  stop : Nat
  groups : List (Option Span)
  names : List (Option String)
  start_le : start ≤ stop
  stop_le : stop ≤ s.size

/-- The number of the first group of that name. -/
def indexOfName? (names : List (Option String)) (name : String) : Option Nat :=
  (names.findIdx? (· == some name)).map (· + 1)

namespace Match

variable {s : Subject}

def isEmpty (m : Match s) : Bool := m.start == m.stop

def span (m : Match s) : Span := ⟨m.start, m.stop⟩

def text (m : Match s) : String := s.slice m.start m.stop

def spanOf? (m : Match s) : Nat → Option Span
  | 0 => some m.span
  | n + 1 => (m.groups[n]?).join

def group? (m : Match s) (n : Nat) : Option String := (m.spanOf? n).map s.sliceSpan

def groupCount (m : Match s) : Nat := m.groups.length

def hasName (m : Match s) (name : String) : Bool := (indexOfName? m.names name).isSome

def named? (m : Match s) (name : String) : Option String :=
  (indexOfName? m.names name).bind m.group?

def groupTexts (m : Match s) : List (Option String) := m.groups.map (·.map s.sliceSpan)

/-- Every named group with its text, in order. -/
def namedTexts (m : Match s) : List (String × Option String) :=
  (m.names.zipIdx).filterMap fun (name, i) => name.map fun n => (n, m.group? (i + 1))

def byteStart (m : Match s) : Nat := s.byteOffset m.start

def byteStop (m : Match s) : Nat := s.byteOffset m.stop

def byteSpan? (m : Match s) (n : Nat) : Option (Nat × Nat) :=
  (m.spanOf? n).map fun r => (s.byteOffset r.start, s.byteOffset r.stop)

/-- Where a search for the next match starts. -/
def resume (m : Match s) : Nat := if m.isEmpty then m.stop + 1 else m.stop

theorem start_lt_resume (m : Match s) : m.start < m.resume := by
  have := m.start_le
  unfold resume
  split
  · omega
  · rename_i h
    have : m.start ≠ m.stop := by simpa [isEmpty] using h
    omega

end Match

end Patterns
