import Patterns.Composition

/-!
# Balanced delimiters

The text between balanced pairs of delimiters is found by reading delimiters from left to right
and counting how many are open. A left delimiter that is never closed is an error or is skipped:
reading starts again behind it, or a character after it began. An escape character hides the
character behind it.
-/
namespace Patterns
open Patterns.Text

/-- What happens to a delimiter without a partner. -/
inductive Unbalanced where
  | refuse | skip | skipLazy
  deriving DecidableEq, Repr

/-- Names for the kinds of segments; a kind without a name is not reported. -/
structure SegmentNames where
  between : Option String := none
  left : Option String := none
  matched : Option String := none
  right : Option String := none

/-- A part of a subject with its byte offsets. -/
structure Segment where
  name : String
  value : String
  start : Nat
  stop : Nat
  deriving DecidableEq, Repr

structure Delimiters where
  left : Matcher
  right : Matcher
  /-- Matches a run of escaped characters and of text without delimiters. -/
  escape : Option Matcher
  global : Bool
  sticky : Bool
  unbalanced : Unbalanced
  names : SegmentNames

/-- The state of reading: how many delimiters are open, the delimiter read last, and the outermost
pair at hand. Reading started at `floor`, or started again there. -/
structure Pairing (s : Subject) where
  depth : Nat := 0
  start : Nat := 0
  stop : Nat := 0
  floor : Nat := 0
  outerStart : Nat := 0
  innerStart : Nat := 0
  lastEnd : Nat := 0
  /-- The latest segment comes first. -/
  segments : List Segment := []
  floor_le_stop : floor ≤ stop := by omega
  outer_bounds : depth ≠ 0 → floor ≤ outerStart ∧ outerStart ≤ s.size := by omega

/-- The state before reading. -/
def Pairing.initial (s : Subject) : Pairing s := {}

/-- The next delimiter, at `i` or later. -/
inductive Delimiter (s : Subject) (i : Nat) where
  | left (f : Matcher.Hit s i)
  | right (f : Matcher.Hit s i)
  | none

namespace Delimiters

variable {s : Subject}

/-- Where the search for the next delimiter starts. -/
def skipEscaped (d : Delimiters) (s : Subject) (i : Nat) : Except Error { j : Nat // i ≤ j } :=
  match d.escape with
  | .none => .ok ⟨i, Nat.le_refl i⟩
  | .some m => do
    match ← m.searchAt s i true with
    | .none => return ⟨i, Nat.le_refl i⟩
    | .some f => return ⟨f.val.stop, Nat.le_trans f.property f.val.start_le⟩

/-- Of two delimiters the earlier one counts, and the left one where both start. -/
def next (d : Delimiters) (s : Subject) (i : Nat) : Except Error (Delimiter s i) := do
  match ← d.left.searchAt s i false, ← d.right.searchAt s i false with
  | .none, .none => return .none
  | .some f, .none => return .left f
  | .none, .some g => return .right g
  | .some f, .some g => return if f.val.start ≤ g.val.start then .left f else .right g

def segment (s : Subject) (name : Option String) (start stop : Nat) : List Segment :=
  match name with
  | .none => []
  | .some name => [⟨name, s.slice start stop, s.byteOffset start, s.byteOffset stop⟩]

/-- The segments of an outermost pair, the latest first. -/
def pairSegments (d : Delimiters) (p : Pairing s) (f : Match s) : List Segment :=
  let between :=
    if p.lastEnd < p.outerStart then segment s d.names.between p.lastEnd p.outerStart else []
  segment s d.names.right f.start f.stop ++ segment s d.names.matched p.innerStart f.start
    ++ segment s d.names.left p.outerStart p.innerStart ++ between

/-- Where reading starts again when the delimiter at `p.outerStart` is never closed. -/
def restart (d : Delimiters) (s : Subject) (p : Pairing s) :
    Except Error { i : Nat // p.outerStart < i } := do
  let one : { i : Nat // p.outerStart < i } := ⟨p.outerStart + 1, Nat.lt_succ_self _⟩
  let i ← match d.unbalanced with
    | .skip => do
      match ← d.left.searchAt s p.outerStart true with
      | .none => pure one
      | .some ⟨f, _⟩ =>
        if h : f.start < f.stop then pure ⟨p.outerStart + (f.stop - f.start), by omega⟩
        else pure one
    | _ => pure one
  return if p.start = i.val then ⟨i.val + 1, Nat.lt_succ_of_lt i.property⟩ else i

/-- Reads delimiters from `p` on. -/
def read (d : Delimiters) (s : Subject) (p : Pairing s) : Except Error (Pairing s) :=
  match d.skipEscaped s p.stop with
  | .error e => .error e
  | .ok ⟨i, _hi⟩ =>
    match d.next s i with
    | .error e => .error e
    | .ok .none =>
      if _hd : p.depth = 0 then .ok p
      else if d.unbalanced = .refuse then .error (.unbalanced .left (s.byteOffset p.outerStart))
      else
        match d.restart s p with
        | .error e => .error e
        | .ok ⟨j, _hj⟩ =>
          d.read s { p with
            depth := 0, stop := j, floor := j
            floor_le_stop := Nat.le_refl j
            outer_bounds := fun h => absurd rfl h }
    | .ok (.left f) =>
      if d.sticky && p.depth == 0 && p.lastEnd < f.val.start then .ok p
      else
        d.read s { p with
          depth := p.depth + 1, start := f.val.start, stop := f.val.resume
          outerStart := if p.depth = 0 then f.val.start else p.outerStart
          innerStart := if p.depth = 0 then f.val.stop else p.innerStart
          floor_le_stop := by
            have := p.floor_le_stop
            have := f.property
            have := f.val.start_lt_resume
            omega
          outer_bounds := by
            have := p.floor_le_stop
            have := p.outer_bounds
            have := f.property
            have := f.val.start_le
            have := f.val.stop_le
            intro _
            split <;> omega }
    | .ok (.right f) =>
      if d.sticky && p.depth == 0 && p.lastEnd < f.val.start then .ok p
      else if p.depth = 0 && d.unbalanced == .refuse then
        .error (.unbalanced .right (s.byteOffset f.val.start))
      else
        let closes := p.depth = 1
        let p' : Pairing s := { p with
          depth := p.depth - 1, start := f.val.start, stop := f.val.resume
          lastEnd := if closes then f.val.stop else p.lastEnd
          segments := if closes then d.pairSegments p f.val ++ p.segments else p.segments
          floor_le_stop := by
            have := p.floor_le_stop
            have := f.property
            have := f.val.start_lt_resume
            omega
          outer_bounds := by
            have := p.outer_bounds
            intro _
            omega }
        if p.depth = 1 && !d.global then .ok p' else d.read s p'
  termination_by (s.size + 2 - p.floor, s.size + 2 - p.stop)
  decreasing_by
    · have := p.outer_bounds _hd
      exact Prod.Lex.left _ _ (by omega)
    all_goals
      have := f.property
      have := f.val.start_lt_resume
      have := f.val.start_le
      have := f.val.stop_le
      exact Prod.Lex.right _ (by omega)

def segments (d : Delimiters) (s : Subject) : Except Error (List Segment) := do
  let p ← d.read s (.initial s)
  let rest :=
    if d.global && !d.sticky && !p.segments.isEmpty && p.lastEnd < s.size then
      segment s d.names.between p.lastEnd s.size
    else []
  return p.segments.reverse ++ rest

end Delimiters

namespace Engine

/-- A sticky matcher for escaped characters and for text that holds neither delimiter. -/
def escapeMatcher (mark : Char) (left right : Matcher) (flags : String) : EngineM Matcher := do
  let escaped := Literal.escape (String.singleton mark)
  let delimiters ← union [.matcher left, .matcher right] "" .or
  let pattern := "(?:" ++ escaped ++ "[\\s\\S]|(?:(?!" ++ delimiters.source ++ ")[^" ++ escaped
    ++ "])+)+"
  let flags := String.ofList (flags.toList.filter fun c => c == 'i' || c == 'm')
  ExceptT.mk (pure (Matcher.plain pattern flags))

/-- The segments of `text`. Without the global flag only the first pair is read; with the sticky
flag pairs follow each other without gaps. -/
def matchRecursive (text left right flags : String) (escape : Option Char)
    (unbalanced : Unbalanced) (names : SegmentNames) : EngineM (List Segment) := do
  let basic := String.ofList (flags.toList.filter (· != 'y'))
  let left ← compile left basic
  let right ← compile right basic
  let escape ← escape.mapM fun mark => escapeMatcher mark left right flags
  let d : Delimiters :=
    { left, right, escape, global := flags.contains 'g', sticky := flags.contains 'y', unbalanced,
      names }
  ExceptT.mk (pure (d.segments (.ofString text)))

/-- The texts between the outermost pairs. -/
def matchRecursiveTexts (text left right flags : String) (escape : Option Char)
    (unbalanced : Unbalanced) : EngineM (List String) := do
  let segments ← matchRecursive text left right flags escape unbalanced { matched := "match" }
  return segments.map (·.value)

end Engine

end Patterns
