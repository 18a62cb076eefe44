import Patterns.Balanced
import Patterns.Proofs.Union

/-!
# Reading delimiters turn by turn

A turn looks for the next delimiter and says what comes of it: reading ends, or goes on from another
state. A run of `matchRecursive` makes its matchers first, and then reads.
-/
namespace Patterns
open Patterns.Text

inductive Turn (α : Type) where
  | ends (result : Except Error α)
  | goesOn (state : α)

def Turn.map {α β : Type} (f : α → β) : Turn α → Turn β
  | .ends result => .ends (result.map f)
  | .goesOn state => .goesOn (f state)

/-- A delimiter at `j` or later is one at `i` or later. -/
def Delimiter.weaken {s : Subject} {i j : Nat} (h : i ≤ j) : Delimiter s j → Delimiter s i
  | .left f => .left ⟨f.val, Nat.le_trans h f.property⟩
  | .right f => .right ⟨f.val, Nat.le_trans h f.property⟩
  | .none => .none

namespace Delimiters

variable {d : Delimiters} {s : Subject} {p p' : Pairing s}

/-- The next delimiter from `i` on that no escape hides. -/
def seen (d : Delimiters) (s : Subject) (i : Nat) : Except Error (Delimiter s i) :=
  match d.skipEscaped s i with
  | .error e => .error e
  | .ok ⟨j, hj⟩ => (d.next s j).map (·.weaken hj)

theorem outer_bounds_dropped (p : Pairing s) (j : Nat) :
    (0 : Nat) ≠ 0 → j ≤ p.outerStart ∧ p.outerStart ≤ s.size :=
  fun h => absurd rfl h

/-- What comes of the end of the delimiters. -/
def afterNone (d : Delimiters) (p : Pairing s) : Turn (Pairing s) :=
  if p.depth = 0 then .ends (.ok p)
  else if d.unbalanced = .refuse then .ends (.error (.unbalanced .left (s.byteOffset p.outerStart)))
  else
    match d.restart s p with
    | .error e => .ends (.error e)
    | .ok ⟨j, _⟩ =>
      .goesOn { p with
        depth := 0, stop := j, floor := j
        floor_le_stop := Nat.le_refl j
        outer_bounds := outer_bounds_dropped p j }

def afterLeft (d : Delimiters) (p : Pairing s) (f : Matcher.Hit s p.stop) : Turn (Pairing s) :=
  if d.sticky && p.depth == 0 && p.lastEnd < f.val.start then .ends (.ok p)
  else
    .goesOn { p with
      depth := p.depth + 1, start := f.val.start, stop := f.val.resume
      outerStart := if p.depth = 0 then f.val.start else p.outerStart
      innerStart := if p.depth = 0 then f.val.stop else p.innerStart
      floor_le_stop := by
        have := p.floor_le_stop
        have := f.property
        have := f.val.start_lt_resume
        omega
      outer_bounds := by
        have := p.floor_le_stop
        have := p.outer_bounds
        have := f.property
        have := f.val.start_le
        have := f.val.stop_le
        intro _
        split <;> omega }

def afterRight (d : Delimiters) (p : Pairing s) (f : Matcher.Hit s p.stop) : Turn (Pairing s) :=
  if d.sticky && p.depth == 0 && p.lastEnd < f.val.start then .ends (.ok p)
  else if p.depth = 0 && d.unbalanced == .refuse then
    .ends (.error (.unbalanced .right (s.byteOffset f.val.start)))
  else
    let closes := p.depth = 1
    let p' : Pairing s := { p with
      depth := p.depth - 1, start := f.val.start, stop := f.val.resume
      lastEnd := if closes then f.val.stop else p.lastEnd
      segments := if closes then d.pairSegments p f.val ++ p.segments else p.segments
      floor_le_stop := by
        have := p.floor_le_stop
        have := f.property
        have := f.val.start_lt_resume
        omega
      outer_bounds := by
        have := p.outer_bounds
        intro _
        omega }
    if p.depth = 1 && !d.global then .ends (.ok p') else .goesOn p'

def after (d : Delimiters) (p : Pairing s) : Delimiter s p.stop → Turn (Pairing s)
  | .none => d.afterNone p
  | .left f => d.afterLeft p f
  | .right f => d.afterRight p f

def turn (d : Delimiters) (p : Pairing s) : Turn (Pairing s) :=
  match d.seen s p.stop with
  | .error e => .ends (.error e)
  | .ok m => d.after p m

theorem read_eq (d : Delimiters) (p : Pairing s) :
    d.read s p = match d.turn p with
      | .ends result => result
      | .goesOn p' => d.read s p' := by
  rw [read, turn, seen]
  cases d.skipEscaped s p.stop with
  | error e => rfl
  | ok j =>
    obtain ⟨j, hj⟩ := j
    cases hnext : d.next s j with
    | error e => simp only [hnext, Except.map]
    | ok m =>
      cases m with
      | none =>
        simp only [hnext, Except.map, Delimiter.weaken, after, afterNone]
        split
        · rfl
        · split
          · rfl
          · cases d.restart s p <;> rfl
      | left f =>
        simp only [hnext, Except.map, Delimiter.weaken, after, afterLeft]
        split <;> rfl
      | right f =>
        simp only [hnext, Except.map, Delimiter.weaken, after, afterRight]
        split
        · rfl
        · split
          · rfl
          · split <;> rfl

theorem read_induction (d : Delimiters) {motive : Pairing s → Prop}
    (ends : ∀ p result, d.turn p = .ends result → motive p)
    (goesOn : ∀ p p', d.turn p = .goesOn p' → motive p' → motive p) (p : Pairing s) :
    motive p := by
  have hseen {p : Pairing s} {i : Nat} {hi : p.stop ≤ i} {m : Delimiter s i}
      (hskip : d.skipEscaped s p.stop = .ok ⟨i, hi⟩) (hnext : d.next s i = .ok m) :
      d.turn p = d.after p (m.weaken hi) := by
    simp only [turn, seen, hskip, hnext, Except.map]
  induction p using read.induct d s with
  | case1 p e hskip => exact ends p (.error e) (by simp only [turn, seen, hskip])
  | case2 p i hi hskip e hnext =>
    exact ends p (.error e) (by simp only [turn, seen, hskip, hnext, Except.map])
  | case3 p i hi hskip hnext hdepth =>
    exact ends p _ ((hseen hskip hnext).trans (if_pos hdepth))
  | case4 p i hi hskip hnext hdepth hrefuse =>
    exact ends p _ ((hseen hskip hnext).trans ((if_neg hdepth).trans (if_pos hrefuse)))
  | case5 p i hi hskip hnext hdepth hrefuse e hrestart =>
    refine ends p (.error e) ?_
    rw [hseen hskip hnext]
    simp only [Delimiter.weaken, after, afterNone, if_neg hdepth, if_neg hrefuse, hrestart]
  | case6 p i hi hskip hnext hdepth hrefuse j hj hrestart ih =>
    refine goesOn p _ ?_ ih
    rw [hseen hskip hnext]
    simp only [Delimiter.weaken, after, afterNone, if_neg hdepth, if_neg hrefuse, hrestart]
  | case7 p i hi hskip f hnext hgap => exact ends p _ ((hseen hskip hnext).trans (if_pos hgap))
  | case8 p i hi hskip f hnext hgap ih =>
    exact goesOn p _ ((hseen hskip hnext).trans (if_neg hgap)) ih
  | case9 p i hi hskip f hnext hgap => exact ends p _ ((hseen hskip hnext).trans (if_pos hgap))
  | case10 p i hi hskip f hnext hgap hstray =>
    exact ends p _ ((hseen hskip hnext).trans ((if_neg hgap).trans (if_pos hstray)))
  | case11 p i hi hskip f hnext hgap hstray hlast =>
    exact ends p _
      ((hseen hskip hnext).trans ((if_neg hgap).trans ((if_neg hstray).trans (if_pos hlast))))
  | case12 p i hi hskip f hnext hgap hstray closes p' hlast ih =>
    exact goesOn p _
      ((hseen hskip hnext).trans ((if_neg hgap).trans ((if_neg hstray).trans (if_neg hlast)))) ih

/-- What at most `n` turns come to. -/
def turns (d : Delimiters) : Nat → Pairing s → Option (Except Error (Pairing s))
  | 0, _ => none
  | n + 1, p =>
    match d.turn p with
    | .ends result => some result
    | .goesOn p' => d.turns n p'

theorem read_of_turns {n : Nat} {result : Except Error (Pairing s)}
    (h : d.turns n p = some result) : d.read s p = result := by
  induction n generalizing p with
  | zero => cases h
  | succ n ih =>
    rw [read_eq]
    rw [turns] at h
    cases hturn : d.turn p with
    | ends result' => simpa [hturn] using h
    | goesOn p' => exact ih (by simpa [hturn] using h)

/-- The segments that reading has come to, and the text behind the last pair. -/
def finish (d : Delimiters) (p : Pairing s) : List Segment :=
  p.segments.reverse ++
    if d.global && !d.sticky && !p.segments.isEmpty && p.lastEnd < s.size then
      segment s d.names.between p.lastEnd s.size
    else []

theorem segments_eq (d : Delimiters) (s : Subject) :
    d.segments s = (d.read s (.initial s)).map d.finish := by
  rw [segments]
  cases d.read s (.initial s) <;> rfl

/-- The segments of a reading of at most `n` turns. -/
def segmentsWithin (d : Delimiters) (n : Nat) (s : Subject) :
    Option (Except Error (List Segment)) :=
  (d.turns n (.initial s)).map fun result => result.map d.finish

theorem segments_of_turns {n : Nat} {out : Except Error (List Segment)}
    (h : d.segmentsWithin n s = some out) : d.segments s = out := by
  obtain ⟨result, hresult, rfl⟩ := Option.map_eq_some_iff.mp h
  exact (segments_eq d s).trans (congrArg (·.map d.finish) (read_of_turns hresult))

end Delimiters

namespace Engine

/-- The flags that delimiters are compiled with. -/
abbrev basicFlags (flags : String) : String := String.ofList (flags.toList.filter (· != 'y'))

/-- Makes the matchers of a call; no kind of segments has a name yet. -/
def prepare (left right flags : String) (escape : Option Char) (unbalanced : Unbalanced) :
    EngineM Delimiters := do
  let left ← compile left (basicFlags flags)
  let right ← compile right (basicFlags flags)
  let escape ← escape.mapM fun mark => escapeMatcher mark left right flags
  return { left, right, escape, global := flags.contains 'g', sticky := flags.contains 'y',
           unbalanced, names := {} }

/-- The delimiters of a call without an escape character. -/
def unescaped (left right : Except Error Matcher) (flags : String) (unbalanced : Unbalanced) :
    Except Error Delimiters := do
  return { left := ← left, right := ← right, escape := none, global := 'g' ∈ flags.toList,
           sticky := 'y' ∈ flags.toList, unbalanced, names := {} }

theorem escape_of_unescaped {l r : Except Error Matcher} {flags : String} {unbalanced : Unbalanced}
    {d : Delimiters} (h : unescaped l r flags unbalanced = .ok d) : d.escape = none := by
  cases l with
  | error err => cases h
  | ok l =>
    cases r with
    | error err => cases h
    | ok r => cases h; rfl

variable {g g' : Engine} {text left right flags : String} {escape : Option Char}
  {unbalanced : Unbalanced} {names : SegmentNames}

theorem run_matchRecursive {d : Except Error Delimiters} (text : String) (names : SegmentNames)
    (h : (prepare left right flags escape unbalanced).run.run g = (d, g')) :
    (matchRecursive text left right flags escape unbalanced names).run.run g =
      (d.bind fun d => { d with names }.segments (.ofString text), g') := by
  have hprepare : matchRecursive text left right flags escape unbalanced names = (do
      let d ← prepare left right flags escape unbalanced
      ExceptT.mk (pure ({ d with names }.segments (.ofString text)))) := by
    simp only [matchRecursive, prepare, bind_assoc, pure_bind]
  rw [hprepare, run_bind, h]
  cases d <;> rfl

theorem result_matchRecursive (text : String) (names : SegmentNames) :
    ((matchRecursive text left right flags escape unbalanced names).run.run g).1 =
      ((prepare left right flags escape unbalanced).run.run g).1.bind fun d =>
        { d with names }.segments (.ofString text) :=
  congrArg Prod.fst (run_matchRecursive text names rfl)

/-- The texts between the outermost pairs are those of the matched segments. -/
theorem result_matchRecursiveTexts (text left right flags : String) (escape : Option Char)
    (unbalanced : Unbalanced) :
    ((matchRecursiveTexts text left right flags escape unbalanced).run.run g).1 =
      ((matchRecursive text left right flags escape unbalanced { matched := "match" }).run.run
        g).1.map (·.map (·.value)) := by
  rw [matchRecursiveTexts, run_bind]
  cases (matchRecursive text left right flags escape unbalanced { matched := "match" }).run.run g with
  | mk result g' => cases result <;> rfl

/-- Without an escape character the two delimiters are compiled, and nothing else. -/
theorem exists_run_prepare (idle : g.compiling = false) (left right flags : String)
    (unbalanced : Unbalanced) :
    let compiled (pattern : String) :=
      Extended.compile g.dialect g.surroundings g.reparseLimit pattern (basicFlags flags) none
    ∃ trace, (prepare left right flags none unbalanced).run.run g =
      (unescaped (compiled left) (compiled right) flags unbalanced, { g with trace }) := by
  intro compiled
  have hrun (trace : Trace) (pattern : String) :
      ∃ trace', (compile pattern (basicFlags flags)).run.run { g with trace } =
        (compiled pattern, { g with trace := trace' }) :=
    exists_run_compileWith (g := { g with trace }) idle pattern (basicFlags flags) none
  obtain ⟨trace, hleft⟩ := hrun g.trace left
  obtain ⟨trace', hright⟩ := hrun trace right
  rw [prepare, run_bind, hleft]
  cases compiled left with
  | error e => exact ⟨trace, rfl⟩
  | ok l =>
    refine ⟨trace', ?_⟩
    dsimp only
    rw [run_bind, hright, unescaped, ← String.contains_char_eq, ← String.contains_char_eq]
    cases compiled right <;> rfl

/-- With an escape character a matcher for what it hides is made behind the delimiters. -/
theorem result_prepare_mark {d : Except Error Delimiters} (mark : Char)
    (h : (prepare left right flags none unbalanced).run.run g = (d, g')) :
    ((prepare left right flags (some mark) unbalanced).run.run g).1 =
      d.bind fun d => ((escapeMatcher mark d.left d.right flags).run.run g').1.map fun e =>
        { d with escape := some e } := by
  have hmark : prepare left right flags (some mark) unbalanced = (do
      let d ← prepare left right flags none unbalanced
      let e ← escapeMatcher mark d.left d.right flags
      return { d with escape := some e }) := by
    simp only [prepare, Option.mapM_some, Option.mapM_none, bind_assoc, pure_bind, map_eq_pure_bind]
  rw [hmark, run_bind, h]
  cases d with
  | error err => rfl
  | ok d =>
    dsimp only
    rw [run_bind]
    simp only [Except.bind]
    cases (escapeMatcher mark d.left d.right flags).run.run g' with
    | mk made g'' => cases made <;> rfl

/-- A run of few turns can be evaluated. -/
theorem matchRecursive_of_turns {l r : Except Error Matcher} {n : Nat}
    {out : Except Error (List Segment)} (idle : g.compiling = false)
    (hl : Extended.compile g.dialect g.surroundings g.reparseLimit left (basicFlags flags) none = l)
    (hr : Extended.compile g.dialect g.surroundings g.reparseLimit right (basicFlags flags) none =
      r)
    (h : ((unescaped l r flags unbalanced).toOption.bind fun d =>
      { d with names }.segmentsWithin n (.ofString text)) = some out) :
    ((matchRecursive text left right flags none unbalanced names).run.run g).1 = out := by
  obtain ⟨trace, hprepare⟩ := exists_run_prepare idle left right flags unbalanced
  dsimp only at hprepare
  rw [result_matchRecursive, hprepare, hl, hr]
  cases hd : unescaped l r flags unbalanced with
  | error e => simp [hd, Except.toOption] at h
  | ok d =>
    rw [hd] at h
    exact Delimiters.segments_of_turns h

end Engine

end Patterns
