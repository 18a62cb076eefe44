import Patterns.Proofs.Coverage
import Patterns.Proofs.Escapes

/-!
# Reading with bare numbers

The reading of delimiters once more, with nothing known about its numbers: a search may find a match
anywhere, a slice may be out of range, and the turns may never end. Where searches go forward
nothing of that happens, and reading comes to what it comes to here.
-/
namespace Patterns
open Patterns.Text

/-- What reading keeps from turn to turn. -/
structure Tally where
  depth : Nat := 0
  start : Nat := 0
  stop : Nat := 0
  outerStart : Nat := 0
  innerStart : Nat := 0
  lastEnd : Nat := 0
  segments : List Segment := []

namespace Tally

variable (d : Delimiters) (s : Subject)

def skip (i : Nat) : Except Error Nat :=
  match d.escape with
  | none => .ok i
  | some m => (m.find s i true).map fun found => (found.map (·.stop)).getD i

def next (i : Nat) : Except Error (Option (Side × Match s)) := do
  return Delimiters.earliest (← d.left.find s i false) (← d.right.find s i false)

/-- A slice that is out of range is none. -/
def slice? (name : Option String) (start stop : Nat) : Option (List Segment) :=
  if start ≤ stop ∧ stop ≤ s.size then some (Delimiters.segment s name start stop) else none

def gap? (start stop : Nat) : Option (List Segment) :=
  if start < stop then slice? s d.names.between start stop else some []

def pair? (t : Tally) (f : Match s) : Option (List Segment) := do
  let between ← gap? d s t.lastEnd t.outerStart
  let left ← slice? s d.names.left t.outerStart t.innerStart
  let matched ← slice? s d.names.matched t.innerStart f.start
  let right ← slice? s d.names.right f.start f.stop
  return right ++ matched ++ left ++ between

/-- Where reading goes on behind a left delimiter that is dropped. -/
def restart (t : Tally) : Except Error Nat := do
  let width ← match d.unbalanced with
    | .skip => (d.left.find s t.outerStart true).map fun found =>
        (found.map fun f => f.stop - f.start).getD 0
    | _ => .ok 0
  let i := if width = 0 then t.outerStart + 1 else t.outerStart + width
  return if t.start = i then i + 1 else i

def closed (t : Tally) (f : Match s) (segments : List Segment) : Turn Tally :=
  let t : Tally := { t with
    depth := 0, start := f.start, stop := f.resume, lastEnd := f.stop
    segments := segments ++ t.segments }
  if d.global then .goesOn t else .ends (.ok t)

def after (t : Tally) : Option (Side × Match s) → Option (Turn Tally)
  | none =>
    if t.depth = 0 then some (.ends (.ok t))
    else if d.unbalanced = .refuse then
      some (.ends (.error (.unbalanced .left (s.byteOffset t.outerStart))))
    else
      match restart d s t with
      | .error e => some (.ends (.error e))
      | .ok j => some (.goesOn { t with depth := 0, stop := j })
  | some (side, f) =>
    if d.sticky && t.depth == 0 && t.lastEnd < f.start then some (.ends (.ok t))
    else
      match side with
      | .left => some (.goesOn { t with
          depth := t.depth + 1, start := f.start, stop := f.resume
          outerStart := if t.depth = 0 then f.start else t.outerStart
          innerStart := if t.depth = 0 then f.stop else t.innerStart })
      | .right =>
        if t.depth = 0 && d.unbalanced == .refuse then
          some (.ends (.error (.unbalanced .right (s.byteOffset f.start))))
        else if t.depth = 1 then (pair? d s t f).map (closed d s t f)
        else some (.goesOn { t with depth := t.depth - 1, start := f.start, stop := f.resume })

/-- One turn of the loop; where a slice is out of range there is none. -/
def turn (t : Tally) : Option (Turn Tally) :=
  match (skip d s t.stop).bind (next d s) with
  | .error e => some (.ends (.error e))
  | .ok found => after d s t found

/-- At most `n` turns. -/
def turns : Nat → Tally → Option (Except Error Tally)
  | 0, _ => none
  | n + 1, t =>
    match turn d s t with
    | none => none
    | some (.ends result) => some result
    | some (.goesOn t') => turns n t'

def finish? (t : Tally) : Option (List Segment) :=
  if d.global && !d.sticky && !t.segments.isEmpty && t.lastEnd < s.size then
    (slice? s d.names.between t.lastEnd s.size).map (t.segments.reverse ++ ·)
  else some t.segments.reverse

/-- The segments that a loop of at most `n` turns comes to, if all its slices are in range. -/
def segments? (n : Nat) : Option (Except Error (List Segment)) :=
  match turns d s n {} with
  | none => none
  | some (.error e) => some (.error e)
  | some (.ok t) => (finish? d s t).map .ok

end Tally

/-- The numbers of a state. -/
def Pairing.tally {s : Subject} (p : Pairing s) : Tally :=
  ⟨p.depth, p.start, p.stop, p.outerStart, p.innerStart, p.lastEnd, p.segments⟩

namespace Matcher

variable {m : Matcher} {s : Subject} {i : Nat}

theorem find_eq_map_searchAt {sticky : Bool}
    (forward : ∀ f, m.find s i sticky = .ok (some f) → i ≤ f.start) :
    m.find s i sticky = (m.searchAt s i sticky).map (Option.map (·.val)) := by
  cases hfind : m.find s i sticky with
  | error e => rw [searchAt_of_error hfind]; rfl
  | ok found =>
    cases found with
    | none => rw [searchAt_of_none hfind]; rfl
    | some f => rw [searchAt_of_some hfind (forward f hfind)]; rfl

/-- A sticky search goes forward, whatever the pattern is. -/
theorem find_sticky_eq_map_searchAt (m : Matcher) (s : Subject) (i : Nat) :
    m.find s i true = (m.searchAt s i true).map (Option.map (·.val)) :=
  find_eq_map_searchAt fun _ hf => Nat.le_of_eq (Extended.start_eq_of_find hf).symm

end Matcher

namespace Delimiters

variable {d : Delimiters} {s : Subject} {p p' : Pairing s}

section Numbers

theorem skip_eq (d : Delimiters) (s : Subject) (i : Nat) :
    Tally.skip d s i = (d.skipEscaped s i).map (·.val) := by
  rw [Tally.skip, skipEscaped]
  cases d.escape with
  | none => rfl
  | some m =>
    dsimp only
    rw [m.find_sticky_eq_map_searchAt]
    cases m.searchAt s i true with
    | error e => rfl
    | ok found => cases found <;> rfl

theorem restart_eq (d : Delimiters) (p : Pairing s) :
    Tally.restart d s p.tally = (d.restart s p).map (·.val) := by
  have hbehind (i : { i : Nat // p.outerStart < i }) :
      (if p.start = i.val then i.val + 1 else i.val) =
        (if p.start = i.val then (⟨i.val + 1, Nat.lt_succ_of_lt i.property⟩ :
          { i : Nat // p.outerStart < i }) else i).val := by
    split <;> rfl
  rw [Tally.restart, restart]
  cases d.unbalanced with
  | refuse | skipLazy => exact congrArg Except.ok (hbehind ⟨p.outerStart + 1, _⟩)
  | skip =>
    dsimp only [Pairing.tally]
    rw [d.left.find_sticky_eq_map_searchAt]
    cases d.left.searchAt s p.outerStart true with
    | error e => rfl
    | ok found =>
      cases found with
      | none => exact congrArg Except.ok (hbehind ⟨p.outerStart + 1, _⟩)
      | some f =>
        obtain ⟨f, hf⟩ := f
        simp only [bind, Except.bind, Except.map, Option.map_some, Option.getD_some]
        by_cases hwidth : f.start < f.stop
        · have hne : f.stop - f.start ≠ 0 := by omega
          rw [if_neg hne, dif_pos hwidth]
          exact congrArg Except.ok (hbehind ⟨p.outerStart + (f.stop - f.start), _⟩)
        · have hzero : f.stop - f.start = 0 := by omega
          rw [if_pos hzero, dif_neg hwidth]
          exact congrArg Except.ok (hbehind ⟨p.outerStart + 1, _⟩)

variable (left : d.left.GoesForward s false) (right : d.right.GoesForward s false)
include left right

theorem next_eq (i : Nat) : Tally.next d s i = (d.next s i).map Delimiter.found? := by
  rw [Tally.next, next, Matcher.find_eq_map_searchAt (left i),
    Matcher.find_eq_map_searchAt (right i)]
  cases d.left.searchAt s i false with
  | error e => rfl
  | ok f =>
    cases d.right.searchAt s i false with
    | error e => cases f <;> rfl
    | ok g =>
      cases f with
      | none => cases g <;> rfl
      | some f =>
        cases g with
        | none => rfl
        | some g =>
          apply congrArg Except.ok
          rw [Option.map_some, Option.map_some, earliest]
          split <;> rfl

theorem seen_eq (i : Nat) :
    (Tally.skip d s i).bind (Tally.next d s) = (d.seen s i).map Delimiter.found? := by
  rw [skip_eq, seen]
  cases d.skipEscaped s i with
  | error e => rfl
  | ok j =>
    obtain ⟨j, hj⟩ := j
    change Tally.next d s j = ((d.next s j).map (·.weaken hj)).map Delimiter.found?
    rw [next_eq left right]
    cases d.next s j with
    | error e => rfl
    | ok m => exact congrArg Except.ok (Delimiter.found?_weaken hj m).symm

omit left right in
/-- The slices of a pair are in range. -/
theorem pair?_eq (ordered : Ordered p) (opened : p.depth ≠ 0) (f : Matcher.Hit s p.stop) :
    Tally.pair? d s p.tally f.val = some (d.pairSegments p f.val) := by
  obtain ⟨hgap, hleft, hinner, hsize⟩ := ordered.opened opened
  have := f.property
  have := f.val.start_le
  have := f.val.stop_le
  have hslice {start stop : Nat} (name : Option String) (h : start ≤ stop) (h' : stop ≤ s.size) :
      Tally.slice? s name start stop = some (segment s name start stop) := if_pos ⟨h, h'⟩
  have hbetween : Tally.gap? d s p.lastEnd p.outerStart =
      some (if p.lastEnd < p.outerStart then segment s d.names.between p.lastEnd p.outerStart
        else []) := by
    rw [Tally.gap?]
    split
    · exact hslice _ hgap (by omega)
    · rfl
  dsimp only [Tally.pair?, Pairing.tally]
  rw [hbetween, hslice _ hleft hsize, hslice _ (by omega) (by omega),
    hslice _ f.val.start_le f.val.stop_le]
  rfl

omit left right in
theorem after_eq (ordered : Ordered p) (m : Delimiter s p.stop) :
    Tally.after d s p.tally m.found? = some ((d.after p m).map Pairing.tally) := by
  cases m with
  | none =>
    simp only [Delimiter.found?, Tally.after, after, afterNone, restart_eq,
      apply_ite (Turn.map Pairing.tally), apply_ite some]
    cases d.restart s p <;> rfl
  | left f =>
    simp only [Delimiter.found?, Tally.after, after, afterLeft,
      apply_ite (Turn.map Pairing.tally), apply_ite some]
    rfl
  | right f =>
    simp only [Delimiter.found?, Tally.after, after, afterRight,
      apply_ite (Turn.map Pairing.tally), apply_ite some]
    by_cases hcloses : p.depth = 1
    · have hpair := pair?_eq (d := d) ordered (by omega) f
      have hdepth : p.tally.depth = 1 := hcloses
      simp only [hpair, hdepth, hcloses, if_true, Option.map_some, Nat.reduceBEq, Nat.reduceSub,
        Bool.and_false, Bool.false_and, Bool.false_eq_true, if_false, one_ne_zero, decide_false,
        decide_true, Bool.true_and]
      rw [Tally.closed]
      cases d.global <;> rfl
    · have hdepth : ¬p.tally.depth = 1 := hcloses
      simp only [hdepth, hcloses, if_false, decide_false, Bool.false_and, Bool.false_eq_true]
      rfl

theorem turn_eq (ordered : Ordered p) :
    Tally.turn d s p.tally = some ((d.turn p).map Pairing.tally) := by
  have hseen : (Tally.skip d s p.tally.stop).bind (Tally.next d s) =
      (d.seen s p.stop).map Delimiter.found? := seen_eq left right p.stop
  rw [Tally.turn, turn, hseen]
  cases d.seen s p.stop with
  | error e => rfl
  | ok m => exact after_eq ordered m

theorem tally_turns (ordered : Ordered p) {n : Nat} {result : Except Error (Pairing s)}
    (h : d.turns n p = some result) :
    Tally.turns d s n p.tally = some (result.map Pairing.tally) := by
  induction n generalizing p with
  | zero => cases h
  | succ n ih =>
    rw [turns] at h
    rw [Tally.turns, turn_eq left right ordered]
    have hcomes := comes_turn (d := d) ordered
    cases hturn : d.turn p with
    | ends result' =>
      obtain rfl : result' = result := by simpa [hturn] using h
      rfl
    | goesOn p' =>
      rw [hturn] at hcomes
      cases hcomes with
      | goesOn hleads => exact ih (hleads.ordered ordered) (by simpa [hturn] using h)

omit left right in
theorem finish?_eq (ordered : Ordered p) : Tally.finish? d s p.tally = some (d.finish p) := by
  rw [Tally.finish?, finish]
  change (if d.global && !d.sticky && !p.segments.isEmpty && p.lastEnd < s.size then
    (Tally.slice? s d.names.between p.lastEnd s.size).map (p.segments.reverse ++ ·)
    else some p.segments.reverse) = _
  split
  · rw [Tally.slice?, if_pos ⟨ordered.lastEnd_le_size, Nat.le_refl _⟩]
    rfl
  · rw [List.append_nil]

end Numbers

section Potential

/-- How many turns there may still be: a pass over the rest of the subject from each position on
where reading may start again. -/
def potential (p : Pairing s) : Nat :=
  (s.size + 2 - p.floor) * (s.size + 3) + (s.size + 2 - p.stop)

theorem potential_pos (ordered : Ordered p) : 0 < potential p := by
  have := ordered.stop_le
  apply Nat.add_pos_right
  omega

theorem Leads.potential_lt (h : d.Leads p p') (ordered : Ordered p) :
    potential p' < potential p := by
  have := ordered.stop_le
  cases h with
  | @drop j opened past le =>
    obtain ⟨hfloor, -⟩ := p.outer_bounds opened
    obtain ⟨k, hk⟩ : ∃ k, s.size + 2 - p.floor = s.size + 2 - j + 1 + k :=
      ⟨s.size + 2 - p.floor - (s.size + 2 - j + 1), by omega⟩
    have hj : s.size + 2 - j < s.size + 3 := by omega
    calc (s.size + 2 - j) * (s.size + 3) + (s.size + 2 - j)
        < (s.size + 2 - j) * (s.size + 3) + (s.size + 3) := Nat.add_lt_add_left hj _
      _ = (s.size + 2 - j + 1) * (s.size + 3) := (Nat.succ_mul _ _).symm
      _ ≤ (s.size + 2 - p.floor) * (s.size + 3) := Nat.mul_le_mul_right _ (by omega)
      _ ≤ potential p := Nat.le_add_right _ _
  | left f | right f =>
    have := f.property
    have := f.val.start_lt_resume
    apply Nat.add_lt_add_left
    dsimp only
    omega

theorem turns_eq_read (ordered : Ordered p) {n : Nat} (h : potential p ≤ n) :
    d.turns n p = some (d.read s p) := by
  induction n generalizing p with
  | zero => exact absurd (potential_pos ordered) (Nat.not_lt.mpr h)
  | succ n ih =>
    have hcomes := comes_turn (d := d) ordered
    rw [turns, read_eq]
    cases hturn : d.turn p with
    | ends result => rfl
    | goesOn p' =>
      rw [hturn] at hcomes
      cases hcomes with
      | goesOn hleads =>
        have hlt := hleads.potential_lt ordered
        exact ih (hleads.ordered ordered) (by omega)

/-- Only a search that gives up ends a reading that skips delimiters without a partner. -/
theorem error_of_read (skipping : d.unbalanced ≠ .refuse) (ordered : Ordered p) {e : Error}
    (h : d.read s p = .error e) : e = .searchLimit := by
  induction p using read_induction d with
  | ends p result hturn =>
    have hcomes := comes_turn (d := d) ordered
    obtain rfl : result = .error e := by rw [read_eq, hturn] at h; exact h
    rw [hturn] at hcomes
    cases hcomes with
    | fails hlimit => exact hlimit skipping
  | goesOn p q hturn ih =>
    have hcomes := comes_turn (d := d) ordered
    rw [hturn] at hcomes
    cases hcomes with
    | goesOn hleads =>
      rw [read_eq, hturn] at h
      exact ih (hleads.ordered ordered) h

end Potential

/-- Where the searches for delimiters go forward, the loop ends in time with all its slices in
range. -/
theorem segments?_eq (left : d.left.GoesForward s false) (right : d.right.GoesForward s false) :
    Tally.segments? d s ((s.size + 2) * (s.size + 4)) = some (d.segments s) := by
  have hpotential : potential (.initial s) = (s.size + 2) * (s.size + 4) := by
    change (s.size + 2) * (s.size + 3) + (s.size + 2) = _
    rw [← Nat.mul_succ]
  have hturns := turns_eq_read (d := d) ordered_start (Nat.le_of_eq hpotential)
  have htally := tally_turns left right ordered_start hturns
  have hstart : ({} : Tally) = (Pairing.initial s).tally := rfl
  rw [Tally.segments?, segments_eq, hstart, htally]
  cases hread : d.read s (.initial s) with
  | error e => rfl
  | ok p =>
    obtain ⟨ordered, -⟩ := covered_of_read ordered_start d.covered_start hread
    change (Tally.finish? d s p.tally).map Except.ok = some (.ok (d.finish p))
    rw [finish?_eq ordered]
    rfl

end Delimiters

namespace Engine

open Extended

variable {g : Engine} {text left right flags : String} {escape : Option Char}
  {unbalanced : Unbalanced}

/-- Where the searches for delimiters go forward, the loop of a call ends after few turns with all
its slices in range, whatever its delimiters match. If it skips delimiters without a partner no
error comes of it but that of a search that gives up. -/
theorem matchRecursive_ends {d : Delimiters}
    (made : ((prepare left right flags escape unbalanced).run.run g).1 = .ok d)
    (forwardLeft : d.left.GoesForward (.ofString text) false)
    (forwardRight : d.right.GoesForward (.ofString text) false) (names : SegmentNames) :
    let s := Subject.ofString text
    ∃ result, Tally.segments? { d with names } s ((s.size + 2) * (s.size + 4)) = some result ∧
      ((matchRecursive text left right flags escape unbalanced names).run.run g).1 = result ∧
      (unbalanced ≠ .refuse → ∀ e, result = .error e → e = .searchLimit) := by
  intro s
  refine ⟨{ d with names }.segments s, ?_, ?_, fun skipping e he => ?_⟩
  · exact Delimiters.segments?_eq (d := { d with names }) forwardLeft forwardRight
  · rw [result_matchRecursive, made]
    rfl
  · obtain ⟨-, -, rfl⟩ := eq_of_prepare made
    rw [Delimiters.segments_eq] at he
    cases hread : { d with names }.read s (.initial s) with
    | ok p => simp [hread, Except.map] at he
    | error e' =>
      obtain rfl : e' = e := by simpa [hread, Except.map] using he
      exact Delimiters.error_of_read (d := { d with names }) skipping Delimiters.ordered_start hread

/-- Both delimiters match empty text, and the first left one has no partner. -/
theorem matchRecursive_ends_empty :
    let s := Subject.ofString "<><"
    ∃ d : Delimiters, ((prepare "(?=<)" "$" "" none .skip).run.run {}).1 = .ok d ∧
      d.left.GoesForward s false ∧ d.right.GoesForward s false ∧
      Tally.segments? { d with names := { matched := "match" } } s 35 =
        some (.ok [⟨"match", "<", 2, 3⟩]) := by
  intro s
  have hleft : Setting.toPlain ⟨{}, surroundings {}, none, "(?=<)"⟩ 10000 (.ofFlags "") =
      .ok (['(', '?', '=', '<', ')'], .ofFlags "") := by cbv
  have hright : Setting.toPlain ⟨{}, surroundings {}, none, "$"⟩ 10000 (.ofFlags "") =
      .ok (['$'], .ofFlags "") := by cbv
  have hl := compile_of_toPlain rfl hleft
  have hr := compile_of_toPlain rfl hright
  obtain ⟨l, hlm⟩ : ∃ l, Matcher.ofCompiled "(?=<)" (.ofList []) [] "(?=<)" "" = .ok l :=
    Matcher.exists_ofCompiled _ _ (by decide +kernel)
  obtain ⟨r, hrm⟩ : ∃ r, Matcher.ofCompiled "$" (.ofList []) [] "$" "" = .ok r :=
    Matcher.exists_ofCompiled _ _ (by decide +kernel)
  obtain ⟨trace, hprepare⟩ := exists_run_prepare (g := {}) rfl "(?=<)" "$" "" .skip
  have hlc : Extended.compile {} (surroundings {}) 10000 "(?=<)" (basicFlags "") none = .ok l :=
    hl.trans hlm
  have hrc : Extended.compile {} (surroundings {}) 10000 "$" (basicFlags "") none = .ok r :=
    hr.trans hrm
  dsimp only at hprepare
  rw [hlc, hrc] at hprepare
  have made := congrArg Prod.fst hprepare
  obtain ⟨hlsource, hlflags, -⟩ := Matcher.eq_of_build hlm
  obtain ⟨hrsource, hrflags, -⟩ := Matcher.eq_of_build hrm
  have forwardLeft : l.GoesForward s false :=
    Matcher.goesForward_of_search (by rw [hlsource, hlflags]; decide +kernel)
  have forwardRight : r.GoesForward s false :=
    Matcher.goesForward_of_search (by rw [hrsource, hrflags]; decide +kernel)
  refine ⟨_, made, forwardLeft, forwardRight, ?_⟩
  obtain ⟨result, hloop, hresult, -⟩ :=
    matchRecursive_ends made forwardLeft forwardRight { matched := "match" }
  have hrun : ((matchRecursive "<><" "(?=<)" "$" "" none .skip
      { matched := "match" }).run.run {}).1 = .ok [⟨"match", "<", 2, 3⟩] :=
    matchRecursive_of_turns (n := 9) rfl hl hr (by decide +kernel)
  rw [hrun] at hresult
  rw [hresult]
  exact hloop

end Engine

end Patterns
