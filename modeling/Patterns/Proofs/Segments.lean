import Patterns.Proofs.Turns
import Patterns.Proofs.Union

/-!
# Segments and their names

Reading comes to parts of the subject, whatever their kinds are called. The names only choose which
parts are reported, but for one thing: the text behind the last pair is reported only where some
part before it is.
-/
namespace Patterns
open Patterns.Text

inductive SegmentKind where
  | between | left | matched | right
  deriving DecidableEq, Repr

/-- A part of a subject that is reported where its kind has a name. -/
structure Part (s : Subject) where
  kind : SegmentKind
  start : Nat
  stop : Nat
  deriving DecidableEq

def Part.text {s : Subject} (part : Part s) : String := s.slice part.start part.stop

namespace SegmentNames

variable {s : Subject}

def name? (names : SegmentNames) : SegmentKind → Option String
  | .between => names.between
  | .left => names.left
  | .matched => names.matched
  | .right => names.right

def segment? (names : SegmentNames) (part : Part s) : Option Segment :=
  (names.name? part.kind).map fun name =>
    ⟨name, part.text, s.byteOffset part.start, s.byteOffset part.stop⟩

/-- Only the text between pairs has a name, if anything has, and none stands before a pair. -/
def Hides (names : SegmentNames) (parts : List (Part s)) : Prop :=
  names.left = none ∧ names.matched = none ∧ names.right = none ∧
    ∀ part ∈ parts.dropLast, part.kind ≠ .between

instance (names : SegmentNames) (parts : List (Part s)) : Decidable (names.Hides parts) := by
  unfold Hides
  infer_instance

/-- What is reported of all parts. -/
def report (names : SegmentNames) (parts : List (Part s)) : List Segment :=
  if names.Hides parts then [] else parts.filterMap names.segment?

end SegmentNames

namespace Delimiters

variable {d : Delimiters} {s : Subject} {names : SegmentNames}

theorem segment_eq (kind : SegmentKind) (start stop : Nat) :
    segment s (names.name? kind) start stop =
      [(⟨kind, start, stop⟩ : Part s)].filterMap names.segment? := by
  cases h : names.name? kind <;> simp [segment, SegmentNames.segment?, h, Part.text]

/-- The parts of an outermost pair, the latest first. -/
def pairParts (p : Pairing s) (f : Match s) : List (Part s) :=
  ⟨.right, f.start, f.stop⟩ :: ⟨.matched, p.innerStart, f.start⟩ ::
    ⟨.left, p.outerStart, p.innerStart⟩ ::
    if p.lastEnd < p.outerStart then [⟨.between, p.lastEnd, p.outerStart⟩] else []

theorem pairSegments_eq (p : Pairing s) (f : Match s) :
    { d with names }.pairSegments p f = (pairParts p f).filterMap names.segment? := by
  have hparts : pairParts p f =
      [⟨.right, f.start, f.stop⟩] ++ [⟨.matched, p.innerStart, f.start⟩] ++
      [⟨.left, p.outerStart, p.innerStart⟩] ++
      if p.lastEnd < p.outerStart then [⟨.between, p.lastEnd, p.outerStart⟩] else [] := rfl
  rw [hparts, List.filterMap_append, List.filterMap_append, List.filterMap_append,
    apply_ite (List.filterMap names.segment?)]
  simp only [← segment_eq, SegmentNames.name?, List.filterMap_nil, pairSegments]

/-- A state of reading with all parts, the latest first, in the place of the segments. -/
structure Parting (s : Subject) where
  state : Pairing s
  parts : List (Part s)
  ofPairs : parts = [] ∨ ∃ p f rest, parts = pairParts p f ++ rest

namespace Parting

variable {q : Parting s}

/-- The state when the kinds have names. -/
def named (names : SegmentNames) (q : Parting s) : Pairing s :=
  { q.state with segments := q.parts.filterMap names.segment? }

@[simp] theorem depth_named (names : SegmentNames) :
    (q.named names).depth = q.state.depth := rfl

@[simp] theorem segments_named (names : SegmentNames) :
    (q.named names).segments = q.parts.filterMap names.segment? := rfl

/-- The parts behind the next delimiter: those of the pair that it closes come on top. -/
def follow (q : Parting s) (state : Pairing s) : Delimiter s q.state.stop → Parting s
  | .right f =>
    if q.state.depth = 1 then
      ⟨state, pairParts q.state f.val ++ q.parts, .inr ⟨q.state, f.val, q.parts, rfl⟩⟩
    else { q with state }
  | _ => { q with state }

@[simp] theorem state_follow (p : Pairing s) (m : Delimiter s q.state.stop) :
    (q.follow p m).state = p := by
  cases m with
  | right f =>
    rw [follow]
    split <;> rfl
  | left | none => rfl

end Parting

theorem restart_withSegments (d : Delimiters) (p : Pairing s) (segments : List Segment) :
    d.restart s { p with segments } = d.restart s p := by
  unfold restart
  cases d.unbalanced with
  | skip =>
    dsimp only
    cases d.left.searchAt s p.outerStart true with
    | error e => rfl
    | ok f => cases f <;> rfl
  | refuse | skipLazy => rfl

/-- The names have no say in what comes of a delimiter. -/
theorem after_named (d : Delimiters) (names : SegmentNames) (q : Parting s)
    (m : Delimiter s q.state.stop) :
    { d with names }.after (q.named names) m =
      (d.after q.state m).map fun p => (q.follow p m).named names := by
  cases m with
  | none =>
    have hrestart : { d with names }.restart s (q.named names) = d.restart s q.state :=
      restart_withSegments d q.state _
    simp only [after, afterNone, hrestart, apply_ite (Turn.map _)]
    cases d.restart s q.state <;> rfl
  | left f =>
    simp only [after, afterLeft, apply_ite (Turn.map _)]
    rfl
  | right f =>
    by_cases hclose : q.state.depth = 1
    · have hpair : { d with names }.pairSegments (q.named names) f.val =
          (pairParts q.state f.val).filterMap names.segment? := pairSegments_eq _ _
      simp only [after, afterRight, apply_ite (Turn.map _), Parting.follow, Parting.depth_named,
        Parting.segments_named, hclose, hpair, if_true, ← List.filterMap_append, Nat.reduceBEq,
        Bool.and_false, Bool.false_and, Bool.false_eq_true, if_false]
      rfl
    · simp only [after, afterRight, apply_ite (Turn.map _), Parting.follow, Parting.depth_named,
        Parting.segments_named, hclose, if_false]
      rfl

theorem exists_turn_named (d : Delimiters) (q : Parting s) :
    ∃ f : Pairing s → Parting s, (∀ p, (f p).state = p) ∧ ∀ names : SegmentNames,
      { d with names }.turn (q.named names) =
        (d.turn q.state).map fun p => (f p).named names := by
  cases hseen : d.seen s q.state.stop with
  | error e =>
    refine ⟨fun state => { q with state }, fun p => rfl, fun names => ?_⟩
    have hseen' : { d with names }.seen s (q.named names).stop = .error e := hseen
    rw [turn, turn, hseen, hseen']
    rfl
  | ok m =>
    refine ⟨fun p => q.follow p m, fun p => Parting.state_follow p m, fun names => ?_⟩
    have hseen' : { d with names }.seen s (q.named names).stop = .ok m := hseen
    rw [turn, turn, hseen, hseen']
    exact after_named d names q m

theorem exists_read_named (d : Delimiters) (q : Parting s) :
    ∃ x : Except Error (Parting s), ∀ names : SegmentNames,
      { d with names }.read s (q.named names) = x.map (Parting.named names) := by
  -- The induction is on the states of a reading whose segments do not matter.
  induction hp : q.state using read_induction d generalizing q with
  | ends p result hturn =>
    obtain ⟨f, -, hnamed⟩ := exists_turn_named d q
    refine ⟨result.map f, fun names => ?_⟩
    rw [read_eq, hnamed, hp, hturn]
    cases result <;> rfl
  | goesOn p p' hturn ih =>
    obtain ⟨f, hstate, hnamed⟩ := exists_turn_named d q
    obtain ⟨x, hx⟩ := ih (f p') (hstate p')
    refine ⟨x, fun names => ?_⟩
    rw [read_eq, hnamed, hp, hturn]
    exact hx names

/-- All parts, with the text behind the last pair. -/
def Parting.all (d : Delimiters) (q : Parting s) : List (Part s) :=
  q.parts.reverse ++
    if d.global && !d.sticky && !q.parts.isEmpty && q.state.lastEnd < s.size then
      [⟨.between, q.state.lastEnd, s.size⟩]
    else []

/-- Text between pairs is one of the parts before the last one wherever it stands before a pair. -/
theorem hides_all_iff (d : Delimiters) (q : Parting s) :
    names.Hides (q.all d) ↔ names.left = none ∧ names.matched = none ∧ names.right = none ∧
      ∀ part ∈ q.parts, part.kind ≠ .between := by
  have hdrop : (∀ part ∈ (q.all d).dropLast, part.kind ≠ .between) ↔
      ∀ part ∈ q.parts, part.kind ≠ .between := by
    rw [Parting.all]
    split
    · rw [List.dropLast_concat]
      simp
    · have hlast : q.parts = [] ∨ ∃ r parts, q.parts = r :: parts ∧ r.kind = .right :=
        q.ofPairs.imp_right fun ⟨p, f, rest, h⟩ => ⟨_, _, h, rfl⟩
      rcases hlast with h | ⟨r, parts, h, hr⟩
      · simp [h]
      · simp [h, hr]
  rw [SegmentNames.Hides, hdrop]

theorem filterMap_eq_nil_iff {parts : List (Part s)} :
    parts.filterMap names.segment? = [] ↔ ∀ part ∈ parts, names.name? part.kind = none := by
  simp [SegmentNames.segment?]

/-- What is neither hidden nor named is nothing, or it is text between pairs. -/
theorem parts_eq_nil_or_between_eq_none {q : Parting s}
    (unnamed : ∀ part ∈ q.parts, names.name? part.kind = none) (hides : ¬names.Hides (q.all d)) :
    q.parts = [] ∨ names.between = none := by
  rcases q.ofPairs with h | ⟨p, f, rest, h⟩
  · exact .inl h
  · right
    obtain ⟨hright, hmatched, hleft, -⟩ : names.right = none ∧ names.matched = none ∧
        names.left = none ∧ _ := by
      rwa [h, pairParts, List.cons_append, List.forall_mem_cons, List.cons_append,
        List.forall_mem_cons, List.cons_append, List.forall_mem_cons] at unnamed
    have hbetween : ∃ part ∈ q.parts, part.kind = .between := by
      by_contra hno
      exact hides ((hides_all_iff d q).mpr ⟨hleft, hmatched, hright,
        fun part hpart hkind => hno ⟨part, hpart, hkind⟩⟩)
    obtain ⟨part, hpart, hkind⟩ := hbetween
    have hname := unnamed part hpart
    rwa [hkind] at hname

/-- The text behind the last pair is kept back only where nothing stands before it. -/
theorem finish_named (d : Delimiters) (names : SegmentNames) (q : Parting s) :
    { d with names }.finish (q.named names) = names.report (q.all d) := by
  have hfinish : { d with names }.finish (q.named names) =
      (q.parts.filterMap names.segment?).reverse ++
        if d.global && !d.sticky && !(q.parts.filterMap names.segment?).isEmpty &&
            q.state.lastEnd < s.size then
          [(⟨.between, q.state.lastEnd, s.size⟩ : Part s)].filterMap names.segment?
        else [] := by
    rw [← segment_eq]
    rfl
  rw [hfinish, SegmentNames.report]
  by_cases hides : names.Hides (q.all d)
  · obtain ⟨hleft, hmatched, hright, hbetween⟩ := (hides_all_iff d q).mp hides
    have hnone : q.parts.filterMap names.segment? = [] := by
      refine filterMap_eq_nil_iff.mpr fun part hpart => ?_
      cases hkind : part.kind with
      | between => exact absurd hkind (hbetween part hpart)
      | left => exact hleft
      | matched => exact hmatched
      | right => exact hright
    rw [if_pos hides, hnone]
    simp
  · rw [if_neg hides, Parting.all, List.filterMap_append, List.filterMap_reverse,
      apply_ite (List.filterMap names.segment?), List.filterMap_nil]
    congr 1
    by_cases hnone : q.parts.filterMap names.segment? = []
    · have hsilent := parts_eq_nil_or_between_eq_none (filterMap_eq_nil_iff.mp hnone) hides
      rcases hsilent with h | h
      · simp [h]
      · simp [hnone, SegmentNames.segment?, SegmentNames.name?, h]
    · have hparts : q.parts ≠ [] := fun h => hnone (by rw [h]; rfl)
      simp only [List.isEmpty_eq_false_iff.mpr hnone, List.isEmpty_eq_false_iff.mpr hparts]

theorem exists_segments (d : Delimiters) (s : Subject) :
    ∃ parts : Except Error (List (Part s)), ∀ names : SegmentNames,
      { d with names }.segments s = parts.map names.report := by
  obtain ⟨x, hx⟩ := exists_read_named d (⟨.initial s, [], .inl rfl⟩ : Parting s)
  refine ⟨x.map (Parting.all d), fun names => ?_⟩
  have hread : { d with names }.read s (.initial s) = x.map (Parting.named names) := hx names
  rw [segments_eq, hread]
  cases x with
  | error e => rfl
  | ok q => exact congrArg Except.ok (finish_named d names q)

end Delimiters

/-- The texts of the matched parts. -/
theorem SegmentNames.map_value_report {s : Subject} (name : String) (parts : List (Part s)) :
    (report { matched := name } parts).map (·.value) =
      (parts.filter (·.kind = .matched)).map (·.text) := by
  rw [report, if_neg (by simp [Hides])]
  induction parts with
  | nil => rfl
  | cons part parts ih =>
    obtain ⟨kind, start, stop⟩ := part
    cases kind <;> simpa [List.filterMap_cons, segment?, name?] using ih

namespace Engine

open Delimiters Extended

end Engine

end Patterns
