import Patterns.Proofs.Progress
import Patterns.Proofs.Segments

/-!
# The parts of a reading cover the subject

The offsets that reading keeps stay in order, wherever it started again. So the parts of the pairs
follow each other from the start of the subject, and nothing between them is left out.
-/
namespace Patterns
open Patterns.Text

namespace Text.Subject

variable {s : Subject} {i j k : Nat}

theorem toList_slice (s : Subject) (i j : Nat) :
    (s.slice i j).toList = (s.toList.drop i).take (j - i) := by
  simp [slice, toList, List.extract_eq_take_drop]

theorem slice_append (hij : i ≤ j) (hjk : j ≤ k) : s.slice i j ++ s.slice j k = s.slice i k := by
  refine String.toList_inj.mp ?_
  obtain ⟨m, rfl⟩ : ∃ m, j = i + m := ⟨j - i, by omega⟩
  have hk : k - i = m + (k - (i + m)) := by omega
  rw [String.toList_append, toList_slice, toList_slice, toList_slice, hk, List.take_add,
    List.drop_drop, Nat.add_sub_cancel_left]

theorem utf8ByteSize_slice (hij : i ≤ j) (hj : j ≤ s.size) :
    s.byteOffset i + (s.slice i j).utf8ByteSize = s.byteOffset j := by
  obtain ⟨m, rfl⟩ : ∃ m, j = i + m := ⟨j - i, by omega⟩
  have hsize (cs : List Char) : String.utf8Len cs = utf8Size cs := by
    induction cs with
    | nil => rfl
    | cons c cs ih => rw [utf8Size_cons, ← ih, String.utf8Len, Nat.add_comm]
  rw [byteOffset_add hj, ← hsize, ← String.utf8ByteSize_ofList, ← String.ofList_toList
    (s := s.slice i (i + m)), toList_slice, Nat.add_sub_cancel_left]

@[simp] theorem byteOffset_zero (s : Subject) : s.byteOffset 0 = 0 := by
  simp [byteOffset_eq (Nat.zero_le s.size)]

@[simp] theorem slice_ofString (text : String) :
    (ofString text).slice 0 (ofString text).size = text := by
  refine String.toList_inj.mp ?_
  rw [toList_slice, List.drop_zero, Nat.sub_zero, ← length_toList, List.take_length]
  exact toList_ofList _

end Text.Subject


/-- The parts follow each other without gaps, from `i` to `j`. -/
inductive Joins {s : Subject} : Nat → List (Part s) → Nat → Prop
  | nil (i : Nat) : Joins i [] i
  | cons {kind : SegmentKind} {i j k : Nat} {parts : List (Part s)} (le : i ≤ j)
      (rest : Joins j parts k) : Joins i (⟨kind, i, j⟩ :: parts) k

namespace Joins

variable {s : Subject} {i j k : Nat} {parts parts' : List (Part s)}

theorem append (h : Joins i parts j) (h' : Joins j parts' k) : Joins i (parts ++ parts') k := by
  induction h with
  | nil => exact h'
  | cons le _ ih => exact .cons le (ih h')

theorem le (h : Joins i parts j) : i ≤ j := by
  induction h with
  | nil => exact Nat.le_refl _
  | cons le _ ih => exact Nat.le_trans le ih

theorem bounds (h : Joins i parts j) :
    ∀ part ∈ parts, part.start ≤ part.stop ∧ part.stop ≤ j := by
  induction h with
  | nil => simp
  | cons le rest ih => exact List.forall_mem_cons.mpr ⟨⟨le, rest.le⟩, ih⟩

theorem head?_start (h : Joins i parts j) : ∀ part ∈ parts.head?, part.start = i := by
  cases h <;> simp

theorem getLast?_stop (h : Joins i parts j) : ∀ part ∈ parts.getLast?, part.stop = j := by
  induction h with
  | nil => simp
  | @cons kind i j k parts le rest ih =>
    cases rest with
    | nil => simp
    | cons => simpa using ih

theorem isChain (h : Joins i parts j) : parts.IsChain fun a b => a.stop = b.start := by
  induction h with
  | nil => exact .nil
  | cons le rest ih =>
    exact List.isChain_cons.mpr ⟨fun part hpart => (rest.head?_start part hpart).symm, ih⟩

theorem join_text (h : Joins i parts j) : String.join (parts.map (·.text)) = s.slice i j := by
  induction h with
  | nil i => simp [Subject.slice]
  | cons le rest ih =>
    rw [List.map_cons, String.join_cons, ih, Part.text, s.slice_append le rest.le]

end Joins

/-- The kinds of the parts of a pair, with text before it or without. -/
def SegmentKind.ofPair (gap : Bool) : List SegmentKind :=
  if gap then [.between, .left, .matched, .right] else [.left, .matched, .right]

/-- The parts of pairs that follow each other from the start of the subject up to `stop`, the latest
first. -/
structure Covering {s : Subject} (parts : List (Part s)) (stop : Nat) : Prop where
  joins : Joins 0 parts.reverse stop
  kinds : ∃ gaps : List Bool,
    parts.reverse.map (·.kind) = gaps.flatMap SegmentKind.ofPair
  gaps : ∀ part ∈ parts, part.kind = .between → part.start < part.stop

theorem Match.stop_le_resume {s : Subject} (f : Match s) : f.stop ≤ f.resume := by
  rw [resume]
  split <;> omega

/-- Behind a match that is not empty the next search starts where it ends. -/
theorem Match.resume_of_lt {s : Subject} {f : Match s} (h : f.start < f.stop) :
    f.resume = f.stop := by
  have hlong : ¬f.isEmpty = true := by simpa [isEmpty] using Nat.ne_of_lt h
  rw [resume, if_neg hlong]

theorem Match.resume_le {s : Subject} (f : Match s) : f.resume ≤ s.size + 1 := by
  have := f.stop_le
  rw [resume]
  split <;> omega

/-- A name for each kind of segments. -/
def SegmentNames.each (name : SegmentKind → String) : SegmentNames :=
  ⟨name .between, name .left, name .matched, name .right⟩

def Part.segment {s : Subject} (name : SegmentKind → String) (part : Part s) : Segment :=
  ⟨name part.kind, part.text, s.byteOffset part.start, s.byteOffset part.stop⟩

theorem SegmentNames.segment?_each {s : Subject} (name : SegmentKind → String) :
    (each name).segment? = fun part : Part s => some (part.segment name) := by
  funext part
  obtain ⟨kind, start, stop⟩ := part
  cases kind <;> rfl

/-- The value of the segment is the text at its offsets. -/
def Segment.StandsIn (text : String) (segment : Segment) : Prop :=
  ∃ front back : String, text = front ++ segment.value ++ back ∧
    front.utf8ByteSize = segment.start ∧
    segment.stop = segment.start + segment.value.utf8ByteSize

theorem Part.standsIn {text : String} {part : Part (.ofString text)} (name : SegmentKind → String)
    (le : part.start ≤ part.stop) (stop_le : part.stop ≤ (Subject.ofString text).size) :
    (part.segment name).StandsIn text := by
  have hfront := (Subject.ofString text).slice_append (Nat.zero_le part.start) le
  have hback := (Subject.ofString text).slice_append (Nat.zero_le part.stop) stop_le
  have hsize := (Subject.ofString text).utf8ByteSize_slice (Nat.zero_le part.start)
    (Nat.le_trans le stop_le)
  rw [Subject.byteOffset_zero, Nat.zero_add] at hsize
  refine ⟨_, (Subject.ofString text).slice part.stop (Subject.ofString text).size, ?_, hsize, ?_⟩
  · rw [Part.segment, Part.text, hfront, hback, Subject.slice_ofString]
  · exact (Subject.utf8ByteSize_slice le stop_le).symm

namespace Delimiters

variable {d : Delimiters} {s : Subject} {p p' : Pairing s} {f : Match s}

/-- The offsets of a state are in the order in which their delimiters stand. -/
structure Ordered (p : Pairing s) : Prop where
  start_le : p.start ≤ s.size
  stop_le : p.stop ≤ s.size + 1
  lastEnd_le_stop : p.lastEnd ≤ p.stop
  lastEnd_le_size : p.lastEnd ≤ s.size
  opened : p.depth ≠ 0 →
    p.lastEnd ≤ p.outerStart ∧ p.outerStart ≤ p.innerStart ∧ p.innerStart ≤ p.stop ∧
      p.innerStart ≤ s.size

theorem ordered_start : Ordered (.initial s) :=
  ⟨Nat.zero_le _, Nat.zero_le _, Nat.le_refl _, Nat.zero_le _, fun h => absurd rfl h⟩

/-- What a state is followed by when reading goes on, or when it ends with the first pair. -/
inductive Leads (d : Delimiters) (p : Pairing s) : Pairing s → Prop
  | drop {j : Nat} (opened : p.depth ≠ 0) (past : p.outerStart < j) (le : j ≤ s.size + 1)
      (floor_le_stop outer_bounds) :
      Leads d p { p with depth := 0, stop := j, floor := j, floor_le_stop, outer_bounds }
  | left (f : Matcher.Hit s p.stop) (floor_le_stop outer_bounds) :
      Leads d p { p with
        depth := p.depth + 1, start := f.val.start, stop := f.val.resume
        outerStart := if p.depth = 0 then f.val.start else p.outerStart
        innerStart := if p.depth = 0 then f.val.stop else p.innerStart
        floor_le_stop, outer_bounds }
  | right (f : Matcher.Hit s p.stop) (floor_le_stop outer_bounds) :
      Leads d p { p with
        depth := p.depth - 1, start := f.val.start, stop := f.val.resume
        lastEnd := if p.depth = 1 then f.val.stop else p.lastEnd
        segments := if p.depth = 1 then d.pairSegments p f.val ++ p.segments else p.segments
        floor_le_stop, outer_bounds }

/-- What a left delimiter takes ends inside of the subject. -/
theorem le_of_restart (ordered : Ordered p) (opened : p.depth ≠ 0)
    {j : { j : Nat // p.outerStart < j }} (h : d.restart s p = .ok j) : j.val ≤ s.size + 1 := by
  have hstart := ordered.start_le
  have hinner := ordered.opened opened
  have hbehind (i : { i : Nat // p.outerStart < i }) (hi : i.val ≤ s.size + 1)
      (h : (if p.start = i.val then ⟨i.val + 1, Nat.lt_succ_of_lt i.property⟩ else i) = j) :
      j.val ≤ s.size + 1 := by
    subst h
    split
    · next hsame => exact Nat.succ_le_succ (hsame ▸ hstart)
    · exact hi
  have hone : p.outerStart + 1 ≤ s.size + 1 := by omega
  rw [restart] at h
  cases hmode : d.unbalanced with
  | refuse | skipLazy =>
    rw [hmode] at h
    exact hbehind ⟨p.outerStart + 1, _⟩ hone (Except.ok.inj h)
  | skip =>
    rw [hmode] at h
    cases hfound : d.left.searchAt s p.outerStart true with
    | error e => simp [hfound, bind, Except.bind] at h
    | ok found =>
      simp only [hfound] at h
      cases found with
      | none => exact hbehind ⟨p.outerStart + 1, _⟩ hone (Except.ok.inj h)
      | some f =>
        obtain ⟨f, hf⟩ := f
        have hstop := f.stop_le
        dsimp only [bind, Except.bind] at h
        split at h
        · exact hbehind ⟨p.outerStart + (f.stop - f.start), _⟩ (by dsimp only; omega)
            (Except.ok.inj h)
        · exact hbehind ⟨p.outerStart + 1, _⟩ hone (Except.ok.inj h)

theorem eq_of_next {e : Error} {i : Nat} (h : d.next s i = .error e) : e = .searchLimit := by
  rw [next] at h
  cases hleft : d.left.searchAt s i false with
  | error e' =>
    obtain rfl : e' = e := by simpa [hleft, bind, Except.bind] using h
    exact Extended.error_of_searchAt hleft
  | ok f =>
    cases hright : d.right.searchAt s i false with
    | error e' =>
      obtain rfl : e' = e := by cases f <;> simpa [hleft, hright, bind, Except.bind] using h
      exact Extended.error_of_searchAt hright
    | ok g =>
      cases f <;> cases g <;> simp [hleft, hright, bind, Except.bind, pure, Except.pure] at h

theorem eq_of_skipEscaped {e : Error} {i : Nat} (h : d.skipEscaped s i = .error e) :
    e = .searchLimit := by
  rw [skipEscaped] at h
  cases hescape : d.escape with
  | none => simp [hescape] at h
  | some m =>
    cases hskip : m.searchAt s i true with
    | error e' =>
      obtain rfl : e' = e := by simpa [hescape, hskip, bind, Except.bind] using h
      exact Extended.error_of_searchAt hskip
    | ok f => cases f <;> simp [hescape, hskip, bind, Except.bind, pure, Except.pure] at h

theorem eq_of_seen {e : Error} {i : Nat} (h : d.seen s i = .error e) : e = .searchLimit := by
  rw [seen] at h
  cases hskip : d.skipEscaped s i with
  | error e' =>
    obtain rfl : e' = e := by simpa [hskip] using h
    exact eq_of_skipEscaped hskip
  | ok j =>
    cases hnext : d.next s j with
    | error e' =>
      obtain rfl : e' = e := by simpa [hskip, hnext, Except.map] using h
      exact eq_of_next hnext
    | ok m => simp [hskip, hnext, Except.map] at h

theorem eq_of_restart {e : Error} (h : d.restart s p = .error e) : e = .searchLimit := by
  rw [restart] at h
  cases hmode : d.unbalanced with
  | refuse | skipLazy => simp [hmode, bind, Except.bind, pure, Except.pure] at h
  | skip =>
    rw [hmode] at h
    cases hfound : d.left.searchAt s p.outerStart true with
    | error e' =>
      obtain rfl : e' = e := by simpa [hfound, bind, Except.bind] using h
      exact Extended.error_of_searchAt hfound
    | ok f =>
      cases f <;> simp only [hfound, bind, Except.bind, pure, Except.pure] at h
      · cases h
      · split at h <;> cases h

/-- What can come of a state. -/
inductive Comes (d : Delimiters) (p : Pairing s) : Turn (Pairing s) → Prop
  | fails {e : Error} (skipping : d.unbalanced ≠ .refuse → e = .searchLimit) :
      Comes d p (.ends (.error e))
  | stays : Comes d p (.ends (.ok p))
  | ends {p' : Pairing s} (h : d.Leads p p') : Comes d p (.ends (.ok p'))
  | goesOn {p' : Pairing s} (h : d.Leads p p') : Comes d p (.goesOn p')

theorem comes_turn (ordered : Ordered p) : d.Comes p (d.turn p) := by
  rw [turn]
  cases hseen : d.seen s p.stop with
  | error e => exact .fails fun _ => eq_of_seen hseen
  | ok m =>
    cases m with
    | none =>
      simp only [after, afterNone]
      split
      · exact .stays
      · next hdepth =>
        split
        · next hrefuse => exact .fails fun h => absurd hrefuse h
        · cases hrestart : d.restart s p with
          | error e => exact .fails fun _ => eq_of_restart hrestart
          | ok j =>
            have hle := le_of_restart ordered hdepth hrestart
            exact .goesOn (.drop hdepth j.property hle _ _)
    | left f =>
      simp only [after, afterLeft]
      split
      · exact .stays
      · exact .goesOn (.left f _ _)
    | right f =>
      simp only [after, afterRight]
      split
      · exact .stays
      · split
        · next hstray =>
          have hrefuse : d.unbalanced = .refuse := by
            simp only [Bool.and_eq_true, beq_iff_eq] at hstray
            exact hstray.2
          exact .fails fun h => absurd hrefuse h
        · split
          · exact .ends (.right f _ _)
          · exact .goesOn (.right f _ _)

theorem Leads.ordered (h : d.Leads p p') (ordered : Ordered p) : Ordered p' := by
  have := ordered.start_le
  have := ordered.lastEnd_le_stop
  have := ordered.lastEnd_le_size
  have hopened := ordered.opened
  cases h with
  | drop opened past le =>
    have := hopened opened
    exact ⟨ordered.start_le, le, by dsimp only; omega, ordered.lastEnd_le_size,
      fun h => absurd rfl h⟩
  | left f =>
    have := f.property
    have := f.val.start_le
    have := f.val.stop_le
    have := f.val.stop_le_resume
    have := f.val.resume_le
    refine ⟨by dsimp only; omega, by dsimp only; omega, by dsimp only; omega,
      ordered.lastEnd_le_size, fun _ => ?_⟩
    dsimp only
    split
    · omega
    · next hdepth =>
      have := hopened hdepth
      omega
  | right f =>
    have := f.property
    have := f.val.start_le
    have := f.val.stop_le
    have := f.val.stop_le_resume
    have := f.val.resume_le
    refine ⟨by dsimp only; omega, by dsimp only; omega, ?_, ?_, fun h => ?_⟩
    · dsimp only
      split <;> omega
    · dsimp only
      split <;> omega
    · have hdepth : 1 < p.depth := by dsimp only at h; omega
      have := hopened (by omega)
      dsimp only
      rw [if_neg (by omega)]
      omega

section Covering

variable {parts : List (Part s)} {names : SegmentNames}

theorem joins_pairParts (gap : p.lastEnd ≤ p.outerStart) (left : p.outerStart ≤ p.innerStart)
    (matched : p.innerStart ≤ f.start) : Joins p.lastEnd (pairParts p f).reverse f.stop := by
  have hpair : Joins p.outerStart
      [(⟨.left, p.outerStart, p.innerStart⟩ : Part s), ⟨.matched, p.innerStart, f.start⟩,
        ⟨.right, f.start, f.stop⟩] f.stop :=
    .cons left (.cons matched (.cons f.start_le (.nil _)))
  by_cases h : p.lastEnd < p.outerStart
  · simpa [pairParts, h] using Joins.cons gap hpair
  · obtain heq : p.lastEnd = p.outerStart := by omega
    simpa [pairParts, h, heq] using hpair

theorem kinds_pairParts (p : Pairing s) (f : Match s) :
    (pairParts p f).reverse.map (·.kind) =
      SegmentKind.ofPair (decide (p.lastEnd < p.outerStart)) := by
  by_cases h : p.lastEnd < p.outerStart <;> simp [pairParts, SegmentKind.ofPair, h]

theorem covering_pair (h : Covering parts p.lastEnd) (gap : p.lastEnd ≤ p.outerStart)
    (left : p.outerStart ≤ p.innerStart) (matched : p.innerStart ≤ f.start) :
    Covering (pairParts p f ++ parts) f.stop := by
  obtain ⟨gaps, hgaps⟩ := h.kinds
  refine ⟨?_, ⟨gaps ++ [decide (p.lastEnd < p.outerStart)], ?_⟩, fun part hpart hkind => ?_⟩
  · rw [List.reverse_append]
    exact h.joins.append (joins_pairParts gap left matched)
  · rw [List.reverse_append, List.map_append, hgaps, kinds_pairParts, List.flatMap_append,
      List.flatMap_singleton]
  · rcases List.mem_append.mp hpart with hpart | hpart
    · rw [pairParts, List.mem_cons, List.mem_cons, List.mem_cons] at hpart
      rcases hpart with rfl | rfl | rfl | hpart
      · cases hkind
      · cases hkind
      · cases hkind
      · split at hpart
        · next hbetween =>
          obtain rfl := List.mem_singleton.mp hpart
          exact hbetween
        · cases hpart
    · exact h.gaps part hpart hkind

/-- The segments of a state are what is reported of parts that leave nothing out. -/
def Covered (d : Delimiters) (p : Pairing s) : Prop :=
  ∃ parts : List (Part s), p.segments = parts.filterMap d.names.segment? ∧ Covering parts p.lastEnd

theorem covered_start (d : Delimiters) : d.Covered (.initial s) :=
  ⟨[], rfl, .nil 0, ⟨[], rfl⟩, by simp⟩

theorem Leads.covered (h : d.Leads p p') (ordered : Ordered p) (covered : d.Covered p) :
    d.Covered p' := by
  obtain ⟨parts, hsegments, hparts⟩ := covered
  cases h with
  | drop | left => exact ⟨parts, hsegments, hparts⟩
  | right f =>
    by_cases hcloses : p.depth = 1
    · obtain ⟨hgap, hleft, hinner, -⟩ := ordered.opened (by omega)
      have hpair : d.pairSegments p f.val = (pairParts p f.val).filterMap d.names.segment? :=
        pairSegments_eq (d := d) p f.val
      refine ⟨pairParts p f.val ++ parts, ?_, ?_⟩
      · simp only [hcloses, if_true, hpair, hsegments, List.filterMap_append]
      · simp only [hcloses, if_true]
        exact covering_pair hparts hgap hleft (Nat.le_trans hinner f.property)
    · refine ⟨parts, ?_, ?_⟩
      · simpa only [hcloses, if_false] using hsegments
      · simpa only [hcloses, if_false] using hparts

theorem covered_of_read (ordered : Ordered p) (covered : d.Covered p) {p' : Pairing s}
    (h : d.read s p = .ok p') : Ordered p' ∧ d.Covered p' := by
  induction p using read_induction d with
  | ends p result hturn =>
    obtain rfl : result = .ok p' := by rw [read_eq, hturn] at h; exact h
    have hcomes := comes_turn (d := d) ordered
    rw [hturn] at hcomes
    cases hcomes with
    | stays => exact ⟨ordered, covered⟩
    | ends hleads => exact ⟨hleads.ordered ordered, hleads.covered ordered covered⟩
  | goesOn p q hturn ih =>
    have hcomes := comes_turn (d := d) ordered
    rw [hturn] at hcomes
    cases hcomes with
    | goesOn hleads =>
      rw [read_eq, hturn] at h
      exact ih (hleads.ordered ordered) (hleads.covered ordered covered) h

theorem getLast?_ofPairs {gaps : List Bool} (h : gaps ≠ []) :
    (gaps.flatMap SegmentKind.ofPair).getLast? = some .right := by
  obtain ⟨front, gap, rfl⟩ := List.eq_nil_or_concat gaps |>.resolve_left h
  cases gap <;> simp [SegmentKind.ofPair]

/-- Text behind the last right delimiter is a last part of a global reading. -/
theorem finish_of_behind {p : Pairing s} (found : p.segments ≠ [])
    (behind : d.global = true ∧ d.sticky = false ∧ p.lastEnd < s.size) :
    d.finish p = p.segments.reverse ++ segment s d.names.between p.lastEnd s.size := by
  obtain ⟨hglobal, hsticky, hlt⟩ := behind
  have hnonempty : p.segments.isEmpty = false := List.isEmpty_eq_false_iff.mpr found
  have hcond : (d.global && !d.sticky && !p.segments.isEmpty && p.lastEnd < s.size) = true := by
    simp [hglobal, hsticky, hnonempty, hlt]
  rw [finish, hcond]
  rfl

theorem finish_of_not_behind {p : Pairing s} (found : p.segments ≠ [])
    (behind : ¬(d.global = true ∧ d.sticky = false ∧ p.lastEnd < s.size)) :
    d.finish p = p.segments.reverse := by
  have hnonempty : p.segments.isEmpty = false := List.isEmpty_eq_false_iff.mpr found
  have hcond : (d.global && !d.sticky && !p.segments.isEmpty && p.lastEnd < s.size) = false := by
    simpa [hnonempty, and_assoc] using behind
  rw [finish, hcond]
  exact List.append_nil _

/-- The parts of a reading that finds some leave nothing out up to their end, which is the end of
the subject or of a right delimiter. -/
theorem exists_parts {name : SegmentKind → String} {segments : List Segment}
    (names : d.names = .each name) (h : d.segments s = .ok segments) (found : segments ≠ []) :
    ∃ (parts : List (Part s)) (stop : Nat),
      segments = parts.map (Part.segment name) ∧ Joins 0 parts stop ∧ stop ≤ s.size ∧
      (∃ (gaps : List Bool) (rest : Bool), parts.map (·.kind) =
        gaps.flatMap SegmentKind.ofPair ++ if rest then [.between] else []) ∧
      (∀ part ∈ parts, part.kind = .between → part.start < part.stop) ∧
      if d.global = true ∧ d.sticky = false then stop = s.size
      else parts.getLast?.map (·.kind) = some .right := by
  rw [segments_eq] at h
  cases hread : d.read s (.initial s) with
  | error e => simp [hread, Except.map] at h
  | ok p =>
    obtain ⟨ordered, parts, hsegments, hparts⟩ :=
      covered_of_read ordered_start d.covered_start hread
    obtain rfl : d.finish p = segments := by simpa [hread, Except.map] using h
    obtain ⟨gaps, hgaps⟩ := hparts.kinds
    have hmap : p.segments = parts.map (Part.segment name) := by
      rw [hsegments, names, SegmentNames.segment?_each]
      simp
    have hne : p.segments ≠ [] := fun hnil => found (by simp [finish, hnil])
    have hrest : segment s d.names.between p.lastEnd s.size =
        [(⟨.between, p.lastEnd, s.size⟩ : Part s)].map (Part.segment name) := by
      rw [names]
      rfl
    have hlast : (parts.reverse.getLast?).map (·.kind) = some .right := by
      rw [← List.getLast?_map, hgaps]
      exact getLast?_ofPairs fun hnil => hne (by simpa [hmap, hnil] using hgaps)
    have hgap : ∀ part ∈ parts.reverse, part.kind = .between → part.start < part.stop :=
      fun part hpart => hparts.gaps part (List.mem_reverse.mp hpart)
    by_cases hbehind : d.global = true ∧ d.sticky = false ∧ p.lastEnd < s.size
    · have hfinish := finish_of_behind hne hbehind
      obtain ⟨hglobal, hsticky, hlt⟩ := hbehind
      refine ⟨parts.reverse ++ [⟨.between, p.lastEnd, s.size⟩], s.size, ?_,
        hparts.joins.append (.cons (Nat.le_of_lt hlt) (.nil _)), Nat.le_refl _,
        ⟨gaps, true, by simp [hgaps]⟩, fun part hpart hkind => ?_, by simp [hglobal, hsticky]⟩
      · rw [hfinish, hrest, hmap, ← List.map_reverse, List.map_append]
      · rcases List.mem_append.mp hpart with hpart | hpart
        · exact hgap part hpart hkind
        · obtain rfl := List.mem_singleton.mp hpart
          exact hlt
    · refine ⟨parts.reverse, p.lastEnd, ?_, hparts.joins, ordered.lastEnd_le_size,
        ⟨gaps, false, by simp [hgaps]⟩, hgap, ?_⟩
      · rw [finish_of_not_behind hne hbehind, hmap, List.map_reverse]
      · split
        · next hmode =>
          have hle := ordered.lastEnd_le_size
          have hnot : ¬p.lastEnd < s.size := fun hlt => hbehind ⟨hmode.1, hmode.2, hlt⟩
          omega
        · exact hlast

end Covering

end Delimiters

namespace Engine

open Extended

variable {g : Engine} {text left right flags : String} {escape : Option Char}
  {unbalanced : Unbalanced}

/-- What delimiters take over from the call that makes them. -/
theorem eq_of_prepare {d : Delimiters}
    (h : ((prepare left right flags escape unbalanced).run.run g).1 = .ok d) :
    d.global = flags.contains 'g' ∧ d.sticky = flags.contains 'y' ∧ d.unbalanced = unbalanced := by
  rw [prepare, run_bind] at h
  cases hleft : (compile left (basicFlags flags)).run.run g with
  | mk l g₁ =>
    cases l with
    | error e => simp [hleft] at h
    | ok l =>
      simp only [hleft] at h
      rw [run_bind] at h
      cases hright : (compile right (basicFlags flags)).run.run g₁ with
      | mk r g₂ =>
        cases r with
        | error e => simp [hright] at h
        | ok r =>
          simp only [hright] at h
          rw [run_bind] at h
          cases hescape : (escape.mapM fun mark => escapeMatcher mark l r flags).run.run g₂ with
          | mk e g₃ =>
            cases e with
            | error e => simp [hescape] at h
            | ok e =>
              simp only [hescape] at h
              obtain rfl : _ = d := Except.ok.inj h
              exact ⟨rfl, rfl, rfl⟩

/-- Where something is found, the segments follow each other from the start of the text: each pair
has its left delimiter, the text inside and its right delimiter, with the text before it, if there
is any. They leave out nothing up to the last right delimiter, and with the global flag and without
the sticky one nothing at all. -/
theorem matchRecursive_covers (name : SegmentKind → String) {segments : List Segment}
    (h : ((matchRecursive text left right flags escape unbalanced (.each name)).run.run g).1 =
      .ok segments) (found : segments ≠ []) :
    ∃ parts : List (SegmentKind × Segment),
      segments = parts.map (·.2) ∧
      (∀ part ∈ parts, part.2.name = name part.1 ∧ part.2.StandsIn text) ∧
      (∃ (gaps : List Bool) (rest : Bool), parts.map (·.1) =
        gaps.flatMap SegmentKind.ofPair ++ if rest then [.between] else []) ∧
      (∀ part ∈ parts, part.1 = .between → part.2.start < part.2.stop) ∧
      segments.head?.map (·.start) = some 0 ∧
      segments.IsChain (fun a b => a.stop = b.start) ∧
      (∃ beyond, text = String.join (segments.map (·.value)) ++ beyond) ∧
      segments.getLast?.map (·.stop) =
        some (String.join (segments.map (·.value))).utf8ByteSize ∧
      if 'g' ∈ flags.toList ∧ 'y' ∉ flags.toList then
        String.join (segments.map (·.value)) = text
      else parts.getLast?.map (·.1) = some .right := by
  rw [result_matchRecursive] at h
  cases hprepare : ((prepare left right flags escape unbalanced).run.run g).1 with
  | error e => simp [hprepare, Except.bind] at h
  | ok d =>
    obtain ⟨hglobal, hsticky, -⟩ := eq_of_prepare hprepare
    rw [hprepare] at h
    obtain ⟨parts, stop, rfl, joins, hstop, ⟨gaps, rest, hkinds⟩, hgaps, hend⟩ :=
      Delimiters.exists_parts (d := { d with names := .each name }) rfl h found
    have hne : parts ≠ [] := fun hnil => found (by rw [hnil]; rfl)
    have hvalues : (parts.map (Part.segment name)).map (·.value) = parts.map (·.text) := by
      rw [List.map_map]
      rfl
    have hjoin := joins.join_text
    refine ⟨parts.map fun part => (part.kind, part.segment name), by simp, ?_, ⟨gaps, rest, ?_⟩,
      ?_, ?_, ?_, ⟨(Subject.ofString text).slice stop (Subject.ofString text).size, ?_⟩, ?_, ?_⟩
    · intro part hpart
      obtain ⟨part, hmem, rfl⟩ := List.mem_map.mp hpart
      obtain ⟨hle, hpart⟩ := joins.bounds part hmem
      exact ⟨rfl, Part.standsIn name hle (Nat.le_trans hpart hstop)⟩
    · rw [List.map_map]
      exact hkinds
    · intro part hpart hkind
      obtain ⟨part, hmem, rfl⟩ := List.mem_map.mp hpart
      obtain ⟨-, hle⟩ := joins.bounds part hmem
      exact Subject.byteOffset_lt (hgaps part hmem hkind) (Nat.le_trans hle hstop)
    · obtain ⟨part, rest, rfl⟩ := List.exists_cons_of_ne_nil hne
      have hstart := joins.head?_start part rfl
      simp [Part.segment, hstart]
    · rw [List.isChain_map]
      refine joins.isChain.imp fun a b hab => ?_
      simp only [Part.segment, hab]
    · rw [hvalues, hjoin, Subject.slice_append joins.le hstop, Subject.slice_ofString]
    · obtain ⟨front, part, rfl⟩ := List.eq_nil_or_concat parts |>.resolve_left hne
      have hlast := joins.getLast?_stop part (by simp)
      have hsize := Subject.utf8ByteSize_slice joins.le hstop
      rw [Subject.byteOffset_zero, Nat.zero_add] at hsize
      rw [hvalues, hjoin, hsize]
      simp [Part.segment, hlast]
    · have hmode : ('g' ∈ flags.toList ∧ 'y' ∉ flags.toList) ↔
          d.global = true ∧ d.sticky = false := by
        rw [hglobal, hsticky, String.contains_char_eq, String.contains_char_eq]
        simp
      simp only [hmode]
      split
      · next hwhole =>
        obtain rfl : stop = _ := by simpa [hwhole] using hend
        rw [hvalues, hjoin, Subject.slice_ofString]
      · next hpart =>
        rw [if_neg hpart] at hend
        rw [List.getLast?_map, Option.map_map]
        exact hend

/-- The first left delimiter has no partner, and reading starts again behind it. -/
theorem matchRecursive_covers_restarted :
    let name : SegmentKind → String
      | .between => "between" | .left => "left" | .matched => "match" | .right => "right"
    let segments : List Segment := [⟨"between", "(", 0, 1⟩, ⟨"left", "(", 1, 2⟩,
      ⟨"match", "é", 2, 4⟩, ⟨"right", ")", 4, 5⟩, ⟨"between", "b", 5, 6⟩]
    ((matchRecursive "((é)b" "\\(" "\\)" "g" none .skip (.each name)).run.run {}).1 =
      .ok segments ∧ segments ≠ [] ∧ String.join (segments.map (·.value)) = "((é)b" := by
  intro name segments
  have hleft : Setting.toPlain ⟨{}, surroundings {}, none, "\\("⟩ 10000 (.ofFlags "g") =
      .ok (['\\', '('], .ofFlags "g") := by cbv
  have hright : Setting.toPlain ⟨{}, surroundings {}, none, "\\)"⟩ 10000 (.ofFlags "g") =
      .ok (['\\', ')'], .ofFlags "g") := by cbv
  have hresult : ((matchRecursive "((é)b" "\\(" "\\)" "g" none .skip (.each name)).run.run {}).1 =
      .ok segments :=
    matchRecursive_of_turns (n := 8) rfl (compile_of_toPlain rfl hleft)
      (compile_of_toPlain rfl hright) (by decide +kernel)
  have found : segments ≠ [] := List.cons_ne_nil _ _
  obtain ⟨parts, -, -, -, -, -, -, -, -, hwhole⟩ := matchRecursive_covers name hresult found
  exact ⟨hresult, found, by simpa using hwhole⟩

end Engine

end Patterns
