import Patterns.Proofs.Delimiters
import Patterns.Proofs.Resumption

/-!
# Skipping delimiters without a partner

Reading starts again behind a left delimiter that is never closed, and so it may come to the same
delimiters many times. A stack goes over them once: what stays on it at the end is dropped, and of
the pairs that it finds those inside of another one are left out. Where each delimiter is a single
character both come to the same texts.
-/
namespace Patterns
open Patterns.Text Patterns.Brackets

variable {s : Subject}

section Enclosed

variable {o c : Nat} {inside behind : List (Nat × Nat)}

/-- Whether one of the pairs stands around `p`. -/
def enclosed (pairs : List (Nat × Nat)) (p : Nat × Nat) : Bool :=
  pairs.any fun q => q.1 < p.1 && p.2 < q.2

/-- The text inside of a pair of characters. -/
def textInside (s : Subject) (p : Nat × Nat) : String := s.slice (p.1 + 1) p.2

/-- The pairs that no other one stands around. -/
def outermost (pairs : List (Nat × Nat)) : List (Nat × Nat) :=
  pairs.filter fun p => !enclosed pairs p

theorem enclosed_eq_true_iff {pairs : List (Nat × Nat)} {p : Nat × Nat} :
    enclosed pairs p = true ↔ ∃ q ∈ pairs, q.1 < p.1 ∧ p.2 < q.2 := by
  simp [enclosed]

/-- A pair is kept, those inside of it are not, and it has no say in those behind it. -/
theorem outermost_append_cons (hinside : ∀ p ∈ inside, o < p.1 ∧ p.2 < c)
    (hbehind : ∀ p ∈ behind, c < p.1 ∧ c < p.2) (hoc : o < c) :
    outermost (inside ++ (o, c) :: behind) = (o, c) :: outermost behind := by
  have hinner : inside.filter (fun p => !enclosed (inside ++ (o, c) :: behind) p) = [] := by
    refine List.filter_eq_nil_iff.mpr fun p hp => ?_
    have henclosed : enclosed (inside ++ (o, c) :: behind) p = true :=
      enclosed_eq_true_iff.mpr ⟨(o, c), by simp, hinside p hp⟩
    simp [henclosed]
  have houter : enclosed (inside ++ (o, c) :: behind) (o, c) = false := by
    refine Bool.eq_false_iff.mpr fun henclosed => ?_
    obtain ⟨q, hq, hleft, hright⟩ := enclosed_eq_true_iff.mp henclosed
    dsimp only at hleft hright
    rcases List.mem_append.mp hq with hq | hq
    · have := hinside q hq
      omega
    · rcases List.mem_cons.mp hq with rfl | hq
      · exact absurd hleft (Nat.lt_irrefl _)
      · have := hbehind q hq
        omega
  have hrest : behind.filter (fun p => !enclosed (inside ++ (o, c) :: behind) p) =
      behind.filter fun p => !enclosed behind p := by
    refine List.filter_congr fun p hp => congrArg (!·) ?_
    have hp := hbehind p hp
    rw [Bool.eq_iff_iff, enclosed_eq_true_iff, enclosed_eq_true_iff]
    constructor
    · rintro ⟨q, hq, hleft, hright⟩
      rcases List.mem_append.mp hq with hq | hq
      · have := hinside q hq
        omega
      · rcases List.mem_cons.mp hq with rfl | hq
        · dsimp only at hright
          omega
        · exact ⟨q, hq, hleft, hright⟩
    · rintro ⟨q, hq, hall⟩
      exact ⟨q, List.mem_append_right _ (List.mem_cons_of_mem _ hq), hall⟩
  rw [outermost, List.filter_append, hinner, List.nil_append,
    List.filter_cons_of_pos (by simp [houter]), hrest]
  rfl

end Enclosed

namespace Brackets

variable {m l r : Mark s} {ms front inner back opened : List (Mark s)} {pairs : List (Pair s)}

/-- The pairs that a stack finds, in the order in which they are closed. What closes nothing is
passed over, and what stays open is dropped. -/
def allPairs : (opened marks : List (Mark s)) → List (Pair s)
  | _, [] => []
  | opened, m :: ms =>
    match m.side with
    | .left => allPairs (m :: opened) ms
    | .right =>
      match opened with
      | [] => allPairs [] ms
      | l :: opened => (l, m) :: allPairs opened ms

theorem allPairs_left (hl : l.side = .left) :
    allPairs opened (l :: ms) = allPairs (l :: opened) ms := by
  simp only [allPairs, hl]

theorem allPairs_right (hr : r.side = .right) :
    allPairs (l :: opened) (r :: ms) = (l, r) :: allPairs opened ms := by
  simp only [allPairs, hr]

theorem allPairs_stray (hr : r.side = .right) : allPairs [] (r :: ms) = allPairs [] ms := by
  simp only [allPairs, hr]

/-- Delimiters that no front closes too much of leave what is below them on the stack as it is. -/
theorem exists_allPairs_append (tops : List (Mark s)) (covered : CoveredFrom tops.length inner) :
    ∃ tops' : List (Mark s), tops'.length + closes inner = tops.length + opens inner ∧
      ∀ opened back, allPairs (tops ++ opened) (inner ++ back) =
        allPairs tops inner ++ allPairs (tops' ++ opened) back := by
  induction inner generalizing tops with
  | nil => exact ⟨tops, rfl, fun opened back => rfl⟩
  | cons m inner ih =>
    rcases side_cases m with hm | hm
    · obtain ⟨tops', hlength, happend⟩ := ih (m :: tops) ((coveredFrom_left hm).mp covered)
      refine ⟨tops', ?_, fun opened back => ?_⟩
      · rw [opens_left hm, closes_left hm]
        rw [List.length_cons] at hlength
        omega
      · rw [List.cons_append, allPairs_left hm, allPairs_left hm, ← happend, List.cons_append]
    · obtain ⟨hpos, hinner⟩ := (coveredFrom_right hm).mp covered
      cases tops with
      | nil => simp at hpos
      | cons t tops =>
        obtain ⟨tops', hlength, happend⟩ := ih tops hinner
        refine ⟨tops', ?_, fun opened back => ?_⟩
        · rw [opens_right hm, closes_right hm, List.length_cons]
          omega
        · rw [List.cons_append, List.cons_append, allPairs_right hm, allPairs_right hm, happend,
            List.cons_append]

/-- What is never closed has no part in a pair. -/
theorem allPairs_unclosed (hl : l.side = .left) (covered : Covered ms) :
    allPairs [] (l :: ms) = allPairs [] ms := by
  obtain ⟨tops', -, happend⟩ := exists_allPairs_append [] covered
  have hall := happend [l] []
  rw [allPairs_left hl]
  simpa [allPairs] using hall

/-- A pair with balanced delimiters inside comes behind the pairs inside of it. -/
theorem allPairs_pair (hl : l.side = .left) (balanced : Balanced inner) (hr : r.side = .right) :
    allPairs [] (l :: (inner ++ r :: ms)) = allPairs [] inner ++ (l, r) :: allPairs [] ms := by
  obtain ⟨tops', hlength, happend⟩ := exists_allPairs_append [] balanced.covered
  obtain rfl : tops' = [] := by
    have htotals := balanced.totals
    rw [List.length_nil] at hlength
    exact List.eq_nil_of_length_eq_zero (by omega)
  have hall := happend [l] (r :: ms)
  have hclose : allPairs ([] ++ [l]) (r :: ms) = (l, r) :: allPairs [] ms := allPairs_right hr
  rw [hclose] at hall
  rw [allPairs_left hl]
  exact hall

theorem mem_of_mem_allPairs {pair : Pair s} (h : pair ∈ allPairs opened ms) :
    (pair.1 ∈ opened ∨ pair.1 ∈ ms) ∧ pair.2 ∈ ms := by
  induction ms generalizing opened with
  | nil => cases h
  | cons m ms ih =>
    rcases side_cases m with hm | hm
    · rw [allPairs_left hm] at h
      obtain ⟨hleft, hright⟩ := ih h
      refine ⟨?_, List.mem_cons_of_mem _ hright⟩
      rcases hleft with hleft | hleft
      · rcases List.mem_cons.mp hleft with hleft | hleft
        · exact .inr (hleft ▸ List.mem_cons_self)
        · exact .inl hleft
      · exact .inr (List.mem_cons_of_mem _ hleft)
    · cases opened with
      | nil =>
        rw [allPairs_stray hm] at h
        obtain ⟨hleft, hright⟩ := ih h
        exact ⟨hleft.imp_right (List.mem_cons_of_mem _), List.mem_cons_of_mem _ hright⟩
      | cons l opened =>
        rw [allPairs_right hm] at h
        rcases List.mem_cons.mp h with rfl | h
        · exact ⟨.inl List.mem_cons_self, List.mem_cons_self⟩
        · obtain ⟨hleft, hright⟩ := ih h
          exact ⟨hleft.imp (List.mem_cons_of_mem _) (List.mem_cons_of_mem _),
            List.mem_cons_of_mem _ hright⟩

/-- Where a pair stands. -/
def place (pair : Pair s) : Nat × Nat := (pair.1.found.start, pair.2.found.start)

/-- Each delimiter starts behind those before it. -/
abbrev Ascending (ms : List (Mark s)) : Prop :=
  ms.Pairwise fun m m' => m.found.start < m'.found.start

theorem place_mem {ms : List (Mark s)} {p : Nat × Nat} (h : p ∈ (allPairs [] ms).map place) :
    (∃ m ∈ ms, p.1 = m.found.start) ∧ ∃ m ∈ ms, p.2 = m.found.start := by
  obtain ⟨pair, hpair, rfl⟩ := List.mem_map.mp h
  obtain ⟨hleft, hright⟩ := mem_of_mem_allPairs hpair
  exact ⟨⟨pair.1, hleft.resolve_left (List.not_mem_nil), rfl⟩, pair.2, hright, rfl⟩

theorem Outermost.left_mem (h : Outermost front pairs) :
    ∀ pair ∈ pairs, pair.1 ∈ front ∧ pair.1.side = .left := by
  induction h with
  | nil => simp
  | @cons l r inner ms pairs isLeft balanced isRight others ih =>
    refine List.forall_mem_cons.mpr ⟨⟨List.mem_cons_self, isLeft⟩, fun pair hpair => ?_⟩
    obtain ⟨hmem, hleft⟩ := ih pair hpair
    exact ⟨by simp [hmem], hleft⟩

/-- Of the delimiters in front of a place where none is open the outermost pairs are kept. -/
theorem Outermost.outermost_allPairs (h : Outermost front pairs) (back : List (Mark s))
    (ascending : Ascending (front ++ back)) :
    outermost ((allPairs [] (front ++ back)).map place) =
      pairs.map place ++ outermost ((allPairs [] back).map place) := by
  induction h with
  | nil => rfl
  | @cons l r inner ms pairs isLeft balanced isRight others ih =>
    have hsplit : l :: (inner ++ r :: ms) ++ back = l :: (inner ++ r :: (ms ++ back)) := by simp
    rw [hsplit] at ascending ⊢
    obtain ⟨hbehind, ascending⟩ := List.pairwise_cons.mp ascending
    obtain ⟨-, hrest, hinner⟩ := List.pairwise_append.mp ascending
    obtain ⟨hafter, hrest⟩ := List.pairwise_cons.mp hrest
    rw [allPairs_pair isLeft balanced isRight, List.map_append, List.map_cons, List.map_cons,
      List.cons_append, ← ih hrest]
    refine outermost_append_cons (fun p hp => ?_) (fun p hp => ?_) (hbehind r (by simp))
    · obtain ⟨⟨m, hm, hfirst⟩, m', hm', hsecond⟩ := place_mem hp
      have hm := hbehind m (by simp [hm])
      have hm' := hinner m' hm' r (by simp)
      dsimp only
      omega
    · obtain ⟨⟨m, hm, hfirst⟩, m', hm', hsecond⟩ := place_mem hp
      have hm := hafter m hm
      have hm' := hafter m' hm'
      dsimp only
      omega

end Brackets

namespace Delimiters

variable {d : Delimiters} {p : Pairing s} {i : Nat} {l : Mark s}
  {ms front inner back base opened : List (Mark s)} {pairs : List (Pair s)}

/-- The delimiters that are seen one behind the other from `i` on, up to the end. -/
inductive Sees (d : Delimiters) (s : Subject) : Nat → List (Mark s) → Prop
  | nothing {i : Nat} (seen : d.seen s i = .ok .none) : Sees d s i []
  | left {i : Nat} {ms : List (Mark s)} (f : Matcher.Hit s i) (seen : d.seen s i = .ok (.left f))
    (others : Sees d s f.val.resume ms) : Sees d s i (⟨.left, f.val⟩ :: ms)
  | right {i : Nat} {ms : List (Mark s)} (f : Matcher.Hit s i)
    (seen : d.seen s i = .ok (.right f)) (others : Sees d s f.val.resume ms) :
    Sees d s i (⟨.right, f.val⟩ :: ms)

namespace Sees

theorem le_start (h : d.Sees s i ms) : ∀ m ∈ ms, i ≤ m.found.start := by
  induction h with
  | nothing => simp
  | left f seen others ih | right f seen others ih =>
    have hf := f.property
    have hresume := f.val.start_lt_resume
    refine List.forall_mem_cons.mpr ⟨hf, fun m hm => ?_⟩
    have := ih m hm
    omega

theorem ascending (h : d.Sees s i ms) : Ascending ms := by
  induction h with
  | nothing => exact .nil
  | left f seen others ih | right f seen others ih =>
    have hresume := f.val.start_lt_resume
    refine .cons (fun m hm => ?_) ih
    have := others.le_start m hm
    dsimp only
    omega

end Sees

/-- Reading keeps the text between the delimiters of each pair, and drops what has no partner. -/
structure Collects (d : Delimiters) : Prop where
  global : d.global = true
  loose : d.sticky = false
  skips : d.unbalanced ≠ .refuse
  names : d.names = { matched := "match" }

section Steps

variable (collects : d.Collects)
include collects

theorem outcome_of_none (holds : Holds p []) (sees : d.Sees s p.stop []) :
    (d.outcome p).map (·.map (·.value)) = .ok (texts p) := by
  cases sees with
  | nothing seen =>
    have hdepth : p.depth = 0 := holds.depth
    have hturn : d.turn p = .ends (.ok p) := by
      simp only [turn, seen, after, afterNone, hdepth, if_true]
    have hfinish : d.finish p = p.segments.reverse := by
      simp [finish, segment, collects.names]
    rw [outcome_of_ends hturn]
    change Except.ok ((d.finish p).map (·.value)) = _
    rw [hfinish]
    rfl

theorem exists_turn_left (holds : Holds p opened) (f : Matcher.Hit s p.stop)
    (seen : d.seen s p.stop = .ok (.left f)) :
    ∃ p', d.outcome p = d.outcome p' ∧ p'.stop = f.val.resume ∧ p'.start = f.val.start ∧
      Holds p' (⟨.left, f.val⟩ :: opened) ∧ texts p' = texts p := by
  obtain ⟨p', hturn, hstop, hstart, hdepth, houter, hinner, htexts⟩ : ∃ p', d.turn p = .goesOn p' ∧
      p'.stop = f.val.resume ∧ p'.start = f.val.start ∧ p'.depth = p.depth + 1 ∧
      p'.outerStart = (if p.depth = 0 then f.val.start else p.outerStart) ∧
      p'.innerStart = (if p.depth = 0 then f.val.stop else p.innerStart) ∧ texts p' = texts p := by
    simp only [turn, seen, after, afterLeft, collects.loose]
    exact ⟨_, rfl, rfl, rfl, rfl, rfl, rfl, rfl⟩
  refine ⟨p', outcome_of_goesOn hturn, hstop, hstart, ⟨by simp [hdepth, holds.depth], ?_⟩, htexts⟩
  intro m hm
  cases opened with
  | nil =>
    obtain rfl : ⟨.left, f.val⟩ = m := by simpa using hm
    simp [houter, hinner, holds.depth]
  | cons o opened =>
    have hlast : m ∈ (o :: opened).getLast? := by simpa using hm
    simpa [houter, hinner, holds.depth] using holds.outermost m hlast

/-- A right delimiter takes the latest one that is open from the stack, if there is one; where that
is the outermost one the text between is kept. -/
theorem exists_turn_right (holds : Holds p opened) (f : Matcher.Hit s p.stop)
    (seen : d.seen s p.stop = .ok (.right f)) :
    ∃ p', d.outcome p = d.outcome p' ∧ p'.stop = f.val.resume ∧ p'.start = f.val.start ∧
      Holds p' opened.tail ∧ texts p' = texts p ++ match opened with
        | [l] => [between (l, ⟨.right, f.val⟩)]
        | _ => [] := by
  have hskips : (d.unbalanced == .refuse) = false := by simpa using collects.skips
  obtain ⟨p', hturn, hstop, hstart, hdepth, houter, hinner, hsegments⟩ : ∃ p',
      d.turn p = .goesOn p' ∧ p'.stop = f.val.resume ∧ p'.start = f.val.start ∧
      p'.depth = p.depth - 1 ∧ p'.outerStart = p.outerStart ∧ p'.innerStart = p.innerStart ∧
      p'.segments = if p.depth = 1 then d.pairSegments p f.val ++ p.segments else p.segments := by
    simp only [turn, seen, after, afterRight, collects.loose, collects.global, hskips,
      Bool.false_and, Bool.and_false, Bool.not_true, Bool.false_eq_true, if_false]
    exact ⟨_, rfl, rfl, rfl, rfl, rfl, rfl, rfl⟩
  refine ⟨p', outcome_of_goesOn hturn, hstop, hstart, ⟨by simp [hdepth, holds.depth], ?_⟩, ?_⟩
  · intro m hm
    rw [houter, hinner]
    cases opened with
    | nil => cases hm
    | cons l opened =>
      cases opened with
      | nil => cases hm
      | cons o opened => exact holds.outermost m (by simpa using hm)
  · rw [texts, texts, hsegments, holds.depth]
    cases opened with
    | nil => simp
    | cons l opened =>
      cases opened with
      | nil =>
        have hstop : p.innerStart = l.found.stop := (holds.outermost l rfl).2
        simp [pairSegments, segment, collects.names, between, hstop]
      | cons o opened => simp

/-- Delimiters that no front closes too much of are read above what is open before them; no text is
kept. -/
theorem exists_passed (tops : List (Mark s)) (bottom : base ≠ []) (holds : Holds p (tops ++ base))
    (covered : CoveredFrom tops.length inner) (sees : d.Sees s p.stop (inner ++ back)) :
    ∃ p' tops', d.outcome p = d.outcome p' ∧ d.Sees s p'.stop back ∧ Holds p' (tops' ++ base) ∧
      tops'.length + closes inner = tops.length + opens inner ∧ texts p' = texts p ∧
      p'.start = (inner.getLast?.map (·.found.start)).getD p.start := by
  induction inner generalizing p tops with
  | nil => exact ⟨p, tops, rfl, sees, holds, rfl, rfl, rfl⟩
  | cons m inner ih =>
    have hlast (p' : Pairing s) (hstart : p'.start = m.found.start) :
        (inner.getLast?.map (·.found.start)).getD p'.start =
          ((m :: inner).getLast?.map (·.found.start)).getD p.start := by
      rw [List.getLast?_cons, hstart]
      cases inner.getLast? <;> rfl
    cases sees with
    | left f seen others =>
      obtain ⟨p', houtcome, hstop, hstart, holds', htexts⟩ := exists_turn_left collects holds f seen
      have hm : (⟨.left, f.val⟩ : Mark s).side = .left := rfl
      obtain ⟨q, tops', hq, sees', hqholds, hlength, hqtexts, hqstart⟩ :=
        ih (⟨.left, f.val⟩ :: tops) holds' ((coveredFrom_left hm).mp covered)
          (hstop.symm ▸ others)
      refine ⟨q, tops', houtcome.trans hq, sees', hqholds, ?_, hqtexts.trans htexts,
        hqstart.trans (hlast p' hstart)⟩
      rw [opens_left hm, closes_left hm]
      rw [List.length_cons] at hlength
      omega
    | right f seen others =>
      have hm : (⟨.right, f.val⟩ : Mark s).side = .right := rfl
      obtain ⟨hpos, hinner⟩ := (coveredFrom_right hm).mp covered
      cases tops with
      | nil => simp at hpos
      | cons t tops =>
        obtain ⟨o, base, rfl⟩ := List.exists_cons_of_ne_nil bottom
        obtain ⟨p', houtcome, hstop, hstart, holds', htexts⟩ :=
          exists_turn_right collects holds f seen
        have hkept : texts p' = texts p := by
          rw [htexts]
          cases tops <;> simp
        obtain ⟨q, tops', hq, sees', hqholds, hlength, hqtexts, hqstart⟩ :=
          ih tops holds' hinner (hstop.symm ▸ others)
        refine ⟨q, tops', houtcome.trans hq, sees', hqholds, ?_, hqtexts.trans hkept,
          hqstart.trans (hlast p' hstart)⟩
        rw [opens_right hm, closes_right hm, List.length_cons]
        omega

/-- Outermost pairs are read one behind the other, and the text of each is kept. -/
theorem exists_passed_pairs (paired : Outermost front pairs) (holds : Holds p [])
    (sees : d.Sees s p.stop (front ++ back)) :
    ∃ p' : Pairing s, d.outcome p = d.outcome p' ∧ d.Sees s p'.stop back ∧ Holds p' [] ∧
      texts p' = texts p ++ pairs.map between := by
  induction paired generalizing p with
  | nil => exact ⟨p, rfl, sees, holds, by simp⟩
  | @cons l r inner ms pairs isLeft balanced isRight others ih =>
    have hsplit : l :: (inner ++ r :: ms) ++ back = l :: (inner ++ r :: (ms ++ back)) := by simp
    rw [hsplit] at sees
    cases sees with
    | right f => cases isLeft
    | left f seen sees =>
      obtain ⟨p₁, hopen, hstop, -, holds₁, htexts₁⟩ := exists_turn_left collects holds f seen
      obtain ⟨p₂, tops, hinner, sees₂, holds₂, hlength, htexts₂, -⟩ :=
        exists_passed collects [] (List.cons_ne_nil _ []) holds₁ balanced.covered
          (hstop.symm ▸ sees)
      obtain rfl : tops = [] := by
        have htotals := balanced.totals
        rw [List.length_nil] at hlength
        exact List.eq_nil_of_length_eq_zero (by omega)
      cases sees₂ with
      | left g => cases isRight
      | right g seen' sees' =>
        obtain ⟨p₃, hclose, hstop', -, holds₃, htexts₃⟩ :=
          exists_turn_right collects holds₂ g seen'
        obtain ⟨p₄, hothers, sees₄, holds₄, htexts₄⟩ := ih holds₃ (hstop'.symm ▸ sees')
        refine ⟨p₄, hopen.trans (hinner.trans (hclose.trans hothers)), sees₄, holds₄, ?_⟩
        rw [htexts₄, htexts₃, htexts₂, htexts₁, List.append_assoc]
        rfl

end Steps

/-- Each left delimiter that is seen is one character, and is passed with that character where it is
dropped. -/
structure Single (d : Delimiters) (s : Subject) : Prop where
  left : ∀ i f, d.seen s i = .ok (.left f) →
    f.val.stop = f.val.start + 1 ∧ d.resumption s f.val.start = .ok (f.val.start + 1)

theorem Single.resume_eq (single : d.Single s) {f : Matcher.Hit s i}
    (seen : d.seen s i = .ok (.left f)) : f.val.resume = f.val.start + 1 := by
  have hstop := (single.left _ f seen).1
  rw [Match.resume_of_lt (by omega), hstop]

theorem Sees.stop_eq (single : d.Single s) (h : d.Sees s i ms) :
    ∀ m ∈ ms, m.side = .left → m.found.stop = m.found.start + 1 := by
  induction h with
  | nothing => simp
  | left f seen others ih =>
    exact List.forall_mem_cons.mpr ⟨fun _ => (single.left _ f seen).1, ih⟩
  | right f seen others ih => exact List.forall_mem_cons.mpr ⟨nofun, ih⟩

theorem map_between (single : d.Single s) (sees : d.Sees s i (front ++ back))
    (paired : Outermost front pairs) :
    pairs.map between = (pairs.map place).map (textInside s) := by
  rw [List.map_map]
  refine List.map_congr_left fun pair hpair => ?_
  obtain ⟨hmem, hleft⟩ := paired.left_mem pair hpair
  have hstop := sees.stop_eq single pair.1 (List.mem_append_left _ hmem) hleft
  rw [between, hstop]
  rfl

/-- Only where it stands alone the last delimiter from `i` on stands at `i`. -/
theorem Sees.eq_singleton {m : Mark s} (h : d.Sees s i ms) (hm : m ∈ ms.getLast?)
    (hstart : m.found.start = i) : ms = [m] := by
  cases ms with
  | nil => cases hm
  | cons m' ms =>
    have hfirst := h.le_start m' List.mem_cons_self
    obtain ⟨hbehind, -⟩ := List.pairwise_cons.mp h.ascending
    rcases List.eq_nil_or_concat ms with rfl | ⟨front, last, rfl⟩
    · obtain rfl : m' = m := by simpa using hm
      rfl
    · obtain rfl : last = m := by simpa [List.getLast?_cons] using hm
      have hlast := hbehind last (by simp)
      omega

/-- The delimiters behind one that is never closed are read up to the end, and then again. -/
theorem exists_outcome_unclosed (collects : d.Collects) (single : d.Single s) (holds : Holds p [])
    (f : Matcher.Hit s p.stop) (seen : d.seen s p.stop = .ok (.left f))
    (covered : Brackets.Covered ms) (others : d.Sees s f.val.resume ms) :
    ∃ p' : Pairing s, d.outcome p = d.outcome (p'.rescan (resumed p' (f.val.start + 1))) ∧
      texts p' = texts p ∧ p'.start = (ms.getLast?.map (·.found.start)).getD f.val.start := by
  obtain ⟨p₁, hopen, hstop, hstart, holds₁, htexts₁⟩ := exists_turn_left collects holds f seen
  have others₁ : d.Sees s p₁.stop (ms ++ []) := by rwa [hstop, List.append_nil]
  obtain ⟨p₂, tops, hread, ended, holds₂, -, htexts₂, hlast⟩ :=
    exists_passed collects [] (List.cons_ne_nil _ []) holds₁ covered others₁
  have houter : p₂.outerStart = f.val.start := (holds₂.outermost ⟨.left, f.val⟩ (by simp)).1
  have unclosed : d.Unclosed p₂ := by
    refine ⟨by simp [holds₂.depth], ?_, collects.skips⟩
    cases ended with
    | nothing seen => exact seen
  have hbehind : d.resumption s p₂.outerStart = .ok (f.val.start + 1) := by
    rw [houter]
    exact (single.left _ f seen).2
  exact ⟨p₂, hopen.trans (hread.trans (unclosed.reads hbehind).2), htexts₂.trans htexts₁,
    hstart ▸ hlast⟩

/-- A left delimiter that is never closed is dropped, and with it the one behind it where that is
the only one left. No pair is lost. -/
theorem exists_dropped (collects : d.Collects) (single : d.Single s) (holds : Holds p [])
    (f : Matcher.Hit s p.stop) (seen : d.seen s p.stop = .ok (.left f))
    (covered : Brackets.Covered ms) (others : d.Sees s f.val.resume ms) :
    ∃ (q : Pairing s) (rest : List (Mark s)), d.outcome p = d.outcome q ∧ Holds q [] ∧
      texts q = texts p ∧ d.Sees s q.stop rest ∧ rest.length ≤ ms.length ∧
      allPairs [] rest = allPairs [] ms := by
  obtain ⟨p', hread, htexts, hlast⟩ :=
    exists_outcome_unclosed collects single holds f seen covered others
  rw [single.resume_eq seen] at others
  have holds' (k : Nat) : Holds (p'.rescan k) [] := ⟨rfl, by simp⟩
  by_cases hbehind : p'.start = f.val.start + 1
  · -- The delimiter read last stands where reading would resume, so it is the only one there.
    obtain ⟨m, rfl⟩ : ∃ m, ms = [m] := by
      cases hm : ms.getLast? with
      | none => simp [hm] at hlast; omega
      | some m =>
        rw [hm] at hlast
        exact ⟨m, others.eq_singleton hm (hlast.symm.trans hbehind)⟩
    cases others with
    | right g => simpa using (coveredFrom_right rfl).mp covered
    | left g seen' others =>
      have hstart : g.val.start = f.val.start + 1 := hlast.symm.trans hbehind
      rw [single.resume_eq seen', hstart] at others
      rw [resumed, if_pos hbehind] at hread
      exact ⟨_, [], hread, holds' _, htexts, others, Nat.zero_le _,
        (allPairs_unclosed rfl coveredFrom_nil).symm⟩
  · rw [resumed, if_neg hbehind] at hread
    exact ⟨_, ms, hread, holds' _, htexts, others, Nat.le_refl _, rfl⟩

/-- Reading keeps the texts of the outermost pairs that a stack finds, although it reads what stands
behind a delimiter without a partner again. -/
theorem map_outcome (collects : d.Collects) (single : d.Single s) (holds : Holds p [])
    (sees : d.Sees s p.stop ms) :
    (d.outcome p).map (·.map (·.value)) =
      .ok (texts p ++ (Patterns.outermost ((allPairs [] ms).map place)).map (textInside s)) := by
  induction hn : ms.length using Nat.strong_induction_on generalizing p ms with
  | _ n ih =>
    obtain ⟨front, back, pairs, rfl, paired, behind⟩ := exists_outermost ms
    obtain ⟨p₁, houtcome, sees₁, holds₁, htexts₁⟩ :=
      exists_passed_pairs collects paired holds sees
    rw [List.length_append] at hn
    rw [houtcome, paired.outermost_allPairs back sees.ascending, List.map_append,
      ← map_between single sees paired, ← List.append_assoc, ← htexts₁]
    cases behind with
    | nothing =>
      rw [outcome_of_none collects holds₁ sees₁]
      simp [allPairs, Patterns.outermost]
    | @stray r ms isRight =>
      cases sees₁ with
      | left f => cases isRight
      | right f seen sees₂ =>
        obtain ⟨p₂, hstray, hstop, -, holds₂, htexts₂⟩ :=
          exists_turn_right collects holds₁ f seen
        rw [List.append_nil] at htexts₂
        rw [hstray, allPairs_stray rfl, ← htexts₂]
        exact ih ms.length (by simp at hn; omega) holds₂ (hstop.symm ▸ sees₂) rfl
    | @unclosed l ms isLeft covered =>
      cases sees₁ with
      | right f => cases isLeft
      | left f seen sees₂ =>
        obtain ⟨p₂, rest, hread, holds₂, htexts₂, sees₃, hlength, hpairs⟩ :=
          exists_dropped collects single holds₁ f seen covered sees₂
        rw [hread, allPairs_unclosed rfl covered, ← hpairs, ← htexts₂]
        exact ih rest.length (by simp at hn; omega) holds₂ sees₃ rfl

end Delimiters

end Patterns
