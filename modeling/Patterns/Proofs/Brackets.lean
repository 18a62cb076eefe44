import Mathlib
import Patterns.Balanced

/-!
# Balanced delimiters

A list of left and right delimiters starts with outermost pairs. Either it ends behind them, and is
balanced, or there comes a right delimiter that closes nothing, or a left one that is never closed.
What such a list comes to (`Verdict`) is also what pairing it up with a stack comes to.
-/
namespace Patterns
open Patterns.Text

structure Mark (s : Subject) where
  side : Side
  found : Match s

/-- The delimiters that a search for them finds, and the error that ended it. -/
structure DelimiterRun (s : Subject) where
  marks : List (Mark s)
  failure : Option Error

namespace Brackets

variable {s : Subject} {m l r : Mark s} {ms front inner back : List (Mark s)} {n : Nat}

section Counting

def opens (ms : List (Mark s)) : Nat := ms.countP (·.side == .left)

def closes (ms : List (Mark s)) : Nat := ms.countP (·.side == .right)

/-- With `n` delimiters open before it, no front of the list closes more than it opens. -/
def CoveredFrom (n : Nat) (ms : List (Mark s)) : Prop :=
  ∀ front, front <+: ms → closes front ≤ n + opens front

/-- No front has more right delimiters than left ones. -/
def Covered (ms : List (Mark s)) : Prop := CoveredFrom 0 ms

structure Balanced (ms : List (Mark s)) : Prop where
  covered : Covered ms
  totals : opens ms = closes ms

@[simp] theorem opens_nil : opens ([] : List (Mark s)) = 0 := rfl

@[simp] theorem closes_nil : closes ([] : List (Mark s)) = 0 := rfl

theorem opens_left (hl : l.side = .left) : opens (l :: ms) = opens ms + 1 := by
  simp [opens, hl]

theorem opens_right (hr : r.side = .right) : opens (r :: ms) = opens ms := by
  simp [opens, hr]

theorem closes_left (hl : l.side = .left) : closes (l :: ms) = closes ms := by
  simp [closes, hl]

theorem closes_right (hr : r.side = .right) : closes (r :: ms) = closes ms + 1 := by
  simp [closes, hr]

@[simp] theorem opens_append (ms ms' : List (Mark s)) :
    opens (ms ++ ms') = opens ms + opens ms' :=
  List.countP_append

@[simp] theorem closes_append (ms ms' : List (Mark s)) :
    closes (ms ++ ms') = closes ms + closes ms' :=
  List.countP_append

theorem coveredFrom_nil : CoveredFrom n ([] : List (Mark s)) := by
  intro front hfront
  obtain rfl := List.prefix_nil.mp hfront
  simp

theorem coveredFrom_left (hl : l.side = .left) :
    CoveredFrom n (l :: ms) ↔ CoveredFrom (n + 1) ms := by
  constructor
  · intro h front hfront
    have hcount := h (l :: front) (List.cons_prefix_cons.mpr ⟨rfl, hfront⟩)
    rw [opens_left hl, closes_left hl] at hcount
    omega
  · intro h front hfront
    cases front with
    | nil => simp
    | cons m front =>
      obtain ⟨rfl, hrest⟩ := List.cons_prefix_cons.mp hfront
      have hcount := h front hrest
      rw [opens_left hl, closes_left hl]
      omega

theorem coveredFrom_right (hr : r.side = .right) :
    CoveredFrom n (r :: ms) ↔ 0 < n ∧ CoveredFrom (n - 1) ms := by
  constructor
  · intro h
    have hpos := h [r] (List.cons_prefix_cons.mpr ⟨rfl, List.nil_prefix⟩)
    rw [opens_right hr, closes_right hr, opens_nil, closes_nil] at hpos
    refine ⟨by omega, fun front hfront => ?_⟩
    have hcount := h (r :: front) (List.cons_prefix_cons.mpr ⟨rfl, hfront⟩)
    rw [opens_right hr, closes_right hr] at hcount
    omega
  · rintro ⟨hpos, h⟩ front hfront
    cases front with
    | nil => simp
    | cons m front =>
      obtain ⟨rfl, hrest⟩ := List.cons_prefix_cons.mp hfront
      have hcount := h front hrest
      rw [opens_right hr, closes_right hr]
      omega

theorem side_cases (m : Mark s) : m.side = .left ∨ m.side = .right := by
  cases m.side <;> simp

theorem CoveredFrom.mono {k : Nat} (h : CoveredFrom n ms) (hk : n ≤ k) : CoveredFrom k ms := by
  intro front hfront
  have hcount := h front hfront
  omega

theorem coveredFrom_append : CoveredFrom n (front ++ back) ↔
    CoveredFrom n front ∧ CoveredFrom (n + opens front - closes front) back := by
  induction front generalizing n with
  | nil => simp [coveredFrom_nil]
  | cons m front ih =>
    rw [List.cons_append]
    rcases side_cases m with hm | hm
    · have hdepth : n + opens (m :: front) - closes (m :: front) =
          n + 1 + opens front - closes front := by
        rw [opens_left hm, closes_left hm]
        omega
      rw [coveredFrom_left hm, coveredFrom_left hm, ih, hdepth]
    · rw [coveredFrom_right hm, coveredFrom_right hm, ih, and_assoc]
      refine and_congr_right fun hpos => ?_
      have hdepth : n + opens (m :: front) - closes (m :: front) =
          n - 1 + opens front - closes front := by
        rw [opens_right hm, closes_right hm]
        omega
      rw [hdepth]

theorem balanced_nil : Balanced ([] : List (Mark s)) := ⟨coveredFrom_nil, rfl⟩

theorem Balanced.append (h : Balanced front) (h' : Balanced back) : Balanced (front ++ back) := by
  have htotals := h.totals
  have htotals' := h'.totals
  have hzero : 0 + opens front - closes front = 0 := by omega
  refine ⟨coveredFrom_append.mpr ⟨h.covered, ?_⟩, by simp; omega⟩
  rw [hzero]
  exact h'.covered

/-- A pair with balanced delimiters inside. -/
theorem balanced_pair (hl : l.side = .left) (hr : r.side = .right) (h : Balanced inner) :
    Balanced (l :: (inner ++ [r])) := by
  have htotals := h.totals
  refine ⟨?_, ?_⟩
  · rw [Covered, coveredFrom_left hl, coveredFrom_append, coveredFrom_right hr]
    exact ⟨CoveredFrom.mono h.covered (Nat.zero_le _), by omega, coveredFrom_nil⟩
  · rw [opens_left hl, closes_left hl, opens_append, closes_append, opens_right hr, closes_right hr,
      opens_nil, closes_nil]
    omega

/-- Where more is closed than opened, a first right delimiter is one too many. -/
theorem exists_return (h : ¬CoveredFrom n ms) :
    ∃ inner r back, ms = inner ++ r :: back ∧ r.side = .right ∧ CoveredFrom n inner ∧
      n + opens inner = closes inner := by
  induction ms generalizing n with
  | nil => exact absurd coveredFrom_nil h
  | cons m ms ih =>
    rcases side_cases m with hm | hm
    · rw [coveredFrom_left hm] at h
      obtain ⟨inner, r, back, rfl, hr, hinner, htotals⟩ := ih h
      refine ⟨m :: inner, r, back, rfl, hr, (coveredFrom_left hm).mpr hinner, ?_⟩
      rw [opens_left hm, closes_left hm]
      omega
    · rw [coveredFrom_right hm] at h
      cases n with
      | zero => exact ⟨[], m, ms, rfl, hm, coveredFrom_nil, rfl⟩
      | succ n =>
        obtain ⟨inner, r, back, rfl, hr, hinner, htotals⟩ := ih (n := n) (by simpa using h)
        refine ⟨m :: inner, r, back, rfl, hr, (coveredFrom_right hm).mpr ⟨by omega, hinner⟩, ?_⟩
        rw [opens_right hm, closes_right hm]
        omega

end Counting

section Pairs

abbrev Pair (s : Subject) := Mark s × Mark s

variable {pairs : List (Pair s)} {failure : Option Error}

/-- The list is a sequence of outermost pairs, with balanced delimiters inside of each. -/
inductive Outermost : List (Mark s) → List (Pair s) → Prop
  | nil : Outermost [] []
  | cons {l r : Mark s} {inner ms : List (Mark s)} {pairs : List (Pair s)}
    (isLeft : l.side = .left) (balanced : Balanced inner) (isRight : r.side = .right)
    (others : Outermost ms pairs) : Outermost (l :: (inner ++ r :: ms)) ((l, r) :: pairs)

/-- Every list starts with outermost pairs. Behind them stands nothing, a right delimiter, or a left
one that is never closed. -/
inductive Behind : List (Mark s) → Prop
  | nothing : Behind []
  | stray {r : Mark s} {ms : List (Mark s)} (isRight : r.side = .right) : Behind (r :: ms)
  | unclosed {l : Mark s} {ms : List (Mark s)} (isLeft : l.side = .left) (covered : Covered ms) :
    Behind (l :: ms)

theorem exists_outermost (ms : List (Mark s)) :
    ∃ front back pairs, ms = front ++ back ∧ Outermost front pairs ∧ Behind back := by
  induction hn : ms.length using Nat.strong_induction_on generalizing ms with
  | _ n ih =>
    cases ms with
    | nil => exact ⟨[], [], [], rfl, .nil, .nothing⟩
    | cons m ms =>
      rcases side_cases m with hm | hm
      · by_cases hcovered : Covered ms
        · exact ⟨[], m :: ms, [], rfl, .nil, .unclosed hm hcovered⟩
        · obtain ⟨inner, r, rest, rfl, hr, hinner, htotals⟩ := exists_return hcovered
          have balanced : Balanced inner := ⟨hinner, by omega⟩
          obtain ⟨front, back, pairs, rfl, hfront, hback⟩ :=
            ih rest.length (by rw [← hn]; simp; omega) rest rfl
          exact ⟨m :: (inner ++ r :: front), back, (m, r) :: pairs, by simp,
            .cons hm balanced hr hfront, hback⟩
      · exact ⟨[], m :: ms, [], rfl, .nil, .stray hm⟩

theorem Outermost.balanced (h : Outermost ms pairs) : Balanced ms := by
  induction h with
  | nil => exact balanced_nil
  | @cons l r inner ms pairs isLeft balanced isRight _ ih =>
    have happend := (balanced_pair isLeft isRight balanced).append ih
    simpa using happend

theorem not_covered_stray (hfront : Balanced front) (hr : r.side = .right) :
    ¬Covered (front ++ r :: back) := by
  have htotals := hfront.totals
  rw [Covered, coveredFrom_append, coveredFrom_right hr]
  rintro ⟨-, hpos, -⟩
  omega

theorem covered_unclosed (hfront : Balanced front) (hl : l.side = .left) (hinner : Covered inner) :
    Covered (front ++ l :: inner) ∧ closes (front ++ l :: inner) < opens (front ++ l :: inner) := by
  have htotals := hfront.totals
  have hcount := hinner inner List.prefix_rfl
  have hzero : 0 + opens front - closes front = 0 := by omega
  refine ⟨?_, ?_⟩
  · rw [Covered, coveredFrom_append, hzero, coveredFrom_left hl]
    exact ⟨hfront.covered, CoveredFrom.mono hinner (Nat.zero_le _)⟩
  · rw [opens_append, closes_append, opens_left hl, closes_left hl]
    omega

theorem Balanced.exists_outermost (h : Balanced ms) : ∃ pairs, Outermost ms pairs := by
  obtain ⟨front, back, pairs, rfl, hfront, hback⟩ := Brackets.exists_outermost ms
  cases hback with
  | nothing => exact ⟨pairs, by rwa [List.append_nil]⟩
  | stray isRight => exact absurd h.covered (not_covered_stray hfront.balanced isRight)
  | unclosed isLeft covered =>
    have hlt := (covered_unclosed hfront.balanced isLeft covered).2
    rw [h.totals] at hlt
    exact absurd hlt (Nat.lt_irrefl _)

/-- What the delimiters of a run come to: outermost pairs, if they are balanced; the first right
delimiter that stands where none is open, whatever follows; the outermost left delimiter that is
never closed, if no right one is in the way; or the error of the search. -/
inductive Verdict (run : DelimiterRun s) : Except Error (List (Pair s)) → Prop
  | balanced {pairs : List (Pair s)} (finished : run.failure = none)
    (outermost : Outermost run.marks pairs) : Verdict run (.ok pairs)
  | stray {front back : List (Mark s)} {r : Mark s} (marks : run.marks = front ++ r :: back)
    (balanced : Balanced front) (isRight : r.side = .right) :
    Verdict run (.error (.unbalanced .right r.found.byteStart))
  | unclosed {front inner : List (Mark s)} {l : Mark s} (finished : run.failure = none)
    (marks : run.marks = front ++ l :: inner) (balanced : Balanced front) (isLeft : l.side = .left)
    (covered : Covered inner) : Verdict run (.error (.unbalanced .left l.found.byteStart))
  | failed {err : Error} (failure : run.failure = some err) (covered : Covered run.marks) :
    Verdict run (.error err)

theorem exists_verdict (run : DelimiterRun s) : ∃ x, Verdict run x := by
  obtain ⟨front, back, pairs, hmarks, hfront, hback⟩ := exists_outermost run.marks
  cases hback with
  | nothing =>
    rw [List.append_nil] at hmarks
    cases hfailure : run.failure with
    | none => exact ⟨_, .balanced hfailure (hmarks ▸ hfront)⟩
    | some err => exact ⟨_, .failed hfailure (hmarks ▸ hfront.balanced.covered)⟩
  | stray isRight => exact ⟨_, .stray hmarks hfront.balanced isRight⟩
  | unclosed isLeft covered =>
    cases hfailure : run.failure with
    | none => exact ⟨_, .unclosed hfailure hmarks hfront.balanced isLeft covered⟩
    | some err =>
      exact ⟨_, .failed hfailure (hmarks ▸ (covered_unclosed hfront.balanced isLeft covered).1)⟩

end Pairs

section Stack

variable {pairs : List (Pair s)} {failure : Option Error} {o : Mark s} {opened : List (Mark s)}

/-- Pairs delimiters up while those that are open stand on a stack. -/
def pairUp (failure : Option Error) :
    (opened marks : List (Mark s)) → Except Error (List (Pair s))
  | opened, [] =>
    match failure, opened.getLast? with
    | some err, _ => .error err
    | none, some l => .error (.unbalanced .left l.found.byteStart)
    | none, none => .ok []
  | opened, m :: ms =>
    match m.side with
    | .left => pairUp failure (m :: opened) ms
    | .right =>
      match opened with
      | [] => .error (.unbalanced .right m.found.byteStart)
      | [l] => (pairUp failure [] ms).map ((l, m) :: ·)
      | _ :: o :: opened => pairUp failure (o :: opened) ms

theorem pairUp_left (hl : l.side = .left) :
    pairUp failure opened (l :: ms) = pairUp failure (l :: opened) ms := by
  simp only [pairUp, hl]

theorem pairUp_right (hr : r.side = .right) :
    pairUp failure (l :: o :: opened) (r :: ms) = pairUp failure (o :: opened) ms := by
  simp only [pairUp, hr]

theorem pairUp_close (hr : r.side = .right) :
    pairUp failure [l] (r :: ms) = (pairUp failure [] ms).map ((l, r) :: ·) := by
  simp only [pairUp, hr]

theorem pairUp_stray (hr : r.side = .right) :
    pairUp failure [] (r :: ms) = .error (.unbalanced .right r.found.byteStart) := by
  simp only [pairUp, hr]

/-- Balanced delimiters leave the stack as it was. -/
theorem pairUp_balanced (tops : List (Mark s)) (h : CoveredFrom tops.length inner)
    (totals : tops.length + opens inner = closes inner) :
    pairUp failure (tops ++ o :: opened) (inner ++ ms) = pairUp failure (o :: opened) ms := by
  induction inner generalizing tops with
  | nil =>
    obtain rfl := List.length_eq_zero_iff.mp totals
    rfl
  | cons m inner ih =>
    rcases side_cases m with hm | hm
    · rw [List.cons_append, pairUp_left hm]
      refine ih (m :: tops) ((coveredFrom_left hm).mp h) ?_
      rw [opens_left hm, closes_left hm] at totals
      rw [List.length_cons]
      omega
    · obtain ⟨hpos, hinner⟩ := (coveredFrom_right hm).mp h
      cases tops with
      | nil => simp at hpos
      | cons t tops =>
        have hpop : pairUp failure (t :: tops ++ o :: opened) (m :: inner ++ ms) =
            pairUp failure (tops ++ o :: opened) (inner ++ ms) := by
          cases tops <;> exact pairUp_right hm
        rw [hpop]
        refine ih tops hinner ?_
        rw [opens_right hm, closes_right hm, List.length_cons] at totals
        omega

/-- What is never closed stays on the stack. -/
theorem pairUp_covered (tops : List (Mark s)) (h : CoveredFrom tops.length ms) :
    pairUp none (tops ++ [l]) ms = .error (.unbalanced .left l.found.byteStart) := by
  induction ms generalizing tops with
  | nil => simp [pairUp]
  | cons m ms ih =>
    rcases side_cases m with hm | hm
    · rw [pairUp_left hm]
      exact ih (m :: tops) ((coveredFrom_left hm).mp h)
    · obtain ⟨hpos, hms⟩ := (coveredFrom_right hm).mp h
      cases tops with
      | nil => simp at hpos
      | cons t tops =>
        have hpop : pairUp none (t :: tops ++ [l]) (m :: ms) = pairUp none (tops ++ [l]) ms := by
          cases tops <;> exact pairUp_right hm
        rw [hpop]
        exact ih tops hms

theorem pairUp_failed {err : Error} (opened : List (Mark s)) (h : CoveredFrom opened.length ms) :
    pairUp (some err) opened ms = .error err := by
  induction ms generalizing opened with
  | nil => rfl
  | cons m ms ih =>
    rcases side_cases m with hm | hm
    · rw [pairUp_left hm]
      exact ih (m :: opened) ((coveredFrom_left hm).mp h)
    · obtain ⟨hpos, hms⟩ := (coveredFrom_right hm).mp h
      cases opened with
      | nil => simp at hpos
      | cons t opened =>
        cases opened with
        | nil =>
          rw [pairUp_close hm, ih [] hms]
          rfl
        | cons o opened =>
          rw [pairUp_right hm]
          exact ih (o :: opened) hms

theorem Outermost.pairUp_append (h : Outermost front pairs) (ms : List (Mark s)) :
    pairUp failure [] (front ++ ms) = (pairUp failure [] ms).map (pairs ++ ·) := by
  induction h with
  | nil =>
    rw [List.nil_append]
    cases pairUp failure [] ms <;> rfl
  | @cons l r inner front pairs isLeft balanced isRight _ ih =>
    have htotals : ([] : List (Mark s)).length + opens inner = closes inner := by
      simp [balanced.totals]
    have hinner : pairUp failure [l] (inner ++ r :: (front ++ ms)) =
        pairUp failure [l] (r :: (front ++ ms)) := pairUp_balanced [] balanced.covered htotals
    rw [List.cons_append, pairUp_left isLeft, List.append_assoc, List.cons_append, hinner,
      pairUp_close isRight, ih]
    cases pairUp failure [] ms <;> rfl

/-- Reading with a stack comes to the verdict, which is therefore the only one. -/
theorem Verdict.eq_pairUp {run : DelimiterRun s} {x : Except Error (List (Pair s))}
    (h : Verdict run x) : x = pairUp run.failure [] run.marks := by
  cases h with
  | @balanced pairs finished outermost =>
    rw [finished, ← List.append_nil run.marks, outermost.pairUp_append]
    simp [pairUp, Except.map]
  | stray marks balanced isRight =>
    obtain ⟨pairs, hfront⟩ := balanced.exists_outermost
    rw [marks, hfront.pairUp_append, pairUp_stray isRight]
    rfl
  | @unclosed front inner l finished marks balanced isLeft covered =>
    obtain ⟨pairs, hfront⟩ := balanced.exists_outermost
    have hinner : pairUp none [l] inner = .error (.unbalanced .left l.found.byteStart) :=
      pairUp_covered [] covered
    rw [marks, hfront.pairUp_append, pairUp_left isLeft, finished, hinner]
    rfl
  | failed failure covered =>
    rw [failure]
    exact (pairUp_failed [] covered).symm

theorem verdict_iff {run : DelimiterRun s} {x : Except Error (List (Pair s))} :
    Verdict run x ↔ x = pairUp run.failure [] run.marks := by
  refine ⟨Verdict.eq_pairUp, ?_⟩
  rintro rfl
  obtain ⟨x, verdict⟩ := exists_verdict run
  rwa [← verdict.eq_pairUp]

theorem Verdict.ok_iff {run : DelimiterRun s} {x : Except Error (List (Pair s))}
    (verdict : Verdict run x) :
    (∃ pairs, x = .ok pairs) ↔ run.failure = none ∧ Balanced run.marks := by
  constructor
  · rintro ⟨pairs, rfl⟩
    cases verdict with
    | balanced finished outermost => exact ⟨finished, outermost.balanced⟩
  · rintro ⟨finished, balanced⟩
    obtain ⟨pairs, outermost⟩ := balanced.exists_outermost
    exact ⟨pairs, verdict.eq_pairUp.trans (Verdict.balanced finished outermost).eq_pairUp.symm⟩

end Stack

end Brackets

end Patterns
