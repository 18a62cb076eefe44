import Patterns.Operations.Split
import Patterns.Proofs.Searches

/-!
# Splitting step by step

ECMAScript splits a subject by trying the separator at one position after the other (`stepwise`).
Splitting by searches comes to the same pieces, but for one more empty piece where an empty match
at the end of the subject has cut off the last one.
-/
namespace Patterns
open Patterns.Text

variable {s : Subject} {tryAt : Anchoring s} {limit : Option Nat} {p q i : Nat}
  {pieces more : Pieces}

section Steps

/-- Puts pieces out one by one, and says whether these are enough; then no more are put out. -/
def putOut (limit : Option Nat) : (pieces more : Pieces) → Bool × Pieces
  | pieces, [] => (false, pieces)
  | pieces, p :: more =>
    if limit = some (pieces.length + 1) then (true, pieces ++ [p])
    else putOut limit (pieces ++ [p]) more

/-- The steps from `q` on, when the piece at hand starts at `p`. -/
def stepwiseFrom (tryAt : Anchoring s) (limit : Option Nat) (p q : Nat) (pieces : Pieces) :
    Pieces :=
  if _hq : q < s.size then
    match tryAt q with
    | none => stepwiseFrom tryAt limit p (q + 1) pieces
    | some ⟨f, _hf⟩ =>
      if _hp : f.stop = p then stepwiseFrom tryAt limit p (q + 1) pieces
      else
        match putOut limit pieces (some (s.slice p q) :: f.groupTexts) with
        | (true, pieces) => pieces
        | (false, pieces) => stepwiseFrom tryAt limit f.stop f.stop pieces
  else pieces ++ [some (s.slice p s.size)]
  termination_by (s.size - q, if p = q then 0 else 1)
  decreasing_by
    · exact Prod.Lex.left _ _ (by omega)
    · exact Prod.Lex.left _ _ (by omega)
    · -- An empty match behind `p` is tried once more, as one that ends at `p`.
      have hstart := f.start_le
      rcases Nat.eq_or_lt_of_le hstart with hempty | hlong
      · have hsame : f.stop = q := by omega
        rw [if_pos trivial, if_neg (by omega), hsame]
        exact Prod.Lex.right _ Nat.one_pos
      · exact Prod.Lex.left _ _ (by omega)

/-- The pieces of a subject as ECMAScript defines them. -/
def stepwise (tryAt : Anchoring s) (limit : Option Nat) : Pieces :=
  if limit = some 0 then []
  else if s.size = 0 then if (tryAt 0).isSome then [] else [some ""]
  else stepwiseFrom tryAt limit 0 0 []

/-- All pieces from `q` on. -/
def piecesFrom (tryAt : Anchoring s) (p q : Nat) : Pieces := stepwiseFrom tryAt none p q []

def atMost : (limit : Option Nat) → Pieces → Pieces
  | none, pieces => pieces
  | some n, pieces => pieces.take n

theorem atMost_concat (pieces : Pieces) (p : Option String) :
    atMost limit (pieces ++ [p]) =
      atMost limit pieces ++ if ∀ n ∈ limit, pieces.length < n then [p] else [] := by
  cases limit with
  | none => simp [atMost]
  | some n =>
    rw [atMost, List.take_append, atMost]
    by_cases hn : pieces.length < n
    · have hrest : 1 ≤ n - pieces.length := by omega
      simp [hn, List.take_of_length_le (l := [p]) hrest]
    · have hrest : n - pieces.length = 0 := by omega
      simp [hn, hrest]

/-- Where there are enough pieces, what follows them does not matter. -/
theorem atMost_of_enough (h : limit.any (· ≤ pieces.length) = true) (front : pieces <+: more)
    (tail : Pieces) : atMost limit (pieces ++ tail) = atMost limit more := by
  obtain ⟨rest, rfl⟩ := front
  cases limit with
  | none => cases h
  | some n =>
    have hn : n ≤ pieces.length := by simpa using h
    rw [atMost, atMost, List.take_append_of_le_length hn, List.take_append_of_le_length hn]

theorem putOut_none : putOut none pieces more = (false, pieces ++ more) := by
  induction more generalizing pieces with
  | nil => simp [putOut]
  | cons p more ih => simp [putOut, ih]

theorem putOut_some {n : Nat} (h : pieces.length < n) :
    putOut (some n) pieces more =
      if n ≤ pieces.length + more.length then (true, (pieces ++ more).take n)
      else (false, pieces ++ more) := by
  induction more generalizing pieces with
  | nil => simp [putOut, Nat.not_le.mpr h]
  | cons p more ih =>
    rw [putOut, List.length_cons]
    by_cases hn : n = pieces.length + 1
    · subst hn
      rw [if_pos rfl, if_pos (by omega), List.append_cons pieces p more, List.take_left' (by simp)]
    · have hlt : (pieces ++ [p]).length < n := by simp; omega
      rw [if_neg (by simpa using hn), ih hlt]
      simp [Nat.add_assoc, Nat.add_comm 1]

theorem stepwiseFrom_end (h : s.size ≤ q) :
    stepwiseFrom tryAt limit p q pieces = pieces ++ [some (s.slice p s.size)] := by
  rw [stepwiseFrom, dif_neg (Nat.not_lt.mpr h)]

theorem stepwiseFrom_skip (hq : q < s.size) (h : ∀ f ∈ tryAt q, f.val.stop = p) :
    stepwiseFrom tryAt limit p q pieces = stepwiseFrom tryAt limit p (q + 1) pieces := by
  rw [stepwiseFrom, dif_pos hq]
  cases hf : tryAt q with
  | none => rfl
  | some f => exact dif_pos (h f hf)

theorem stepwiseFrom_cut {f : Anchor s q} (hq : q < s.size) (hf : tryAt q = some f)
    (h : f.val.stop ≠ p) :
    stepwiseFrom tryAt limit p q pieces =
      match putOut limit pieces (some (s.slice p q) :: f.val.groupTexts) with
      | (true, pieces) => pieces
      | (false, pieces) => stepwiseFrom tryAt limit f.val.stop f.val.stop pieces := by
  rw [stepwiseFrom, dif_pos hq, hf]
  exact dif_neg h

/-- A step comes to the end, passes a position or cuts there. -/
theorem steps_induction (tryAt : Anchoring s) {motive : Nat → Nat → Prop}
    (last : ∀ p q, s.size ≤ q → motive p q)
    (skip : ∀ p q, q < s.size → (∀ f ∈ tryAt q, f.val.stop = p) → motive p (q + 1) → motive p q)
    (cut : ∀ p q f, q < s.size → tryAt q = some f → f.val.stop ≠ p →
      motive f.val.stop f.val.stop → motive p q) (p q : Nat) : motive p q := by
  induction p, q, ([] : Pieces) using stepwiseFrom.induct tryAt none with
  | case1 p q pieces hq hf ih => exact skip p q hq (by simp [hf]) ih
  | case2 pieces f hq hf ih => exact skip _ _ hq (by simp [hf]) ih
  | case3 p pieces f hp pieces' hq hf hput => simp [putOut_none] at hput
  | case4 p pieces f hp pieces' hq hf hput ih => exact cut p _ ⟨f, rfl⟩ hq hf hp ih
  | case5 p q pieces hq => exact last p q (Nat.not_lt.mp hq)

/-- What was put out before does not matter to the pieces to come. -/
theorem stepwiseFrom_none :
    stepwiseFrom tryAt none p q pieces = pieces ++ piecesFrom tryAt p q := by
  induction p, q using steps_induction tryAt generalizing pieces with
  | last p q hq => rw [piecesFrom, stepwiseFrom_end hq, stepwiseFrom_end hq, List.nil_append]
  | skip p q hq hf ih => rw [piecesFrom, stepwiseFrom_skip hq hf, stepwiseFrom_skip hq hf, ih]; rfl
  | cut p q f hq hf hp ih =>
    rw [piecesFrom, stepwiseFrom_cut hq hf hp, stepwiseFrom_cut hq hf hp, putOut_none, putOut_none]
    simp only [ih, List.nil_append, List.append_assoc]

theorem piecesFrom_end (h : s.size ≤ q) : piecesFrom tryAt p q = [some (s.slice p s.size)] :=
  stepwiseFrom_end h

theorem piecesFrom_skip (h : ∀ f ∈ tryAt q, f.val.stop = p) :
    piecesFrom tryAt p q = piecesFrom tryAt p (q + 1) := by
  rcases Nat.lt_or_ge q s.size with hq | hq
  · exact stepwiseFrom_skip hq h
  · rw [piecesFrom_end hq, piecesFrom_end (Nat.le_succ_of_le hq)]

theorem piecesFrom_cut {f : Anchor s q} (hq : q < s.size) (hf : tryAt q = some f)
    (h : f.val.stop ≠ p) :
    piecesFrom tryAt p q =
      some (s.slice p q) :: f.val.groupTexts ++ piecesFrom tryAt f.val.stop f.val.stop := by
  rw [piecesFrom, stepwiseFrom_cut hq hf h, putOut_none]
  exact stepwiseFrom_none

/-- A limit keeps the first pieces. -/
theorem stepwiseFrom_limit (h : ∀ n ∈ limit, pieces.length < n) :
    stepwiseFrom tryAt limit p q pieces = atMost limit (pieces ++ piecesFrom tryAt p q) := by
  cases limit with
  | none => exact stepwiseFrom_none
  | some n =>
    have hn : pieces.length < n := h n rfl
    clear h
    induction p, q using steps_induction tryAt generalizing pieces with
    | last p q hq =>
      have hall : (pieces ++ [some (s.slice p s.size)]).length ≤ n := by simp; omega
      rw [stepwiseFrom_end hq, piecesFrom_end hq, atMost, List.take_of_length_le hall]
    | skip p q hq hf ih => rw [stepwiseFrom_skip hq hf, piecesFrom_skip hf, ih hn]
    | cut p q f hq hf hp ih =>
      rw [stepwiseFrom_cut hq hf hp, piecesFrom_cut hq hf hp, putOut_some hn, ← List.append_assoc,
        atMost]
      rw [← List.length_append]
      by_cases hfull : n ≤ (pieces ++ some (s.slice p q) :: f.val.groupTexts).length
      · rw [if_pos hfull, List.take_append_of_le_length hfull]
      · rw [if_neg hfull]
        exact ih (Nat.not_le.mp hfull)

theorem stepwise_limit (tryAt : Anchoring s) (limit : Option Nat) :
    stepwise tryAt limit = atMost limit (stepwise tryAt none) := by
  cases limit with
  | none => rfl
  | some n =>
    rcases Nat.eq_zero_or_pos n with rfl | hn
    · simp [stepwise, atMost]
    · have hlimit : some n ≠ some 0 := by simpa using Nat.ne_of_gt hn
      have hall : (none : Option Nat) ≠ some 0 := by simp
      simp only [stepwise, if_neg hlimit, if_neg hall]
      split
      · split
        · simp [atMost]
        · exact (List.take_of_length_le (Nat.succ_le_of_lt hn)).symm
      · have hless : ∀ k ∈ some n, ([] : Pieces).length < k := by simpa using hn
        exact stepwiseFrom_limit hless

end Steps

section Searches

theorem slice_self (i : Nat) : s.slice i i = "" := by
  simp [Subject.slice]

theorem slice_ne_empty {j : Nat} (h : i < j) (hj : j ≤ s.size) : s.slice i j ≠ "" := by
  intro hempty
  have hlength := congrArg (·.toList.length) hempty
  simp [Subject.slice, Subject.size] at hlength hj
  omega

/-- A match tried again where it ended. -/
theorem piecesFrom_resume {f : Match s} (hf : tryAt f.start = some ⟨f, rfl⟩) :
    piecesFrom tryAt f.stop f.stop = piecesFrom tryAt f.stop f.resume := by
  have honly : ∀ q, f.start = q → ∀ f' ∈ tryAt q, f'.val = f := by
    rintro q rfl f' hf'
    rw [hf] at hf'
    rw [← Option.some.inj hf']
  rw [Match.resume]
  split
  · next hempty =>
    have hsame : f.start = f.stop := by simpa [Match.isEmpty] using hempty
    exact piecesFrom_skip fun f' hf' => by rw [honly _ hsame f' hf']
  · rfl

/-- Before the first match nothing is cut. -/
theorem piecesFrom_before (h : ∀ k, i ≤ k → k < q → tryAt k = none) (hq : i ≤ q) :
    piecesFrom tryAt p i = piecesFrom tryAt p q := by
  induction hq with
  | refl => rfl
  | @step q hq ih =>
    have hnone : ∀ f ∈ tryAt q, f.val.stop = p := by simp [h q hq (Nat.lt_succ_self q)]
    rw [ih fun k hk hkq => h k hk (Nat.lt_succ_of_lt hkq), piecesFrom_skip hnone]

/-- Behind the last match nothing is cut. -/
theorem piecesFrom_of_first_none (h : tryAt.first i = none) :
    piecesFrom tryAt p i = [some (s.slice p s.size)] := by
  have hnone := Anchoring.first_eq_none_iff.mp h
  rcases Nat.lt_or_ge s.size i with hi | hi
  · exact piecesFrom_end (Nat.le_of_lt hi)
  · rw [piecesFrom_before (fun k hk hks => hnone k hk (Nat.le_of_lt hks)) hi,
      piecesFrom_end (Nat.le_refl _)]

/-- How cutting at searches ends, where the steps come to `pieces`. -/
inductive Cut.Ends (tryAt : Anchoring s) (enough : Nat → Bool) (pieces : Pieces) (c : Cut) : Prop
  | enough (enough : enough c.pieces.length = true) (front : c.pieces <+: pieces)
  | within (within : c.last < s.size) (nothing : tryAt s.size = none)
    (pieces_eq : pieces = c.pieces ++ [some (s.slice c.last s.size)])
  | behind (last : c.last = s.size) (long : 0 < c.length)
    (pieces_eq : pieces = c.pieces ++ [some ""])
  | cutOff (last : c.last = s.size) (empty : c.length = 0) (found : (tryAt s.size).isSome = true)
    (pieces_eq : pieces = c.pieces) (notEmpty : pieces.getLast? ≠ some (some ""))

namespace Cut

variable {enough : Nat → Bool} {c : Cut} {f : Match s}

theorem ends_of_first_none (h : tryAt.first i = none) (inside : c.last ≤ s.size)
    (ahead : c.last < s.size → i ≤ s.size) (behind : c.last = s.size → 0 < c.length) :
    c.Ends tryAt enough (c.pieces ++ piecesFrom tryAt c.last i) := by
  have hpieces : piecesFrom tryAt c.last i = [some (s.slice c.last s.size)] :=
    piecesFrom_of_first_none h
  rcases Nat.eq_or_lt_of_le inside with hlast | hlast
  · refine .behind hlast (behind hlast) ?_
    rw [hpieces, hlast, slice_self]
  · have hnothing := Anchoring.first_eq_none_iff.mp h _ (ahead hlast) (Nat.le_refl _)
    exact .within hlast hnothing (by rw [hpieces])

/-- A separator in front of the end is cut out as in a step. -/
theorem pieces_add_append (hf : tryAt f.start = some ⟨f, rfl⟩) (hbegin : f.start < s.size)
    (hcut : c.last < f.stop) :
    (c.add f).pieces ++ piecesFrom tryAt f.stop f.resume =
      c.pieces ++ piecesFrom tryAt c.last f.start := by
  rw [piecesFrom_cut hbegin hf (Nat.ne_of_gt hcut), piecesFrom_resume hf, Cut.add, if_pos hbegin,
    List.append_assoc]

/-- The last piece is cut off before an empty match at the end. -/
theorem ends_add_of_end (hf : tryAt f.start = some ⟨f, rfl⟩) (hend : s.size ≤ f.start)
    (hcut : c.last < f.stop) :
    (c.add f).Ends tryAt enough (c.pieces ++ piecesFrom tryAt c.last f.start) := by
  have hstart : f.start = s.size := Nat.le_antisymm (Nat.le_trans f.start_le f.stop_le) hend
  have hstop : f.stop = s.size := Nat.le_antisymm f.stop_le (hstart ▸ f.start_le)
  have hadd : (c.add f).pieces = c.pieces ++ [some (s.slice c.last s.size)] := by
    rw [Cut.add, if_neg (Nat.not_lt.mpr hend), hstart]
  rw [piecesFrom_end hend, ← hadd]
  refine .cutOff hstop ?_ ?_ rfl ?_
  · show f.stop - f.start = 0
    rw [hstop, hstart, Nat.sub_self]
  · rw [← hstart, hf]
    rfl
  · simpa [hadd] using slice_ne_empty (hstop ▸ hcut) (Nat.le_refl _)

end Cut

namespace Matcher

variable {m : Matcher} {enough : Nat → Bool} {c : Cut} {f : Match s}

theorem cutFrom_of_nothing (h : m.searchAt s i false = .ok none) :
    m.cutFrom s enough i c = .ok c := by
  rw [cutFrom, h]
  split <;> rfl

theorem cutFrom_of_hit {hit : Hit s i} (h : m.searchAt s i false = .ok (some hit)) :
    m.cutFrom s enough i c =
      if c.last < hit.val.stop then
        if enough (c.add hit.val).pieces.length then .ok (c.add hit.val)
        else m.cutFrom s enough hit.val.resume (c.add hit.val)
      else m.cutFrom s enough hit.val.resume c := by
  have hi : i ≤ s.size := by
    have := hit.property
    have := hit.val.start_le
    have := hit.val.stop_le
    omega
  rw [cutFrom, dif_pos hi, h]

theorem cutFrom_of_none (finds : m.FindsFirst s tryAt) (h : tryAt.first i = none) :
    m.cutFrom s enough i c = .ok c :=
  cutFrom_of_nothing (finds.searchAt_none h)

theorem cutFrom_of_some (finds : m.FindsFirst s tryAt) (h : tryAt.first i = some f) :
    m.cutFrom s enough i c =
      if c.last < f.stop then
        if enough (c.add f).pieces.length then .ok (c.add f)
        else m.cutFrom s enough f.resume (c.add f)
      else m.cutFrom s enough f.resume c :=
  cutFrom_of_hit (finds.searchAt_some h)

theorem exists_cutFrom (finds : m.FindsFirst s tryAt) (enough : Nat → Bool) (c : Cut)
    (last : c.last ≤ i) (inside : c.last ≤ s.size) (ahead : c.last < s.size → i ≤ s.size)
    (behind : c.last = s.size → 0 < c.length) :
    ∃ c', m.cutFrom s enough i c = .ok c' ∧
      c'.Ends tryAt enough (c.pieces ++ piecesFrom tryAt c.last i) := by
  induction hn : s.size + 1 - i using Nat.strongRecOn generalizing i c with
  | ind n ih =>
    cases hfirst : tryAt.first i with
    | none =>
      exact ⟨c, cutFrom_of_none finds hfirst, c.ends_of_first_none hfirst inside ahead behind⟩
    | some f =>
      obtain ⟨hi, hf, hbefore⟩ := Anchoring.exists_of_first hfirst
      have hstart := f.start_le
      have hstop := f.stop_le
      have hresume := f.start_lt_resume
      have hbounds : f.stop ≤ f.resume ∧ f.resume ≤ f.stop + 1 := by
        rw [Match.resume]
        split <;> omega
      rw [cutFrom_of_some finds hfirst, piecesFrom_before hbefore hi]
      by_cases hcut : c.last < f.stop
      · rw [if_pos hcut]
        rcases Nat.lt_or_ge f.start s.size with hbegin | hend
        · rw [← Cut.pieces_add_append hf hbegin hcut]
          by_cases hfull : enough (c.add f).pieces.length = true
          · rw [if_pos hfull]
            exact ⟨_, rfl, .enough hfull (List.prefix_append _ _)⟩
          · rw [if_neg hfull]
            have hlong : f.stop = s.size → 0 < f.stop - f.start := by omega
            exact ih _ (by omega) (c.add f) hbounds.1 hstop (fun h => Nat.le_trans hbounds.2 h)
              hlong rfl
        · -- Behind a match at the end there is nothing to search.
          have hnone : tryAt.first f.resume = none := Anchoring.first_of_size_lt (by omega)
          rw [cutFrom_of_none finds hnone, ite_self]
          exact ⟨_, rfl, Cut.ends_add_of_end hf hend hcut⟩
      · rw [if_neg hcut]
        -- The match is empty and ends where the last separator did.
        have hstop_eq : f.stop = c.last := by omega
        have hresume_eq : f.resume = f.start + 1 := by omega
        have hskip : piecesFrom tryAt c.last f.start = piecesFrom tryAt c.last f.resume := by
          rw [hresume_eq]
          refine piecesFrom_skip fun f' hf' => ?_
          rw [← Option.some.inj (hf.symm.trans hf')]
          exact hstop_eq
        rw [hskip]
        exact ih _ (by omega) c (by omega) inside (by omega) behind rfl

/-- Whether the separator matches empty text. -/
theorem searchAt_empty {tryEmpty : Anchoring (.ofString "")}
    (finds : m.FindsFirst (.ofString "") tryEmpty) :
    ∃ found, m.searchAt (.ofString "") 0 false = .ok found ∧
      (found = none ↔ tryEmpty 0 = none) := by
  cases h : tryEmpty 0 with
  | none =>
    have hfirst : tryEmpty.first 0 = none := by
      rw [Anchoring.first_of_none h]
      exact Anchoring.first_of_size_lt (by decide)
    exact ⟨none, finds.searchAt_none hfirst, by simp⟩
  | some f => exact ⟨_, finds.searchAt_some (Anchoring.first_of_some (by decide) h), by simp⟩

theorem exists_lastPiece {tryEmpty : Anchoring (.ofString "")}
    (finds : m.FindsFirst (.ofString "") tryEmpty) (h : c.Ends tryAt enough pieces) :
    ∃ tail, m.lastPiece s c = .ok tail ∧
      ((enough c.pieces.length = true ∧ c.pieces <+: pieces) ∨
        c.pieces ++ tail = pieces ++
          if (tryAt s.size).isSome ∧ pieces.getLast? ≠ some (some "") ∧ tryEmpty 0 = none
          then [some ""] else []) := by
  obtain ⟨found, hsearch, hfound⟩ := searchAt_empty finds
  have hlast : ∃ tail, m.lastPiece s c = .ok tail := by
    rw [lastPiece, hsearch]
    split
    · split
      · exact ⟨_, rfl⟩
      · cases found <;> exact ⟨_, rfl⟩
    · exact ⟨_, rfl⟩
  cases h with
  | enough hfull front => exact hlast.imp fun tail htail => ⟨htail, .inl ⟨hfull, front⟩⟩
  | within within nothing pieces_eq =>
    refine ⟨[some (s.slice c.last s.size)], if_neg (Nat.ne_of_lt within), .inr ?_⟩
    rw [nothing, if_neg (by simp), pieces_eq, List.append_nil]
  | behind last long pieces_eq =>
    refine ⟨[some ""], ?_, .inr ?_⟩
    · rw [lastPiece, if_pos last, if_pos long]
    · rw [if_neg (by simp [pieces_eq]), pieces_eq, List.append_nil]
  | cutOff last empty hend pieces_eq notEmpty =>
    refine ⟨if tryEmpty 0 = none then [some ""] else [], ?_, .inr ?_⟩
    · rw [lastPiece, if_pos last, if_neg (by omega), hsearch]
      cases found with
      | none => rw [if_pos (hfound.mp rfl)]; rfl
      | some f => rw [if_neg (by simpa using hfound)]; rfl
    · rw [← pieces_eq]
      simp [hend, notEmpty]

theorem split_eq {tail : Pieces} (hlimit : limit ≠ some 0)
    (hcut : m.cutFrom s (fun n => limit.any (· ≤ n)) 0 ⟨[], 0, 0⟩ = .ok c)
    (htail : m.lastPiece s c = .ok tail) :
    m.split s limit = .ok (atMost limit (c.pieces ++ tail)) := by
  rw [split, if_neg hlimit]
  simp only [hcut, htail, bind, Except.bind]
  cases limit <;> rfl

theorem split_of_pos (finds : m.FindsFirst s tryAt) {tryEmpty : Anchoring (.ofString "")}
    (findsEmpty : m.FindsFirst (.ofString "") tryEmpty) (hs : 0 < s.size)
    (hlimit : limit ≠ some 0) :
    m.split s limit = .ok (atMost limit (stepwise tryAt none ++
      if (tryAt s.size).isSome ∧ (stepwise tryAt none).getLast? ≠ some (some "") ∧
        tryEmpty 0 = none then [some ""] else [])) := by
  have hsteps : stepwise tryAt none = [] ++ piecesFrom tryAt 0 0 := by
    rw [stepwise, if_neg (by simp), if_neg (Nat.ne_of_gt hs)]
    rfl
  obtain ⟨c, hcut, hends⟩ := exists_cutFrom finds (fun n => limit.any (· ≤ n)) ⟨[], 0, 0⟩
    (Nat.le_refl 0) (Nat.zero_le _) (fun _ => Nat.zero_le _) (fun h => absurd h (Nat.ne_of_lt hs))
  rw [← hsteps] at hends
  obtain ⟨tail, htail, hpieces⟩ := exists_lastPiece findsEmpty hends
  rw [split_eq hlimit hcut htail]
  rcases hpieces with ⟨henough, hfront⟩ | hpieces
  · rw [atMost_of_enough henough (hfront.trans (List.prefix_append _ _))]
  · rw [hpieces]

theorem split_empty {tryEmpty : Anchoring (.ofString "")}
    (finds : m.FindsFirst (.ofString "") tryEmpty) (hlimit : limit ≠ some 0) :
    m.split (.ofString "") limit = .ok (stepwise tryEmpty limit) := by
  obtain ⟨found, hsearch, hfound⟩ := searchAt_empty finds
  have hsize : (Subject.ofString "").size = 0 := rfl
  have hcut (enough : Nat → Bool) :
      m.cutFrom (.ofString "") enough 0 ⟨[], 0, 0⟩ = .ok ⟨[], 0, 0⟩ := by
    cases hfirst : tryEmpty.first 0 with
    | none => exact cutFrom_of_none finds hfirst
    | some f =>
      have hstop : f.stop = 0 := Nat.le_zero.mp f.stop_le
      rw [cutFrom_of_some finds hfirst, if_neg (by simp [hstop])]
      exact cutFrom_of_none finds
        (Anchoring.first_of_size_lt (Nat.lt_of_le_of_lt (Nat.zero_le _) f.start_lt_resume))
  have hlast : m.lastPiece (.ofString "") ⟨[], 0, 0⟩ = .ok (stepwise tryEmpty none) := by
    have hsteps : stepwise tryEmpty none = if (tryEmpty 0).isSome then [] else [some ""] := by
      rw [stepwise, if_neg (by simp), if_pos hsize]
    rw [lastPiece, if_pos hsize.symm, if_neg (Nat.lt_irrefl 0), hsearch, hsteps]
    cases found with
    | none => rw [hfound.mp rfl]; rfl
    | some f =>
      have hsome : (tryEmpty 0).isSome = true :=
        Option.isSome_iff_ne_none.mpr fun h => nomatch hfound.mpr h
      rw [hsome]
      rfl
  rw [split_eq hlimit (hcut _) hlast, List.nil_append, stepwise_limit _ limit]

/-- The pieces are those that steps come to. One more, which is empty, follows where the separator
matches at the end of the subject behind a piece that is not empty, and does not match empty
text. -/
theorem split_stepwise (m : Matcher) (limit : Option Nat) (tryAt : (s : Subject) → Anchoring s)
    (s : Subject) (finds : m.FindsFirst s (tryAt s))
    (findsEmpty : m.FindsFirst (.ofString "") (tryAt (.ofString ""))) :
    Patterns.split s (.matcher m) limit = .ok (stepwise (tryAt s) limit ++
      if (tryAt s s.size).isSome ∧ (stepwise (tryAt s) none).getLast? ≠ some (some "") ∧
        tryAt (.ofString "") 0 = none ∧ ∀ n ∈ limit, (stepwise (tryAt s) none).length < n
      then [some ""] else []) := by
  change m.split s limit = _
  by_cases hlimit : limit = some 0
  · subst hlimit
    simp [split, stepwise]
  · rcases Nat.eq_zero_or_pos s.size with hs | hs
    · obtain rfl : s = .ofString "" := Subject.ext (Array.eq_empty_of_size_eq_zero hs)
      rw [split_empty finds hlimit, if_neg, List.append_nil]
      rintro ⟨hsome, -, hnone, -⟩
      rw [show (Subject.ofString "").size = 0 from rfl, hnone] at hsome
      cases hsome
    · rw [split_of_pos finds findsEmpty hs hlimit, stepwise_limit _ limit]
      generalize stepwise (tryAt s) none = pieces
      by_cases hend : (tryAt s s.size).isSome ∧ pieces.getLast? ≠ some (some "") ∧
          tryAt (.ofString "") 0 = none
      · obtain ⟨hsome, hlast, hnone⟩ := hend
        rw [if_pos ⟨hsome, hlast, hnone⟩, atMost_concat]
        simp only [hsome, hlast, hnone, ne_eq, not_false_eq_true, true_and]
      · rw [if_neg hend, List.append_nil, if_neg, List.append_nil]
        exact fun h => hend ⟨h.1, h.2.1, h.2.2.1⟩

/-- A group of the separator, and a limit that leaves the last piece out. -/
theorem split_stepwise_group :
    ∃ m : Matcher, Matcher.plain "(-)" "" = .ok m ∧
      m.FindsFirst (.ofString "a-b") (m.anchoring _) ∧ m.FindsFirst (.ofString "") (m.anchoring _) ∧
      Patterns.split (.ofString "a-b") (.matcher m) (some 2) = .ok [some "a", some "-"] := by
  obtain ⟨m, hm, hsource, hflags⟩ :=
    exists_plain "(-)" "" {} rfl (by decide +kernel)
  have finds : m.FindsFirst (.ofString "a-b") (m.anchoring _) :=
    findsFirst_of_search (by rw [hsource, hflags]; decide +kernel)
  have findsEmpty : m.FindsFirst (.ofString "") (m.anchoring _) :=
    findsFirst_of_search (by rw [hsource, hflags]; decide +kernel)
  refine ⟨m, hm, finds, findsEmpty, ?_⟩
  have hzero : m.anchoring (.ofString "a-b") 0 = none :=
    anchoring_eq_none_of_search (by rw [hsource, hflags]; decide +kernel)
  have hend : m.anchoring (.ofString "a-b") 3 = none :=
    anchoring_eq_none_of_search (by rw [hsource, hflags]; decide +kernel)
  have hone : (m.anchoring (.ofString "a-b") 1).map (fun f => (f.val.stop, f.val.groups)) =
      some (2, [some ⟨1, 2⟩]) :=
    anchoring_of_search (by rw [hsource, hflags]; decide +kernel)
  obtain ⟨f, hf, hfields⟩ := Option.map_eq_some_iff.mp hone
  obtain ⟨hstop, hgroups⟩ := Prod.mk.inj hfields
  have hput : putOut (some 2) [] [some ((Subject.ofString "a-b").slice 0 1),
      some ((Subject.ofString "a-b").slice 1 2)] = (true, [some "a", some "-"]) := by decide
  have hsteps : stepwise (m.anchoring (.ofString "a-b")) (some 2) = [some "a", some "-"] := by
    rw [stepwise, if_neg (by decide), if_neg (by decide),
      stepwiseFrom_skip (by decide) (by simp [hzero]),
      stepwiseFrom_cut (by decide) hf (by rw [hstop]; decide), Match.groupTexts, hgroups]
    simp only [List.map_cons, List.map_nil, Option.map_some, Subject.sliceSpan, hput]
  rw [split_stepwise m (some 2) (fun s => m.anchoring s) _ finds findsEmpty, hsteps, if_neg]
  · rfl
  · rintro ⟨hsome, -⟩
    rw [show (Subject.ofString "a-b").size = 3 from rfl, hend] at hsome
    cases hsome

/-- An empty match behind the last character cuts off the whole subject, and a piece is put behind
it. -/
theorem split_boundary :
    ∃ m : Matcher, Matcher.plain "\\b" "" = .ok m ∧
      m.FindsFirst (.ofString "ab") (m.anchoring _) ∧ m.FindsFirst (.ofString "") (m.anchoring _) ∧
      stepwise (m.anchoring (.ofString "ab")) none = [some "ab"] ∧
      Patterns.split (.ofString "ab") (.matcher m) none = .ok [some "ab", some ""] := by
  obtain ⟨m, hm, hsource, hflags⟩ :=
    exists_plain "\\b" "" {} rfl (by decide +kernel)
  have finds : m.FindsFirst (.ofString "ab") (m.anchoring _) :=
    findsFirst_of_search (by rw [hsource, hflags]; decide +kernel)
  have findsEmpty : m.FindsFirst (.ofString "") (m.anchoring _) :=
    findsFirst_of_search (by rw [hsource, hflags]; decide +kernel)
  have hzero : (m.anchoring (.ofString "ab") 0).map (fun f => (f.val.stop, f.val.groups)) =
      some (0, []) :=
    anchoring_of_search (by rw [hsource, hflags]; decide +kernel)
  have hone : m.anchoring (.ofString "ab") 1 = none :=
    anchoring_eq_none_of_search (by rw [hsource, hflags]; decide +kernel)
  have htwo : (m.anchoring (.ofString "ab") 2).map (fun f => (f.val.stop, f.val.groups)) =
      some (2, []) :=
    anchoring_of_search (by rw [hsource, hflags]; decide +kernel)
  have hempty : m.anchoring (.ofString "") 0 = none :=
    anchoring_eq_none_of_search (by rw [hsource, hflags]; decide +kernel)
  have hsteps : stepwise (m.anchoring (.ofString "ab")) none = [some "ab"] := by
    rw [stepwise, if_neg (by decide), if_neg (by decide), stepwiseFrom_skip (by decide),
      stepwiseFrom_skip (by decide), stepwiseFrom_end (by decide)]
    · decide
    · simp [hone]
    · intro f hf
      simpa [Option.mem_def.mp hf] using congrArg (·.map Prod.fst) hzero
  refine ⟨m, hm, finds, findsEmpty, hsteps, ?_⟩
  have hsome : (m.anchoring (.ofString "ab") 2).isSome = true := by
    obtain ⟨f, hf, -⟩ := Option.map_eq_some_iff.mp htwo
    rw [hf]
    rfl
  change m.split (.ofString "ab") none = _
  rw [split_of_pos finds findsEmpty (by decide) (by decide), hsteps,
    if_pos ⟨hsome, by decide, hempty⟩]
  rfl

end Matcher

end Searches

end Patterns
