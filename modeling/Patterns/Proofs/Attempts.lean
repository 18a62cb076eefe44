import Patterns.Plain.Regex

/-!
# Attempts at one position

How often a search may still come back does not change what it finds at a position: an attempt that
breaks off aside, the answer is the same (`Regex.attempt_agrees`). So a search finds what there is
at the first position that has a match.
-/
namespace Patterns.Plain
open Patterns.Text

namespace Program

/-- The same answer, unless one of the runs broke off. -/
inductive Outcome.Agrees : Outcome → Outcome → Prop
  | matched (stop : Nat) (registers : Slots) :
    Agrees (.matched stop registers) (.matched stop registers)
  | failed (budget budget' : Nat) : Agrees (.failed budget) (.failed budget')
  | exhausted (o : Outcome) : Agrees .exhausted o
  | exhausted' (o : Outcome) : Agrees o .exhausted

variable {p : Program} {s : Subject} {origin : Nat}

/-- Both states come back to the same branch, or neither does, or one run breaks off. -/
theorem run_back {stack : List Branch} {height budget budget' steps : Nat}
    (go : ∀ st budget', Outcome.Agrees (p.run s origin steps st)
      (p.run s origin steps { st with budget := budget' })) :
    Outcome.Agrees
      (match State.back budget stack height with
        | .inl outcome => outcome
        | .inr st => p.run s origin steps st)
      (match State.back budget' stack height with
        | .inl outcome => outcome
        | .inr st => p.run s origin steps st) := by
  cases stack with
  | nil => exact .failed budget budget'
  | cons b stack =>
    cases budget with
    | zero => exact .exhausted _
    | succ budget =>
      cases budget' with
      | zero => exact .exhausted' _
      | succ budget' => exact go ⟨b, stack, height - 1, budget⟩ budget'

/-- Runs that differ in their budgets take the same steps until one of them breaks off. -/
theorem run_agrees (steps : Nat) (st : State) (budget : Nat) :
    Outcome.Agrees (p.run s origin steps st) (p.run s origin steps { st with budget }) := by
  induction steps generalizing st budget with
  | zero => exact .exhausted _
  | succ steps ih =>
    simp only [run, step]
    cases p.move s origin st.height st.branch with
    | go b => exact ih { st with branch := b } budget
    | choose b later =>
      by_cases hroom : st.height + (if p.floating then 1 else 0) < maxBranches
      · simp only [hroom, if_true]
        exact ih { st with branch := b, stack := later :: st.stack, height := st.height + 1 } budget
      · simp only [hroom, if_false]
        exact .exhausted _
    | cut b mark =>
      exact ih { st with branch := b, stack := st.stack.drop (st.height - mark),
                         height := min st.height mark } budget
    | failPast op => exact run_back ih
    | fail => exact run_back ih
    | done => exact .matched _ _

end Program

namespace Regex

/-- The same answer, unless one of the attempts broke off. -/
inductive Attempt.Agrees : Attempt → Attempt → Prop
  | found (start stop : Nat) (groups : List (Option Span)) :
    Agrees (.found start stop groups) (.found start stop groups)
  | failed (budget budget' : Nat) : Agrees (.failed budget) (.failed budget')
  | exhausted (a : Attempt) : Agrees .exhausted a
  | exhausted' (a : Attempt) : Agrees a .exhausted

variable {r : Regex} {s : Subject} {origin left budget budget' i q : Nat} {f : Found s}

theorem attempt_agrees : (r.attempt s origin budget q).Agrees (r.attempt s origin budget' q) := by
  unfold attempt
  split
  · split
    · exact .found _ _ _
    · exact .failed _ _
  · split
    · exact .found _ _ _
    · exact .failed _ _
  · next p _ =>
    have hrun : Program.Outcome.Agrees (p.match? s origin budget q) (p.match? s origin budget' q) :=
      Program.run_agrees Program.maxSteps _ budget'
    generalize p.match? s origin budget q = o, p.match? s origin budget' q = o' at hrun
    cases hrun with
    | matched stop slots => exact .found _ _ _
    | failed n n' =>
      cases n with
      | zero => exact .exhausted _
      | succ n =>
        cases n' with
        | zero => exact .exhausted' _
        | succ n' => exact .failed _ _
    | exhausted o => exact .exhausted _
    | exhausted' o => exact .exhausted' _

/-- In a search from `origin` the pattern has the match `f` at position `q`. -/
def MatchesAt (r : Regex) (s : Subject) (origin q : Nat) (f : Found s) : Prop :=
  ∃ budget, r.attempt s origin budget q = .found f.start f.stop f.groups

/-- An attempt that does not break off says what the match is. -/
theorem matchesAt_iff (h : r.attempt s origin budget q ≠ .exhausted) :
    r.MatchesAt s origin q f ↔ r.attempt s origin budget q = .found f.start f.stop f.groups := by
  refine ⟨fun ⟨budget', hfound⟩ => ?_, fun hfound => ⟨budget, hfound⟩⟩
  have hagrees : (r.attempt s origin budget q).Agrees (r.attempt s origin budget' q) :=
    attempt_agrees
  rw [hfound] at hagrees
  generalize r.attempt s origin budget q = a at h hagrees ⊢
  cases hagrees with
  | found => rfl
  | exhausted => exact absurd rfl h

/-- A search that succeeds answers with what the first attempt finds, or goes on behind an attempt
that failed. -/
theorem searchFrom_cases {found : Option (Found s)}
    (h : r.searchFrom s origin left budget i = .ok found) :
    r.attempt s origin budget i ≠ .exhausted ∧
      ((∀ f, found = some f ↔ r.attempt s origin budget i = .found f.start f.stop f.groups) ∨
        ∃ left' budget', left = left' + 1 ∧ r.attempt s origin budget i = .failed budget' ∧
          r.searchFrom s origin left' budget' (i + 1) = .ok found) := by
  rw [searchFrom.eq_def] at h
  dsimp only at h
  cases hattempt : r.attempt s origin budget i with
  | exhausted => rw [hattempt] at h; cases h
  | found start stop groups =>
    refine ⟨by rintro ⟨⟩, .inl fun f => ?_⟩
    rw [hattempt] at h
    dsimp only at h
    split at h
    · cases h
      exact ⟨by rintro ⟨⟩; rfl, by rintro ⟨⟩; rfl⟩
    · next hbounds =>
      cases h
      exact ⟨by rintro ⟨⟩, by rintro ⟨⟩; exact absurd ⟨f.start_le, f.stop_le⟩ hbounds⟩
  | failed budget' =>
    refine ⟨by rintro ⟨⟩, ?_⟩
    rw [hattempt] at h
    have hnone (h : (.ok none : Except SearchLimit _) = .ok found) (f : Found s) :
        found = some f ↔ Attempt.failed budget' = .found f.start f.stop f.groups := by
      cases h
      exact ⟨by rintro ⟨⟩, by rintro ⟨⟩⟩
    cases left with
    | zero => exact .inl (hnone h)
    | succ left =>
      dsimp only at h
      split at h
      · exact .inr ⟨left, budget', rfl, rfl, h⟩
      · exact .inl (hnone h)

theorem not_matchesAt_of_searchFrom (h : r.searchFrom s origin left budget i = .ok none) :
    ¬r.MatchesAt s origin i f := by
  obtain ⟨hattempt, hor⟩ := searchFrom_cases h
  rw [matchesAt_iff hattempt]
  rcases hor with hfound | ⟨left', budget', -, hfailed, -⟩
  · exact fun h => nomatch (hfound f).mpr h
  · rw [hfailed]
    exact nofun

/-- A search finds what there is at the first position that has a match. -/
theorem exists_matchesAt_of_searchFrom (h : r.searchFrom s origin left budget i = .ok (some f)) :
    ∃ q, i ≤ q ∧ q ≤ i + left ∧ r.MatchesAt s origin q f ∧
      ∀ k g, i ≤ k → k < q → ¬r.MatchesAt s origin k g := by
  induction hn : left using Nat.strongRecOn generalizing budget i left with
  | ind n ih =>
    obtain ⟨hattempt, hfound | ⟨left', budget', hleft, hfailed, hsearch⟩⟩ := searchFrom_cases h
    · exact ⟨i, Nat.le_refl i, Nat.le_add_right i n, ⟨budget, (hfound f).mp rfl⟩,
        fun k g hik hki => absurd hki (Nat.not_lt.mpr hik)⟩
    · obtain ⟨q, hiq, hq, hmatch, hbefore⟩ := ih left' (by omega) hsearch rfl
      refine ⟨q, by omega, by omega, hmatch, fun k g hik hkq => ?_⟩
      rcases Nat.eq_or_lt_of_le hik with rfl | hlt
      · rw [matchesAt_iff hattempt, hfailed]
        exact nofun
      · exact hbefore k g hlt hkq

/-- There is one match at a position. -/
theorem MatchesAt.unique {g : Found s} (h : r.MatchesAt s origin q f)
    (h' : r.MatchesAt s origin q g) : g = f := by
  obtain ⟨budget, hfound⟩ := h
  have hended : r.attempt s origin budget q ≠ .exhausted := by
    rw [hfound]
    exact nofun
  have heq := (matchesAt_iff hended).mp h'
  rw [hfound] at heq
  cases f
  cases g
  cases heq
  rfl

/-- Matches start where they were tried, as they do where no part of a pattern moves the start. -/
def KeepsStart (r : Regex) (s : Subject) : Prop :=
  ∀ i q f, i ≤ q → q ≤ s.size → r.MatchesAt s i q f → f.start = q

/-- The match that a search finds at its own start, if there is one, is what an attempt there
finds. -/
theorem filter_search {found : Option (Found s)} (keeps : r.KeepsStart s) (hi : i ≤ s.size)
    (h : r.search s i = .ok found) :
    found.filter (·.start == i) = some f ↔ r.MatchesAt s i i f := by
  rw [search, if_pos hi] at h
  rw [Option.filter_eq_some_iff, beq_iff_eq]
  constructor
  · rintro ⟨rfl, hstart⟩
    obtain ⟨q, hiq, hq, hmatch, -⟩ := exists_matchesAt_of_searchFrom h
    obtain rfl : i = q := hstart.symm.trans (keeps i q f hiq (by omega) hmatch)
    exact hmatch
  · intro hmatch
    refine ⟨?_, keeps i i f (Nat.le_refl i) hi hmatch⟩
    cases found with
    | none => exact absurd hmatch (not_matchesAt_of_searchFrom h)
    | some g =>
      obtain ⟨q, hiq, -, hother, hbefore⟩ := exists_matchesAt_of_searchFrom h
      rcases Nat.eq_or_lt_of_le hiq with rfl | hlt
      · rw [hmatch.unique hother]
      · exact absurd hmatch (hbefore i f (Nat.le_refl i) hlt)

theorem le_start_of_search (keeps : r.KeepsStart s) (h : r.search s i = .ok (some f)) :
    i ≤ f.start := by
  rw [search] at h
  split at h
  · obtain ⟨q, hiq, hq, hmatch, -⟩ := exists_matchesAt_of_searchFrom h
    rw [keeps i q f hiq (by omega) hmatch]
    exact hiq
  · cases h

/-- `a` matches only where a search starts, and has the matches there that `r` has. -/
def Anchors (a r : Regex) (s : Subject) : Prop :=
  ∀ i q f, i ≤ q → q ≤ s.size → (a.MatchesAt s i q f ↔ q = i ∧ r.MatchesAt s i i f)

end Regex

end Patterns.Plain
