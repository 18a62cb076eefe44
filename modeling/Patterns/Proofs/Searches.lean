import Patterns.Operations.Run

/-!
# Searches

What is relied on of the search for a pattern: that it goes forward (`GoesForward`), or that it
finds the match at the first position that has one (`FindsFirst`). Which match starts at a position,
if any, is an `Anchoring`.
-/
namespace Patterns
open Patterns.Text Patterns.Plain

deriving instance DecidableEq for Found

/-- A match that starts at `q`. -/
abbrev Anchor (s : Subject) (q : Nat) := { f : Match s // f.start = q }

abbrev Anchoring (s : Subject) := (q : Nat) → Option (Anchor s q)

namespace Anchoring

variable {s : Subject} {tryAt : Anchoring s} {i q : Nat} {f : Match s}

/-- The match at the first position from `i` on that has one. -/
def first (tryAt : Anchoring s) (i : Nat) : Option (Match s) :=
  (List.range' i (s.size + 1 - i)).findSome? fun q => (tryAt q).map (·.val)

theorem first_of_size_lt (h : s.size < i) : tryAt.first i = none := by
  have hnone : s.size + 1 - i = 0 := by omega
  rw [first, hnone]
  rfl

theorem first_eq (hi : i ≤ s.size) :
    tryAt.first i = ((tryAt i).map (·.val)).or (tryAt.first (i + 1)) := by
  have hcount : s.size + 1 - i = s.size + 1 - (i + 1) + 1 := by omega
  rw [first, hcount, List.range'_succ, List.findSome?_cons]
  cases tryAt i <;> rfl

theorem first_of_some {f : Anchor s i} (hi : i ≤ s.size) (h : tryAt i = some f) :
    tryAt.first i = some f.val := by
  rw [first_eq hi, h]
  rfl

theorem first_of_none (h : tryAt i = none) : tryAt.first i = tryAt.first (i + 1) := by
  rcases Nat.lt_or_ge s.size i with hi | hi
  · rw [first_of_size_lt hi, first_of_size_lt (Nat.lt_succ_of_lt hi)]
  · rw [first_eq hi, h]
    rfl

theorem first_of_forall_none (h : ∀ k, i ≤ k → k < q → tryAt k = none) (hq : i ≤ q) :
    tryAt.first i = tryAt.first q := by
  induction hq with
  | refl => rfl
  | @step q hq ih =>
    rw [ih fun k hk hkq => h k hk (Nat.lt_succ_of_lt hkq),
      first_of_none (h q hq (Nat.lt_succ_self q))]

theorem first_eq_none_iff : tryAt.first i = none ↔ ∀ k, i ≤ k → k ≤ s.size → tryAt k = none := by
  simp only [first, List.findSome?_eq_none_iff, List.mem_range'_1, Option.map_eq_none_iff]
  constructor
  · intro h k hk hks
    exact h k ⟨hk, by omega⟩
  · rintro h k ⟨hk, hks⟩
    exact h k hk (by omega)

/-- What is found is the match at its start, and no position before that has one. -/
theorem exists_of_first (h : tryAt.first i = some f) :
    i ≤ f.start ∧ tryAt f.start = some ⟨f, rfl⟩ ∧ ∀ k, i ≤ k → k < f.start → tryAt k = none := by
  induction hn : s.size + 1 - i generalizing i with
  | zero => rw [first_of_size_lt (by omega)] at h; cases h
  | succ n ih =>
    rw [first_eq (by omega)] at h
    cases hi : tryAt i with
    | some a =>
      obtain ⟨f', rfl⟩ := a
      obtain rfl : f' = f := by simpa [hi] using h
      exact ⟨Nat.le_refl _, hi, fun k hk hkf => absurd hkf (by omega)⟩
    | none =>
      obtain ⟨hle, hf, hbefore⟩ := ih (by simpa [hi] using h) (by omega)
      refine ⟨by omega, hf, fun k hk hkf => ?_⟩
      rcases Nat.eq_or_lt_of_le hk with rfl | hk
      · exact hi
      · exact hbefore k hk hkf

theorem exists_first_le (h : (tryAt q).isSome = true) (hi : i ≤ q) (hq : q ≤ s.size) :
    ∃ f, tryAt.first i = some f ∧ f.start ≤ q := by
  cases hfirst : tryAt.first i with
  | none => simp [first_eq_none_iff.mp hfirst q hi hq] at h
  | some f =>
    refine ⟨f, rfl, Nat.not_lt.mp fun hlt => ?_⟩
    simp [(exists_of_first hfirst).2.2 q hi hlt] at h

end Anchoring

namespace Matcher

variable {m : Matcher} {s : Subject} {tryAt : Anchoring s} {i : Nat} {f : Match s} {sticky : Bool}
  {e : Error}

/-- No match is found before the position that its search starts from. -/
def GoesForward (m : Matcher) (s : Subject) (sticky : Bool) : Prop :=
  ∀ (i : Nat) (f : Match s), m.find s i sticky = .ok (some f) → i ≤ f.start

/-- The match at each position, as a sticky search finds it. -/
def anchoring (m : Matcher) (s : Subject) : Anchoring s := fun q =>
  match m.find s q true with
  | .ok (some f) => if h : f.start = q then some ⟨f, h⟩ else none
  | _ => none

/-- A search that is not sticky finds the match at the first position that has one. -/
def FindsFirst (m : Matcher) (s : Subject) (tryAt : Anchoring s) : Prop :=
  ∀ i ≤ s.size, m.find s i false = .ok (tryAt.first i)

def matchOf (m : Matcher) (f : Found s) : Match s :=
  ⟨f.start, f.stop, f.groups, m.names, f.start_le, f.stop_le⟩

theorem find_of_search {found : Option (Found s)} (h : m.body.search s i = .ok found) :
    m.find s i false = .ok (found.map m.matchOf) := by
  rw [find, if_neg (by decide), h]
  cases found <;> rfl

theorem find_of_anchored_search {found : Option (Found s)}
    (h : (m.anchored.get.getD m.body).search s i = .ok found) :
    m.find s i true = .ok ((found.filter (·.start == i)).map m.matchOf) := by
  rw [find, if_pos rfl, h]
  cases found with
  | none => rfl
  | some f =>
    rw [Option.filter_some]
    by_cases hf : f.start = i <;> simp [hf, matchOf]

theorem find_of_size_lt (h : s.size < i) : m.find s i sticky = .ok none := by
  have hsearch (r : Regex) : r.search s i = .ok none := if_neg (Nat.not_le.mpr h)
  simp only [find, hsearch]

theorem searchAt_of_error (h : m.find s i sticky = .error e) :
    m.searchAt s i sticky = .error e := by
  simp only [searchAt, h]

theorem searchAt_of_none (h : m.find s i sticky = .ok none) :
    m.searchAt s i sticky = .ok none := by
  simp only [searchAt, h]

theorem searchAt_of_some (h : m.find s i sticky = .ok (some f)) (hi : i ≤ f.start) :
    m.searchAt s i sticky = .ok (some ⟨f, hi⟩) := by
  simp only [searchAt, h, dif_pos hi]

theorem find_of_searchAt {hit : Hit s i}
    (h : m.searchAt s i sticky = .ok (some hit)) : m.find s i sticky = .ok (some hit.val) := by
  unfold searchAt at h
  split at h
  · cases h
  · cases h
  · next hfind =>
    split at h <;> cases h
    exact hfind

theorem find_of_searchAt_error (h : m.searchAt s i sticky = .error e) :
    m.find s i sticky = .error e := by
  unfold searchAt at h
  split at h
  · next hfind => rw [hfind, Except.error.inj h]
  · cases h
  · split at h <;> cases h

theorem find_of_anchoring {q : Nat} {f : Anchor s q} (h : m.anchoring s q = some f) :
    m.find s q true = .ok (some f.val) := by
  unfold anchoring at h
  split at h
  · next hfind =>
    split at h
    · obtain rfl := Option.some.inj h
      exact hfind
    · cases h
  · cases h

namespace FindsFirst

theorem find_eq (h : m.FindsFirst s tryAt) (i : Nat) : m.find s i false = .ok (tryAt.first i) := by
  rcases Nat.lt_or_ge s.size i with hi | hi
  · rw [find_of_size_lt hi, Anchoring.first_of_size_lt hi]
  · exact h i hi

theorem searchAt_none (h : m.FindsFirst s tryAt) (hi : tryAt.first i = none) :
    m.searchAt s i false = .ok none :=
  searchAt_of_none (by rw [h.find_eq, hi])

theorem searchAt_some (h : m.FindsFirst s tryAt) (hi : tryAt.first i = some f) :
    m.searchAt s i false = .ok (some ⟨f, (Anchoring.exists_of_first hi).1⟩) :=
  searchAt_of_some (by rw [h.find_eq, hi]) _

end FindsFirst

section Evaluation

/-! What a pattern finds in a given subject can be evaluated. -/

theorem exists_plain (source flags : String) (fl : PlainFlags)
    (hflags : Flags.parsePlain flags = .ok fl) (h : (compilePlain? source fl).isSome = true) :
    ∃ m, plain source flags = .ok m ∧ m.source = source ∧ m.flags = fl := by
  simp only [plain, hflags, bind, Except.bind, build]
  split
  · next hnone => simp [hnone] at h
  · exact ⟨_, rfl, rfl, rfl⟩

theorem exists_find_of_search {start stop : Nat} (h : (compilePlain? m.source m.flags).any
      (fun body => match body.search s i with
      | .ok (some f) => f.start == start && f.stop == stop
      | _ => false) = true) :
    ∃ f, m.find s i false = .ok (some f) ∧ f.start = start ∧ f.stop = stop := by
  rw [m.body_eq, Option.any_some] at h
  split at h
  · next f hsearch =>
    obtain ⟨rfl, rfl⟩ : f.start = start ∧ f.stop = stop := by simpa using h
    exact ⟨m.matchOf f, find_of_search hsearch, rfl, rfl⟩
  · cases h

theorem find_eq_none_of_search (h : (compilePlain? m.source m.flags).any
      (fun body => match body.search s i with
      | .ok none => true
      | _ => false) = true) : m.find s i false = .ok none := by
  rw [m.body_eq, Option.any_some] at h
  split at h
  · next hsearch => exact find_of_search hsearch
  · cases h

theorem goesForward_of_search (h : (compilePlain? m.source m.flags).any (fun body =>
      (List.range (s.size + 1)).all fun i => match body.search s i with
      | .ok (some f) => decide (i ≤ f.start)
      | _ => true) = true) : m.GoesForward s false := by
  intro i f hfind
  rcases Nat.lt_or_ge s.size i with hi | hi
  · rw [find_of_size_lt hi] at hfind
    cases hfind
  · rw [m.body_eq, Option.any_some, List.all_eq_true] at h
    have hsearch := h i (List.mem_range.mpr (Nat.lt_succ_of_le hi))
    cases hbody : m.body.search s i with
    | error e => simp [find, hbody] at hfind
    | ok found =>
      rw [find_of_search hbody] at hfind
      obtain ⟨found, rfl, rfl⟩ := Option.map_eq_some_iff.mp (Except.ok.inj hfind)
      simpa [hbody, matchOf] using hsearch

/-- What a compiled pattern finds at `q` and no later. -/
def foundAt (r : Regex) (s : Subject) (q : Nat) : Option (Found s) :=
  match r.search s q with
  | .ok (some f) => if f.start = q then some f else none
  | _ => none

theorem map_anchoring (q : Nat) :
    (m.anchoring s q).map (·.val) = (foundAt (m.anchored.get.getD m.body) s q).map m.matchOf := by
  rw [anchoring, foundAt]
  cases h : (m.anchored.get.getD m.body).search s q with
  | error e => simp [find, h]
  | ok found =>
    rw [find_of_anchored_search h]
    cases found with
    | none => rfl
    | some f =>
      rw [Option.filter_some]
      by_cases hf : f.start = q <;> simp [hf, matchOf]

theorem anchoring_of_search {found : Option (Nat × List (Option Span))}
    (h : (compilePlain? m.source m.flags).any (fun body =>
      (foundAt ((anchored? m.source m.flags body.groups).getD body) s i).map
        (fun f => (f.stop, f.groups)) == found) = true) :
    (m.anchoring s i).map (fun f => (f.val.stop, f.val.groups)) = found := by
  rw [m.body_eq, Option.any_some, ← m.anchored_eq, beq_iff_eq] at h
  have hmap := congrArg (·.map fun f => (f.stop, f.groups)) (m.map_anchoring (s := s) i)
  simp only [Option.map_map] at hmap
  exact hmap.trans h

theorem anchoring_eq_none_of_search (h : (compilePlain? m.source m.flags).any (fun body =>
      (foundAt ((anchored? m.source m.flags body.groups).getD body) s i).isNone) = true) :
    m.anchoring s i = none := by
  rw [m.body_eq, Option.any_some, ← m.anchored_eq, Option.isNone_iff_eq_none] at h
  have hmap := m.map_anchoring (s := s) i
  rw [h] at hmap
  exact Option.map_eq_none_iff.mp hmap

theorem findsFirst_of_search (h : (compilePlain? m.source m.flags).any (fun body =>
      (List.range (s.size + 1)).all fun i =>
        (body.search s i).toOption == some ((List.range' i (s.size + 1 - i)).findSome?
          (foundAt ((anchored? m.source m.flags body.groups).getD body) s))) = true) :
    m.FindsFirst s (m.anchoring s) := by
  intro i hi
  rw [m.body_eq, Option.any_some, ← m.anchored_eq, List.all_eq_true] at h
  have hsearch := eq_of_beq (h i (List.mem_range.mpr (Nat.lt_succ_of_le hi)))
  have hfirst : (m.anchoring s).first i = ((List.range' i (s.size + 1 - i)).findSome?
      (foundAt (m.anchored.get.getD m.body) s)).map m.matchOf := by
    rw [Anchoring.first, List.map_findSome?]
    exact congrArg (List.findSome? · _) (funext fun q => map_anchoring q)
  cases hbody : m.body.search s i with
  | error e => simp [hbody, Except.toOption] at hsearch
  | ok found =>
    obtain rfl : found = _ := by simpa [hbody, Except.toOption] using hsearch
    rw [hfirst, find_of_search hbody]

end Evaluation

end Matcher

end Patterns
