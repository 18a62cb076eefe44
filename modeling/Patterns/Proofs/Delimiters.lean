import Patterns.Proofs.Brackets
import Patterns.Proofs.Caching
import Patterns.Proofs.Searches
import Patterns.Proofs.Turns

/-!
# Reading delimiters

Reading has neither the list of the delimiters nor a stack: at every place it searches for both, and
it keeps how many are open and where the outermost of them stands. It comes to the verdict on the
delimiters all the same.
-/
namespace Patterns
open Patterns.Text Patterns.Extended Patterns.Brackets

variable {s : Subject} {i : Nat} {left right : Matcher}

abbrev NextMark (s : Subject) (i : Nat) := { m : Mark s // i ≤ m.found.start }

/-- The earlier one of two delimiters, and the left one where both start. -/
def earlier : Option (Matcher.Hit s i) → Option (Matcher.Hit s i) → Option (NextMark s i)
  | none, none => none
  | some l, none => some ⟨⟨.left, l⟩, l.property⟩
  | none, some r => some ⟨⟨.right, r⟩, r.property⟩
  | some l, some r =>
    if l.val.start ≤ r.val.start then some ⟨⟨.left, l⟩, l.property⟩
    else some ⟨⟨.right, r⟩, r.property⟩

def nextMark (left right : Matcher) (s : Subject) (i : Nat) :
    Except Error (Option (NextMark s i)) := do
  return earlier (← left.searchAt s i false) (← right.searchAt s i false)

/-- The delimiters from `i` on: the next one, and then those behind it, or behind the character that
follows where it is empty. -/
def delimiters (left right : Matcher) (s : Subject) (i : Nat) : DelimiterRun s :=
  match nextMark left right s i with
  | .error err => ⟨[], some err⟩
  | .ok none => ⟨[], none⟩
  | .ok (some ⟨m, _⟩) =>
    let run := delimiters left right s m.found.resume
    ⟨m :: run.marks, run.failure⟩
  termination_by s.size + 1 - i
  decreasing_by
    have := m.found.start_lt_resume
    have := m.found.start_le
    have := m.found.stop_le
    omega

namespace Delimiters

/-- Reads every pair and keeps the text between its delimiters. -/
def ofPair (left right : Matcher) : Delimiters where
  left := left
  right := right
  escape := none
  global := true
  sticky := false
  unbalanced := .refuse
  names := { matched := some "match" }

theorem seen_ofPair (s : Subject) (i : Nat) :
    (ofPair left right).seen s i = (nextMark left right s i).map fun
      | none => .none
      | some ⟨⟨.left, f⟩, h⟩ => .left ⟨f, h⟩
      | some ⟨⟨.right, f⟩, h⟩ => .right ⟨f, h⟩ := by
  unfold seen skipEscaped next nextMark
  dsimp only [ofPair]
  cases left.searchAt s i false with
  | error err => rfl
  | ok l =>
    cases right.searchAt s i false with
    | error err => rfl
    | ok r =>
      cases l <;> cases r <;> try rfl
      next l r =>
        simp only [bind, Except.bind, pure, Except.pure, earlier, Except.map]
        split <;> rfl

section Steps

/-- The texts that were read, in order. -/
def texts (p : Pairing s) : List String := p.segments.reverse.map (·.value)

/-- The text between the delimiters of a pair. -/
def between (pair : Pair s) : String := s.slice pair.1.found.stop pair.2.found.start

/-- What reading keeps of the open delimiters, the latest of which comes first. -/
structure Holds (p : Pairing s) (opened : List (Mark s)) : Prop where
  depth : p.depth = opened.length
  outermost : ∀ l ∈ opened.getLast?, p.outerStart = l.found.start ∧ p.innerStart = l.found.stop

variable {p : Pairing s} {opened : List (Mark s)} {l r o : Mark s} {err : Error}

theorem read_failed (h : nextMark left right s p.stop = .error err) :
    (ofPair left right).read s p = .error err := by
  rw [read_eq, turn]
  simp only [seen_ofPair, h, Except.map]

theorem read_nothing (h : nextMark left right s p.stop = .ok none) :
    (ofPair left right).read s p =
      if p.depth = 0 then .ok p else .error (.unbalanced .left (s.byteOffset p.outerStart)) := by
  rw [read_eq, turn]
  simp only [seen_ofPair, h, Except.map, after, afterNone]
  by_cases hdepth : p.depth = 0
  · simp only [hdepth, if_true]
  · simp only [hdepth, if_false]
    rfl

theorem exists_read_left (holds : Holds p opened) {here : p.stop ≤ l.found.start}
    (h : nextMark left right s p.stop = .ok (some ⟨l, here⟩)) (isLeft : l.side = .left) :
    ∃ p', (ofPair left right).read s p = (ofPair left right).read s p' ∧
      p'.stop = l.found.resume ∧ Holds p' (l :: opened) ∧ texts p' = texts p := by
  obtain ⟨side, f⟩ := l
  obtain rfl : side = .left := isLeft
  rw [read_eq, turn]
  simp only [seen_ofPair, h, Except.map]
  refine ⟨_, rfl, rfl, ⟨by simp [holds.depth], fun m hm => ?_⟩, rfl⟩
  -- Only where none was open the new delimiter is the outermost one.
  cases opened with
  | nil =>
    obtain rfl : ⟨.left, f⟩ = m := by simpa using hm
    simp [holds.depth]
  | cons o opened =>
    have hlast : m ∈ (o :: opened).getLast? := by simpa using hm
    simpa [holds.depth] using holds.outermost m hlast

theorem exists_read_right (holds : Holds p (l :: o :: opened)) {here : p.stop ≤ r.found.start}
    (h : nextMark left right s p.stop = .ok (some ⟨r, here⟩)) (isRight : r.side = .right) :
    ∃ p', (ofPair left right).read s p = (ofPair left right).read s p' ∧
      p'.stop = r.found.resume ∧ Holds p' (o :: opened) ∧ texts p' = texts p := by
  obtain ⟨side, f⟩ := r
  obtain rfl : side = .right := isRight
  have hdepth : p.depth = opened.length + 2 := holds.depth
  have hopen : p.depth ≠ 0 := by omega
  have hdeep : p.depth ≠ 1 := by omega
  rw [read_eq, turn]
  simp only [seen_ofPair, h, Except.map, after, afterRight, hopen, hdeep]
  refine ⟨_, rfl, rfl, ⟨by simp [hdepth], fun m hm => ?_⟩, rfl⟩
  exact holds.outermost m (by simpa using hm)

theorem exists_read_close (holds : Holds p [l]) {here : p.stop ≤ r.found.start}
    (h : nextMark left right s p.stop = .ok (some ⟨r, here⟩)) (isRight : r.side = .right) :
    ∃ p', (ofPair left right).read s p = (ofPair left right).read s p' ∧
      p'.stop = r.found.resume ∧ Holds p' [] ∧ texts p' = texts p ++ [between (l, r)] := by
  obtain ⟨side, f⟩ := r
  obtain rfl : side = .right := isRight
  have hdepth : p.depth = 1 := holds.depth
  have hinner : p.innerStart = l.found.stop := (holds.outermost l rfl).2
  rw [read_eq, turn]
  simp only [seen_ofPair, h, Except.map, after, afterRight, hdepth]
  refine ⟨_, rfl, rfl, ⟨rfl, by simp⟩, ?_⟩
  simp [texts, pairSegments, segment, ofPair, between, hinner]

theorem read_stray (holds : Holds p []) {here : p.stop ≤ r.found.start}
    (h : nextMark left right s p.stop = .ok (some ⟨r, here⟩)) (isRight : r.side = .right) :
    (ofPair left right).read s p = .error (.unbalanced .right r.found.byteStart) := by
  obtain ⟨side, f⟩ := r
  obtain rfl : side = .right := isRight
  have hdepth : p.depth = 0 := holds.depth
  rw [read_eq, turn]
  simp only [seen_ofPair, h, Except.map, after, afterRight, hdepth]
  rfl

/-- Reading pairs up the delimiters from where it stands, with those that it has open. -/
theorem map_read (holds : Holds p opened) :
    ((ofPair left right).read s p).map texts =
      (pairUp (delimiters left right s p.stop).failure opened
        (delimiters left right s p.stop).marks).map (texts p ++ ·.map between) := by
  -- The induction is on the list of delimiters; `Holds` ties the counter to the stack.
  induction hi : p.stop using delimiters.induct left right s generalizing p opened with
  | case1 i err h =>
    subst hi
    rw [read_failed h, delimiters, h, pairUp_failed _ coveredFrom_nil]
    rfl
  | case2 i h =>
    subst hi
    rw [read_nothing h, delimiters, h]
    cases hlast : opened.getLast? with
    | none =>
      obtain rfl := List.getLast?_eq_none_iff.mp hlast
      simp [holds.depth, pairUp, Except.map]
    | some l =>
      have hopen : p.depth ≠ 0 := by
        rw [holds.depth]
        intro hzero
        simp [List.length_eq_zero_iff.mp hzero] at hlast
      simp [hopen, pairUp, hlast, Except.map, Match.byteStart, (holds.outermost l hlast).1]
  | case3 i m here h ih =>
    subst hi
    rw [delimiters, h]
    dsimp only
    rcases side_cases m with hm | hm
    · obtain ⟨p', hread, hstop, holds', htexts⟩ := exists_read_left holds h hm
      rw [hread, pairUp_left hm, ih holds' hstop, htexts]
    · cases opened with
      | nil =>
        rw [read_stray holds h hm, pairUp_stray hm]
        rfl
      | cons l outer =>
        cases outer with
        | nil =>
          obtain ⟨p', hread, hstop, holds', htexts⟩ := exists_read_close holds h hm
          rw [hread, pairUp_close hm, ih holds' hstop, htexts]
          cases pairUp (delimiters left right s m.found.resume).failure []
            (delimiters left right s m.found.resume).marks <;> simp [Except.map]
        | cons o opened =>
          obtain ⟨p', hread, hstop, holds', htexts⟩ := exists_read_right holds h hm
          rw [hread, pairUp_right hm, ih holds' hstop, htexts]

/-- No segment stands behind the last pair, for the text there has no name. -/
theorem segments_ofPair (left right : Matcher) (s : Subject) :
    (ofPair left right).segments s =
      ((ofPair left right).read s (.initial s)).map (·.segments.reverse) := by
  have hfinish : (ofPair left right).finish (s := s) = (·.segments.reverse) := by
    funext p
    simp [finish, segment, ofPair]
  rw [segments_eq, hfinish]

/-- The texts between the pairs that reading comes to. -/
theorem map_segments (left right : Matcher) (s : Subject) :
    ((ofPair left right).segments s).map (·.map (·.value)) =
      (pairUp (delimiters left right s 0).failure [] (delimiters left right s 0).marks).map
        (·.map between) := by
  have holds : Holds (.initial s) [] := ⟨rfl, by simp⟩
  calc ((ofPair left right).segments s).map (·.map (·.value))
      = ((ofPair left right).read s (.initial s)).map texts := by
        rw [segments_ofPair]
        cases (ofPair left right).read s (.initial s) <;> rfl
    _ = _ := map_read holds

end Steps

end Delimiters

namespace Engine

open Delimiters

variable {g : Engine} {left right flags : String} {l r : Matcher}

/-- Flags with `g` and without `y` let all pairs be read, with gaps between them. -/
theorem exists_run_matchRecursive (text : String) (global : 'g' ∈ flags.toList)
    (loose : 'y' ∉ flags.toList)
    (hl : ((compile left flags).run.run g).1 = .ok l)
    (hr : ((compile right flags).run.run g).1 = .ok r) :
    ∃ g', (matchRecursive text left right flags none .refuse
      { matched := some "match" }).run.run g = ((ofPair l r).segments (.ofString text), g') := by
  have idle := idle_of_compile hl
  have hl := compile_of_run idle hl
  have hr := compile_of_run idle hr
  have hbasic : basicFlags flags = flags := by
    have hkept : flags.toList.filter (· != 'y') = flags.toList :=
      List.filter_eq_self.mpr fun c hc => by simpa using fun hy : c = 'y' => loose (hy ▸ hc)
    rw [basicFlags, hkept, String.ofList_toList]
  have hpair : unescaped (.ok l) (.ok r) flags .refuse = .ok { ofPair l r with names := {} } := by
    simp only [unescaped, global, loose, decide_true, decide_false]
    rfl
  obtain ⟨trace, hprepare⟩ := exists_run_prepare idle left right flags .refuse
  dsimp only at hprepare
  rw [hbasic, hl, hr, hpair] at hprepare
  exact ⟨_, run_matchRecursive text _ hprepare⟩

theorem run_matchRecursiveTexts (text : String) (global : 'g' ∈ flags.toList)
    (loose : 'y' ∉ flags.toList)
    (hl : ((compile left flags).run.run g).1 = .ok l)
    (hr : ((compile right flags).run.run g).1 = .ok r) :
    ((matchRecursiveTexts text left right flags none .refuse).run.run g).1 =
      ((ofPair l r).segments (.ofString text)).map (·.map (·.value)) := by
  obtain ⟨g', hrun⟩ := exists_run_matchRecursive text global loose hl hr
  rw [result_matchRecursiveTexts, hrun]

/-- Texts between delimiters with `g` and without `y`, where a delimiter without a partner is
refused. They are found just where the delimiters are balanced, and they stand between the outermost
pairs; otherwise the first right delimiter that closes nothing is refused, or else the outermost
left one that is never closed. -/
theorem matchRecursiveTexts_verdict (text : String) (global : 'g' ∈ flags.toList)
    (loose : 'y' ∉ flags.toList)
    (hl : ((compile left flags).run.run g).1 = .ok l)
    (hr : ((compile right flags).run.run g).1 = .ok r) :
    let run := delimiters l r (.ofString text) 0
    let answer := ((matchRecursiveTexts text left right flags none .refuse).run.run g).1
    ((∃ texts, answer = .ok texts) ↔ run.failure = none ∧ Balanced run.marks) ∧
    ∃ x, (∀ y, Verdict run y ↔ y = x) ∧ answer = x.map (·.map between) := by
  dsimp only
  rw [run_matchRecursiveTexts text global loose hl hr, map_segments]
  generalize delimiters l r (.ofString text) 0 = run
  have verdict : Verdict run (pairUp run.failure [] run.marks) := verdict_iff.mpr rfl
  refine ⟨?_, _, fun y => verdict_iff, rfl⟩
  rw [← verdict.ok_iff]
  cases pairUp run.failure [] run.marks <;> simp [Except.map]

private theorem exists_hit {m : Matcher} {s : Subject} {i start stop : Nat} (hi : i ≤ start)
    (h : (compilePlain? m.source m.flags).any (fun body =>
      match body.search s i with
      | .ok (some f) => f.start == start && f.stop == stop
      | _ => false) = true) :
    ∃ hit, m.searchAt s i false = .ok (some hit) ∧ hit.1.start = start ∧ hit.1.stop = stop := by
  obtain ⟨f, hf, rfl, rfl⟩ := Matcher.exists_find_of_search h
  exact ⟨_, Matcher.searchAt_of_some hf hi, rfl, rfl⟩

private theorem searchAt_nothing {m : Matcher} {s : Subject} {i : Nat}
    (h : (compilePlain? m.source m.flags).any (fun body =>
      match body.search s i with
      | .ok none => true
      | _ => false) = true) : m.searchAt s i false = .ok none :=
  Matcher.searchAt_of_none (Matcher.find_eq_none_of_search h)

theorem matchRecursiveTexts_letters :
    ∃ l r : Matcher, ((compile "a" "g").run.run {}).1 = .ok l ∧
      ((compile "b" "g").run.run {}).1 = .ok r ∧
      ((matchRecursiveTexts "axb" "a" "b" "g" none .refuse).run.run {}).1 = .ok ["x"] := by
  let flags : PlainFlags := ⟨true, false, false, false⟩
  obtain ⟨l, _, hrun, hsource, hflags, -⟩ : ∃ m lines,
      (compile "a" "g").run.run {} = (.ok m, ({} : Engine).written lines) ∧ m.source = "a" ∧
        m.flags = flags ∧ m.origin = .extended "a" "g" :=
    exists_run_compileWith_source ['a'] (.ofFlags "g") rfl (by decide) (by cbv) (by decide +kernel)
  obtain ⟨r, _, hrun', hsource', hflags', -⟩ : ∃ m lines,
      (compile "b" "g").run.run {} = (.ok m, ({} : Engine).written lines) ∧ m.source = "b" ∧
        m.flags = flags ∧ m.origin = .extended "b" "g" :=
    exists_run_compileWith_source ['b'] (.ofFlags "g") rfl (by decide) (by cbv) (by decide +kernel)
  have hl := congrArg Prod.fst hrun
  have hr := congrArg Prod.fst hrun'
  refine ⟨l, r, hl, hr, ?_⟩
  let s := Subject.ofString "axb"
  -- Searches from 0, from 1 behind `a`, and from 3 behind `b`.
  obtain ⟨a, ha, astart, astop⟩ : ∃ hit, l.searchAt s 0 false = .ok (some hit) ∧
      hit.1.start = 0 ∧ hit.1.stop = 1 :=
    exists_hit (by decide) (by rw [hsource, hflags]; decide +kernel)
  obtain ⟨b₀, hb₀, bstart₀, -⟩ : ∃ hit, r.searchAt s 0 false = .ok (some hit) ∧
      hit.1.start = 2 ∧ hit.1.stop = 3 :=
    exists_hit (by decide) (by rw [hsource', hflags']; decide +kernel)
  have ha₁ : l.searchAt s 1 false = .ok none :=
    searchAt_nothing (by rw [hsource, hflags]; decide +kernel)
  obtain ⟨b, hb, bstart, bstop⟩ : ∃ hit, r.searchAt s 1 false = .ok (some hit) ∧
      hit.1.start = 2 ∧ hit.1.stop = 3 :=
    exists_hit (by decide) (by rw [hsource', hflags']; decide +kernel)
  have ha₃ : l.searchAt s 3 false = .ok none :=
    searchAt_nothing (by rw [hsource, hflags]; decide +kernel)
  have hb₃ : r.searchAt s 3 false = .ok none :=
    searchAt_nothing (by rw [hsource', hflags']; decide +kernel)
  have hmarks : delimiters l r s 0 = ⟨[⟨.left, a⟩, ⟨.right, b⟩], none⟩ := by
    have aresume : a.1.resume = 1 := by simp [Match.resume, Match.isEmpty, astart, astop]
    have bresume : b.1.resume = 3 := by simp [Match.resume, Match.isEmpty, bstart, bstop]
    rw [delimiters, nextMark, ha, hb₀]
    simp only [bind, Except.bind, pure, Except.pure, earlier, astart, bstart₀, Nat.zero_le, if_true,
      aresume]
    rw [delimiters, nextMark, ha₁, hb]
    simp only [bind, Except.bind, pure, Except.pure, earlier, bresume]
    rw [delimiters, nextMark, ha₃, hb₃]
    rfl
  have outermost : Outermost [⟨.left, a.1⟩, ⟨.right, b.1⟩] [(⟨.left, a.1⟩, ⟨.right, b.1⟩)] :=
    show Outermost (_ :: ([] ++ _ :: [])) _ from .cons rfl balanced_nil rfl .nil
  have balanced : Verdict (delimiters l r s 0) (.ok [(⟨.left, a.1⟩, ⟨.right, b.1⟩)]) := by
    rw [hmarks]
    exact .balanced rfl outermost
  obtain ⟨-, x, verdict, hanswer⟩ :=
    matchRecursiveTexts_verdict "axb" (by decide) (by decide) hl hr
  obtain rfl := (verdict _).mp balanced
  have hbetween : between (⟨.left, a.1⟩, ⟨.right, b.1⟩) = "x" := by
    simp only [between, astop, bstart]
    decide
  simp [hanswer, Except.map, hbetween]

end Engine

end Patterns
