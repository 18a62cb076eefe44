import Patterns.Operations.Chain
import Patterns.Operations.Replace
import Patterns.Proofs.Searches

/-!
# The matches that operations visit

Visiting, collecting, replacing and a chain of one stage come to the same matches of a subject. No
cursor has a say in that: neither the one that an operation starts with, nor one that a callback
leaves.
-/
namespace Patterns
open Patterns.Text Patterns.Plain

/-- What an operation answers when it has visited the matches of a run: the error that ended them,
if there is one. -/
def MatchRun.answer {s : Subject} {α : Type} (r : MatchRun s) (a : α) : Except Error α :=
  r.close.map fun _ => a

section Answers

variable {s : Subject} {α : Type} {r : MatchRun s} {e : Error}

theorem MatchRun.answer_of_closed (closed : r.failure = none) (a : α) : r.answer a = .ok a := by
  rw [answer, close, closed]
  rfl

theorem MatchRun.answer_of_failure (failed : r.failure = some e) (a : α) :
    r.answer a = .error e := by
  rw [answer, close, failed]
  rfl

end Answers

namespace Matcher

variable {m : Matcher} {s : Subject} {i : Nat} {f : Match s} {fs fs' : List (Match s)}
  {failure failure' : Option Error}

section Visits

/-- The matches from position `i` on, and the error that ends them. Each search goes on where the
match before it ended, or a character further where that was empty. -/
inductive Visits (m : Matcher) (s : Subject) : Nat → List (Match s) → Option Error → Prop
  | failed {i : Nat} {e : Error} (search : m.find s i m.sticky = .error e) :
    Visits m s i [] (some e)
  | nothing {i : Nat} (search : m.find s i m.sticky = .ok none) : Visits m s i [] none
  | found {i : Nat} {f : Match s} {fs : List (Match s)} {failure : Option Error}
    (search : m.find s i m.sticky = .ok (some f))
    (others : Visits m s (if f.start = f.stop then f.stop + 1 else f.stop) fs failure) :
    Visits m s i (f :: fs) failure

theorem resume_eq (f : Match s) : f.resume = if f.start = f.stop then f.stop + 1 else f.stop := by
  simp [Match.resume, Match.isEmpty]

theorem Visits.unique (h : m.Visits s i fs failure) (h' : m.Visits s i fs' failure') :
    fs' = fs ∧ failure' = failure := by
  induction h generalizing fs' failure' with
  | failed search => cases h' <;> simp_all
  | nothing search => cases h' <;> simp_all
  | found search _ ih =>
    cases h' with
    | failed search' => simp_all
    | nothing search' => simp_all
    | found search' others' =>
      obtain rfl := Option.some.inj (Except.ok.inj (search.symm.trans search'))
      obtain ⟨rfl, rfl⟩ := ih others'
      exact ⟨rfl, rfl⟩

theorem runFrom_of_error {e : Error} (h : m.find s i m.sticky = .error e) :
    m.runFrom s i = ⟨[], some e⟩ := by
  rcases Nat.lt_or_ge s.size i with hi | hi
  · rw [find_of_size_lt hi] at h
    cases h
  · rw [runFrom, dif_pos hi, searchAt_of_error h]

theorem runFrom_of_none (h : m.find s i m.sticky = .ok none) : m.runFrom s i = .nil := by
  rw [runFrom, searchAt_of_none h]
  split <;> rfl

theorem runFrom_of_some (h : m.find s i m.sticky = .ok (some f)) (hi : i ≤ f.start) :
    m.runFrom s i = .cons f (m.runFrom s f.resume) := by
  have hstart := f.start_le
  have hstop := f.stop_le
  rw [runFrom, dif_pos (by omega), searchAt_of_some h hi]

theorem visits_runFrom (forward : m.GoesForward s m.sticky) (i : Nat) :
    m.Visits s i (m.runFrom s i).found (m.runFrom s i).failure := by
  -- The induction is on what is left of the subject, and one position past its end.
  induction hn : s.size + 1 - i using Nat.strongRecOn generalizing i with
  | ind n ih =>
    cases h : m.find s i m.sticky with
    | error e =>
      rw [runFrom_of_error h]
      exact .failed h
    | ok found =>
      cases found with
      | none =>
        rw [runFrom_of_none h]
        exact .nothing h
      | some f =>
        have hi := forward i f h
        have hresume := f.start_lt_resume
        have hstart := f.start_le
        have hstop := f.stop_le
        rw [runFrom_of_some h hi]
        refine .found h ?_
        rw [← resume_eq]
        exact ih _ (by omega) _ rfl

/-- Matches start ever later, and behind the end of those before them. -/
theorem Visits.pairwise (forward : m.GoesForward s m.sticky) (h : m.Visits s i fs failure) :
    (∀ f ∈ fs, i ≤ f.start) ∧ fs.Pairwise fun f f' => f.start < f'.start ∧ f.stop ≤ f'.start := by
  induction h with
  | failed | nothing => exact ⟨by simp, .nil⟩
  | @found i f fs failure search others ih =>
    obtain ⟨hothers, hpairs⟩ := ih
    have hi := forward i f search
    have hstart := f.start_le
    have hbehind : ∀ f' ∈ fs, f.start < f'.start ∧ f.stop ≤ f'.start := by
      intro f' hf'
      have hresume := hothers f' hf'
      split at hresume <;> omega
    refine ⟨fun f' hf' => ?_, .cons hbehind hpairs⟩
    rcases List.mem_cons.mp hf' with rfl | hf'
    · exact hi
    · have hbetween := hbehind f' hf'
      omega

/-- No more matches than positions. -/
theorem Visits.length_le (forward : m.GoesForward s m.sticky) (h : m.Visits s i fs failure) :
    fs.length ≤ s.size + 1 - i := by
  induction h with
  | failed | nothing => exact Nat.zero_le _
  | @found i f fs failure search others ih =>
    have hi := forward i f search
    have hstart := f.start_le
    have hstop := f.stop_le
    rw [List.length_cons]
    split at ih <;> omega

end Visits

section Evaluation

/-! The matches that are visited can be evaluated. -/

/-- Where a match starts and ends, and its groups. -/
abbrev Bounds := Nat × Nat × List (Option Span)

def bounds (f : Match s) : Bounds := (f.start, f.stop, f.groups)

theorem map_text (fs : List (Match s)) :
    fs.map (·.text) = (fs.map bounds).map fun b => s.slice b.1 b.2.1 := by
  rw [List.map_map]
  rfl

/-- What a search with a compiled pattern answers, in which a sticky one drops matches that start
elsewhere. -/
def hit (r : Regex) (s : Subject) (i : Nat) (sticky : Bool) :
    Except SearchLimit (Option (Found s)) :=
  (r.search s i).map (·.filter fun f => !sticky || f.start == i)

/-- Searches from position `i` on visit the matches with these bounds, and no others. -/
def hasRun (r : Regex) (s : Subject) (sticky : Bool) : (i : Nat) → List Bounds → Bool
  | i, [] =>
    match hit r s i sticky with
    | .ok none => true
    | _ => false
  | i, b :: bs =>
    match hit r s i sticky with
    | .ok (some f) => (f.start, f.stop, f.groups) == b && decide (i ≤ f.start) &&
        hasRun r s sticky (if f.start = f.stop then f.stop + 1 else f.stop) bs
    | _ => false

theorem find_of_hit {sticky : Bool} {found : Option (Found s)}
    (h : hit (if sticky then m.anchored.get.getD m.body else m.body) s i sticky = .ok found) :
    m.find s i sticky = .ok (found.map m.matchOf) := by
  rw [hit] at h
  cases sticky with
  | false =>
    rw [if_neg Bool.false_ne_true] at h
    cases hsearch : m.body.search s i with
    | error e => rw [hsearch] at h; cases h
    | ok raw =>
      rw [hsearch] at h
      obtain rfl := Except.ok.inj h
      rw [find_of_search hsearch]
      cases raw <;> rfl
  | true =>
    rw [if_pos rfl] at h
    cases hsearch : (m.anchored.get.getD m.body).search s i with
    | error e => rw [hsearch] at h; cases h
    | ok raw =>
      rw [hsearch] at h
      obtain rfl := Except.ok.inj h
      exact find_of_anchored_search hsearch

theorem exists_runFrom_of_hasRun {bs : List Bounds}
    (h : hasRun (if m.sticky then m.anchored.get.getD m.body else m.body) s m.sticky i bs = true) :
    ∃ fs, m.runFrom s i = ⟨fs, none⟩ ∧ fs.map bounds = bs := by
  induction bs generalizing i with
  | nil =>
    rw [hasRun] at h
    split at h
    · next hhit => exact ⟨[], runFrom_of_none (find_of_hit hhit), rfl⟩
    · cases h
  | cons b bs ih =>
    rw [hasRun] at h
    split at h
    · next f hhit =>
      simp only [Bool.and_eq_true, beq_iff_eq, decide_eq_true_eq] at h
      obtain ⟨⟨rfl, hi⟩, hrest⟩ := h
      obtain ⟨fs, hfs, rfl⟩ := ih hrest
      refine ⟨m.matchOf f :: fs, ?_, rfl⟩
      rw [runFrom_of_some (find_of_hit hhit) hi, resume_eq]
      exact congrArg (MatchRun.cons _) hfs
    · cases h

theorem exists_run_of_search (s : Subject) (bs : List Bounds)
    (h : (compilePlain? m.source m.flags).any (fun body =>
      hasRun (if m.flags.sticky then (anchored? m.source m.flags body.groups).getD body else body)
        s m.flags.sticky 0 bs) = true) :
    ∃ fs, m.run s = ⟨fs, none⟩ ∧ fs.map bounds = bs := by
  rw [m.body_eq, Option.any_some, ← m.anchored_eq] at h
  exact exists_runFrom_of_hasRun h

theorem exists_plain_run (source flags : String) (fl : PlainFlags) (s : Subject) (bs : List Bounds)
    (hflags : Flags.parsePlain flags = .ok fl) (h : (compilePlain? source fl).any (fun body =>
      hasRun (if fl.sticky then (anchored? source fl body.groups).getD body else body)
        s fl.sticky 0 bs) = true) :
    ∃ m, plain source flags = .ok m ∧ m.source = source ∧ m.flags = fl ∧
      ∃ fs, m.run s = ⟨fs, none⟩ ∧ fs.map bounds = bs := by
  have hsome : (compilePlain? source fl).isSome = true := by
    cases hbody : compilePlain? source fl with
    | none => rw [hbody] at h; cases h
    | some body => rfl
  obtain ⟨m, hm, rfl, rfl⟩ := exists_plain source flags fl hflags hsome
  exact ⟨m, hm, rfl, rfl, m.exists_run_of_search s bs h⟩

end Evaluation

section Cursors

variable (cursor : Nat)

theorem run_withCursor : (m.withCursor cursor).run s = m.run s := by
  have hsearch (i : Nat) : (m.withCursor cursor).searchAt s i (m.withCursor cursor).sticky =
      m.searchAt s i m.sticky := rfl
  change (m.withCursor cursor).runFrom s 0 = m.runFrom s 0
  induction (0 : Nat) using runFrom.induct m s with
  | case1 i hi e h => rw [runFrom, runFrom, hsearch, h]
  | case2 i hi h => rw [runFrom, runFrom, hsearch, h]
  | case3 i hi found hle h ih =>
    rw [runFrom, runFrom, hsearch, h, dif_pos hi, dif_pos hi]
    dsimp only
    rw [ih]
  | case4 i hi => rw [runFrom, runFrom, dif_neg hi, dif_neg hi]

end Cursors

section Operations

variable {last cursor ordinal : Nat} (r : {s : Subject} → Match s → (cursor : Nat) → String × Nat)

/-- The subject from position `last` on, with a text in the place of each match. -/
def rewriteFrom (s : Subject) : (last : Nat) → List (Match s × String) → String
  | last, [] => s.slice last s.size
  | last, (f, text) :: rest => s.slice last f.start ++ text ++ rewriteFrom s f.stop rest

/-- What a replacement function is called with, when the cursor is `cursor` before the first call,
and what it writes. -/
def calls (m : Matcher) : List (Match s) → (cursor : Nat) → List (Match s × String)
  | [], _ => []
  | f :: fs, cursor =>
    let (text, cursor) := r f (if m.global then f.byteStop else cursor)
    (f, text) :: m.calls fs cursor

theorem map_calls (fs : List (Match s)) (cursor : Nat) : (m.calls r fs cursor).map (·.1) = fs := by
  induction fs generalizing cursor with
  | nil => rfl
  | cons f fs ih => rw [calls, List.map_cons, ih]

theorem substitute_function :
    (m.substitute (.function r) fs last cursor).1 =
      .ok (rewriteFrom s last (m.calls r fs cursor)) := by
  induction fs generalizing last cursor with
  | nil => rfl
  | cons f fs ih => simp only [substitute, Replacement.write, ih, Except.map, calls, rewriteFrom]

/-- The text in which the matches are replaced is the answer of their run. -/
theorem result_replace (replacement : Replacement) (all : Bool) :
    let run := if all then m.run s else m.runOnce s
    (m.replace s replacement all).result =
      (m.substitute replacement run.found 0 m.cursor).1.bind run.answer := by
  unfold replace
  dsimp only
  generalize (if all then m.run s else m.runOnce s) = run
  split
  · next h =>
    rw [h]
    rfl
  · next h =>
    rw [h]
    change _ = run.answer _
    rw [MatchRun.answer, MatchRun.close]
    cases run.failure <;> rfl

theorem result_replace_function (all : Bool) :
    let run := if all then m.run s else m.runOnce s
    (m.replace s (.function r) all).result =
      run.answer (rewriteFrom s 0 (m.calls r run.found m.cursor)) := by
  rw [result_replace, substitute_function]
  rfl

theorem found_visitAll (callback : Visit s → Nat) :
    (m.visitAll callback fs ordinal cursor).1.map (·.found) = fs := by
  induction fs generalizing ordinal cursor with
  | nil => rfl
  | cons f fs ih => simp only [visitAll, List.map_cons, ih]

theorem result_forEach (callback : Visit s → Nat) :
    (m.forEach s callback).result.map (·.map (·.found)) = (m.run s).answer (m.run s).found := by
  simp only [forEach, MatchRun.answer, MatchRun.close]
  cases (m.run s).failure with
  | none => exact congrArg Except.ok (found_visitAll callback)
  | some e => rfl

theorem result_matchScoped :
    (m.matchScoped s (some .all)).result =
      (m.run s).answer (.all ((m.run s).found.map (·.text))) := by
  simp only [matchScoped, Option.getD_some, MatchRun.answer, MatchRun.close]
  cases (m.run s).failure <;> rfl

/-- A group that a match does not have is an error also where a later search fails. -/
theorem matchChain_stage (text : String) (choice : GroupChoice) :
    (matchChain text [⟨m, choice⟩]).1 =
      ((m.run (.ofString text)).found.mapM (Stage.pick · choice)).bind
        (m.run (.ofString text)).answer := by
  have htexts : Stage.texts ⟨m, choice⟩ text =
      ((m.run (.ofString text)).found.mapM (Stage.pick · choice)).bind
        (m.run (.ofString text)).answer := rfl
  rw [← htexts, matchChain]
  · rw [runStages, Stage.apply, Stage.apply]
    cases Stage.texts ⟨m, choice⟩ text with
    | error e => rfl
    | ok texts => cases texts <;> simp [bind, Except.bind, pure, Except.pure, runStages]
  · simp

/-- Every operation that visits all matches of a text visits the same ones, in order, and answers
with the error that ends them, if one does. -/
theorem iterations_agree (m : Matcher) (text : String)
    (forward : m.GoesForward (.ofString text) m.sticky) :
    let s := Subject.ofString text
    ∃ run : MatchRun s,
      (∀ fs failure, m.Visits s 0 fs failure ↔ fs = run.found ∧ failure = run.failure) ∧
      run.found.length ≤ s.size + 1 ∧
      (run.found.Pairwise fun f f' => f.start < f'.start ∧ f.stop ≤ f'.start) ∧
      ∀ cursor : Nat, let m := m.withCursor cursor
        (∀ callback : Visit s → Nat,
          (m.forEach s callback).result.map (·.map (·.found)) = run.answer run.found) ∧
        (m.matchScoped s (some .all)).result = run.answer (.all (run.found.map (·.text))) ∧
        (∀ r : {s : Subject} → Match s → (cursor : Nat) → String × Nat,
          (m.calls r run.found cursor).map (·.1) = run.found ∧
          (Patterns.replace s (.matcher m) (.function r) (some .all)).result =
            run.answer (rewriteFrom s 0 (m.calls r run.found cursor))) ∧
        ∀ choice : GroupChoice, (matchChain text [⟨m, choice⟩]).1 =
          (run.found.mapM (Stage.pick · choice)).bind run.answer := by
  dsimp only
  have visits := visits_runFrom forward 0
  refine ⟨m.run (.ofString text), fun fs failure => ⟨visits.unique, ?_⟩, visits.length_le forward,
    (visits.pairwise forward).2, fun cursor => ?_⟩
  · rintro ⟨rfl, rfl⟩
    exact visits
  · rw [← run_withCursor cursor]
    exact ⟨result_forEach, result_matchScoped,
      fun r => ⟨map_calls r _ _, result_replace_function r true⟩, matchChain_stage text⟩

/-- Two empty matches, and one between them. -/
theorem iterations_agree_runs :
    ∃ m : Matcher, Matcher.plain "x*" "g" = .ok m ∧ m.GoesForward (.ofString "éxx") m.sticky ∧
      ((m.withCursor 7).matchScoped (.ofString "éxx") (some .all)).result =
        .ok (.all ["", "xx", ""]) ∧
      ((m.withCursor 7).forEach (.ofString "éxx") fun _ => 1).result.map
        (·.map fun visit => (visit.found.start, visit.found.stop)) =
        .ok [(0, 0), (1, 3), (3, 3)] ∧
      (Patterns.replace (.ofString "éxx") (.matcher (m.withCursor 7))
        (.function fun {s} (_ : Match s) (cursor : Nat) => (toString cursor, 0))
        (some .all)).result = .ok "0é44" ∧
      (matchChain "éxx" [⟨m.withCursor 7, .whole⟩]).1 = .ok ["", "xx", ""] := by
  obtain ⟨m, hm, hsource, hflags⟩ :=
    exists_plain "x*" "g" ⟨true, false, false, false⟩ rfl (by decide +kernel)
  have hsticky : m.sticky = false := by rw [sticky, hflags]
  have hglobal : (m.withCursor 7).global = true := congrArg PlainFlags.global hflags
  have forward : m.GoesForward (.ofString "éxx") m.sticky := by
    rw [hsticky]
    exact goesForward_of_search (by rw [hsource, hflags]; decide +kernel)
  refine ⟨m, hm, forward, ?_⟩
  obtain ⟨f, hf, hstart, hstop⟩ : ∃ f, m.find (.ofString "éxx") 0 false = .ok (some f) ∧
      f.start = 0 ∧ f.stop = 0 :=
    exists_find_of_search (by rw [hsource, hflags]; decide +kernel)
  obtain ⟨f', hf', hstart', hstop'⟩ : ∃ f, m.find (.ofString "éxx") 1 false = .ok (some f) ∧
      f.start = 1 ∧ f.stop = 3 :=
    exists_find_of_search (by rw [hsource, hflags]; decide +kernel)
  obtain ⟨f'', hf'', hstart'', hstop''⟩ : ∃ f, m.find (.ofString "éxx") 3 false = .ok (some f) ∧
      f.start = 3 ∧ f.stop = 3 :=
    exists_find_of_search (by rw [hsource, hflags]; decide +kernel)
  rw [← hsticky] at hf hf' hf''
  have visits : m.Visits (.ofString "éxx") 0 [f, f', f''] none := by
    refine .found hf ?_
    rw [hstart, hstop]
    refine .found hf' ?_
    rw [hstart', hstop']
    refine .found hf'' ?_
    rw [hstart'', hstop'']
    exact .nothing (find_of_size_lt (by decide))
  obtain ⟨run, hvisits, -, -, hops⟩ := iterations_agree m "éxx" forward
  obtain ⟨hfound, hfailure⟩ := (hvisits _ _).mp visits
  have hanswer {α : Type} (a : α) : run.answer a = .ok a := by
    rw [MatchRun.answer, MatchRun.close, ← hfailure]
    rfl
  obtain ⟨heach, hscoped, hreplace, hchain⟩ := hops 7
  have htexts : [f, f', f''].map (·.text) = ["", "xx", ""] := by
    simp only [List.map_cons, List.map_nil, Match.text, hstart, hstop, hstart', hstop', hstart'',
      hstop'']
    decide
  refine ⟨?_, ?_, ?_, ?_⟩
  · rw [hscoped, hanswer, ← hfound, htexts]
  · have hspans : ((m.withCursor 7).forEach (.ofString "éxx") fun _ => 1).result.map
          (·.map fun visit => (visit.found.start, visit.found.stop)) =
        (((m.withCursor 7).forEach (.ofString "éxx") fun _ => 1).result.map (·.map (·.found))).map
          (·.map fun f => (f.start, f.stop)) := by
      cases ((m.withCursor 7).forEach (.ofString "éxx") fun _ => 1).result <;> simp [Except.map]
    rw [hspans, heach, hanswer, ← hfound]
    simp [Except.map, hstart, hstop, hstart', hstop', hstart'', hstop'']
  · rw [(hreplace _).2, hanswer, ← hfound]
    simp only [calls, hglobal, if_true, Match.byteStop, rewriteFrom, hstart, hstop, hstart', hstop',
      hstart'', hstop'']
    exact congrArg Except.ok (by decide +kernel)
  · rw [hchain, ← hfound]
    have hpick : [f, f', f''].mapM (Stage.pick · .whole) =
        Except.ok ([f, f', f''].map (·.text)) := rfl
    rw [hpick, htexts]
    exact hanswer _

end Operations

end Matcher

end Patterns
