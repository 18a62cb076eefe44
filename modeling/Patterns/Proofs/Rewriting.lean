import Patterns.Proofs.Coverage
import Patterns.Proofs.Iteration

/-!
# Texts with matches replaced

Replacing keeps the texts between the matches (`gaps`) as they are, and puts one text in the place
of each match (`fill`). With the matches themselves in their places the subject comes back.
-/
namespace Patterns
open Patterns.Text

variable {s : Subject} {f : Match s} {fs : List (Match s)} {last : Nat}

section Gaps

/-- The texts before, between and behind the matches, from position `last` on. -/
def gaps (s : Subject) : (last : Nat) → List (Match s) → List String
  | last, [] => [s.slice last s.size]
  | last, f :: fs => s.slice last f.start :: gaps s f.stop fs

/-- The gaps with a text between each of them and the next. -/
def fill : (gaps texts : List String) → String
  | gap :: gaps, text :: texts => gap ++ text ++ fill gaps texts
  | gaps, _ => String.join gaps

@[simp] theorem fill_gaps_nil (last : Nat) : fill (gaps s last []) [] = s.slice last s.size := by
  simp [gaps, fill]

@[simp] theorem fill_gaps_cons (last : Nat) (f : Match s) (fs : List (Match s)) (text : String)
    (texts : List String) : fill (gaps s last (f :: fs)) (text :: texts) =
      s.slice last f.start ++ text ++ fill (gaps s f.stop fs) texts := rfl

theorem length_gaps (last : Nat) (fs : List (Match s)) :
    (gaps s last fs).length = fs.length + 1 := by
  induction fs generalizing last with
  | nil => rfl
  | cons f fs ih => rw [gaps, List.length_cons, ih, List.length_cons]

/-- No character is lost between matches that stand one behind the other. -/
theorem fill_gaps_text (ahead : ∀ f ∈ fs, last ≤ f.start)
    (apart : fs.Pairwise fun f f' => f.stop ≤ f'.start) (inside : last ≤ s.size) :
    fill (gaps s last fs) (fs.map (·.text)) = s.slice last s.size := by
  induction fs generalizing last with
  | nil => exact fill_gaps_nil last
  | cons f fs ih =>
    obtain ⟨hbehind, apart⟩ := List.pairwise_cons.mp apart
    have hlast := ahead f List.mem_cons_self
    calc fill (gaps s last (f :: fs)) ((f :: fs).map (·.text))
        = s.slice last f.start ++ s.slice f.start f.stop ++ s.slice f.stop s.size := by
          rw [List.map_cons, fill_gaps_cons, ih hbehind apart f.stop_le, Match.text]
      _ = s.slice last s.size := by
          rw [s.slice_append hlast f.start_le,
            s.slice_append (Nat.le_trans hlast f.start_le) f.stop_le]

theorem rewriteFrom_eq_fill (calls : List (Match s × String)) (last : Nat) :
    Matcher.rewriteFrom s last calls = fill (gaps s last (calls.map (·.1))) (calls.map (·.2)) := by
  induction calls generalizing last with
  | nil => exact (fill_gaps_nil last).symm
  | cons call calls ih =>
    obtain ⟨f, text⟩ := call
    rw [Matcher.rewriteFrom, ih, List.map_cons, List.map_cons, fill_gaps_cons]

end Gaps

section Templates

variable (f)

theorem expand_match : Template.expand "$&" f = .ok f.text := by
  have hlist : "$&".toList = ['$', '&'] := rfl
  simp [Template.expand, hlist, Template.expandList, Template.reference, Template.Reference.text,
    Match.group?, Match.spanOf?, Match.span, Subject.sliceSpan, Match.text, bind, Except.bind, pure,
    Except.pure]

/-- What stands before a match, the match and what stands behind it are the subject. -/
theorem expand_subject : Template.expand "$`$&$'" f = .ok (s.slice 0 s.size) := by
  have hlist : "$`$&$'".toList = ['$', '\x60', '$', '&', '$', '\''] := rfl
  have hwhole : s.slice 0 f.start ++ (f.text ++ s.slice f.stop s.size) = s.slice 0 s.size := by
    rw [Match.text, s.slice_append f.start_le f.stop_le,
      s.slice_append (Nat.zero_le _) (Nat.le_trans f.start_le f.stop_le)]
  rw [Match.text] at hwhole
  simpa [Template.expand, hlist, Template.expandList, Template.reference, Template.Reference.text,
    Match.group?, Match.spanOf?, Match.span, Subject.sliceSpan, bind, Except.bind, pure,
    Except.pure] using hwhole

end Templates

/-- The first match alone. Only where there is none the failure of its search is left. -/
def MatchRun.first (run : MatchRun s) : MatchRun s :=
  ⟨run.found.take 1, if run.found.isEmpty then run.failure else none⟩

theorem MatchRun.found_sublist (run : MatchRun s) (scope : ReplaceScope) :
    (if scope = .all then run else run.first).found.Sublist run.found := by
  cases scope with
  | one => exact List.take_sublist 1 _
  | all => exact List.Sublist.refl _

namespace Matcher

variable {m : Matcher} {replacement : Replacement} {write : Match s → String}

/-- Where the text for each match does not depend on the cursor, these texts fill the gaps. -/
theorem substitute_eq_fill (cursor : Nat) (writes : ∀ f ∈ fs, ∀ cursor, ∃ cursor',
    replacement.write f cursor = .ok (write f, cursor')) :
    (m.substitute replacement fs last cursor).1 = .ok (fill (gaps s last fs) (fs.map write)) := by
  induction fs generalizing last cursor with
  | nil => exact congrArg Except.ok (fill_gaps_nil last).symm
  | cons f fs ih =>
    obtain ⟨hf, hfs⟩ := List.forall_mem_cons.mp writes
    obtain ⟨cursor', hwrite⟩ := hf (if m.global then f.byteStop else cursor)
    simp only [substitute, hwrite, ih cursor' hfs, Except.map, List.map_cons, fill_gaps_cons]

/-- Looking for one match comes to the first of all matches. -/
theorem runOnce_eq_first (forward : m.GoesForward s m.sticky) : m.runOnce s = (m.run s).first := by
  rw [runOnce, run]
  cases hfind : m.find s 0 m.sticky with
  | error e => rw [searchAt_of_error hfind, runFrom_of_error hfind]; rfl
  | ok found =>
    cases found with
    | none => rw [searchAt_of_none hfind, runFrom_of_none hfind]; rfl
    | some f =>
      have hf := forward 0 f hfind
      rw [searchAt_of_some hfind hf, runFrom_of_some hfind hf]
      rfl

/-- The matches that replacing visits: all of them, or the first one alone. Without a scope the
matcher says which. -/
def scopedRun (m : Matcher) (s : Subject) (scope : Option ReplaceScope) : MatchRun s :=
  if scope.getD (if m.global then .all else .one) = .all then m.run s else m.runOnce s

theorem exists_scoped {needle : Needle} (h : needle.toMatcher = .ok m)
    (scope : Option ReplaceScope) :
    ∃ all : Bool, (∀ r, Patterns.replace s needle r scope = m.replace s r all) ∧
      (if all then m.run s else m.runOnce s) = m.scopedRun s scope := by
  cases scope with
  | none =>
    refine ⟨m.global, fun r => by rw [Patterns.replace, h], ?_⟩
    rw [scopedRun]
    cases m.global <;> rfl
  | some scope =>
    refine ⟨scope == .all, fun r => by rw [Patterns.replace, h], ?_⟩
    cases scope <;> rfl

/-- The scope says whether all matches are replaced or the first one alone; without a scope the
matcher does. -/
theorem exists_wide (forward : m.GoesForward s m.sticky) (scope : Option ReplaceScope) :
    ∃ wide : Bool, (∀ r, Patterns.replace s (.matcher m) r scope = m.replace s r wide) ∧
      (if wide then m.run s else m.runOnce s) =
        if scope.getD (if m.global then .all else .one) = .all then m.run s
        else (m.run s).first := by
  have hneedle : (Needle.matcher m).toMatcher = .ok m := rfl
  obtain ⟨wide, hreplace, hrun⟩ := exists_scoped (s := s) hneedle scope
  exact ⟨wide, hreplace, by rw [hrun, scopedRun, runOnce_eq_first forward]⟩

/-- Replacing puts what is written for each match that it visits in the place of that match, and
leaves the gaps between them as they are; it fails only where a search does. The matches themselves
give the subject back, whether `$&` or a function puts them in, and the match together with the text
around it puts the whole subject in its place. -/
theorem replace_fills (m : Matcher) (text : String) (scope : Option ReplaceScope)
    (forward : m.GoesForward (.ofString text) m.sticky) :
    let s := Subject.ofString text
    let result (r : Replacement) := (Patterns.replace s (.matcher m) r scope).result
    ∃ all : MatchRun s, m.Visits s 0 all.found all.failure ∧
      let run := if scope.getD (if m.global then .all else .one) = .all then all else all.first
      (run.found.Pairwise fun f f' => f.start < f'.start ∧ f.stop ≤ f'.start) ∧
      (gaps s 0 run.found).length = run.found.length + 1 ∧
      fill (gaps s 0 run.found) (run.found.map (·.text)) = text ∧
      (∀ r : {s : Subject} → Match s → (cursor : Nat) → String × Nat,
        (m.calls r run.found m.cursor).map (·.1) = run.found ∧
        result (.function r) =
          run.answer (fill (gaps s 0 run.found) ((m.calls r run.found m.cursor).map (·.2)))) ∧
      result (.template "$&") = run.answer text ∧
      result (.function fun f cursor => (f.text, cursor)) = run.answer text ∧
      result (.template "$`$&$'") =
        run.answer (fill (gaps s 0 run.found) (run.found.map fun _ => text)) := by
  intro s result
  have visits := visits_runFrom forward 0
  refine ⟨m.run s, visits, ?_⟩
  intro run
  obtain ⟨wide, hreplace, hrun⟩ := exists_wide forward scope
  have hresult (r : Replacement) :
      result r = (m.substitute r run.found 0 m.cursor).1.bind run.answer := by
    rw [show run = _ from hrun.symm]
    exact (congrArg Outcome.result (hreplace r)).trans (result_replace r wide)
  have hfill {r : Replacement} {write : Match s → String}
      (writes : ∀ f cursor, ∃ cursor', r.write f cursor = .ok (write f, cursor')) :
      result r = run.answer (fill (gaps s 0 run.found) (run.found.map write)) := by
    rw [hresult, substitute_eq_fill m.cursor fun f _ => writes f]
    rfl
  have apart : run.found.Pairwise fun f f' => f.start < f'.start ∧ f.stop ≤ f'.start :=
    (visits.pairwise forward).2.sublist ((m.run s).found_sublist _)
  have htext : fill (gaps s 0 run.found) (run.found.map (·.text)) = text :=
    (fill_gaps_text (fun f _ => Nat.zero_le _) (apart.imp fun h => h.2) (Nat.zero_le _)).trans
      (Subject.slice_ofString text)
  refine ⟨apart, length_gaps 0 _, htext, fun r => ⟨map_calls r _ _, ?_⟩, ?_, ?_, ?_⟩
  · rw [hresult, substitute_function, rewriteFrom_eq_fill, map_calls]
    rfl
  · rw [hfill fun f cursor => ⟨cursor, congrArg (·.map (·, cursor)) (expand_match f)⟩, htext]
  · rw [hfill fun f cursor => ⟨cursor, rfl⟩, htext]
  · rw [hfill fun f cursor => ⟨cursor, congrArg (·.map (·, cursor)) (expand_subject f)⟩,
      Subject.slice_ofString]

/-- Two matches side by side, and the first of them alone. -/
theorem replace_fills_adjacent :
    let s := Subject.ofString "aéé"
    ∃ m : Matcher, Matcher.plain "é" "g" = .ok m ∧ m.GoesForward s m.sticky ∧
      (Patterns.replace s (.matcher m) (.template "$&") none).result = .ok "aéé" ∧
      (Patterns.replace s (.matcher m) (.template "$`$&$'") none).result = .ok "aaééaéé" ∧
      (Patterns.replace s (.matcher m) (.template "$`$&$'") (some .one)).result = .ok "aaééé" := by
  intro s
  obtain ⟨m, hm, hsource, hflags⟩ :=
    exists_plain "é" "g" ⟨true, false, false, false⟩ rfl (by decide +kernel)
  have hsticky : m.sticky = false := by rw [sticky, hflags]
  have hglobal : m.global = true := by rw [global, hflags]
  have forward : m.GoesForward s m.sticky := by
    rw [hsticky]
    exact goesForward_of_search (by rw [hsource, hflags]; decide +kernel)
  obtain ⟨f, hf, hstart, hstop⟩ : ∃ f, m.find s 0 false = .ok (some f) ∧
      f.start = 1 ∧ f.stop = 2 :=
    exists_find_of_search (by rw [hsource, hflags]; decide +kernel)
  obtain ⟨f', hf', hstart', hstop'⟩ : ∃ f, m.find s 2 false = .ok (some f) ∧
      f.start = 2 ∧ f.stop = 3 :=
    exists_find_of_search (by rw [hsource, hflags]; decide +kernel)
  have hnone : m.find s 3 false = .ok none :=
    find_eq_none_of_search (by rw [hsource, hflags]; decide +kernel)
  rw [← hsticky] at hf hf' hnone
  have visits : m.Visits s 0 [f, f'] none := by
    refine .found hf ?_
    rw [hstart, hstop]
    refine .found hf' ?_
    rw [hstart', hstop']
    exact .nothing hnone
  obtain ⟨all, hall, -, -, -, -, hmatch, -, hwhole⟩ := replace_fills m "aéé" none forward
  obtain ⟨all', hall', -, -, -, -, -, -, hone⟩ := replace_fills m "aéé" (some .one) forward
  obtain ⟨hfound, hfailure⟩ := visits.unique hall
  obtain ⟨hfound', hfailure'⟩ := visits.unique hall'
  obtain rfl : all = ⟨[f, f'], none⟩ := by cases all; simp_all
  obtain rfl : all' = ⟨[f, f'], none⟩ := by cases all'; simp_all
  refine ⟨m, hm, forward, ?_, ?_, ?_⟩
  · refine hmatch.trans ?_
    simp only [hglobal, if_true, Option.getD_none]
    rfl
  · refine hwhole.trans ?_
    simp only [hglobal, if_true, Option.getD_none, List.map_cons, List.map_nil, gaps, fill, hstart,
      hstop, hstart', hstop']
    exact congrArg Except.ok (by decide +kernel)
  · refine hone.trans ?_
    simp only [Option.getD_some, reduceCtorEq, if_false, MatchRun.first, List.take, List.map_cons,
      List.map_nil, gaps, fill, hstart, hstop]
    exact congrArg Except.ok (by decide +kernel)

end Matcher

end Patterns
