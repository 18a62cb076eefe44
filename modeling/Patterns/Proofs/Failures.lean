import Patterns.Proofs.Rewriting
import Patterns.Proofs.Uses

/-!
# Replacing that fails

A template that asks for a group which is not there fails only when there is a match to expand it
for, and a search may fail behind any number of matches. By then the cursor of a global matcher has
followed the matches, and nothing puts it back (`replace_failed`).
-/
namespace Patterns
open Patterns.Text

namespace Template

variable {s : Subject} {fs : List (Match s)}

/-- The matches that a template is expanded for: all of them, or those up to the first one for which
that fails. -/
def tried (template : String) : List (Match s) → List (Match s)
  | [] => []
  | f :: fs =>
    match expand template f with
    | .ok _ => f :: tried template fs
    | .error _ => [f]

/-- What breaks off replacing: the last match for which the template was expanded, or a search
behind all of the matches. -/
def BreaksOff (template : String) (run : MatchRun s) (e : Error) : Prop :=
  (∃ f, (tried template run.found).getLast? = some f ∧ expand template f = .error e) ∨
    (∀ f ∈ run.found, ∃ t, expand template f = .ok t) ∧ tried template run.found = run.found ∧
      run.failure = some e

end Template

namespace Matcher

open Template

variable {m : Matcher} {s : Subject} {fs : List (Match s)} {template : String} {last cursor : Nat}
  {e : Error}

/-- The cursor that is left while matches are replaced. -/
def heldCursor (m : Matcher) (template : String) (fs : List (Match s)) : Nat :=
  if m.global then ((tried template fs).getLast?.map (·.byteStop)).getD m.cursor else m.cursor

theorem heldCursor_eq_iff : m.heldCursor template fs = m.cursor ↔
    (m.global = true → ∀ f ∈ (tried template fs).getLast?, f.byteStop = m.cursor) := by
  rw [heldCursor]
  cases m.global with
  | false => simp
  | true => cases (tried template fs).getLast? <;> simp

theorem withCursor_eq_self_iff : m.withCursor cursor = m ↔ cursor = m.cursor := by
  refine ⟨fun h => congrArg Matcher.cursor h, ?_⟩
  rintro rfl
  rfl

theorem cursor_substitute_template :
    (m.substitute (.template template) fs last cursor).2 =
      if m.global then ((tried template fs).getLast?.map (·.byteStop)).getD cursor else cursor := by
  induction fs generalizing last cursor with
  | nil => simp [substitute, tried]
  | cons f fs ih =>
    rw [substitute, Replacement.write, tried]
    cases expand template f with
    | error e => rfl
    | ok text =>
      dsimp only [Except.map]
      rw [ih, List.getLast?_cons]
      cases m.global with
      | false => rfl
      | true => cases (tried template fs).getLast? <;> rfl

theorem exists_tried_of_error
    (h : (m.substitute (.template template) fs last cursor).1 = .error e) :
    ∃ f, (tried template fs).getLast? = some f ∧ expand template f = .error e := by
  induction fs generalizing last cursor with
  | nil => cases h
  | cons f fs ih =>
    rw [substitute, Replacement.write] at h
    rw [tried]
    cases hexpand : expand template f with
    | error e' =>
      rw [hexpand] at h
      exact ⟨f, rfl, hexpand.trans h⟩
    | ok text =>
      rw [hexpand] at h
      dsimp only [Except.map] at h
      split at h
      · next hrest =>
        obtain ⟨f', hlast, hf'⟩ := ih (hrest.trans h)
        exact ⟨f', by rw [List.getLast?_cons, hlast]; rfl, hf'⟩
      · cases h

theorem tried_of_ok {text : String}
    (h : (m.substitute (.template template) fs last cursor).1 = .ok text) :
    (∀ f ∈ fs, ∃ t, expand template f = .ok t) ∧ tried template fs = fs := by
  induction fs generalizing last cursor text with
  | nil => exact ⟨by simp, rfl⟩
  | cons f fs ih =>
    rw [substitute, Replacement.write] at h
    rw [tried]
    cases hexpand : expand template f with
    | error e' => rw [hexpand] at h; cases h
    | ok text' =>
      rw [hexpand] at h
      dsimp only [Except.map] at h
      split at h
      · cases h
      · next hrest =>
        obtain ⟨hothers, htried⟩ := ih hrest
        exact ⟨List.forall_mem_cons.mpr ⟨⟨text', hexpand⟩, hothers⟩, by rw [htried]⟩

/-- Where replacing fails nothing puts the cursor back. -/
theorem cursor_replace_error {r : Replacement} {all : Bool}
    (h : (m.replace s r all).result = .error e) : (m.replace s r all).cursor =
      (m.substitute r (if all then m.run s else m.runOnce s).found 0 m.cursor).2 := by
  unfold replace at h ⊢
  dsimp only at h ⊢
  split at h
  · next hsubstitute => rw [hsubstitute]
  · next hsubstitute =>
    rw [hsubstitute]
    split at h
    · rfl
    · cases h

theorem breaksOff_of_error {run : MatchRun s} (h : (m.substitute (.template template) run.found last
      cursor).1.bind run.answer = .error e) : BreaksOff template run e := by
  cases hsubstitute : (m.substitute (.template template) run.found last cursor).1 with
  | error e' =>
    rw [hsubstitute] at h
    obtain rfl : e' = e := Except.error.inj h
    exact .inl (exists_tried_of_error hsubstitute)
  | ok text =>
    rw [hsubstitute] at h
    obtain ⟨hexpand, htried⟩ := tried_of_ok hsubstitute
    refine .inr ⟨hexpand, htried, ?_⟩
    cases hfailure : run.failure with
    | none =>
      have hanswer := h.symm.trans (MatchRun.answer_of_closed hfailure text)
      cases hanswer
    | some e' =>
      have hanswer := h.symm.trans (MatchRun.answer_of_failure hfailure text)
      rw [Except.error.inj hanswer]

/-- What a failure comes from, and the cursor that it leaves. -/
theorem replace_template_error {needle : Needle} {scope : Option ReplaceScope}
    (hneedle : needle.toMatcher = .ok m)
    (h : (Patterns.replace s needle (.template template) scope).result = .error e) :
    BreaksOff template (m.scopedRun s scope) e ∧
      (Patterns.replace s needle (.template template) scope).cursor =
        m.heldCursor template (m.scopedRun s scope).found := by
  obtain ⟨all, hreplace, hrun⟩ := exists_scoped hneedle scope
  rw [hreplace] at h ⊢
  rw [cursor_replace_error h, hrun, cursor_substitute_template]
  rw [result_replace, hrun] at h
  exact ⟨breaksOff_of_error h, rfl⟩

end Matcher

namespace Use

open Template

/-- Where replacing with a template fails, for a text or with a shared matcher, it is the last match
that was tried, or a search behind all matches, that broke it off. What was changed is the cursor of
the shared matcher alone, and that only if the matcher is global: it is left at the end of the last
match that was tried. So the failure leaves no trace exactly where the matcher is not global, where
no match was tried, or where the cursor stood at the end of that match before. -/
theorem replace_failed (g : Engine) (s : Subject) (sought : Sought) (template : String)
    (scope : Option ReplaceScope) {e : Error} {g' : Engine}
    (hrun : (replace s sought (.template template) scope).run g = some (.error e, g')) :
    (∀ t, sought = .text t → g' = g) ∧
    ∀ h m, sought = .shared h → g.stored? h = some m →
      let run := m.scopedRun s scope
      BreaksOff template run e ∧ g' = g.moved [(h, m.heldCursor template run.found)] ∧
      g'.stored? h = some (m.withCursor (m.heldCursor template run.found)) ∧
      (g'.stored? h = some m ↔
        m.global = true → ∀ f ∈ (tried template run.found).getLast?, f.byteStop = m.cursor) := by
  obtain ⟨needle, hneedle, hresult, rfl⟩ := exists_of_replace hrun
  refine ⟨?_, ?_⟩
  · rintro t rfl
    rfl
  · rintro h m rfl hm
    intro run
    rw [needle?_shared hm] at hneedle
    obtain rfl := Option.some.inj hneedle
    obtain ⟨hbreaks, hcursor⟩ := Matcher.replace_template_error rfl hresult.symm
    have hmoved : g.moved (Engine.writes [(Sought.shared h).handle?]
        [(Patterns.replace s (.matcher m) (.template template) scope).cursor]) =
        g.moved [(h, m.heldCursor template run.found)] := by
      rw [hcursor]
      rfl
    rw [hmoved]
    have hstored := Engine.stored?_moved_self hm (m.heldCursor template run.found)
    refine ⟨hbreaks, rfl, hstored, ?_⟩
    rw [hstored, Option.some_inj, Matcher.withCursor_eq_self_iff, Matcher.heldCursor_eq_iff]

private theorem expand_undefined {f : Match s} (hgroups : f.groups = []) :
    expand "$1" f = .error (.undefinedGroup "$1") := by
  have hlist : "$1".toList = ['$', '1'] := rfl
  have hreference : reference f.groupCount f.hasName ['1'] = (.undefined ['1'], 1) := by
    rw [Match.groupCount, hgroups]
    rfl
  simp [expand, hlist, expandList, hreference, Reference.text, bind, Except.bind]

private theorem run_replace_undefined {g : Engine} {h : Handle} {m : Matcher} {f : Match s}
    {fs : List (Match s)} {failure : Option Error} (hm : g.stored? h = some m)
    (hglobal : m.global = true) (hrun : m.run s = ⟨f :: fs, failure⟩) (hgroups : f.groups = []) :
    (replace s (.shared h) (.template "$1") none).run g =
      some (.error (.undefinedGroup "$1"), g.moved [(h, f.byteStop)]) := by
  have hreplace : Patterns.replace s (.matcher m) (.template "$1") none =
      ⟨.error (.undefinedGroup "$1"), f.byteStop⟩ := by
    simp [Patterns.replace, Needle.toMatcher, Matcher.replace, hglobal, hrun, Matcher.substitute,
      Replacement.write, expand_undefined hgroups, Except.map]
  rw [run, needle?_shared hm, Option.map_some, hreplace]
  rfl

/-- The cursor of a global matcher goes to the end of the match that a template could not be
expanded for. -/
theorem replace_failed_letter :
    let s := Subject.ofString "éa"
    ∃ m : Matcher, Matcher.plain "a" "g" = .ok m ∧
      let g : Engine := { store := #[m.withCursor 5] }
      ∃ g', (replace s (.shared ⟨0⟩) (.template "$1") none).run g =
          some (.error (.undefinedGroup "$1"), g') ∧
        g'.stored? ⟨0⟩ = some (m.withCursor 3) ∧ g'.stored? ⟨0⟩ ≠ g.stored? ⟨0⟩ := by
  intro s
  obtain ⟨m, hm, -, hflags, fs, hrun, hbounds⟩ := Matcher.exists_plain_run "a" "g"
    ⟨true, false, false, false⟩ s [(1, 2, [])] rfl (by decide +kernel)
  have hglobal : (m.withCursor 5).global = true := congrArg PlainFlags.global hflags
  obtain ⟨f, rfl, hf⟩ := List.map_eq_singleton_iff.mp hbounds
  obtain ⟨-, hstop, hgroups⟩ : f.start = 1 ∧ f.stop = 2 ∧ f.groups = [] := by
    simpa [Matcher.bounds] using hf
  have hbyte : f.byteStop = 3 := by
    rw [Match.byteStop, hstop]
    decide
  have hrun : (m.withCursor 5).run s = ⟨[f], none⟩ := (Matcher.run_withCursor 5).trans hrun
  have hscoped : (m.withCursor 5).scopedRun s none = ⟨[f], none⟩ := by
    rw [Matcher.scopedRun, hglobal, hrun]
    rfl
  have htried : tried "$1" [f] = [f] := by rw [tried, expand_undefined hgroups]
  have stored : Engine.stored? { store := #[m.withCursor 5] } ⟨0⟩ = some (m.withCursor 5) := rfl
  have hfailed := run_replace_undefined stored hglobal hrun hgroups
  obtain ⟨-, -, hstored, hkept⟩ := (replace_failed _ s _ "$1" none hfailed).2 ⟨0⟩ _ rfl stored
  rw [hscoped] at hstored hkept
  refine ⟨m, hm, _, hfailed, ?_, fun h => ?_⟩
  · rw [hstored, Matcher.heldCursor, hglobal, htried, ← hbyte]
    rfl
  · have hlast := hkept.mp (h.trans stored) hglobal f (by simp [htried])
    rw [hbyte] at hlast
    cases hlast

/-- A failure at the first match moves a cursor that stood at the front. -/
theorem replace_letter_moves :
    let s := Subject.ofString "a"
    ∃ m : Matcher, Matcher.plain "a" "g" = .ok m ∧
      let g : Engine := { store := #[m.withCursor 0] }
      ∃ g', (replace s (.shared ⟨0⟩) (.template "$1") none).run g =
          some (.error (.undefinedGroup "$1"), g') ∧
        g'.stored? ⟨0⟩ = some (m.withCursor 1) ∧ g'.stored? ⟨0⟩ ≠ g.stored? ⟨0⟩ := by
  intro s
  obtain ⟨m, hm, -, hflags, fs, hrun, hbounds⟩ := Matcher.exists_plain_run "a" "g"
    ⟨true, false, false, false⟩ s [(0, 1, [])] rfl (by decide +kernel)
  have hglobal : (m.withCursor 0).global = true := congrArg PlainFlags.global hflags
  obtain ⟨f, rfl, hf⟩ := List.map_eq_singleton_iff.mp hbounds
  obtain ⟨-, hstop, hgroups⟩ : f.start = 0 ∧ f.stop = 1 ∧ f.groups = [] := by
    simpa [Matcher.bounds] using hf
  have hbyte : f.byteStop = 1 := by
    rw [Match.byteStop, hstop]
    decide
  have hrun : (m.withCursor 0).run s = ⟨[f], none⟩ := (Matcher.run_withCursor 0).trans hrun
  have stored : Engine.stored? { store := #[m.withCursor 0] } ⟨0⟩ = some (m.withCursor 0) := rfl
  have hstored := Engine.stored?_moved_self stored f.byteStop
  refine ⟨m, hm, _, run_replace_undefined stored hglobal hrun hgroups, ?_, fun h => ?_⟩
  · rw [hstored, hbyte]
    rfl
  · have hcursor := congrArg Matcher.cursor (Option.some.inj (hstored.symm.trans (h.trans stored)))
    change f.byteStop = 0 at hcursor
    rw [hbyte] at hcursor
    cases hcursor

end Use

end Patterns
