import Patterns.Proofs.Offsets
import Patterns.Proofs.Starts
import Patterns.Proofs.Uses

/-!
# Sticky searches

A sticky search finds what a search that may move on finds at its start, and nothing else. Offsets
in bytes are rounded up for the one and not for the other, which makes no difference: behind the
offset there is nothing to be found for a sticky search.
-/
namespace Patterns
open Patterns.Text Patterns.Plain

namespace Matcher

variable {m : Matcher} {s : Subject} {i byte : Nat}

/-- The matcher without the sticky flag. -/
def unsticky (m : Matcher) : Matcher where
  source := m.source
  flags := { m.flags with sticky := false }
  names := m.names
  origin := m.origin
  body := m.body
  anchored := m.anchored
  cursor := m.cursor
  body_eq := m.body_eq
  anchored_eq := m.anchored_eq

/-- What is relied on of the anchored form of a pattern, where that can be compiled: it has the
matches of the pattern where a search starts, and no others. -/
def AnchorsBody (m : Matcher) (s : Subject) : Prop :=
  ∀ a, anchored? m.source m.flags m.body.groups = some a → a.Anchors m.body s

theorem exists_search_of_find {sticky : Bool} {found : Option (Match s)}
    (h : m.find s i sticky = .ok found) :
    ∃ raw, (if sticky then m.anchored.get.getD m.body else m.body).search s i = .ok raw := by
  unfold find at h
  dsimp only at h
  split at h
  · cases h
  · exact ⟨_, by assumption⟩
  · exact ⟨_, by assumption⟩

/-- An anchored form finds at its start what the pattern finds there. -/
theorem filter_anchored_search {a r : Regex} {stuck loose : Option (Found s)}
    (keeps : r.KeepsStart s) (anchors : a.Anchors r s) (hstuck : a.search s i = .ok stuck)
    (hloose : r.search s i = .ok loose) :
    stuck.filter (·.start == i) = loose.filter (·.start == i) := by
  have keeps' : a.KeepsStart s := fun i q f hiq hq hmatch => by
    obtain ⟨rfl, hmatch⟩ := (anchors i q f hiq hq).mp hmatch
    exact keeps q q f hiq hq hmatch
  rcases Nat.lt_or_ge s.size i with hi | hi
  · have hnone (r : Regex) : r.search s i = .ok none := if_neg (Nat.not_le.mpr hi)
    rw [hnone] at hstuck hloose
    rw [← Except.ok.inj hstuck, ← Except.ok.inj hloose]
  · refine Option.ext fun f => ?_
    rw [Regex.filter_search keeps' hi hstuck, Regex.filter_search keeps hi hloose,
      anchors i i f (Nat.le_refl i) hi, and_iff_right rfl]

/-- A sticky search is a search that may move on, of which only a match at its start counts. -/
theorem find_sticky (keeps : m.body.KeepsStart s) (anchors : m.AnchorsBody s)
    {stuck loose : Option (Match s)} (hstuck : m.find s i true = .ok stuck)
    (hloose : m.find s i false = .ok loose) : stuck = loose.filter (·.start == i) := by
  obtain ⟨raw, hraw⟩ : ∃ raw, (m.anchored.get.getD m.body).search s i = .ok raw :=
    exists_search_of_find hstuck
  obtain ⟨raw', hraw'⟩ : ∃ raw, m.body.search s i = .ok raw := exists_search_of_find hloose
  obtain rfl := Except.ok.inj ((find_of_anchored_search hraw).symm.trans hstuck)
  obtain rfl := Except.ok.inj ((find_of_search hraw').symm.trans hloose)
  have hsame : raw.filter (·.start == i) = raw'.filter (·.start == i) := by
    cases h : m.anchored.get with
    | none =>
      rw [h, Option.getD_none, hraw'] at hraw
      rw [Except.ok.inj hraw]
    | some a =>
      rw [h, Option.getD_some] at hraw
      exact filter_anchored_search keeps (anchors a (m.anchored_eq.symm.trans h)) hraw hraw'
  rw [hsame, Option.filter_map]
  rfl

/-- A match that is found from a position on starts there, or behind it. -/
theorem le_start_of_find (keeps : m.body.KeepsStart s) {f : Match s}
    (h : m.find s i false = .ok (some f)) : i ≤ f.start := by
  obtain ⟨raw, hraw⟩ : ∃ raw, m.body.search s i = .ok raw := exists_search_of_find h
  obtain ⟨g, rfl, rfl⟩ :=
    Option.map_eq_some_iff.mp (Except.ok.inj ((find_of_search hraw).symm.trans h))
  exact Regex.le_start_of_search keeps hraw

/-- A sticky search is a filter, for a pattern that moves no start. Where both calls at a byte
offset succeed, the sticky one answers with the match that the other answers with, groups included,
if that match starts at the offset, and with none otherwise. That holds inside of a character and
past the end as well, and whether the pattern has an anchored form or not. -/
theorem exec_sticky (m : Matcher) (s : Subject) (hkeep : m.keepsStart = true)
    (anchors : m.AnchorsBody s) {byte : Nat} {sticky : Bool} (hsticky : (sticky || m.sticky) = true)
    {stuck loose : Option (Match s)} (hstuck : (m.exec s byte sticky).result = .ok stuck)
    (hloose : (m.unsticky.exec s byte false).result = .ok loose) :
    stuck = loose.filter (·.byteStart == byte) := by
  have keeps : m.body.KeepsStart s := keepsStart_body hkeep s
  rw [result_exec, hsticky, searchFrom, if_pos rfl, Subject.position?] at hstuck
  replace hloose : m.searchFrom s byte false = .ok loose := by rwa [result_exec] at hloose
  rw [searchFrom, if_neg Bool.false_ne_true] at hloose
  cases hceil : s.ceil? byte with
  | none =>
    rw [hceil] at hstuck hloose
    cases hstuck
    cases hloose
    rfl
  | some i =>
    obtain ⟨hi, hle⟩ := Subject.le_of_ceil? hceil
    rw [hceil] at hstuck hloose
    by_cases hbyte : s.byteOffset i = byte
    · rw [Option.filter_some, if_pos (by simpa using hbyte)] at hstuck
      rw [find_sticky keeps anchors hstuck hloose]
      cases loose with
      | none => rfl
      | some f =>
        have hstart : (f.start == i) = (f.byteStart == byte) := by
          rw [Bool.eq_iff_iff, beq_iff_eq, beq_iff_eq, ← hbyte]
          exact (Subject.byteOffset_inj (Nat.le_trans f.start_le f.stop_le) hi).symm
        rw [Option.filter_some, Option.filter_some, hstart]
    · rw [Option.filter_some, if_neg (by simpa using hbyte)] at hstuck
      cases hstuck
      cases loose with
      | none => rfl
      | some f =>
        -- The offset lies in a character, and the search that may move on starts behind it.
        have hif := le_start_of_find keeps hloose
        have hoffset := s.byteOffset_mono hif (Nat.le_trans f.start_le f.stop_le)
        rw [Option.filter_some, if_neg]
        rw [beq_iff_eq, Match.byteStart]
        omega

section Evaluation

/-- What an attempt says of a position, unless it breaks off. -/
def answer? : Regex.Attempt → Option (Option (Nat × Nat × List (Option Span)))
  | .found start stop groups => some (some (start, stop, groups))
  | .failed _ => some none
  | .exhausted => none

variable {r : Regex} {budget q : Nat} {f : Found s}
  {answer : Option (Nat × Nat × List (Option Span))}

theorem matchesAt_iff_of_answer (h : answer? (r.attempt s i budget q) = some answer) :
    r.MatchesAt s i q f ↔ answer = some (f.start, f.stop, f.groups) := by
  have hattempt : r.attempt s i budget q ≠ .exhausted := fun he => by
    rw [he] at h
    cases h
  rw [Regex.matchesAt_iff hattempt]
  cases hanswer : r.attempt s i budget q <;> rw [hanswer] at h <;> cases h <;> simp

theorem anchorsBody_of_attempts (budget : Nat)
    (h : (compilePlain? m.source m.flags).any (fun body =>
      (anchored? m.source m.flags body.groups).all fun a =>
        (List.range (s.size + 1)).all fun i => (List.range' i (s.size + 1 - i)).all fun q =>
          (answer? (body.attempt s i budget i)).any fun answer =>
            answer? (a.attempt s i budget q) == some (if q = i then answer else none)) = true) :
    m.AnchorsBody s := by
  intro a ha i q f hiq hq
  rw [m.body_eq, Option.any_some, ha, Option.all_some] at h
  simp only [List.all_eq_true, List.mem_range, List.mem_range'_1] at h
  obtain ⟨answer, hanswer, hattempt⟩ := (Option.any_eq_true _ _).mp (h i (by omega) q (by omega))
  rw [matchesAt_iff_of_answer (eq_of_beq hattempt), matchesAt_iff_of_answer hanswer]
  split
  · next hqi => rw [and_iff_right hqi]
  · next hqi => exact ⟨nofun, fun hq => absurd hq.1 hqi⟩

theorem exists_find_sticky (h : (compilePlain? m.source m.flags).any (fun body =>
      (((anchored? m.source m.flags body.groups).getD body).search s i).toOption.isSome) = true) :
    ∃ found, m.find s i true = .ok found := by
  rw [m.body_eq, Option.any_some, ← m.anchored_eq] at h
  cases hsearch : (m.anchored.get.getD m.body).search s i with
  | error e => rw [hsearch] at h; cases h
  | ok found => exact ⟨_, find_of_anchored_search hsearch⟩

end Evaluation

/-- A search that starts at a character, and one that starts inside of it. -/
theorem exec_sticky_inside :
    let s := Subject.ofString "béb"
    ∃ m : Matcher, Matcher.plain "(é)|b" "y" = .ok m ∧ m.keepsStart = true ∧ m.AnchorsBody s ∧
      (∃ f, (m.unsticky.exec s 1 false).result = .ok (some f) ∧ f.start = 1 ∧ f.stop = 2 ∧
        (m.exec s 1 false).result = .ok (some f)) ∧
      ∃ f, (m.unsticky.exec s 2 false).result = .ok (some f) ∧ f.start = 2 ∧ f.stop = 3 ∧
        (m.exec s 2 false).result = .ok none := by
  intro s
  obtain ⟨m, hm, hsource, hflags⟩ :=
    exists_plain "(é)|b" "y" ⟨false, false, false, true⟩ rfl (by decide +kernel)
  have hsticky : (false || m.sticky) = true := by rw [sticky, hflags]; rfl
  have hkeep : m.keepsStart = true := by rw [keepsStart, hsource, hflags]; decide +kernel
  have anchors : m.AnchorsBody s :=
    anchorsBody_of_attempts 9 (by rw [hsource, hflags]; decide +kernel)
  have hloose {byte i : Nat} {f : Match s} (hceil : s.ceil? byte = some i)
      (hf : m.find s i false = .ok (some f)) :
      (m.unsticky.exec s byte false).result = .ok (some f) := by
    rw [result_exec]
    change m.searchFrom s byte false = _
    rw [searchFrom, if_neg Bool.false_ne_true, hceil]
    exact hf
  have hstuck {byte : Nat} {f : Match s} {stuck : Option (Match s)}
      (h : m.searchFrom s byte true = .ok stuck)
      (hf : (m.unsticky.exec s byte false).result = .ok (some f)) :
      (m.exec s byte false).result = .ok ((some f).filter (·.byteStart == byte)) := by
    have hexec : (m.exec s byte false).result = .ok stuck := by rwa [result_exec, hsticky]
    rw [hexec, exec_sticky m s hkeep anchors hsticky hexec hf]
  obtain ⟨f, hf, hstart, hstop⟩ : ∃ f, m.find s 1 false = .ok (some f) ∧
      f.start = 1 ∧ f.stop = 2 :=
    exists_find_of_search (by rw [hsource, hflags]; decide +kernel)
  obtain ⟨f', hf', hstart', hstop'⟩ : ∃ f, m.find s 2 false = .ok (some f) ∧
      f.start = 2 ∧ f.stop = 3 :=
    exists_find_of_search (by rw [hsource, hflags]; decide +kernel)
  obtain ⟨stuck, hfind⟩ : ∃ stuck, m.find s 1 true = .ok stuck :=
    exists_find_sticky (by rw [hsource, hflags]; decide +kernel)
  have hexec := hloose (show s.ceil? 1 = some 1 by decide +kernel) hf
  have hexec' := hloose (show s.ceil? 2 = some 2 by decide +kernel) hf'
  have hsearch : m.searchFrom s 1 true = .ok stuck := by
    rw [searchFrom, if_pos rfl, show s.position? 1 = some 1 by decide +kernel]
    exact hfind
  have hsearch' : m.searchFrom s 2 true = .ok none := by
    rw [searchFrom, if_pos rfl, show s.position? 2 = none by decide +kernel]
  refine ⟨m, hm, hkeep, anchors, ⟨f, hexec, hstart, hstop, ?_⟩, f', hexec', hstart', hstop', ?_⟩
  · have hbyte : f.byteStart = 1 := by rw [Match.byteStart, hstart]; decide +kernel
    rw [hstuck hsearch hexec, Option.filter_some, hbyte]
    rfl
  · have hbyte : f'.byteStart = 3 := by rw [Match.byteStart, hstart']; decide +kernel
    rw [hstuck hsearch' hexec', Option.filter_some, hbyte]
    rfl

end Matcher

end Patterns
