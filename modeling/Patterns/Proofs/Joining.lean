import Patterns.Proofs.Pieces

/-!
# Pieces joined again

Where separators are neither empty nor sticky, cutting and visiting come to the same matches. So
pieces that are joined with a text are the subject with that text in the place of each match.
-/
namespace Patterns
open Patterns.Text

variable {s : Subject} {c : Cut} {fs : List (Match s)} {i : Nat}

/-- Joining gaps puts the same text between each of them and the next. -/
theorem intercalate_gaps (r : String) (last : Nat) (fs : List (Match s)) :
    r.intercalate (gaps s last fs) = fill (gaps s last fs) (fs.map fun _ => r) := by
  induction fs generalizing last with
  | nil => rw [List.map_nil, fill_gaps_nil, gaps, String.intercalate_singleton]
  | cons f fs ih =>
    have hne : gaps s f.stop fs ≠ [] := by
      rw [ne_eq, ← List.length_eq_zero_iff, length_gaps]
      exact Nat.succ_ne_zero _
    rw [List.map_cons, fill_gaps_cons, ← ih, gaps, String.intercalate_cons_of_ne_nil hne]

/-- Behind a separator that is not empty the length of the last one is not zero. -/
theorem Cut.length_foldl_add_pos (long : ∀ f ∈ fs, f.start < f.stop)
    (h : 0 < c.length ∨ fs ≠ []) : 0 < (fs.foldl add c).length := by
  induction fs generalizing c with
  | nil => exact h.resolve_right fun hne => hne rfl
  | cons f fs ih =>
    obtain ⟨hf, hfs⟩ := List.forall_mem_cons.mp long
    exact ih hfs (.inl (Nat.sub_pos_of_lt hf))

namespace Matcher

variable {m : Matcher}

theorem runFrom_unsticky (unsticky : m.sticky = false) (i : Nat) :
    m.runFrom s i =
      match m.searchAt s i false with
      | .error e => ⟨[], some e⟩
      | .ok none => .nil
      | .ok (some ⟨f, _⟩) => .cons f (m.runFrom s f.resume) := by
  rw [runFrom, unsticky]
  split
  · rfl
  · next hi => rw [searchAt_of_none (find_of_size_lt (Nat.not_le.mp hi))]

/-- What is visited was found. -/
theorem exists_find_of_mem_runFrom {f : Match s} (h : f ∈ (m.runFrom s i).found) :
    ∃ j ≤ f.start, m.find s j m.sticky = .ok (some f) := by
  induction i using runFrom.induct m s with
  | case1 i hi e hsearch => simp [runFrom, hi, hsearch] at h
  | case2 i hi hsearch => simp [runFrom, hi, hsearch, MatchRun.nil] at h
  | case3 i hi f' hle hsearch ih =>
    rw [runFrom, dif_pos hi, hsearch] at h
    rcases List.mem_cons.mp h with rfl | h
    · exact ⟨i, hle, find_of_searchAt hsearch⟩
    · exact ih h
  | case4 i hi => simp [runFrom, hi, MatchRun.nil] at h

/-- Each match that is visited is cut at. -/
theorem cutFrom_eq_answer (unsticky : m.sticky = false)
    (long : ∀ f ∈ (m.runFrom s i).found, f.start < f.stop) (last : c.last ≤ i) :
    m.cutFrom s (fun _ => false) i c =
      (m.runFrom s i).answer ((m.runFrom s i).found.foldl Cut.add c) := by
  induction hn : s.size + 1 - i using Nat.strongRecOn generalizing i c with
  | ind n ih =>
    rw [runFrom_unsticky unsticky] at long ⊢
    cases hsearch : m.searchAt s i false with
    | error e => exact cutFrom_of_error hsearch
    | ok found =>
      cases found with
      | none => exact cutFrom_of_nothing hsearch
      | some hit =>
        rw [hsearch] at long
        obtain ⟨hlong, hothers⟩ := List.forall_mem_cons.mp long
        have hi := hit.property
        have hstop := hit.val.stop_le
        have hresume := hit.val.start_lt_resume
        rw [cutFrom_of_hit hsearch, if_pos (by omega), if_neg Bool.false_ne_true,
          ih _ (by omega) hothers hit.val.stop_le_resume rfl]
        rfl

/-- The text behind the last separator is a piece, also where it is empty. -/
theorem lastPiece_of_closed (unsticky : m.sticky = false)
    (long : ∀ f ∈ (m.run s).found, f.start < f.stop) (closed : (m.run s).failure = none) :
    let c := (m.run s).found.foldl Cut.add ⟨[], 0, 0⟩
    m.lastPiece s c = .ok [some (s.slice c.last s.size)] := by
  intro c
  rw [lastPiece]
  by_cases hlast : c.last = s.size
  · rw [if_pos hlast, hlast, slice_self]
    by_cases hfound : (m.run s).found = []
    · -- Nothing was cut off, so the subject is the empty text, and no separator is in it.
      have hsize : s.size = 0 := by rw [← hlast, show c = ⟨[], 0, 0⟩ by simp [c, hfound]]
      obtain rfl : s = .ofString "" := Subject.ext (Array.eq_empty_of_size_eq_zero hsize)
      have hnone : m.searchAt (.ofString "") 0 false = .ok none := by
        rw [run, runFrom_unsticky unsticky] at hfound closed
        cases hsearch : m.searchAt (.ofString "") 0 false with
        | error e => rw [hsearch] at closed; cases closed
        | ok found =>
          cases found with
          | none => rfl
          | some hit => rw [hsearch] at hfound; cases hfound
      rw [hnone]
      split <;> rfl
    · rw [if_pos (Cut.length_foldl_add_pos long (.inr hfound))]
  · rw [if_neg hlast]

/-- The pieces are the gaps between the matches, if no search fails. -/
theorem split_eq_answer (unsticky : m.sticky = false) (bare : m.body.groups = 0)
    (long : ∀ f ∈ (m.run s).found, f.start < f.stop) :
    m.split s none = (m.run s).answer ((gaps s 0 (m.run s).found).map some) := by
  have hlimit : (none : Option Nat) ≠ some 0 := by simp
  have hcut : m.cutFrom s (fun _ => false) 0 ⟨[], 0, 0⟩ =
      (m.run s).answer ((m.run s).found.foldl Cut.add ⟨[], 0, 0⟩) :=
    cutFrom_eq_answer unsticky long (Nat.le_refl 0)
  cases closed : (m.run s).failure with
  | some e =>
    rw [MatchRun.answer_of_failure closed] at hcut ⊢
    exact split_of_cutFrom_error hlimit hcut
  | none =>
    rw [MatchRun.answer_of_closed closed] at hcut ⊢
    have hbare : ∀ f ∈ (m.run s).found, f.groups = [] := fun f hf => by
      obtain ⟨j, -, hfind⟩ := exists_find_of_mem_runFrom hf
      rw [unsticky] at hfind
      exact groups_of_find bare hfind
    rw [split_eq hlimit hcut (lastPiece_of_closed unsticky long closed)]
    exact congrArg Except.ok (Cut.pieces_foldl_add hbare ⟨[], 0, 0⟩)

end Matcher

end Patterns
