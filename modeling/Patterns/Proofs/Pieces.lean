import Patterns.Proofs.Rewriting
import Patterns.Proofs.Splitting

/-!
# Pieces and separators

The pieces of a subject are the gaps between separators that stand one behind the other. With the
separators in their places they are the subject. A limit keeps the first of them, though a run with
a limit breaks off earlier.
-/
namespace Patterns
open Patterns.Text Patterns.Plain

variable {s : Subject} {c c' : Cut} {f : Match s} {fs : List (Match s)} {i : Nat} {e : Error}

namespace Cut

theorem prefix_add (c : Cut) (f : Match s) : c.pieces <+: (c.add f).pieces :=
  List.prefix_append _ _

theorem prefix_foldl_add (c : Cut) (fs : List (Match s)) :
    c.pieces <+: (fs.foldl add c).pieces := by
  induction fs generalizing c with
  | nil => exact List.prefix_rfl
  | cons f fs ih => exact (prefix_add c f).trans (ih _)

/-- Separators without groups add the gaps before them. -/
theorem pieces_foldl_add (bare : ∀ f ∈ fs, f.groups = []) (c : Cut) :
    (fs.foldl add c).pieces ++ [some (s.slice (fs.foldl add c).last s.size)] =
      c.pieces ++ (gaps s c.last fs).map some := by
  induction fs generalizing c with
  | nil => rfl
  | cons f fs ih =>
    obtain ⟨hf, hfs⟩ := List.forall_mem_cons.mp bare
    have hpieces : (c.add f).pieces = c.pieces ++ [some (s.slice c.last f.start)] := by
      simp [add, Match.groupTexts, hf]
    rw [List.foldl_cons, ih hfs, hpieces, List.append_assoc]
    rfl

end Cut

namespace Matcher

variable {m : Matcher} {enough : Nat → Bool}

/-- A pattern without groups has matches without groups. -/
theorem groups_of_find (bare : m.body.groups = 0) (h : m.find s i false = .ok (some f)) :
    f.groups = [] := by
  cases hsearch : m.body.search s i with
  | error e => simp [find, hsearch] at h
  | ok found =>
    rw [find_of_search hsearch] at h
    obtain ⟨found, rfl, rfl⟩ := Option.map_eq_some_iff.mp (Except.ok.inj h)
    have hlength := Regex.length_groups_of_search hsearch
    exact List.eq_nil_of_length_eq_zero (Nat.le_zero.mp (bare ▸ hlength))

section Cutting

theorem cutFrom_of_error (h : m.searchAt s i false = .error e) :
    m.cutFrom s enough i c = .error e := by
  rcases Nat.lt_or_ge s.size i with hi | hi
  · rw [searchAt_of_none (find_of_size_lt hi)] at h
    cases h
  · rw [cutFrom, dif_pos hi, h]

/-- The separators from `i` on that cutting comes to where there is never enough. -/
inductive Cuts (m : Matcher) (s : Subject) : Nat → Cut → List (Match s) → Prop
  | nothing {i : Nat} {c : Cut} (search : m.searchAt s i false = .ok none) : Cuts m s i c []
  | passed {i : Nat} {c : Cut} {hit : Hit s i} {fs : List (Match s)}
    (search : m.searchAt s i false = .ok (some hit)) (behind : ¬c.last < hit.val.stop)
    (others : Cuts m s hit.val.resume c fs) : Cuts m s i c fs
  | cut {i : Nat} {c : Cut} {hit : Hit s i} {fs : List (Match s)}
    (search : m.searchAt s i false = .ok (some hit)) (ahead : c.last < hit.val.stop)
    (others : Cuts m s hit.val.resume (c.add hit.val) fs) : Cuts m s i c (hit.val :: fs)

/-- Only a search makes cutting fail. -/
theorem exists_find_of_cutFrom (h : m.cutFrom s enough i c = .error e) :
    ∃ j, m.find s j false = .error e := by
  induction hn : s.size + 1 - i using Nat.strongRecOn generalizing i c with
  | ind n ih =>
    cases hsearch : m.searchAt s i false with
    | error e' =>
      obtain rfl := Except.error.inj ((cutFrom_of_error hsearch).symm.trans h)
      exact ⟨i, find_of_searchAt_error hsearch⟩
    | ok found =>
      cases found with
      | none => rw [cutFrom_of_nothing hsearch] at h; cases h
      | some hit =>
        have hi := hit.property
        have hresume := hit.val.start_lt_resume
        have hsize : hit.val.start ≤ s.size := Nat.le_trans hit.val.start_le hit.val.stop_le
        rw [cutFrom_of_hit hsearch] at h
        split at h
        · split at h
          · cases h
          · exact ih _ (by omega) h rfl
        · exact ih _ (by omega) h rfl

/-- A cut that has not failed has come to separators, and added each of them. -/
theorem exists_cuts (h : m.cutFrom s (fun _ => false) i c = .ok c') :
    ∃ fs, m.Cuts s i c fs ∧ c' = fs.foldl Cut.add c := by
  induction hn : s.size + 1 - i using Nat.strongRecOn generalizing i c with
  | ind n ih =>
    cases hsearch : m.searchAt s i false with
    | error e => rw [cutFrom_of_error hsearch] at h; cases h
    | ok found =>
      cases found with
      | none =>
        rw [cutFrom_of_nothing hsearch] at h
        exact ⟨[], .nothing hsearch, (Except.ok.inj h).symm⟩
      | some hit =>
        have hi := hit.property
        have hresume := hit.val.start_lt_resume
        have hsize : hit.val.start ≤ s.size := Nat.le_trans hit.val.start_le hit.val.stop_le
        rw [cutFrom_of_hit hsearch, if_neg Bool.false_ne_true] at h
        split at h
        · next ahead =>
          obtain ⟨fs, cuts, rfl⟩ := ih _ (by omega) h rfl
          exact ⟨hit.val :: fs, .cut hsearch ahead cuts, rfl⟩
        · next behind =>
          obtain ⟨fs, cuts, rfl⟩ := ih _ (by omega) h rfl
          exact ⟨fs, .passed hsearch behind cuts, rfl⟩

namespace Cuts

theorem exists_find (h : m.Cuts s i c fs) :
    ∀ f ∈ fs, ∃ j ≤ f.start, m.find s j false = .ok (some f) := by
  induction h with
  | nothing search => simp
  | passed search behind others ih => exact ih
  | @cut i c hit fs search ahead others ih =>
    exact List.forall_mem_cons.mpr ⟨⟨i, hit.property, find_of_searchAt search⟩, ih⟩

/-- Each separator stands behind those before it, and at least its end is a position further. -/
theorem pairwise (h : m.Cuts s i c fs) (last : c.last ≤ i) :
    (∀ f ∈ fs, c.last ≤ f.start ∧ c.last < f.stop) ∧
      fs.Pairwise fun f f' => f.stop ≤ f'.start ∧ f.stop < f'.stop := by
  induction h with
  | nothing search => exact ⟨by simp, .nil⟩
  | @passed i c hit fs search behind others ih =>
    have hi := hit.property
    have hresume := hit.val.start_lt_resume
    exact ih (by omega)
  | @cut i c hit fs search ahead others ih =>
    obtain ⟨hothers, hpairs⟩ := ih hit.val.stop_le_resume
    have hi := hit.property
    refine ⟨List.forall_mem_cons.mpr ⟨⟨by omega, ahead⟩, fun f hf => ?_⟩, .cons hothers hpairs⟩
    obtain ⟨hstart, hstop⟩ := hothers f hf
    have hadd : (c.add hit.val).last = hit.val.stop := rfl
    have hstart_le := hit.val.start_le
    omega

/-- With a limit, cutting comes to the same pieces, or it breaks off with the first of them. -/
theorem exists_cutFrom (h : m.Cuts s i c fs) (enough : Nat → Bool) :
    ∃ c', m.cutFrom s enough i c = .ok c' ∧ (c' = fs.foldl Cut.add c ∨
      enough c'.pieces.length = true ∧ c'.pieces <+: (fs.foldl Cut.add c).pieces) := by
  induction h with
  | nothing search => exact ⟨_, cutFrom_of_nothing search, .inl rfl⟩
  | passed search behind others ih => rwa [cutFrom_of_hit search, if_neg behind]
  | @cut i c hit fs search ahead others ih =>
    rw [cutFrom_of_hit search, if_pos ahead, List.foldl_cons]
    split
    · next full => exact ⟨_, rfl, .inr ⟨full, Cut.prefix_foldl_add _ _⟩⟩
    · exact ih

end Cuts

end Cutting

section Pieces

variable {limit : Option Nat} {pieces tail : Pieces}

/-- An empty last piece may be left out. -/
theorem tail_of_lastPiece (h : m.lastPiece s c = .ok tail) :
    tail = [some (s.slice c.last s.size)] ∨ tail = [] ∧ s.slice c.last s.size = "" := by
  unfold lastPiece at h
  split at h
  · next hlast =>
    have hempty : s.slice c.last s.size = "" := by rw [hlast, slice_self]
    rw [hempty]
    split at h
    · exact .inl (Except.ok.inj h).symm
    · cases hsearch : m.searchAt (.ofString "") 0 false with
      | error e => rw [hsearch] at h; cases h
      | ok found =>
        rw [hsearch] at h
        cases found with
        | none => exact .inl (Except.ok.inj h).symm
        | some hit => exact .inr ⟨(Except.ok.inj h).symm, rfl⟩
  · exact .inl (Except.ok.inj h).symm

theorem find_of_lastPiece (h : m.lastPiece s c = .error e) :
    m.find (.ofString "") 0 false = .error e := by
  unfold lastPiece at h
  split at h
  · split at h
    · cases h
    · cases hsearch : m.searchAt (.ofString "") 0 false with
      | error e' =>
        rw [hsearch] at h
        obtain rfl := Except.error.inj h
        exact find_of_searchAt_error hsearch
      | ok found => rw [hsearch] at h; cases found <;> cases h
  · cases h

theorem split_of_cutFrom_error (hlimit : limit ≠ some 0)
    (h : m.cutFrom s (fun n => limit.any (· ≤ n)) 0 ⟨[], 0, 0⟩ = .error e) :
    m.split s limit = .error e := by
  rw [split, if_neg hlimit, h]
  rfl

theorem split_of_lastPiece_error (hlimit : limit ≠ some 0)
    (hcut : m.cutFrom s (fun n => limit.any (· ≤ n)) 0 ⟨[], 0, 0⟩ = .ok c)
    (h : m.lastPiece s c = .error e) : m.split s limit = .error e := by
  rw [split, if_neg hlimit]
  simp only [hcut, h, bind, Except.bind]

/-- The one search that is not of the subject asks whether the separator matches empty text. -/
theorem exists_find_of_split (h : m.split s limit = .error e) :
    (∃ j, m.find s j false = .error e) ∨ m.find (.ofString "") 0 false = .error e := by
  by_cases hlimit : limit = some 0
  · rw [split, if_pos hlimit] at h
    cases h
  · cases hcut : m.cutFrom s (fun n => limit.any (· ≤ n)) 0 ⟨[], 0, 0⟩ with
    | error e' =>
      obtain rfl := Except.error.inj ((split_of_cutFrom_error hlimit hcut).symm.trans h)
      exact .inl (exists_find_of_cutFrom hcut)
    | ok c =>
      cases hlast : m.lastPiece s c with
      | error e' =>
        obtain rfl := Except.error.inj ((split_of_lastPiece_error hlimit hcut hlast).symm.trans h)
        exact .inr (find_of_lastPiece hlast)
      | ok tail => rw [split_eq hlimit hcut hlast] at h; cases h

/-- Without a limit all separators are added, and the last piece is put behind. -/
theorem exists_cuts_of_split (h : m.split s none = .ok pieces) :
    ∃ fs tail, m.Cuts s 0 ⟨[], 0, 0⟩ fs ∧
      m.lastPiece s (fs.foldl Cut.add ⟨[], 0, 0⟩) = .ok tail ∧
      pieces = (fs.foldl Cut.add ⟨[], 0, 0⟩).pieces ++ tail := by
  have hlimit : (none : Option Nat) ≠ some 0 := by simp
  cases hcut : m.cutFrom s (fun n => (none : Option Nat).any (· ≤ n)) 0 ⟨[], 0, 0⟩ with
  | error e => rw [split_of_cutFrom_error hlimit hcut] at h; cases h
  | ok c =>
    obtain ⟨fs, cuts, rfl⟩ := exists_cuts hcut
    cases hlast : m.lastPiece s (fs.foldl Cut.add ⟨[], 0, 0⟩) with
    | error e => rw [split_of_lastPiece_error hlimit hcut hlast] at h; cases h
    | ok tail =>
      rw [split_eq hlimit hcut hlast] at h
      exact ⟨fs, tail, cuts, hlast, (Except.ok.inj h).symm⟩

/-- A limit keeps the first pieces, if asking whether the separator matches empty text succeeds. -/
theorem split_limit (h : m.split s none = .ok pieces) (n : Nat) :
    m.split s (some n) = .ok (pieces.take n) ∨
      ∃ e, m.split s (some n) = .error e ∧ m.find (.ofString "") 0 false = .error e := by
  by_cases hn : n = 0
  · subst hn
    exact .inl (by simp [split])
  · have hlimit : some n ≠ some 0 := by simpa using hn
    obtain ⟨fs, tail, cuts, hlast, rfl⟩ := exists_cuts_of_split h
    obtain ⟨c, hcut, hsame⟩ := cuts.exists_cutFrom fun k => (some n).any (· ≤ k)
    cases hlast' : m.lastPiece s c with
    | error e =>
      exact .inr ⟨e, split_of_lastPiece_error hlimit hcut hlast', find_of_lastPiece hlast'⟩
    | ok tail' =>
      refine .inl ((split_eq hlimit hcut hlast').trans (congrArg Except.ok ?_))
      rcases hsame with rfl | ⟨henough, hfront⟩
      · obtain rfl := Except.ok.inj (hlast.symm.trans hlast')
        rfl
      · exact atMost_of_enough henough (hfront.trans (List.prefix_append _ _)) tail'

end Pieces

end Matcher

end Patterns
