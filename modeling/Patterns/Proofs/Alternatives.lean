import Patterns.Proofs.Union

/-!
# Alternatives of plain text

`Fragments.choices` are the alternatives between the bars of fragments that stand outside of all
groups, each with the number of groups before it. Where lists of fragments are joined as bare text
the last alternative of one runs together with the first one of the next (`choices_append`). `Host`
says what is relied on of the matching of plain text.
-/
namespace Patterns
open Patterns.Text Patterns.Extended

namespace Extended

namespace Fragment

def isClose : Fragment → Bool
  | .sign c => c.1 == ')'
  | _ => false

def isBar : Fragment → Bool
  | .sign c => c.1 == '|'
  | _ => false

/-- How many groups are open behind a fragment before which `depth` are. -/
def depth (depth : Nat) : Fragment → Nat
  | .capture _ | .opener _ => depth + 1
  | .sign c => if c.1 = ')' then depth - 1 else depth
  | _ => depth

variable {s : Fragment} {d : Nat}

@[simp] theorem isClose_shift (offset : Nat) : (s.shift offset).isClose = s.isClose := by
  cases s <;> rfl

@[simp] theorem isBar_shift (offset : Nat) : (s.shift offset).isBar = s.isBar := by cases s <;> rfl

@[simp] theorem depth_shift (offset : Nat) : (s.shift offset).depth d = s.depth d := by
  cases s <;> rfl

/-- Neither opens nor closes a group and is no bar. -/
structure IsFlat (s : Fragment) : Prop where
  isClose : s.isClose = false
  isBar : s.isBar = false
  depth (d : Nat) : s.depth d = d

theorem isFlat_sign {c : Sign} (h : c.1 ∉ [')', '|']) : (sign c).IsFlat := by
  simp only [List.mem_cons, List.not_mem_nil, or_false, not_or] at h
  constructor <;> simp [isClose, isBar, depth, h]

theorem isFlat_literal (c : Char) : (literal c).IsFlat := by
  unfold literal
  split
  · exact ⟨rfl, rfl, fun _ => rfl⟩
  · split
    · exact ⟨rfl, rfl, fun _ => rfl⟩
    · next h =>
      refine isFlat_sign fun hc => h ?_
      simp only [List.mem_cons, List.not_mem_nil, or_false] at hc
      rcases hc with rfl | rfl <;> decide

theorem isFlat_fragment (c : Literal) : c.fragment.IsFlat := by
  unfold Literal.fragment
  split
  · exact ⟨rfl, rfl, fun _ => rfl⟩
  · have hc := c.2
    simp only [List.mem_cons, List.not_mem_nil, or_false, not_or] at hc
    exact isFlat_sign (by simp [hc])

theorem depth_fragment (o : Opener) (flags : List Char) :
    (o.fragment flags).isClose = false ∧ (o.fragment flags).depth d = d + 1 := by
  cases o with
  | unnamed =>
    simp only [Opener.fragment]
    split <;> exact ⟨rfl, rfl⟩
  | _ => exact ⟨rfl, rfl⟩

end Fragment

namespace Fragments

/-- Every group is closed, also the `depth` that are open already. -/
def Closed : Nat → List Fragment → Prop
  | depth, [] => depth = 0
  | depth, s :: ss => (s.isClose = true → 0 < depth) ∧ Closed (s.depth depth) ss

/-- No bar stands outside of all groups. -/
def NoBar : Nat → List Fragment → Prop
  | _, [] => True
  | depth, s :: ss => ¬(depth = 0 ∧ s.isBar = true) ∧ NoBar (s.depth depth) ss

def choices : (depth prior : Nat) → List Fragment → List (Nat × List Fragment)
  | _, prior, [] => [(prior, [])]
  | depth, prior, s :: ss =>
    if depth = 0 ∧ s.isBar = true then (prior, []) :: choices 0 prior ss
    else
      (choices (s.depth depth) (prior + s.groups.length) ss).modifyHead fun c => (prior, s :: c.2)

/-- The last choice on the left runs together with the first one on the right. -/
def joinChoices : (left right : List (Nat × List Fragment)) → List (Nat × List Fragment)
  | [], right => right
  | [(prior, ss)], right => right.modifyHead fun c => (prior, ss ++ c.2)
  | c :: c' :: left, right => c :: joinChoices (c' :: left) right

/-- The choices of lists of fragments that are joined as bare text. -/
def choicesInOrder : Nat → List (List Fragment) → List (Nat × List Fragment)
  | prior, [] => [(prior, [])]
  | prior, ss :: sss =>
    joinChoices (choices 0 prior (shift prior ss)) (choicesInOrder (prior + (groups ss).length) sss)

variable {s : Fragment} {ss ss' : List Fragment} {sss : List (List Fragment)} {d prior offset : Nat}

section Depths

theorem Closed.append (h : Closed d ss) (h' : Closed 0 ss') : Closed d (ss ++ ss') := by
  induction ss generalizing d with
  | nil =>
    obtain rfl : d = 0 := h
    exact h'
  | cons s ss ih => exact ⟨h.1, ih h.2⟩

theorem Closed.shift (h : Closed d ss) : Closed d (shift offset ss) := by
  induction ss generalizing d with
  | nil => exact h
  | cons s ss ih =>
    refine ⟨by simpa using h.1, ?_⟩
    rw [Fragment.depth_shift]
    exact ih h.2

theorem NoBar.shift (h : NoBar d ss) : NoBar d (shift offset ss) := by
  induction ss generalizing d with
  | nil => trivial
  | cons s ss ih =>
    refine ⟨by simpa using h.1, ?_⟩
    rw [Fragment.depth_shift]
    exact ih h.2

theorem NoBar.append (h : NoBar d ss) (hc : Closed d ss) (h' : NoBar 0 ss') :
    NoBar d (ss ++ ss') := by
  induction ss generalizing d with
  | nil =>
    obtain rfl : d = 0 := hc
    exact h'
  | cons s ss ih => exact ⟨h.1, ih h.2 hc.2⟩

theorem Closed.cons_flat (h : Closed d ss) (hs : s.IsFlat) : Closed d (s :: ss) :=
  ⟨by simp [hs.isClose], by rwa [hs.depth]⟩

theorem closed_literal (cs : List Char) : Closed 0 (literal cs) := by
  induction cs with
  | nil => rfl
  | cons c cs ih => exact ih.cons_flat (Fragment.isFlat_literal c)

theorem noBar_literal (cs : List Char) : NoBar 0 (literal cs) := by
  induction cs with
  | nil => trivial
  | cons c cs ih =>
    have hc := Fragment.isFlat_literal c
    exact ⟨by simp [hc.isBar], by rwa [hc.depth]⟩

/-- A tree closes the groups that it opens. -/
theorem Closed.append_fragments {flags : List Char} {before : Groups} {after : List Char} {t : Tree}
    (h : Closed d ss) : Closed d (t.fragments flags before after ++ ss) := by
  induction t generalizing d ss before after with
  | empty => exact h
  | char c => exact h.cons_flat (Fragment.isFlat_fragment c)
  | dot =>
    simp only [Tree.fragments]
    split <;> exact h.cons_flat ⟨rfl, rfl, fun _ => rfl⟩
  | escape | oneOf | reference => exact h.cons_flat ⟨rfl, rfl, fun _ => rfl⟩
  | namedReference name =>
    simp only [Tree.fragments]
    refine cons_flat ?_ ⟨rfl, rfl, fun _ => rfl⟩
    split
    · exact ⟨by simp [Fragment.isClose], fun _ => Nat.succ_pos d, h⟩
    · exact h
  | group o body ih =>
    obtain ⟨hclose, hdepth⟩ := Fragment.depth_fragment (d := d) o flags
    have hbody : Closed (d + 1) (Fragment.close :: ss) := ⟨fun _ => Nat.succ_pos d, h⟩
    have hall : Closed (d + 1) (body.fragments flags (before ++ o.groups flags) (')' :: after) ++
        Fragment.close :: ss) := ih hbody
    simp only [Tree.fragments, List.cons_append, List.append_assoc, List.nil_append]
    exact ⟨by simp [hclose], by rwa [hdepth]⟩
  | quantified atom q ih =>
    have hq : Closed d (Fragment.quantifier q :: ss) := h.cons_flat ⟨rfl, rfl, fun _ => rfl⟩
    simpa [Tree.fragments] using ih hq
  | concat left right ihl ihr => simpa [Tree.fragments] using ihl (ihr h)
  | alternation left right ihl ihr =>
    have hbar : Closed d (Fragment.bar ::
        (right.fragments flags (before ++ left.groups flags) after ++ ss)) :=
      ⟨fun hclose => absurd hclose (by decide), ihr h⟩
    simpa [Tree.fragments] using ihl hbar

end Depths

section Choices

theorem exists_choices (d prior : Nat) (ss : List Fragment) :
    ∃ a cs, choices d prior ss = (prior, a) :: cs := by
  induction ss generalizing d prior with
  | nil => exact ⟨[], [], rfl⟩
  | cons s ss ih =>
    rw [choices]
    split
    · exact ⟨_, _, rfl⟩
    · obtain ⟨a, cs, h⟩ := ih (s.depth d) (prior + s.groups.length)
      exact ⟨s :: a, cs, by rw [h]; rfl⟩

theorem choices_of_noBar (h : NoBar d ss) : choices d prior ss = [(prior, ss)] := by
  induction ss generalizing d prior with
  | nil => rfl
  | cons s ss ih => rw [choices, if_neg h.1, ih h.2]; rfl

theorem joinChoices_cons {c : Nat × List Fragment} {left right : List (Nat × List Fragment)}
    (hl : left ≠ []) : joinChoices (c :: left) right = c :: joinChoices left right := by
  cases left with
  | nil => exact absurd rfl hl
  | cons c' left => rfl

/-- What is put in front of the first choice of the left stays there. -/
theorem joinChoices_modifyHead {left right : List (Nat × List Fragment)} (hl : left ≠ [])
    (prior : Nat) (s : Fragment) :
    joinChoices (left.modifyHead fun c => (prior, s :: c.2)) right =
      (joinChoices left right).modifyHead fun c => (prior, s :: c.2) := by
  match left, hl with
  | [c], _ =>
    cases right <;> rfl
  | c :: c' :: left, _ => rfl

theorem choices_append (h : Closed d ss) :
    choices d prior (ss ++ ss') =
      joinChoices (choices d prior ss) (choices 0 (prior + (groups ss).length) ss') := by
  induction ss generalizing d prior with
  | nil =>
    obtain rfl : d = 0 := h
    obtain ⟨a, cs, hcs⟩ := exists_choices 0 prior ss'
    rw [groups_nil, List.length_nil, Nat.add_zero, List.nil_append, hcs]
    rfl
  | cons s ss ih =>
    have hne (d prior : Nat) : choices d prior ss ≠ [] := by
      obtain ⟨a, cs, hcs⟩ := exists_choices d prior ss
      simp [hcs]
    rw [List.cons_append, choices, choices]
    split
    · next hbar =>
      obtain ⟨rfl, hs⟩ := hbar
      have hgroups : s.groups = [] := by cases s <;> first | rfl | simp [Fragment.isBar] at hs
      have hdepth : s.depth 0 = 0 := by
        cases s <;> simp_all [Fragment.isBar, Fragment.depth]
      rw [joinChoices_cons (hne 0 prior), ih (hdepth ▸ h.2), groups_cons, hgroups, List.nil_append]
    · rw [joinChoices_modifyHead (hne _ _), ih h.2, groups_cons, List.length_append, Nat.add_assoc]

/-- Joined as bare text the last alternative of each list runs together with the first one of the
next. -/
theorem choices_flatten (h : ∀ ss ∈ sss, Closed 0 ss) (prior : Nat) :
    choices 0 prior (shiftEach prior sss).flatten = choicesInOrder prior sss := by
  induction sss generalizing prior with
  | nil => rfl
  | cons ss sss ih =>
    rw [shiftEach, List.flatten_cons, choices_append (h ss (by simp)).shift, groups_shift,
      ih fun ss hm => h ss (by simp [hm])]
    rfl

end Choices

end Fragments

end Extended

open Extended

/-- How a host matches plain text: from which of its states to which, where `prior` groups stand
before the text. A bar parts all that stands beside it, a text without bars is matched one piece
after the other. A host may know only some of the syntax. -/
structure Host (σ : Type) where
  Takes : Fragment → Prop
  Matches : (prior : Nat) → List Char → σ → σ → Prop
  empty {prior : Nat} {s t : σ} : Matches prior [] s t ↔ s = t
  alternation {prior : Nat} {ss : List Fragment} {s t : σ} (takes : ∀ a ∈ ss, Takes a)
    (closed : Fragments.Closed 0 ss) (fit : Fragments.Fit prior [] ss) :
    Matches prior (Fragments.plain ss) s t ↔
      ∃ c ∈ Fragments.choices 0 prior ss, Matches c.1 (Fragments.plain c.2) s t
  sequence {prior : Nat} {ss ss' : List Fragment} {s t : σ} (takes : ∀ a ∈ ss ++ ss', Takes a)
    (closed : Fragments.Closed 0 ss) (closed' : Fragments.Closed 0 ss')
    (noBar : Fragments.NoBar 0 ss) (noBar' : Fragments.NoBar 0 ss')
    (fit : Fragments.Fit prior [] (ss ++ ss')) (front : ∀ q, ss'.head? ≠ some (.quantifier q)) :
    Matches prior (Fragments.plain (ss ++ ss')) s t ↔
      ∃ u, Matches prior (Fragments.plain ss) s u ∧
        Matches (prior + (Fragments.groups ss).length) (Fragments.plain ss') u t

namespace Host

variable {σ : Type} {s t : σ}

/-- The parts are matched one after the other, each as it is behind the groups of those before. -/
def MatchesInOrder (host : Host σ) : (prior : Nat) → List Needle → σ → σ → Prop
  | _, [], s, t => s = t
  | prior, p :: ps, s, t => ∃ u, host.Matches prior (p.source prior) s u ∧
      host.MatchesInOrder (prior + p.names.length) ps u t

/-- A letter, a digit or a bar. -/
def IsWordSign (a : Fragment) : Prop := ∃ c, a = .sign c ∧ (c.1.isAlphanum = true ∨ c.1 = '|')

theorem plain_choices {ss : List Fragment} (h : ∀ a ∈ ss, IsWordSign a) (prior : Nat) :
    (Fragments.choices 0 prior ss).map (fun c => Fragments.plain c.2) =
      (Fragments.plain ss).splitOn '|' := by
  induction ss generalizing prior with
  | nil => rfl
  | cons a ss ih =>
    obtain ⟨c, rfl, hc⟩ := h a (by simp)
    have hss := fun prior => ih (fun a ha => h a (by simp [ha])) prior
    rw [Fragments.plain_cons, Fragment.plain, Fragment.print, List.singleton_append,
      List.splitOn_cons_eq_if_modifyHead, Fragments.choices]
    by_cases hbar : c.1 = '|'
    · simp [hbar, Fragment.isBar, hss]
    · have hdepth : (Fragment.sign c).depth 0 = 0 := by simp [Fragment.depth]
      obtain ⟨b, cs, hcs⟩ := Fragments.exists_choices 0 (prior + (Fragment.sign c).groups.length) ss
      rw [if_neg (by simp [hbar, Fragment.isBar]), if_neg (by simp [hbar]), hdepth, ← hss, hcs]
      simp [Fragment.plain, Fragment.print]

theorem not_mem_of_mem_splitOn {w text : List Char} (h : w ∈ text.splitOn '|') : '|' ∉ w := by
  induction text generalizing w with
  | nil => simp_all
  | cons a text ih =>
    rw [List.splitOn_cons_eq_if_modifyHead] at h
    by_cases ha : a = '|'
    · rcases List.mem_cons.mp (by simpa [ha] using h) with rfl | h
      · simp
      · exact ih h
    · obtain ⟨v, vs, hvs⟩ := List.exists_cons_of_ne_nil (List.splitOn_ne_nil '|' text)
      rw [hvs] at h ih
      rcases List.mem_cons.mp (by simpa [ha] using h) with rfl | h
      · simpa [Ne.symm ha] using ih (w := v) (by simp)
      · exact ih (by simp [h])

/-- A host that knows letters, digits and bars. Its states are the texts that are left to match. -/
def words : Host (List Char) where
  Takes := IsWordSign
  Matches _ text s t := ∃ w ∈ text.splitOn '|', s = w ++ t
  empty := by simp
  alternation {prior ss s t} takes _ _ := by
    have hsplit := plain_choices takes prior
    constructor
    · rintro ⟨w, hw, hs⟩
      obtain ⟨c, hc, rfl⟩ := List.mem_map.mp (hsplit ▸ hw)
      refine ⟨c, hc, Fragments.plain c.2, ?_, hs⟩
      simp [List.splitOn_eq_singleton (not_mem_of_mem_splitOn hw)]
    · rintro ⟨c, hc, w, hw, hs⟩
      have hmem : Fragments.plain c.2 ∈ (Fragments.plain ss).splitOn '|' :=
        hsplit ▸ List.mem_map.mpr ⟨c, hc, rfl⟩
      rw [List.splitOn_eq_singleton (not_mem_of_mem_splitOn hmem), List.mem_singleton] at hw
      exact ⟨w, hw ▸ hmem, hs⟩
  sequence {prior ss ss' s t} takes closed closed' noBar noBar' _ _ := by
    have hword {ss : List Fragment} (h : ∀ a ∈ ss, IsWordSign a) (noBar : Fragments.NoBar 0 ss) :
        (Fragments.plain ss).splitOn '|' = [Fragments.plain ss] := by
      rw [← plain_choices h 0, Fragments.choices_of_noBar noBar]
      rfl
    rw [hword takes (noBar.append closed noBar'),
      hword (fun a ha => takes a (by simp [ha])) noBar,
      hword (fun a ha => takes a (by simp [ha])) noBar']
    simp

end Host

end Patterns
