import Patterns.Proofs.Fragments

/-!
# Plain text as a pattern

The text of fragments is read as a pattern: what is written for it is its plain text, and its groups
are recorded. A name that stands for two groups is refused.
-/
namespace Patterns.Extended
open Patterns.Text

/-- No name stands for two groups. -/
def DistinctNames (groups : Groups) : Prop := (groups.filterMap id).Nodup

instance (groups : Groups) : Decidable (DistinctNames groups) :=
  inferInstanceAs (Decidable (List.Nodup _))

/-- The flags that the compiler implements are off. -/
def Context.IsBare (c : Context) : Prop := ∀ flag ∈ Flags.extended, c.hasFlag flag = false

section Names

variable {before after : Groups} {name : String}

theorem distinctNames_append_none : DistinctNames (before ++ [none]) ↔ DistinctNames before := by
  simp [DistinctNames]

theorem distinctNames_append_some :
    DistinctNames (before ++ [some name]) ↔ DistinctNames before ∧ some name ∉ before := by
  have hmem : (∀ a ∈ before.filterMap id, ∀ b ∈ [name], a ≠ b) ↔ some name ∉ before := by
    constructor
    · intro h hm
      exact h name (List.mem_filterMap.mpr ⟨_, hm, rfl⟩) name (by simp) rfl
    · rintro h a ha b hb rfl
      obtain ⟨o, ho, rfl : o = some a⟩ := List.mem_filterMap.mp ha
      obtain rfl := List.mem_singleton.mp hb
      exact h ho
  rw [DistinctNames, List.filterMap_append, List.nodup_append, ← hmem]
  simp [DistinctNames]

theorem DistinctNames.left (h : DistinctNames (before ++ after)) : DistinctNames before := by
  simp only [DistinctNames, List.filterMap_append] at h ⊢
  exact h.of_append_left

end Names

section Classes

namespace ClassItem

/-- An item that is printed as what is written for this one. -/
def settled : ClassItem → ClassItem
  | .char c =>
    if h : c.1 ∈ ['[', '&', '~'] then
      .escape ⟨c.1, by
        simp only [List.mem_cons, List.not_mem_nil, or_false] at h
        rcases h with h | h | h <;> rw [h] <;> decide⟩
    else .char c
  | .escape c => .escape c

theorem text_settled (i : ClassItem) : i.settled.text = i.plain := by
  cases i with
  | char c =>
    by_cases h : c.1 ∈ ['[', '&', '~']
    · simp only [settled, plain, dif_pos h, if_pos h, text]
    · simp only [settled, plain, dif_neg h, if_neg h, text]
  | escape c => rfl

theorem plain_settled (i : ClassItem) : i.settled.plain = i.plain := by
  cases i with
  | char c =>
    by_cases h : c.1 ∈ ['[', '&', '~']
    · simp only [settled, plain, dif_pos h, if_pos h]
    · simp only [settled, plain, dif_neg h, if_neg h]
  | escape c => rfl

theorem plain_ne_nil (i : ClassItem) : i.plain ≠ [] := by
  cases i with
  | char c =>
    simp only [plain]
    split <;> simp
  | escape c => simp [plain]

theorem eq_caret {i : ClassItem} (h : i.plain = ['^']) : i.text = ['^'] := by
  cases i with
  | char c =>
    simp only [plain] at h
    split at h
    · simp at h
    · exact h
  | escape c => exact h

end ClassItem

private theorem flatMap_plain_eq_nil {is : List ClassItem} (h : is.flatMap ClassItem.plain = []) :
    is = [] := by
  cases is with
  | nil => rfl
  | cons i is => exact absurd (List.append_eq_nil_iff.mp h).1 i.plain_ne_nil

private theorem flatMap_text_eq_caret {is : List ClassItem}
    (h : is.flatMap ClassItem.plain = ['^']) : is.flatMap ClassItem.text = ['^'] := by
  cases is with
  | nil => simp at h
  | cons i is =>
    rw [List.flatMap_cons, List.append_eq_singleton_iff] at h
    rcases h with ⟨hi, -⟩ | ⟨hi, his⟩
    · exact absurd hi i.plain_ne_nil
    · rw [List.flatMap_cons, ClassItem.eq_caret hi, flatMap_plain_eq_nil his]
      rfl

theorem ClassBody.exists_settled (body : ClassBody) :
    ∃ body' : ClassBody, body'.text = body.plain ∧ body'.plain = body.plain := by
  obtain ⟨is, hne, hcaret⟩ := body
  have htext : (is.map ClassItem.settled).flatMap ClassItem.text = is.flatMap ClassItem.plain := by
    simp [List.flatMap_map, ClassItem.text_settled]
  have hplain : (is.map ClassItem.settled).flatMap ClassItem.plain =
      is.flatMap ClassItem.plain := by
    simp [List.flatMap_map, ClassItem.plain_settled]
  refine ⟨⟨is.map ClassItem.settled, ?_, ?_⟩, htext, hplain⟩
  · rw [htext]
    intro h
    exact hne (by rw [flatMap_plain_eq_nil h]; rfl)
  · rw [htext]
    exact fun h => hcaret (flatMap_text_eq_caret h)

end Classes

variable {e : Setting} {c : Context} {s : Fragment} {ss : List Fragment} {r : List Char}

theorem reads_fragment (hb : e.subpatterns = none) (bare : c.IsBare)
    (fits : s.Fits c.groupCount r) (distinct : DistinctNames (c.groups ++ s.groups)) :
    Reads e c s.text r s.plain ⟨c.flags, c.groups ++ s.groups⟩ := by
  have hn : c.flags.contains 'n' = false := bare 'n' (by decide)
  have hs : c.hasFlag 's' = false := bare 's' (by decide)
  have hx : c.hasFlag 'x' = false := bare 'x' (by decide)
  cases s with
  | sign a =>
    have ha := a.2
    simp only [List.mem_cons, List.not_mem_nil, or_false, not_or] at ha
    refine Reads.unchanged ?_
    by_cases hdot : a.1 = '.'
    · have hread := reads_dot (e := e) (c := c) (r := r)
      rw [if_neg (by simp [hs]), ← hdot] at hread
      exact hread
    · have hread := reads_char (e := e) (c := c) (r := r) (a := a.1)
        (by simp [Lexeme.starters, ha, hdot]) (by simp [ha]) (by simp [hx])
      have ho : (Setting.single .outside a.1).1 = [a.1] := by
        unfold Setting.single
        split <;> simp_all
      rwa [ho] at hread
  | escape u =>
    refine Reads.unchanged (reads_copied (fun _ => ?_) (.escape (u.escapeLength_eq r)))
    exact scan?_letter u.letter_isDigit u.letter_ne
  | oneOf body =>
    obtain ⟨body', htext, hplain⟩ := body.exists_settled
    have hread := reads_class (c := c) (r := r) hb body'
    rw [htext, hplain] at hread
    exact hread.unchanged
  | reference n => exact (reads_reference fits.1 fits.2.1 fits.2.2).unchanged
  | capture name =>
    cases name with
    | none =>
      have hread := reads_opener (e := e) (c := c) .unnamed trivial fits
      have hplain : Opener.unnamed.plain c.flags = ['('] := by simp only [Opener.plain, hn]; rfl
      have hgroups : Opener.unnamed.groups c.flags = [none] := by simp only [Opener.groups, hn]; rfl
      rwa [hplain, hgroups] at hread
    | some name =>
      exact reads_opener (.named false name) (distinctNames_append_some.mp distinct).2 fits
  | opener o => exact reads_bareOpener o.2
  | quantifier q => exact (reads_quantifier_text q fits).unchanged

/-- The text of fragments is written as their plain text. -/
theorem reads_fragments (hb : e.subpatterns = none) (bare : c.IsBare)
    (fit : Fragments.Fit c.groupCount r ss)
    (distinct : DistinctNames (c.groups ++ Fragments.groups ss)) :
    Reads e c (Fragments.text ss) r (Fragments.plain ss)
      ⟨c.flags, c.groups ++ Fragments.groups ss⟩ := by
  induction ss generalizing c with
  | nil => exact Reads.nil.unchanged
  | cons s ss ih =>
    rw [Fragments.groups_cons, ← List.append_assoc] at distinct ⊢
    have hread := reads_fragment hb bare
      (fit.1.congr (Fragments.head?_text_append (r := r) rfl)) distinct.left
    have htail := ih (c := ⟨c.flags, c.groups ++ s.groups⟩) bare
      (by simpa [Context.groupCount] using fit.2) distinct
    exact hread.append htail

theorem toPlain_fragments (limit : Nat) (ht : e.dialect.tokens = []) (hb : e.subpatterns = none)
    (hp : e.pattern.toList = Fragments.text ss) (bare : c.IsBare)
    (fit : Fragments.Fit c.groupCount [] ss)
    (distinct : DistinctNames (c.groups ++ Fragments.groups ss)) :
    e.toPlain limit c = .ok (Fragments.plain ss, ⟨c.flags, c.groups ++ Fragments.groups ss⟩) := by
  refine toPlain_of_reads ht ?_
  rw [hp]
  exact reads_fragments hb bare fit distinct

section Refusals

/-- Outside of classes reading `text` before `after` comes to an error, without an expansion. -/
def Refuses (e : Setting) (c : Context) (text after : List Char) (err : Error) : Prop :=
  ∀ atStart, ∃ ms q, Reading e ⟨atStart, text ++ after, .outside, c⟩ ms q ∧ expansions ms = 0 ∧
    e.move? q = .error err

variable {c' : Context} {t t' w : List Char} {err : Error} {name : GroupName}

theorem Refuses.append_left (h : Reads e c t (t' ++ r) w c') (h' : Refuses e c' t' r err) :
    Refuses e c (t ++ t') r err := by
  intro atStart
  obtain ⟨ms, atStart', hms, -, hx⟩ := h atStart
  obtain ⟨ms', q, hms', hx', herr⟩ := h' atStart'
  refine ⟨ms ++ ms', q, ?_, by simp [hx, hx'], herr⟩
  rw [List.append_assoc]
  exact hms.trans hms'

theorem Refuses.append_right (h : Refuses e c t (t' ++ r) err) : Refuses e c (t ++ t') r err := by
  intro atStart
  rw [List.append_assoc]
  exact h atStart

theorem checkName_repeated (h : some name.string ∈ c.groups) :
    c.checkName name.string = .error (.repeatedGroupName name.string) := by
  obtain ⟨⟨hne, hall⟩, hdigits⟩ := name.2
  have hempty : name.string.isEmpty = false := by simp [GroupName.string, hne]
  have hchars : name.string.toList.all Flags.isFlagChar = true := by
    simpa [GroupName.string] using hall
  have hnumeric : name.string.toList.all Char.isDigit = false := by
    simpa [GroupName.string, AreDigits] using hdigits
  simp [Context.checkName, hempty, hchars, hnumeric, groupIndex?_eq_some h]

theorem refuses_capture (h : some name.string ∈ c.groups) :
    Refuses e c (Fragment.capture (some name)).text r (.repeatedGroupName name.string) := by
  intro atStart
  refine ⟨[], _, .done _, rfl, ?_⟩
  have hscan := (Lexeme.Spelled.namedGroup (s := e.lexemeSettings ⟨atStart,
    (Fragment.capture (some name)).text ++ r, .outside, c⟩) (r := r) name.2.1).scan?
  have htext : (Fragment.capture (some name)).text = '(' :: '?' :: '<' :: (name.1 ++ ['>']) := by
    simp [Fragment.text, Fragment.print, Fragment.named]
  rw [htext] at hscan ⊢
  simp only [Setting.move?, hscan, Lexeme.emit]
  have hadd : c.addGroup (some (String.ofList name.1)) =
      .error (.repeatedGroupName name.string) := by
    simp [Context.addGroup, checkName_repeated h, show String.ofList name.1 = name.string from rfl,
      bind, Except.bind]
  simp [hadd, bind, Except.bind]

/-- Where a name comes back the text of fragments is refused. -/
theorem exists_refuses (hb : e.subpatterns = none) (bare : c.IsBare)
    (fit : Fragments.Fit c.groupCount r ss) (before : DistinctNames c.groups)
    (repeated : ¬DistinctNames (c.groups ++ Fragments.groups ss)) :
    ∃ name, Refuses e c (Fragments.text ss) r (.repeatedGroupName name) := by
  induction ss generalizing c with
  | nil => simp [before] at repeated
  | cons s ss ih =>
    rw [Fragments.groups_cons, ← List.append_assoc] at repeated
    by_cases hs : DistinctNames (c.groups ++ s.groups)
    · have hread := reads_fragment hb bare
        (fit.1.congr (Fragments.head?_text_append (r := r) rfl)) hs
      obtain ⟨name, hname⟩ := ih (c := ⟨c.flags, c.groups ++ s.groups⟩) bare
        (by simpa [Context.groupCount] using fit.2) hs repeated
      exact ⟨name, .append_left hread hname⟩
    · cases s with
      | capture name =>
        cases name with
        | none => exact absurd (distinctNames_append_none.mpr before) hs
        | some name =>
          have hm : some name.string ∈ c.groups := by
            by_contra hm
            exact hs (distinctNames_append_some.mpr ⟨before, hm⟩)
          exact ⟨name.string, (refuses_capture hm).append_right⟩
      | _ => exact absurd (by simpa [Fragment.groups] using before) hs

private theorem exists_finish_eq (limit left : Nat) {p q : Spot} {ms : History} {s : Scan}
    (ht : e.dialect.tokens = []) (h : Reading e p ms q) (hp : s.spot = p) (hx : expansions ms = 0) :
    ∃ s', s'.spot = q ∧ e.finish limit left s = e.finish limit left s' := by
  induction h generalizing s with
  | done p => exact ⟨s, hp, rfl⟩
  | @step p q m ms move tail ih =>
    subst hp
    have more : s.rest ≠ [] := by
      intro hs
      simp [move?_eq_none_iff.mpr (show s.spot.rest = [] from hs)] at move
    cases m with
    | expand p' => simp [Move.isExpansion] at hx
    | read t w p' =>
      obtain ⟨next, shorter, hstep, rfl, -⟩ := step_of_read ht more move
      obtain ⟨s', hs', hfinish⟩ := ih rfl (by simpa [Move.isExpansion] using hx)
      refine ⟨s', hs', ?_⟩
      rw [Setting.finish, dif_neg more, hstep]
      exact hfinish

theorem toPlain_of_refuses {limit : Nat} (ht : e.dialect.tokens = [])
    (h : Refuses e c e.pattern.toList [] err) : e.toPlain limit c = .error err := by
  obtain ⟨ms, q, hms, hx, herr⟩ := h true
  rw [List.append_nil] at hms
  obtain ⟨s', rfl, hfinish⟩ := exists_finish_eq limit limit
    (s := .start e.pattern c) ht hms rfl hx
  have more : s'.rest ≠ [] := by
    intro hs
    simp [move?_eq_none_iff.mpr (show s'.spot.rest = [] from hs)] at herr
  have hfail : e.finish limit limit (.start e.pattern c) = .error err := by
    rw [hfinish, Setting.finish, dif_neg more, step_of_error ht more herr]
  simp [Setting.toPlain, hfail, bind, Except.bind]

/-- Where a name comes back in the text of fragments that text has no plain text. -/
theorem exists_toPlain_fragments_error (limit : Nat) (ht : e.dialect.tokens = [])
    (hb : e.subpatterns = none) (hp : e.pattern.toList = Fragments.text ss) (bare : c.IsBare)
    (fit : Fragments.Fit c.groupCount [] ss) (before : DistinctNames c.groups)
    (repeated : ¬DistinctNames (c.groups ++ Fragments.groups ss)) :
    ∃ name, e.toPlain limit c = .error (.repeatedGroupName name) := by
  obtain ⟨name, hname⟩ := exists_refuses hb bare fit before repeated
  refine ⟨name, toPlain_of_refuses ht ?_⟩
  rwa [hp]

end Refusals

end Patterns.Extended
