import Patterns.Plain.ClassText

/-!
# Classes without operators

`plain?` reads the text of a class as nothing but members and ranges. Where no bracket stands in a
class and no mark of an operator is doubled, the class denotes just that.
-/
namespace Patterns.Plain.ClassText

/-- The union of `s` with members and ranges; a hyphen is punctuation between two characters. -/
def members? (s : CharSet) : List ClassToken → Option CharSet
  | [] => some s
  | .nested t :: rest => members? (.union s t) rest
  | first :: .mark '-' :: last :: more => do
    let a ← first.char?
    let b ← last.char?
    if a ≤ b then members? (.union s (.range a b)) more else none
  | first :: rest => members? (.union s (setOf first)) rest

/-- The plain set of a class: members and ranges, negated by a caret that stands first. -/
def plain? (anyCase : Bool) : List ClassToken → Option CharSet
  | .mark '^' :: ts => do return .compl (.foldIf anyCase (← members? .none ts))
  | ts => do return .foldIf anyCase (← members? .none ts)

/-- No bracket stands in a class, and no mark of an operator right behind itself. -/
structure IsFlat (ts : List ClassToken) : Prop where
  unopened : .mark '[' ∉ ts
  unclosed : .mark ']' ∉ ts
  single : ∀ c, ClassOperator.ofMark? c ≠ none → ¬[.mark c, .mark c] <:+: ts

variable {anyCase : Bool} {t : ClassToken} {ts ts' : List ClassToken} {s : CharSet} {fuel : Nat}

namespace IsFlat

theorem of_suffix (h : IsFlat ts) (hs : ts' <:+ ts) : IsFlat ts' where
  unopened hm := h.unopened (hs.mem hm)
  unclosed hm := h.unclosed (hs.mem hm)
  single c hc hi := h.single c hc (hi.trans hs.isInfix)

theorem tail (h : IsFlat (t :: ts)) : IsFlat ts := h.of_suffix (List.suffix_cons t ts)

theorem ne_close (h : IsFlat (t :: ts)) : t ≠ .mark ']' := by
  rintro rfl
  exact h.unclosed (by simp)

theorem ne_open (h : IsFlat (t :: ts)) : t ≠ .mark '[' := by
  rintro rfl
  exact h.unopened (by simp)

theorem operator? (h : IsFlat ts) : ClassText.operator? (ts ++ [.mark ']']) = none := by
  unfold ClassText.operator?
  split
  · next a b rest he =>
    split
    · next hab =>
      obtain rfl : a = b := by simpa using hab
      cases hc : ClassOperator.ofMark? a with
      | none => rfl
      | some op =>
        match ts with
        | [] => simp at he
        | [t] =>
          obtain ⟨rfl, he, -⟩ : t = .mark a ∧ ']' = a ∧ [] = rest := by simpa using he
          exact absurd (congrArg ClassToken.mark he.symm) h.ne_close
        | t :: t' :: ts =>
          obtain ⟨rfl, rfl, -⟩ : t = .mark a ∧ t' = .mark a ∧ _ := by simpa using he
          have hdoubled := (List.prefix_append [.mark a, .mark a] ts).isInfix
          exact absurd hdoubled (h.single a (by simp [hc]))
    · rfl
  · rfl

end IsFlat

section Body

variable {first last : ClassToken} {more rest : List ClassToken}

theorem isMark_eq_true_iff {c : Char} : t.isMark c = true ↔ t = .mark c := by
  cases t with
  | mark d => exact beq_iff_eq.trans ⟨fun h => h ▸ rfl, fun h => (ClassToken.mark.inj h).symm⟩
  | _ => simp [ClassToken.isMark]

theorem body_item (h : IsFlat (first :: rest)) (hn : ∀ t, first ≠ .nested t) :
    body anyCase (fuel + 1) none s (first :: (rest ++ [.mark ']'])) =
      (item? (first :: (rest ++ [.mark ']']))).bind fun found =>
        body anyCase fuel none (.union s found.1) found.2 := by
  have hoperator : ClassText.operator? (first :: (rest ++ [.mark ']'])) = none := h.operator?
  rw [body, hoperator]
  · rfl
  · simp
  · exact fun _ he => h.ne_open (List.cons.inj he).1
  · exact fun _ he => h.ne_close (List.cons.inj he).1
  · exact fun _ _ he => hn _ (List.cons.inj he).1

/-- A hyphen between two tokens. -/
theorem item?_range (h : IsFlat (first :: .mark '-' :: last :: more)) :
    item? (first :: .mark '-' :: last :: (more ++ [.mark ']'])) =
      (do
        let a ← first.char?
        let b ← last.char?
        if a ≤ b then some (.range a b, more ++ [.mark ']']) else none) := by
  have hclose : last.isMark ']' = false := by
    rw [Bool.eq_false_iff, Ne, isMark_eq_true_iff]
    exact h.tail.tail.ne_close
  have hhyphen : last.isMark '-' = false := by
    rw [Bool.eq_false_iff, Ne, isMark_eq_true_iff]
    rintro rfl
    exact h.tail.single '-' (by decide) (List.prefix_append [.mark '-', .mark '-'] more).isInfix
  simp [item?, hclose, hhyphen]

theorem item?_single (hr : ∀ last more, rest ≠ .mark '-' :: last :: more) :
    item? (first :: (rest ++ [.mark ']'])) = some (setOf first, rest ++ [.mark ']']) := by
  match rest with
  | [] => rfl
  | [t] =>
    by_cases ht : t = .mark '-'
    · subst ht
      rfl
    · rw [List.singleton_append, item?]
      exact fun _ _ he => ht (List.cons.inj he).1
  | t :: last :: more =>
    rw [item?]
    rintro _ _ he
    exact hr _ _ (by rw [(List.cons.inj he).1])

/-- A class that is flat goes on with its members and ranges up to the bracket that closes it. -/
theorem body_eq_members? (h : IsFlat ts) (hf : ts.length < fuel) :
    body anyCase fuel none s (ts ++ [.mark ']']) = (members? s ts).map (·, []) := by
  fun_induction members? s ts generalizing fuel with
  | case1 =>
    obtain ⟨fuel, rfl⟩ := Nat.exists_eq_succ_of_ne_zero (Nat.ne_of_gt hf)
    simp [body, settle]
  | case2 s t rest ih =>
    obtain ⟨fuel, rfl⟩ := Nat.exists_eq_succ_of_ne_zero (Nat.ne_of_gt (Nat.zero_lt_of_lt hf))
    exact ih h.tail (Nat.lt_of_succ_lt_succ hf)
  | case3 s first last more hn ih =>
    obtain ⟨fuel, rfl⟩ := Nat.exists_eq_succ_of_ne_zero (Nat.ne_of_gt (Nat.zero_lt_of_lt hf))
    refine (body_item h hn).trans ?_
    rw [List.cons_append, List.cons_append, item?_range h]
    cases first.char? with
    | none => rfl
    | some a =>
      cases last.char? with
      | none => rfl
      | some b =>
        by_cases hab : a ≤ b
        · simpa [hab] using ih a b h.tail.tail.tail (by simp at hf; omega)
        · simp [hab]
  | case4 s first rest hn hr ih =>
    obtain ⟨fuel, rfl⟩ := Nat.exists_eq_succ_of_ne_zero (Nat.ne_of_gt (Nat.zero_lt_of_lt hf))
    refine (body_item h hn).trans ?_
    rw [item?_single hr]
    exact ih h.tail (Nat.lt_of_succ_lt_succ hf)

end Body

section Opening

theorem hyphens_of_ne (h : ∀ rest, ts ≠ .mark '-' :: rest) :
    hyphens s (ts ++ [.mark ']']) = (s, ts ++ [.mark ']']) := by
  cases ts with
  | nil => rfl
  | cons t ts =>
    rw [List.cons_append, hyphens]
    exact fun _ he => h ts (by rw [(List.cons.inj he).1])

/-- A hyphen that stands first is a member. -/
theorem exists_hyphens_eq (h : IsFlat ts) :
    ∃ s' ts', hyphens s (ts ++ [.mark ']']) = (s', ts' ++ [.mark ']']) ∧ ts' <:+ ts ∧
      members? s' ts' = members? s ts := by
  by_cases hhyphen : ∃ rest, ts = .mark '-' :: rest
  · obtain ⟨rest, rfl⟩ := hhyphen
    have hrest : ∀ more, rest ≠ .mark '-' :: more := by
      rintro more rfl
      exact h.single '-' (by decide) (List.prefix_append [.mark '-', .mark '-'] more).isInfix
    refine ⟨.union s (.single '-'), rest, hyphens_of_ne hrest, List.suffix_cons _ _, ?_⟩
    rw [members?]
    · rfl
    · simp
    · exact fun _ _ he => hrest _ he
  · exact ⟨s, ts, hyphens_of_ne fun rest he => hhyphen ⟨rest, he⟩, List.suffix_refl ts, rfl⟩

theorem IsFlat.ne_close_cons (h : IsFlat ts) (hne : ts ≠ []) (rest : List ClassToken) :
    ts ++ [.mark ']'] ≠ .mark ']' :: rest := by
  obtain ⟨t, ts, rfl⟩ := List.exists_cons_of_ne_nil hne
  exact fun he => h.ne_close (List.cons.inj he).1

theorem opening_eq (hclose : ∀ rest, ts ≠ .mark ']' :: rest)
    (hcaret : ∀ rest, ts ≠ .mark '^' :: rest) : opening ts = (false, hyphens .none ts) := by
  unfold opening
  split
  next negated ts' he =>
    split at he
    · exact absurd rfl (hcaret _)
    · obtain ⟨rfl, rfl⟩ := Prod.mk.inj he
      split
      · exact absurd rfl (hclose _)
      · rfl

theorem opening_caret (hclose : ∀ rest, ts ≠ .mark ']' :: rest) :
    opening (.mark '^' :: ts) = (true, hyphens .none ts) := by
  simp only [opening]

theorem bracket_eq {negated : Bool} (h : IsFlat ts) (hf : ts.length < fuel)
    (hopening : opening ts' = (negated, hyphens .none (ts ++ [.mark ']']))) :
    bracket anyCase (fuel + 1) ts' =
      (members? .none ts).map fun s => (.negateIf negated (.foldIf anyCase s), []) := by
  obtain ⟨s, more, hhyphens, hsuffix, hmembers⟩ := exists_hyphens_eq (s := .none) h
  have hbody : body anyCase fuel none s (more ++ [.mark ']']) =
      (members? .none ts).map (·, []) := by
    rw [← hmembers]
    exact body_eq_members? (h.of_suffix hsuffix) (Nat.lt_of_le_of_lt hsuffix.length_le hf)
  rw [bracket, hopening, hhyphens]
  simp only [hbody]
  cases members? .none ts <;> rfl

/-- A class that is flat, and more than a caret, denotes its members and ranges. -/
theorem set?_eq_plain? (h : IsFlat ts) (hne : ts ≠ []) (hcaret : ts ≠ [.mark '^']) :
    set? anyCase (ts ++ [.mark ']']) = plain? anyCase ts := by
  by_cases hc : ∃ rest, ts = .mark '^' :: rest
  · obtain ⟨rest, rfl⟩ := hc
    have hrest : rest ≠ [] := by
      rintro rfl
      exact hcaret rfl
    have hopening := opening_caret (h.tail.ne_close_cons hrest)
    rw [set?, List.cons_append, bracket_eq h.tail (by simp; omega) hopening, plain?]
    cases members? .none rest <;> rfl
  · obtain ⟨t, ts, rfl⟩ := List.exists_cons_of_ne_nil hne
    have hopening := opening_eq (h.ne_close_cons hne) fun rest he =>
      hc ⟨ts, by rw [(List.cons.inj he).1]⟩
    rw [set?, bracket_eq h (by simp; omega) hopening, plain?]
    · cases members? .none (t :: ts) <;> rfl
    · exact fun rest he => hc ⟨rest, he⟩

end Opening

end Patterns.Plain.ClassText
