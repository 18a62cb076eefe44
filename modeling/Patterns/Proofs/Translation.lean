import Patterns.Proofs.Reads
import Patterns.Proofs.Tree

/-!
# Translation of syntax trees

Every well-formed tree is read back from its text, and what is written for it is its plain text.
-/
namespace Patterns.Extended
open Patterns.Text

variable {e : Setting} {c c' c'' : Context} {t t' r w w' : List Char}

section Characters

variable {a : Char} {p : Spot}

private theorem scan?_eq_none (ha : a ∉ Lexeme.starters)
    (hx : p.context.hasFlag 'x' = true → ¬(isBlank a = true ∨ a = '#')) :
    Lexeme.scan? (e.lexemeSettings p) .outside (a :: r) = none := by
  rw [Lexeme.scan?_of_not_mem_starters ha]
  by_cases h : p.context.hasFlag 'x' = true
  · simp [Lexeme.spacingLength_eq_zero (hx h)]
  · simp [Setting.lexemeSettings, h]

theorem reads_char (ha : a ∉ Lexeme.starters) (hq : a ∉ ['?', '*', '+'])
    (hx : c.hasFlag 'x' = true → ¬(isBlank a = true ∨ a = '#')) :
    Reads e c [a] r (Setting.single .outside a).1 c :=
  reads_single ha (fun _ => scan?_eq_none ha hx) (.inl hq)

theorem scan?_letter {s : Lexeme.Settings} {scope : Scope} (hd : a.isDigit = false)
    (hk : a ≠ 'k') : Lexeme.scan? s scope ('\\' :: a :: r) = none := by
  cases scope <;> simp [Lexeme.scan?, hd, hk]

theorem scan?_escape {s : Lexeme.Settings} {scope : Scope} (a : Escaped) :
    Lexeme.scan? s scope ('\\' :: a.1 :: r) = none :=
  scan?_letter a.2.1 fun h => a.2.2 (by simp [h])

theorem copied_escape {scope : Scope} (a : Escaped) : Copied scope ['\\', a.1] r := by
  have ha := a.2.2
  simp only [List.mem_cons, List.not_mem_nil, or_false, not_or] at ha
  refine .escape ?_
  simp [escapeLength, ha]

end Characters

section Classes

theorem scan?_inClass_eq_none {s : Lexeme.Settings} {a : Char} (hb : s.building = false)
    (ha : a ≠ '\\') : Lexeme.scan? s .inClass (a :: r) = none := by
  cases h : Lexeme.scan? s .inClass (a :: r) with
  | none => rfl
  | some found =>
    obtain ⟨lexeme, n⟩ := found
    obtain ⟨t, r', he, -, spelled⟩ := Lexeme.spelled_of_scan? h
    cases spelled with
    | subpattern building => simp [building] at hb
    | numberedReference => exact absurd (List.cons.inj he).1 ha

theorem single_inClass {a : Char} (ha : a ≠ ']') :
    Setting.single .inClass a =
      (if a ∈ ['[', '&', '~'] then ['\\', a] else [a], .inClass) := by
  unfold Setting.single
  split <;> simp_all

private theorem exists_reading_item (hb : e.subpatterns = none) (atStart : Bool)
    (item : ClassItem) :
    ∃ ms, Reading e ⟨atStart, item.text ++ r, .inClass, c⟩ ms ⟨false, r, .inClass, c⟩ ∧
      written ms = item.plain ∧ expansions ms = 0 := by
  cases item with
  | char a =>
    have h := Moves.single (e := e) (p := ⟨atStart, [a.1] ++ r, .inClass, c⟩) rfl
      (scan?_inClass_eq_none (by simp [Setting.lexemeSettings, hb]) a.2.1)
      (by simp [copiedLength?, a.2.1]) (by simp)
    rw [single_inClass a.2.2] at h
    exact ⟨_, .step h.move? (.done _), by simp [Move.output, ClassItem.plain],
      by simp [Move.isExpansion]⟩
  | escape a =>
    exact ⟨_, .step (Moves.copied rfl (scan?_escape a) (copied_escape a)).move? (.done _),
      by simp [Move.output, ClassItem.plain], by simp [Move.isExpansion]⟩

private theorem exists_reading_items (hb : e.subpatterns = none) (items : List ClassItem) :
    ∃ ms, Reading e ⟨false, items.flatMap ClassItem.text ++ r, .inClass, c⟩ ms
      ⟨false, r, .inClass, c⟩ ∧ written ms = items.flatMap ClassItem.plain ∧
      expansions ms = 0 := by
  induction items with
  | nil => exact ⟨[], .done _, rfl, rfl⟩
  | cons item items ih =>
    obtain ⟨ms, hms, hw, hx⟩ := exists_reading_item (r := items.flatMap ClassItem.text ++ r)
      (c := c) hb false item
    obtain ⟨ms', hms', hw', hx'⟩ := ih
    refine ⟨ms ++ ms', ?_, by simp [hw, hw'], by simp [hx, hx']⟩
    rw [List.flatMap_cons, List.append_assoc]
    exact hms.trans hms'

private theorem head?_items (items : List ClassItem) (ne : items.flatMap ClassItem.text ≠ []) :
    (items.flatMap ClassItem.text).head? ≠ some ']' := by
  cases items with
  | nil => exact absurd rfl ne
  | cons item items =>
    cases item with
    | char a =>
      intro he
      exact a.2.2 (by simpa [ClassItem.text] using he)
    | escape a => simp [ClassItem.text]

theorem scan?_bracket {s : Lexeme.Settings} {cs : List Char} (h₁ : cs.head? ≠ some ']')
    (h₂ : ∀ rest, cs = '^' :: rest → rest.head? ≠ some ']') :
    Lexeme.scan? s .outside ('[' :: cs) = none := by
  cases h : Lexeme.scan? s .outside ('[' :: cs) with
  | none => rfl
  | some found =>
    obtain ⟨lexeme, n⟩ := found
    obtain ⟨t, r', he, -, spelled⟩ := Lexeme.spelled_of_scan? h
    cases spelled with
    | emptyClass =>
      obtain rfl : cs = ']' :: r' := by simpa using he
      exact absurd rfl h₁
    | fullClass =>
      obtain rfl : cs = '^' :: ']' :: r' := by simpa using he
      exact absurd rfl (h₂ _ rfl)
    | spacing _ nonempty length =>
      have hz : Lexeme.spacingLength false ('[' :: cs) = 0 :=
        Lexeme.spacingLength_eq_zero (by decide)
      rw [← he, hz] at length
      exact absurd (List.length_eq_zero_iff.mp length.symm) nonempty
    | _ => simp at he

private theorem scan?_class (body : ClassBody) {s : Lexeme.Settings} :
    Lexeme.scan? s .outside ('[' :: (body.text ++ ']' :: r)) = none := by
  obtain ⟨items, hne, hcaret⟩ := body
  have hhead := head?_items items hne
  refine scan?_bracket ?_ ?_
  · obtain ⟨b, bs, hb⟩ := List.exists_cons_of_ne_nil hne
    rw [hb] at hhead
    simpa [ClassBody.text, hb] using hhead
  · intro rest he
    cases items with
    | nil => exact absurd rfl hne
    | cons item items =>
      cases item with
      | escape a => simp [ClassBody.text, ClassItem.text] at he
      | char a =>
        obtain ⟨ha, rfl⟩ : a.1 = '^' ∧ items.flatMap ClassItem.text ++ ']' :: r = rest := by
          simpa [ClassBody.text, ClassItem.text] using he
        have hne' : items.flatMap ClassItem.text ≠ [] := by
          intro hnil
          exact hcaret (by simp [ClassItem.text, hnil, ha])
        have hhead' := head?_items items hne'
        obtain ⟨b, bs, hb⟩ := List.exists_cons_of_ne_nil hne'
        rw [hb] at hhead' ⊢
        simpa using hhead'

theorem reads_class (hb : e.subpatterns = none) (body : ClassBody) :
    Reads e c ('[' :: (body.text ++ [']'])) r ('[' :: (body.plain ++ [']'])) c := by
  intro atStart
  have hopen : Moves e ⟨atStart, '[' :: (body.text ++ ']' :: r), .outside, c⟩
      (.read ['['] ['['] ⟨false, body.text ++ ']' :: r, .inClass, c⟩) :=
    .single rfl (scan?_class body) (by simp [copiedLength?, quantifierLength?])
      (by simp [startsWithModifier])
  obtain ⟨ms, hms, hw, hx⟩ := exists_reading_items (r := ']' :: r) (c := c) hb body.1
  have hclose : Moves e ⟨false, ']' :: r, .inClass, c⟩
      (.read [']'] [']'] ⟨false, r, .outside, c⟩) :=
    .single rfl (scan?_inClass_eq_none (by simp [Setting.lexemeSettings, hb]) (by decide)) rfl
      (by simp)
  have htext : '[' :: (body.text ++ [']']) ++ r = '[' :: (body.text ++ ']' :: r) := by simp
  rw [htext]
  refine ⟨_, false, .step hopen.move? (hms.trans (.step hclose.move? (.done _))), ?_, ?_⟩
  · simp [Move.output, hw, ClassBody.plain]
  · simp [Move.isExpansion, hx]

end Classes

section References

theorem reads_reference {n : Nat} (hn : 1 ≤ n) (hle : n ≤ c.groupCount)
    (apart : r.head?.any Char.isDigit = false) :
    Reads e c ('\\' :: Nat.toDigits 10 n) r (referenceTo n) c := by
  have hvalue : digitsValue (Nat.toDigits 10 n) = n := digitsValue_toDigits n
  have hwritten : referenceTo n = referenceTo (digitsValue (Nat.toDigits 10 n)) := by rw [hvalue]
  rw [hwritten]
  exact reads_lexeme
    (fun _ => .numberedReference Nat.toDigits_ne_nil (areDigits_toDigits n) apart) rfl
    (.numberedReference (head?_toDigits hn) rfl (by rwa [hvalue]))

theorem groupIndex?_eq_some {name : String} (h : some name ∈ c.groups) :
    c.groupIndex? name = some (c.groups.idxOf (some name) + 1) := by
  unfold Context.groupIndex? indexOfName?
  generalize c.groups = groups at h
  rw [List.findIdx?_eq_some_of_exists]
  · rfl
  · exact ⟨_, h, by simp⟩

theorem reads_namedReference {name : GroupName} (h : some name.string ∈ c.groups) :
    Reads e c (['\\', 'k', '<'] ++ name.1 ++ ['>']) r
      (referenceTo (c.groups.idxOf (some name.string) + 1) ++
        if r.head?.any Char.isDigit then ['(', '?', ':', ')'] else []) c := by
  have htext : ['\\', 'k', '<'] ++ name.1 ++ ['>'] = '\\' :: 'k' :: '<' :: (name.1 ++ ['>']) := by
    simp
  rw [htext]
  exact reads_lexeme (fun _ => .namedReference name.2.1) rfl
    (.namedReference (groupIndex?_eq_some h))

end References

section Openers

theorem addGroup_named {name : GroupName} (h : some name.string ∉ c.groups) :
    c.addGroup (some name.string) = .ok ⟨c.flags, c.groups ++ [some name.string]⟩ := by
  have isName : IsGroupName name.string := by
    rw [IsGroupName, GroupName.string, String.toList_ofList]
    exact name.2
  refine Context.addGroup_eq_ok_iff.mpr ⟨?_, rfl⟩
  rintro _ ⟨⟩
  exact Context.checkName_eq_ok_iff.mpr ⟨isName, h⟩

private theorem reads_named (marked : Bool) (name : GroupName) (h : some name.string ∉ c.groups) :
    Reads e c (Opener.named marked name).text r ['(']
      ⟨c.flags, c.groups ++ [some name.string]⟩ := by
  have hadded := addGroup_named h
  cases marked with
  | false => exact reads_lexeme (fun _ => .namedGroup name.2.1) rfl (.namedGroup hadded)
  | true => exact reads_lexeme (fun _ => .markedGroup name.2.1) rfl (.namedGroup hadded)

private theorem reads_unnamed (hr : r.head? ≠ some '?') :
    Reads e c ['('] r (Opener.unnamed.plain c.flags)
      ⟨c.flags, c.groups ++ Opener.unnamed.groups c.flags⟩ := by
  refine reads_lexeme (fun _ => .group hr) rfl ?_
  by_cases hn : c.hasFlag 'n' = true
  · have hp : Opener.unnamed.plain c.flags = ['(', '?', ':'] := if_pos hn
    have hg : Opener.unnamed.groups c.flags = [] := if_pos hn
    rw [hp, hg, List.append_nil]
    exact .gathering hn
  · have hp : Opener.unnamed.plain c.flags = ['('] := if_neg hn
    have hg : Opener.unnamed.groups c.flags = [none] := if_neg hn
    rw [hp, hg]
    exact .group (by simpa using hn) rfl

private theorem nameUpTo?_eq_none {close cs : List Char} {a : Char}
    (ha : Flags.isFlagChar a = false) : Lexeme.nameUpTo? close (a :: cs) = none := by
  simp [Lexeme.nameUpTo?, ha]

private theorem scan?_opener {s : Lexeme.Settings} (ht : t ∈ openers) :
    Lexeme.scan? s .outside (t ++ r) = none := by
  simp only [openers, List.mem_cons, List.not_mem_nil, or_false] at ht
  rcases ht with rfl | rfl | rfl | rfl | rfl | rfl <;>
    simp [Lexeme.scan?, nameUpTo?_eq_none, Flags.isFlagChar]

theorem reads_bareOpener (ht : t ∈ openers) : Reads e c t r t ⟨c.flags, c.groups ++ []⟩ :=
  (reads_copied (fun _ => scan?_opener ht) (.opener ht)).unchanged

theorem reads_opener (o : Opener) (fresh : o.IsFresh c.groups) (hr : r.head? ≠ some '?') :
    Reads e c o.text r (o.plain c.flags) ⟨c.flags, c.groups ++ o.groups c.flags⟩ := by
  cases o with
  | unnamed => exact reads_unnamed hr
  | named marked name => exact reads_named marked name fresh
  | gathering => exact reads_bareOpener (by decide)
  | ahead negated => cases negated <;> exact reads_bareOpener (by decide)
  | behind negated => cases negated <;> exact reads_bareOpener (by decide)

end Openers

section Quantifiers

private theorem isMark_mark (q : Quantifier) (hr : r.head? ≠ some '?') : IsMark q.mark r := by
  cases hq : q.isLazy with
  | true => exact .inl (by simp [Quantifier.mark, hq])
  | false => exact .inr ⟨by simp [Quantifier.mark, hq], hr⟩

private theorem exists_isQuantifier (q : Quantifier) :
    ∃ t, IsQuantifier t ∧ q.text = t ++ q.mark := by
  have hd (n : Nat) := areDigits_toDigits n
  have hn (n : Nat) : Nat.toDigits 10 n ≠ [] := Nat.toDigits_ne_nil
  obtain ⟨amount, isLazy⟩ := q
  cases amount with
  | many => exact ⟨_, .simple (by decide), rfl⟩
  | some => exact ⟨_, .simple (by decide), rfl⟩
  | optional => exact ⟨_, .simple (by decide), rfl⟩
  | exactly n => exact ⟨_, .counted ⟨_, [], hn n, hd n, .inl rfl, rfl⟩, rfl⟩
  | atLeast n =>
    exact ⟨_, .counted ⟨_, [','], hn n, hd n, .inr ⟨[], by simp [AreDigits], rfl⟩, rfl⟩, rfl⟩
  | between n m =>
    exact ⟨_, .counted ⟨_, ',' :: _, hn n, hd n, .inr ⟨_, hd m, rfl⟩, rfl⟩, rfl⟩

theorem reads_quantifier_text (q : Quantifier) (hr : r.head? ≠ some '?') :
    Reads e c q.text r q.text c := by
  obtain ⟨t, ht, hq⟩ := exists_isQuantifier q
  rw [hq]
  exact reads_quantifier ht (isMark_mark q hr)

end Quantifiers

section Trees

variable {t : Tree} {after : List Char}

private theorem reads_literal (a : Literal)
    (hx : c.hasFlag 'x' = true → ¬(isBlank a.1 = true ∨ a.1 = '#')) :
    Reads e c [a.1] r (if a.1 ∈ [']', '\x7d'] then ['\\', a.1] else [a.1]) c := by
  have ha := a.2
  simp only [List.mem_cons, List.not_mem_nil, or_false, not_or] at ha
  have hs : a.1 ∉ Lexeme.starters := by simp [Lexeme.starters, ha]
  have h := reads_char (e := e) (r := r) hs (by simp [ha]) hx
  have ho : (Setting.single .outside a.1).1 =
      if a.1 ∈ [']', '\x7d'] then ['\\', a.1] else [a.1] := by
    unfold Setting.single
    split <;> simp_all
  rwa [ho] at h

theorem reads_mark {a : Char} (ha : a = ')' ∨ a = '|') : Reads e c [a] r [a] c := by
  rcases ha with rfl | rfl <;> exact reads_char (by decide) (by decide) fun _ => by decide

theorem reads_tree (hb : e.subpatterns = none) (hx : c.hasFlag 'x' = true → t.isSolid = true)
    (hw : t.WellFormed c.flags c.groups after) (ha : t.isAtom = true ∨ after.head? ≠ some '?') :
    Reads e c t.text after (t.plain c.flags c.groups after)
      ⟨c.flags, c.groups ++ t.groups c.flags⟩ := by
  induction t generalizing c after with
  | empty => exact Reads.nil.unchanged
  | char a =>
    refine (reads_literal a fun h => ?_).unchanged
    simpa [Tree.isSolid] using hx h
  | dot => exact reads_dot.unchanged
  | escape a => exact (reads_copied (fun _ => scan?_escape a) (copied_escape a)).unchanged
  | oneOf body => exact (reads_class hb body).unchanged
  | reference n => exact (reads_reference hw.1 hw.2.1 hw.2.2).unchanged
  | namedReference name => exact (reads_namedReference hw).unchanged
  | group o body ih =>
    obtain ⟨fresh, hwbody⟩ := hw
    have hopen := reads_opener (e := e) o fresh
      (Tree.head?_text_append (r := [')'] ++ after) hwbody (by simp))
    have hbody := ih (c := ⟨c.flags, c.groups ++ o.groups c.flags⟩) hx hwbody (.inr (by simp))
    have hclose := reads_mark (e := e) (r := after) (c := ⟨c.flags,
      c.groups ++ o.groups c.flags ++ body.groups c.flags⟩) (.inl rfl)
    have h := (hopen.append hbody).append hclose
    simpa [Tree.text, Tree.print, Tree.plain, Tree.groups] using h
  | quantified atom q ih =>
    obtain ⟨hatom, hwatom⟩ := hw
    have hr : after.head? ≠ some '?' := ha.resolve_left (by simp [Tree.isAtom])
    have hread := ih hx hwatom (.inl hatom)
    have hq := reads_quantifier_text (e := e) (c := ⟨c.flags, c.groups ++ atom.groups c.flags⟩) q hr
    exact hread.append hq
  | concat left right ihl ihr =>
    obtain ⟨hwleft, hwright⟩ := hw
    have hr : after.head? ≠ some '?' := ha.resolve_left (by simp [Tree.isAtom])
    have hsolid (h : c.hasFlag 'x' = true) : left.isSolid = true ∧ right.isSolid = true := by
      simpa [Tree.isSolid] using hx h
    have hleft := ihl (fun h => (hsolid h).1) hwleft (.inr (Tree.head?_text_append hwright hr))
    have hright := ihr (c := ⟨c.flags, c.groups ++ left.groups c.flags⟩)
      (fun h => (hsolid h).2) hwright (.inr hr)
    have h := hleft.append hright
    simpa [Tree.text, Tree.print, Tree.plain, Tree.groups] using h
  | alternation left right ihl ihr =>
    obtain ⟨hwleft, hwright⟩ := hw
    have hr : after.head? ≠ some '?' := ha.resolve_left (by simp [Tree.isAtom])
    have hsolid (h : c.hasFlag 'x' = true) : left.isSolid = true ∧ right.isSolid = true := by
      simpa [Tree.isSolid] using hx h
    have hleft := ihl (fun h => (hsolid h).1) hwleft (.inr (by simp))
    have hbar := reads_mark (e := e) (r := right.text ++ after)
      (c := ⟨c.flags, c.groups ++ left.groups c.flags⟩) (.inr rfl)
    have hright := ihr (c := ⟨c.flags, c.groups ++ left.groups c.flags⟩)
      (fun h => (hsolid h).2) hwright (.inr hr)
    have h := hleft.append (hbar.append hright)
    simpa [Tree.text, Tree.print, Tree.plain, Tree.groups] using h

/-- Every well-formed tree is translated, to its plain text and its groups. -/
theorem toPlain_text {d : Dialect} {surroundings : Surroundings} {limit : Nat} {flags : String}
    (ht : d.tokens = []) (hx : 'x' ∉ flags.toList) (hw : t.WellFormed flags.toList [] []) :
    Setting.toPlain ⟨d, surroundings, none, String.ofList t.text⟩ limit (.ofFlags flags) =
      .ok (t.plain flags.toList [] [], ⟨flags.toList, t.groups flags.toList⟩) := by
  refine toPlain_of_reads ht ?_
  have hflag : (Context.ofFlags flags).hasFlag 'x' = false := by
    simpa [Context.hasFlag, Context.ofFlags] using hx
  rw [String.toList_ofList]
  exact reads_tree (c := .ofFlags flags) rfl (by simp [hflag]) hw (.inr (by simp))

/-- A tree with every kind of piece that is not written as it is printed. -/
def rewritten : Tree :=
  .concat (.group .unnamed (.char ⟨'a', by decide⟩)) <|
    .concat (.group (.named false ⟨['w'], by decide⟩) .dot) <|
      .concat (.namedReference ⟨['w'], by decide⟩) <|
        .concat (.char ⟨'1', by decide⟩) <|
          .concat (.oneOf ⟨[.char ⟨'&', by decide⟩], by decide⟩) (.char ⟨']', by decide⟩)

example : String.ofList rewritten.text = "(a)(?<w>.)\\k<w>1[&]]" := by decide

theorem toPlain_rewritten :
    rewritten.WellFormed "ns".toList [] [] ∧
      Setting.toPlain ⟨{}, ⟨true, fun _ _ => none⟩, none, String.ofList rewritten.text⟩ 100
        (.ofFlags "ns") =
        .ok ("(?:a)([\\s\\S])\\1(?:)1[\\&]\\]".toList, ⟨['n', 's'], [some "w"]⟩) := by
  have hw : rewritten.WellFormed "ns".toList [] [] := by decide
  refine ⟨hw, ?_⟩
  exact toPlain_text rfl (by decide) hw

/-- More of a tree is rewritten than its capturing openers. -/
theorem toPlain_rewritten_ne_print :
    rewritten.WellFormed "ns".toList [] [] ∧
      (Setting.toPlain ⟨{}, ⟨true, fun _ _ => none⟩, none, String.ofList rewritten.text⟩ 100
        (.ofFlags "ns")).toOption.map (·.1) ≠ some (rewritten.print Opener.bare) := by
  have hw : rewritten.WellFormed "ns".toList [] [] := by decide
  refine ⟨hw, ?_⟩
  have hreads := reads_tree (e := ⟨{}, ⟨true, fun _ _ => none⟩, none, String.ofList rewritten.text⟩)
    (c := .ofFlags "ns") rfl (by decide) hw (.inr (by simp))
  rw [toPlain_of_reads rfl (by rwa [String.toList_ofList])]
  decide

end Trees

end Patterns.Extended
