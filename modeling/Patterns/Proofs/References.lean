import Patterns.Proofs.Reads

/-!
# References in plain text

`references` finds the references of a plain text. In what is written for a pattern these are the
references that the reading of the pattern comes to, each with its own number.
-/
namespace Patterns.Extended
open Patterns.Text

/-- The digits of the references in a plain text: outside of classes a backslash and all digits
behind it, the first of them not a zero. Any other escape is passed as a whole. -/
def references : Scope → List Char → List (List Char)
  | _, [] => []
  | .outside, '\\' :: cs =>
    if cs.head?.any (fun c => c.isDigit && c != '0') then
      cs.takeWhile Char.isDigit :: references .outside (cs.drop (cs.takeWhile Char.isDigit).length)
    else references .outside (cs.drop (escapeLength cs))
  | .inClass, '\\' :: cs => references .inClass (cs.drop (escapeLength cs))
  | .outside, '[' :: cs => references .inClass cs
  | .inClass, ']' :: cs => references .outside cs
  | scope, _ :: cs => references scope cs
  termination_by _ cs => cs.length
  decreasing_by all_goals simp only [List.length_drop, List.length_cons]; omega

example : references .outside "(a)\\1[\\2]\\03".toList = [['1']] := by cbv

section Text

variable {scope : Scope} {c : Char} {t x : List Char}

@[simp] theorem references_nil : references scope [] = [] := by
  cases scope <;> simp [references]

theorem references_number (hne : t ≠ []) (ht : AreDigits t) (hz : t.head? ≠ some '0')
    (hx : x.head?.any Char.isDigit = false) :
    references .outside ('\\' :: (t ++ x)) = t :: references .outside x := by
  have htake : (t ++ x).takeWhile Char.isDigit = t := takeWhile_append_eq ht hx
  obtain ⟨d, ds, rfl⟩ := List.exists_cons_of_ne_nil hne
  have hd := ht d (by simp)
  have hd' : d ≠ '0' := by simpa using hz
  rw [references, htake, List.drop_left, if_pos]
  simp [hd, hd']

theorem references_escape
    (ht : scope = .outside → t.head?.any (fun c => c.isDigit && c != '0') = false) :
    references scope ('\\' :: t) = references scope (t.drop (escapeLength t)) := by
  cases scope with
  | outside => rw [references, if_neg (by simp [ht rfl])]
  | inClass => rw [references]

/-- An escape of a single character. -/
theorem references_letter (hc : c ∉ ['x', 'u', 'U', 'p', 'P']) (hd : c.isDigit = false) :
    references scope ('\\' :: c :: x) = references scope x := by
  rw [references_escape fun _ => by simp [hd]]
  simp only [List.mem_cons, List.not_mem_nil, or_false, not_or] at hc
  simp [escapeLength, hc]

theorem references_open : references .outside ('[' :: x) = references .inClass x := by
  rw [references]

theorem references_close : references .inClass (']' :: x) = references .outside x := by
  rw [references]

theorem references_anyChar : references .outside (anyChar ++ x) = references .outside x := by
  have hspace : references .inClass ('\\' :: 's' :: '\\' :: 'S' :: ']' :: x) =
      references .inClass ('\\' :: 'S' :: ']' :: x) := references_letter (by decide) (by decide)
  have hother : references .inClass ('\\' :: 'S' :: ']' :: x) = references .inClass (']' :: x) :=
    references_letter (by decide) (by decide)
  exact references_open.trans (hspace.trans (hother.trans references_close))

/-- A character that stands for itself where it is. -/
def IsPlain (scope : Scope) (c : Char) : Prop :=
  c ≠ '\\' ∧ c ≠ match scope with
    | .outside => '['
    | .inClass => ']'

instance (scope : Scope) (c : Char) : Decidable (IsPlain scope c) :=
  inferInstanceAs (Decidable (_ ∧ _))

theorem references_cons (hc : IsPlain scope c) :
    references scope (c :: x) = references scope x := by
  cases scope <;> simp_all [IsPlain, references]

def ArePlain (scope : Scope) (t : List Char) : Prop := ∀ c ∈ t, IsPlain scope c

instance (scope : Scope) (t : List Char) : Decidable (ArePlain scope t) := List.decidableBAll _ t

theorem references_append (ht : ArePlain scope t) :
    references scope (t ++ x) = references scope x := by
  induction t with
  | nil => rfl
  | cons c t ih =>
    rw [List.cons_append, references_cons (ht c (by simp)), ih fun d hd => ht d (by simp [hd])]

end Text

section Numbers

private theorem foldl_pos {digits : List Char} {n : Nat} (hn : 1 ≤ n) :
    1 ≤ digits.foldl (fun n d => 10 * n + (d.toNat - '0'.toNat)) n := by
  induction digits generalizing n with
  | nil => exact hn
  | cons d ds ih =>
    refine ih (Nat.le_trans hn ?_)
    exact Nat.le_trans (Nat.le_mul_of_pos_left n (by decide)) (Nat.le_add_right _ _)

theorem digitsValue_pos {digits : List Char} (hne : digits ≠ []) (hd : AreDigits digits)
    (hz : digits.head? ≠ some '0') : 1 ≤ digitsValue digits := by
  obtain ⟨d, ds, rfl⟩ := List.exists_cons_of_ne_nil hne
  have hle : 48 ≤ d.toNat := (Char.isDigit_iff_toNat.mp (hd d (by simp))).1
  have hne : d.toNat ≠ 48 := by
    intro he
    refine hz ?_
    rw [← Char.ofNat_toNat d, he]
    rfl
  have hpos : 1 ≤ 10 * 0 + (d.toNat - '0'.toNat) := by
    change 1 ≤ 10 * 0 + (d.toNat - 48)
    omega
  change 1 ≤ ds.foldl (fun n d => 10 * n + (d.toNat - '0'.toNat)) (10 * 0 + (d.toNat - '0'.toNat))
  exact foldl_pos hpos

end Numbers

namespace Lexeme

/-- The number of the group that a reference means; there is no such group where it is zero. -/
def number? (lexeme : Lexeme) (c : Context) : Option Nat :=
  match lexeme with
  | .numberedReference digits =>
    if digits.head? = some '0' then none else some (digitsValue digits)
  | .namedReference name => some ((c.groupIndex? (String.ofList name)).getD 0)
  | _ => none

end Lexeme

/-- The number of the reference at a spot. -/
def Setting.reference? (e : Setting) (p : Spot) : Option Nat :=
  (Lexeme.scan? (e.lexemeSettings p) p.scope p.rest).bind fun found => found.1.number? p.context

/-- The numbers of the references that a reading comes to. -/
def Setting.referencesRead (e : Setting) (ms : History) : List Nat :=
  ms.filterMap fun (p, _) => e.reference? p

variable {e : Setting} {p q : Spot} {m : Move} {ms : History} {t r w x : List Char}

@[simp] theorem referencesRead_nil : e.referencesRead [] = [] := rfl

@[simp] theorem referencesRead_cons :
    e.referencesRead ((p, m) :: ms) = (e.reference? p).toList ++ e.referencesRead ms := by
  cases h : e.reference? p <;> simp [Setting.referencesRead, h]

theorem reference?_eq {lexeme : Lexeme} (hr : p.rest = t ++ r)
    (spelled : lexeme.Spelled (e.lexemeSettings p) p.scope t r) :
    e.reference? p = lexeme.number? p.context := by
  have hs := spelled.scan?
  rw [← hr] at hs
  simp [Setting.reference?, hs]

theorem groupIndex?_le {c : Context} {name : String} {n : Nat} (h : c.groupIndex? name = some n) :
    1 ≤ n ∧ n ≤ c.groupCount := by
  obtain ⟨i, hi, rfl⟩ := Option.map_eq_some_iff.mp h
  obtain ⟨hlt, -⟩ := List.findIdx?_eq_some_iff_getElem.mp hi
  exact ⟨by omega, hlt⟩

/-- A reference that is passed goes to a group recorded before. -/
theorem Moves.reference?_le (h : Moves e p m) {n : Nat} (hn : e.reference? p = some n) :
    1 ≤ n ∧ n ≤ p.context.groupCount := by
  cases h with
  | @lexeme lexeme t r w c rest spelled kept emitted =>
    rw [reference?_eq rest spelled] at hn
    obtain ⟨_, _, scope, context⟩ := p
    cases emitted with
    | zero => simp [Lexeme.number?] at hn
    | numberedReference positive _ known =>
      obtain rfl := Option.some.inj ((if_neg positive).symm.trans hn)
      cases spelled with
      | numberedReference nonempty areDigits =>
        exact ⟨digitsValue_pos nonempty areDigits positive, known⟩
    | @namedReference _ index found =>
      obtain rfl : index = n := by simpa [Lexeme.number?, found] using hn
      exact groupIndex?_le found
    | _ => simp [Lexeme.number?] at hn
  | @subpattern name r text rest isName building found =>
    rw [reference?_eq rest (.subpattern building isName)] at hn
    simp [Lexeme.number?] at hn
  | copied _ bare => simp [Setting.reference?, bare] at hn
  | single _ bare => simp [Setting.reference?, bare] at hn

section Lexemes

variable {scope : Scope} {lexeme : Lexeme} {s : Lexeme.Settings} {c c' : Context}

theorem Mirrors.head?_digit (h : Mirrors r x) (hr : r.head?.any Char.isDigit = false) :
    x.head?.any Char.isDigit = false := by
  cases x with
  | nil => rfl
  | cons d x =>
    by_cases hd : d.isDigit = true
    · obtain ⟨w, rfl⟩ := h.alphanum [d] x rfl (by simp [Char.isAlphanum, hd])
      simp [hd] at hr
    · simpa using hd

private theorem references_apart : references .outside (['(', '?', ':', ')'] ++ x) =
    references .outside x :=
  references_append (by decide)

private theorem references_separator :
    references .outside (separator r ++ x) = references .outside x := by
  unfold separator
  split
  · rfl
  · exact references_apart

private theorem references_reference {n : Nat} (hn : 1 ≤ n)
    (hx : x.head?.any Char.isDigit = false) :
    references .outside (referenceTo n ++ x) = Nat.toDigits 10 n :: references .outside x :=
  references_number Nat.toDigits_ne_nil (areDigits_toDigits n) (head?_toDigits hn) hx

private theorem references_zero : references scope (['\\', 'x', '0', '0'] ++ x) =
    references scope x := by
  have hl : escapeLength ('x' :: '0' :: '0' :: x) = 3 := by
    simp [escapeLength, braced?, hexRun, isHex]
  have h : references scope ('\\' :: 'x' :: '0' :: '0' :: x) =
      references scope (('x' :: '0' :: '0' :: x).drop (escapeLength ('x' :: '0' :: '0' :: x))) :=
    references_escape fun _ => by simp
  rw [hl] at h
  exact h

private theorem references_named {n : Nat} (hn : 1 ≤ n) (h : Mirrors r x) :
    references .outside (referenceTo n ++
      (if r.head?.any Char.isDigit then ['(', '?', ':', ')'] else []) ++ x) =
      Nat.toDigits 10 n :: references .outside x := by
  rw [List.append_assoc]
  split
  · have hr := references_reference (x := ['(', '?', ':', ')'] ++ x) hn (by simp)
    rwa [references_apart] at hr
  · next hdigit => exact references_reference hn (h.head?_digit (by simpa using hdigit))

/-- What is written for a lexeme holds the reference that the lexeme is. -/
theorem references_lexeme {written : String} {custom : List Char}
    {subpatterns : Option Subpatterns} (spelled : lexeme.Spelled s scope t r)
    (kept : lexeme.isReparsed = false)
    (emitted : lexeme.Emits scope written r custom subpatterns c w c') (h : Mirrors r x) :
    references scope (w ++ x) =
      (lexeme.number? c).toList.map (Nat.toDigits 10) ++ references scope x := by
  cases emitted with
  | subpattern => simp [Lexeme.isReparsed] at kept
  | zero => exact references_zero
  | numberedReference positive outside =>
    subst outside
    cases spelled with
    | numberedReference nonempty areDigits apart =>
      simp only [Lexeme.number?, if_neg positive]
      exact references_reference (digitsValue_pos nonempty areDigits positive) (h.head?_digit apart)
  | namedReference found =>
    cases spelled
    simp only [Lexeme.number?, found]
    exact references_named (groupIndex?_le found).1 h
  | emptyClass =>
    cases spelled
    have hb : references .outside ('\\' :: 'b' :: '\\' :: 'B' :: x) =
        references .outside ('\\' :: 'B' :: x) := references_letter (by decide) (by decide)
    exact hb.trans (references_letter (by decide) (by decide))
  | fullClass =>
    cases spelled
    exact references_anyChar
  | dot =>
    cases spelled
    exact references_anyChar
  | comment =>
    cases spelled
    exact references_separator
  | spacing =>
    cases spelled
    exact references_separator
  | modifier => rfl
  | namedGroup => cases spelled <;> exact references_cons (by decide)
  | gathering =>
    cases spelled
    exact references_append (by decide)
  | group =>
    cases spelled
    exact references_cons (by decide)

/-- A backslash that is not taken for a lexeme does not stand before a digit. -/
theorem head?_of_scan? (bare : Lexeme.scan? s scope ('\\' :: t) = none) :
    t.head?.any Char.isDigit = false := by
  obtain ⟨r, hr, hapart⟩ := eq_takeWhile_append Char.isDigit t
  have hall := all_takeWhile Char.isDigit t
  generalize t.takeWhile Char.isDigit = digits at hr hall
  subst hr
  cases digits with
  | nil => exact hapart
  | cons d ds =>
    have hspelled : (Lexeme.numberedReference (d :: ds)).Spelled s scope ('\\' :: d :: ds) r :=
      .numberedReference (by simp) hall hapart
    have hscan := hspelled.scan?
    rw [List.cons_append, bare] at hscan
    simp at hscan

theorem arePlain_of_isCounted (ht : IsCounted t) : ArePlain .outside t := by
  obtain ⟨least, most, -, hl, hm, rfl⟩ := ht
  have digits {ds : List Char} (hds : AreDigits ds) : ArePlain .outside ds := by
    intro c hc
    have hd := hds c hc
    constructor <;> (rintro rfl; exact absurd hd (by decide))
  have hmost : ArePlain .outside most := by
    rcases hm with rfl | ⟨ds, hds, rfl⟩
    · simp [ArePlain]
    · rw [ArePlain, List.forall_mem_cons]
      exact ⟨by decide, digits hds⟩
  simp only [ArePlain, List.forall_mem_cons, List.forall_mem_append]
  exact ⟨by decide, digits hl, hmost, by decide, by simp⟩

/-- A copied piece holds no reference. Where what is written behind an escape has braces that the
escape takes, though they did not stand behind it in the pattern, they must hold none either. -/
theorem references_copied (bare : Lexeme.scan? s scope (t ++ r) = none)
    (copied : Copied scope t r) (h : Mirrors r x)
    (gap : ∀ n, braced? r = none → braced? x = some n →
      references scope (x.drop n) = references scope x) :
    references scope (t ++ x) = references scope x := by
  cases copied with
  | @escape _ u _ length =>
    have hdigit : (u ++ x).head?.any Char.isDigit = false := by
      have hb := head?_of_scan? bare
      cases u with
      | nil => exact h.head?_digit hb
      | cons => exact hb
    have hnumber : (u ++ x).head?.any (fun c => c.isDigit && c != '0') = false := by
      cases hu : (u ++ x).head? with
      | none => rfl
      | some d => simp_all
    have hstep : references scope ('\\' :: (u ++ x)) =
        references scope ((u ++ x).drop (escapeLength (u ++ x))) :=
      references_escape fun _ => hnumber
    refine hstep.trans ?_
    rcases escapeLength_cases h length with hl | ⟨n, hr, hx, hl⟩
    · rw [hl, List.drop_left]
    · rw [hl, ← List.drop_drop, List.drop_left, gap n hr hx]
  | opener isOpener =>
    simp only [openers, List.mem_cons, List.not_mem_nil, or_false] at isOpener
    rcases isOpener with rfl | rfl | rfl | rfl | rfl | rfl <;> exact references_append (by decide)
  | lazy simple =>
    simp only [List.mem_cons, List.not_mem_nil, or_false] at simple
    rcases simple with rfl | rfl | rfl <;> exact references_append (by decide)
  | @counted t z _ isCounted isMark =>
    rw [List.append_assoc, references_append (arePlain_of_isCounted isCounted)]
    rcases isMark with rfl | ⟨rfl, -⟩
    · exact references_append (by decide)
    · rfl

/-- A single character holds no reference. -/
theorem references_single {a : Char} (ha : a ≠ '\\') :
    references scope ((Setting.single scope a).1 ++ x) =
      references (Setting.single scope a).2 x := by
  fun_cases Setting.single scope a with
  | case1 => exact references_open
  | case2 => exact references_close
  | case9 =>
    have hopen : scope = .outside → a = '[' → False := ‹_›
    have hclose : scope = .inClass → a = ']' → False := ‹_›
    refine references_cons ⟨ha, ?_⟩
    cases scope with
    | outside => exact hopen rfl
    | inClass => exact hclose rfl
  | _ => exact references_letter (by decide) (by decide)

end Lexemes

section Fronts

theorem single_cases (scope : Scope) (a : Char) :
    (Setting.single scope a).1 = [a] ∨ (Setting.single scope a).1 = ['\\', a] := by
  unfold Setting.single
  split <;> simp

variable {c c' : Context} {lexeme : Lexeme} {scope : Scope} {written' : String}
  {custom : List Char} {subpatterns : Option Subpatterns}

private theorem not_mem_referenceTo (n : Nat) : '\x7d' ∉ referenceTo n := by
  simp only [referenceTo, List.mem_cons, not_or]
  exact ⟨by decide, fun hm => absurd (areDigits_toDigits n _ hm) (by decide)⟩

private theorem not_mem_separator : '\x7d' ∉ separator r := by
  unfold separator
  split
  · simp
  · decide

private theorem not_mem_of_emits (kept : lexeme.isReparsed = false)
    (emitted : lexeme.Emits scope written' r custom subpatterns c w c') : '\x7d' ∉ w := by
  cases emitted with
  | subpattern => simp [Lexeme.isReparsed] at kept
  | comment => exact not_mem_separator
  | spacing => exact not_mem_separator
  | numberedReference => exact not_mem_referenceTo _
  | namedReference =>
    rw [List.mem_append, not_or]
    refine ⟨not_mem_referenceTo _, ?_⟩
    split <;> decide
  | _ => decide

/-- A brace that closes is only written where one is read. -/
theorem Reading.mem_brace (h : Reading e p ms q) (hw : '\x7d' ∈ written ms) : '\x7d' ∈ p.rest := by
  induction h with
  | done => simp at hw
  | @step p q m ms move tail ih =>
    rw [written_cons, List.mem_append] at hw
    have hm := moves_of_move? move
    cases hm with
    | lexeme rest spelled kept emitted =>
      rw [rest, List.mem_append]
      rcases hw with hw | hw
      · exact absurd hw (not_mem_of_emits kept emitted)
      · exact .inr (ih hw)
    | subpattern rest =>
      rw [rest]
      simp
    | copied rest =>
      rw [rest, List.mem_append]
      exact hw.imp_right ih
    | @single a r rest =>
      rw [rest, List.mem_cons]
      rcases hw with hw | hw
      · rcases single_cases p.scope a with hs | hs <;>
          exact .inl (by simpa [Move.output, hs] using hw)
      · exact .inr (ih hw)

/-- A text that starts with a sign, or with a quantifier in braces. -/
inductive Fronted (scope : Scope) : List Char → Prop
  | sign {d : Char} {x : List Char} (isSign : d ∈ ['\\', '[', '(', '?', '*', '+']) :
    Fronted scope (d :: x)
  | counted {t w : List Char} (outside : scope = .outside) (isCounted : IsCounted t) :
    Fronted scope (t ++ w)

theorem Fronted.isAlphanum_eq_false {d : Char} (h : Fronted scope (d :: x)) :
    d.isAlphanum = false := by
  generalize hw : d :: x = w at h
  cases h with
  | sign isSign =>
    obtain rfl := (List.cons.inj hw).1
    simp only [List.mem_cons, List.not_mem_nil, or_false] at isSign
    rcases isSign with rfl | rfl | rfl | rfl | rfl | rfl <;> decide
  | counted _ isCounted =>
    obtain ⟨u, rfl, -⟩ := isCounted.exists_eq_cons
    obtain rfl := (List.cons.inj hw).1
    decide

theorem IsQuantifier.fronted (h : IsQuantifier t) : Fronted .outside (t ++ x) := by
  cases h with
  | simple isSimple => exact .sign (by simp_all)
  | counted isCounted => exact .counted rfl isCounted

theorem Copied.fronted (h : Copied scope t r) : Fronted scope (t ++ x) := by
  cases h with
  | escape => exact .sign (by decide)
  | opener isOpener =>
    obtain ⟨u, rfl, -⟩ := exists_eq_cons_of_mem_openers isOpener
    exact .sign (by decide)
  | lazy simple => exact .sign (by simp_all)
  | counted isCounted =>
    rw [List.append_assoc]
    exact .counted rfl isCounted

/-- What is written for a lexeme starts with a sign, unless it is removed text before a quantifier
or a modifier. -/
private theorem front_of_emits (kept : lexeme.isReparsed = false)
    (emitted : lexeme.Emits scope written' r custom subpatterns c w c') :
    Fronted scope (w ++ x) ∨
      (lexeme = .comment ∨ lexeme = .spacing) ∧ startsWithQuantifier r = true ∧ w = [] ∨
      ∃ flags, lexeme = .modifier flags := by
  have separated (hl : lexeme = .comment ∨ lexeme = .spacing) :
      Fronted scope (separator r ++ x) ∨
        (lexeme = .comment ∨ lexeme = .spacing) ∧ startsWithQuantifier r = true ∧
          separator r = [] ∨ ∃ flags, lexeme = .modifier flags := by
    unfold separator
    split
    · next hq => exact .inr (.inl ⟨hl, hq, rfl⟩)
    · exact .inl (.sign (by decide))
  cases emitted with
  | subpattern => simp [Lexeme.isReparsed] at kept
  | comment => exact separated (.inl rfl)
  | spacing => exact separated (.inr rfl)
  | modifier => exact .inr (.inr ⟨_, rfl⟩)
  | _ => exact .inl (.sign (by decide))

theorem written_quantifier (h : Reading e p ms q) (hend : q.rest = [])
    (hscope : p.scope = .outside) (hq : startsWithQuantifier p.rest = true) :
    Fronted p.scope (written ms) := by
  obtain ⟨atStart, rest, scope, c⟩ := p
  obtain rfl : scope = .outside := hscope
  obtain ⟨t, u, rfl, ht⟩ := startsWithQuantifier_iff.mp hq
  obtain ⟨z, r, rfl, hz⟩ := exists_isMark u
  rw [← List.append_assoc] at h
  obtain ⟨w, hw⟩ := (reads_quantifier (e := e) (c := c) ht hz).exists_written h hend
  rw [hw, List.append_assoc]
  exact ht.fronted

/-- The first character that is written past the start is read alone, or fronts a sign or a
quantifier. -/
theorem written_front (h : Reading e p ms q) (hend : q.rest = [])
    (started : p.atStart = false) :
    written ms = [] ∨ (∃ d p' ms', p.rest = d :: p'.rest ∧ p'.atStart = false ∧
      Reading e p' ms' q ∧ written ms = d :: written ms') ∨ Fronted p.scope (written ms) := by
  induction h with
  | done => exact .inl rfl
  | @step p q m ms move tail ih =>
    have hm := moves_of_move? move
    cases hm with
    | @lexeme lexeme t r w c rest spelled kept emitted =>
      rcases front_of_emits (x := written ms) kept emitted with hf | ⟨hl, hq, rfl⟩ | ⟨flags, rfl⟩
      · exact .inr (.inr hf)
      · have hscope : p.scope = .outside := by
          generalize p.scope = scope at spelled
          rcases hl with rfl | rfl <;> cases spelled <;> rfl
        have hf := written_quantifier tail hend hscope hq
        exact .inr (.inr hf)
      · generalize p.scope = scope at spelled
        cases spelled with
        | modifier atStart => simp [Setting.lexemeSettings, started] at atStart
    | @subpattern name r text rest =>
      rcases ih hend started with hnil | ⟨d, p', ms', hp', -, -, hw⟩ | hf
      · exact .inl hnil
      · obtain rfl := (List.cons.inj hp').1
        refine .inr (.inr ?_)
        rw [written_cons, hw]
        exact .sign (by decide)
      · exact .inr (.inr hf)
    | copied _ _ copied => exact .inr (.inr copied.fronted)
    | @single a r rest =>
      refine .inr ?_
      rcases single_cases p.scope a with hs | hs
      · exact .inl ⟨a, _, ms, rest, rfl, tail, by simp [Move.output, hs]⟩
      · rw [written_cons, Move.output, hs]
        exact .inr (.sign (by decide))

theorem mirrors_written (h : Reading e p ms q) (hend : q.rest = []) (started : p.atStart = false) :
    Mirrors p.rest (written ms) where
  nil hnil := by
    cases h with
    | done => rfl
    | step move => simp [move?_eq_none_iff.mpr hnil] at move
  alphanum v := by
    induction v generalizing p ms with
    | nil => exact fun _ _ _ => ⟨p.rest, rfl⟩
    | cons d v ih =>
      intro w hw hv
      rcases written_front h hend started with hnil | ⟨a, p', ms', hp', started', h', hw'⟩ | hf
      · simp [hnil] at hw
      · rw [hw'] at hw
        obtain ⟨rfl, hx⟩ := List.cons.inj hw
        obtain ⟨w', hr⟩ := ih h' started' w hx fun c hc => hv c (by simp [hc])
        exact ⟨w', by rw [hp', hr]; rfl⟩
      · rw [hw] at hf
        have hd := hv d (by simp)
        simp [hf.isAlphanum_eq_false] at hd

/-- Braces that are written where none stood are those of a quantifier behind removed text. -/
theorem exists_isCounted_of_braced? (h : Reading e p ms q) (hend : q.rest = [])
    (started : p.atStart = false) {n : Nat} (hr : braced? p.rest = none)
    (hx : braced? (written ms) = some n) :
    p.scope = .outside ∧ ∃ t w, IsCounted t ∧ written ms = t ++ w ∧ n = t.length := by
  obtain ⟨body, w, hw, -, -⟩ := braced?_eq_some_iff.mp hx
  rcases written_front h hend started with hnil | ⟨d, p', ms', hp', -, h', hw'⟩ | hf
  · simp [hnil] at hw
  · obtain ⟨rfl, hx'⟩ := List.cons.inj (hw'.symm.trans hw)
    have hmem : '\x7d' ∈ p'.rest := h'.mem_brace (by rw [hx']; simp)
    exact absurd hmem (braced?_eq_none_iff.mp hr _ hp')
  · generalize written ms = x at hx hw hf
    cases hf with
    | sign isSign =>
      obtain rfl := (List.cons.inj hw).1
      exact absurd isSign (by decide)
    | counted outside isCounted =>
      rw [isCounted.braced?] at hx
      exact ⟨outside, _, _, isCounted, rfl, (Option.some.inj hx).symm⟩

theorem references_gap (h : Reading e p ms q) (hend : q.rest = []) (started : p.atStart = false)
    {n : Nat} (hr : braced? p.rest = none) (hx : braced? (written ms) = some n) :
    references p.scope ((written ms).drop n) = references p.scope (written ms) := by
  obtain ⟨outside, t, w, isCounted, hw, rfl⟩ := exists_isCounted_of_braced? h hend started hr hx
  rw [hw, outside, List.drop_left, references_append (arePlain_of_isCounted isCounted)]

end Fronts

section Runs

/-- A move that reads writes the reference that it comes to, if any. -/
theorem Moves.references_eq (h : Moves e p (.read t w q)) (mirrors : Mirrors q.rest x)
    (gap : ∀ n, braced? q.rest = none → braced? x = some n →
      references q.scope (x.drop n) = references q.scope x) :
    references p.scope (w ++ x) =
      (e.reference? p).toList.map (Nat.toDigits 10) ++ references q.scope x := by
  cases h with
  | lexeme rest spelled kept emitted =>
    rw [reference?_eq rest spelled]
    exact references_lexeme spelled kept emitted mirrors
  | copied rest bare copied =>
    have hnone : e.reference? p = none := by simp [Setting.reference?, bare]
    rw [rest] at bare
    simpa [hnone] using references_copied bare copied mirrors gap
  | @single a r rest bare own =>
    have hnone : e.reference? p = none := by simp [Setting.reference?, bare]
    have ha : a ≠ '\\' := by
      rintro rfl
      simp [rest, copiedLength?] at own
    simpa [hnone] using references_single ha

/-- The references in what is written are those that the reading comes to. -/
theorem references_written (h : Reading e p ms q) (hend : q.rest = []) :
    references p.scope (written ms) = (e.referencesRead ms).map (Nat.toDigits 10) := by
  induction h with
  | done => simp
  | @step p q m ms move tail ih =>
    have hm := moves_of_move? move
    have hi := ih hend
    cases m with
    | read t w p' =>
      obtain ⟨-, -, started⟩ := hm.text_ne_nil
      have hstep := hm.references_eq (mirrors_written tail hend started)
        fun n => references_gap tail hend started
      simp only [written_cons, Move.output, Move.next] at hi ⊢
      rw [hstep, hi, referencesRead_cons, List.map_append]
    | expand p' =>
      cases hm with
      | subpattern rest isName building =>
        have hnone : e.reference? p = none := by
          rw [reference?_eq rest (.subpattern building isName)]
          rfl
        rw [referencesRead_cons, hnone]
        exact hi

/-- The references of a plain text are those of its pattern, each with its number, and none goes
beyond the groups that are recorded before it. -/
theorem references_toPlain {limit : Nat} {c c' : Context} {out : List Char}
    (ht : e.dialect.tokens = []) (h : e.toPlain limit c = .ok (out, c')) :
    ∃ ms q, Reading e (.start e.pattern.toList c) ms q ∧ q.rest = [] ∧ written ms = out ∧
      references .outside out = (e.referencesRead ms).map (Nat.toDigits 10) ∧
      ∀ p m, (p, m) ∈ ms → ∀ n, e.reference? p = some n → 1 ≤ n ∧ n ≤ p.context.groupCount := by
  obtain ⟨ms, q, hms, hend, -, rfl, -⟩ := (toPlain_eq_ok_iff ht).mp h
  refine ⟨ms, q, hms, hend, rfl, references_written hms hend, fun p m hmem n hn => ?_⟩
  exact (hms.moves_of_mem hmem).reference?_le hn

/-- The digit behind the name of a group is not taken into its number. -/
theorem references_toPlain_named :
    let e : Setting := ⟨{}, ⟨true, fun _ _ => none⟩, none, "(a)(?<w>b)\\k<w>1[\\0]\\1"⟩
    e.toPlain 0 (.ofFlags "") =
        .ok ("(a)(b)\\2(?:)1[\\x00]\\1".toList, ⟨[], [none, some "w"]⟩) ∧
      references .outside "(a)(b)\\2(?:)1[\\x00]\\1".toList = [['2'], ['1']] ∧
      ∃ ms q, Reading e (.start e.pattern.toList (.ofFlags "")) ms q ∧ q.rest = [] ∧
        written ms = "(a)(b)\\2(?:)1[\\x00]\\1".toList ∧
        references .outside "(a)(b)\\2(?:)1[\\x00]\\1".toList =
          (e.referencesRead ms).map (Nat.toDigits 10) ∧
        ∀ p m, (p, m) ∈ ms → ∀ n, e.reference? p = some n → 1 ≤ n ∧ n ≤ p.context.groupCount := by
  intro e
  have h : e.toPlain 0 (.ofFlags "") =
      .ok ("(a)(b)\\2(?:)1[\\x00]\\1".toList, ⟨[], [none, some "w"]⟩) := by cbv
  have hreferences : references .outside "(a)(b)\\2(?:)1[\\x00]\\1".toList = [['2'], ['1']] := by
    cbv
  exact ⟨h, hreferences, references_toPlain rfl h⟩

end Runs

end Patterns.Extended
