import Patterns.Proofs.Settled

/-!
# Classes in plain text

`classParts` finds the classes of a plain text and what they are written with. A reading of a
pattern writes them part by part (`ClassReading`): every bracket, ampersand and tilde in a class is
escaped and no class is left empty, but hyphens are written as they stand.
-/
namespace Patterns.Extended
open Patterns.Text

inductive ClassPart where
  | opening
  | closing
  /-- A backslash and the text that belongs to it. -/
  | escape (text : List Char)
  | char (c : Char)
  deriving DecidableEq, Repr

/-- The text behind the comment that a text opens with, past the parenthesis and the marks. -/
def commentEnd? (comments : Bool) (body : List Char) : Option (List Char) :=
  if comments then Plain.Reader.afterComment body else none

theorem commentEnd?_length {comments : Bool} {body rest : List Char}
    (h : commentEnd? comments body = some rest) : rest.length < body.length := by
  unfold commentEnd? at h
  split at h
  · exact Plain.Reader.afterComment_length h
  · cases h

/-- The classes of a plain text, from the bracket that opens each of them to the one that closes it.
With `comments` the text of comments is passed. -/
def classParts (comments : Bool) : Scope → List Char → List ClassPart
  | _, [] => []
  | .outside, '\\' :: cs => classParts comments .outside (cs.drop (escapeLength cs))
  | .inClass, '\\' :: cs =>
    .escape (cs.take (escapeLength cs)) ::
      classParts comments .inClass (cs.drop (escapeLength cs))
  | .outside, '[' :: cs => .opening :: classParts comments .inClass cs
  | .inClass, ']' :: cs => .closing :: classParts comments .outside cs
  | .inClass, c :: cs => .char c :: classParts comments .inClass cs
  | .outside, '(' :: '?' :: '#' :: body =>
    match _h : commentEnd? comments body with
    | some rest => classParts comments .outside rest
    | none => classParts comments .outside ('?' :: '#' :: body)
  | .outside, _ :: cs => classParts comments .outside cs
  termination_by _ cs => cs.length
  decreasing_by
    all_goals simp only [List.length_drop, List.length_cons]
    all_goals try have hlt := commentEnd?_length _h
    all_goals omega

example : classParts true .outside "(?#[a])[b\\]]".toList =
    [.opening, .char 'b', .escape [']'], .closing] := by cbv

section Text

variable {comments : Bool} {scope : Scope} {c : Char} {t x : List Char}

@[simp] theorem classParts_nil : classParts comments scope [] = [] := by
  cases scope <;> simp [classParts]

theorem classParts_outside_escape : classParts comments .outside ('\\' :: t) =
    classParts comments .outside (t.drop (escapeLength t)) := by
  rw [classParts]

theorem classParts_escape : classParts comments .inClass ('\\' :: t) =
    .escape (t.take (escapeLength t)) ::
      classParts comments .inClass (t.drop (escapeLength t)) := by
  rw [classParts]

theorem classParts_open :
    classParts comments .outside ('[' :: x) = .opening :: classParts comments .inClass x := by
  rw [classParts]

theorem classParts_close :
    classParts comments .inClass (']' :: x) = .closing :: classParts comments .outside x := by
  rw [classParts]

theorem classParts_char (hc : IsPlain .inClass c) :
    classParts comments .inClass (c :: x) = .char c :: classParts comments .inClass x := by
  obtain ⟨hslash, hclose⟩ := hc
  rw [classParts] <;> simp_all

theorem classParts_chars (ht : ArePlain .inClass t) : classParts comments .inClass (t ++ x) =
    t.map .char ++ classParts comments .inClass x := by
  induction t with
  | nil => rfl
  | cons c t ih =>
    rw [ArePlain, List.forall_mem_cons] at ht
    rw [List.cons_append, classParts_char ht.1, ih ht.2, List.map_cons, List.cons_append]

/-- A parenthesis that opens no comment. -/
theorem classParts_parenthesis (h : ∀ y, x = '?' :: '#' :: y → commentEnd? comments y = none) :
    classParts comments .outside ('(' :: x) = classParts comments .outside x := by
  by_cases hx : ∃ y, x = '?' :: '#' :: y
  · obtain ⟨y, rfl⟩ := hx
    rw [classParts]
    split
    · next he => simp [h y rfl] at he
    · rfl
  · rw [classParts]
    · simp
    · simp
    · exact fun y _ he => hx ⟨y, he⟩

theorem classParts_cons (hc : IsPlain .outside c) (hp : c ≠ '(') :
    classParts comments .outside (c :: x) = classParts comments .outside x := by
  obtain ⟨hslash, hopen⟩ := hc
  rw [classParts] <;> simp_all

theorem classParts_append (ht : ArePlain .outside t) (hp : '(' ∉ t) :
    classParts comments .outside (t ++ x) = classParts comments .outside x := by
  induction t with
  | nil => rfl
  | cons c t ih =>
    rw [ArePlain, List.forall_mem_cons] at ht
    rw [List.mem_cons, not_or] at hp
    rw [List.cons_append, classParts_cons ht.1 (Ne.symm hp.1), ih ht.2 hp.2]

/-- The opener of a group that captures nothing. -/
theorem classParts_opener (hc : IsPlain .outside c) (hp : c ∉ ['(', '#'])
    (ht : ArePlain .outside t) (hpt : '(' ∉ t) :
    classParts comments .outside ('(' :: '?' :: c :: (t ++ x)) =
      classParts comments .outside x := by
  simp only [List.mem_cons, List.not_mem_nil, or_false, not_or] at hp
  rw [classParts_parenthesis, classParts_cons (by decide) (by decide), classParts_cons hc hp.1,
    classParts_append ht hpt]
  intro y he
  exact absurd (List.cons.inj (List.cons.inj he).2).1 hp.2

theorem classParts_anyChar : classParts comments .outside (anyChar ++ x) =
    [.opening, .escape ['s'], .escape ['S'], .closing] ++ classParts comments .outside x := by
  have hspace : classParts comments .inClass ('\\' :: 's' :: '\\' :: 'S' :: ']' :: x) =
      .escape ['s'] :: classParts comments .inClass ('\\' :: 'S' :: ']' :: x) := classParts_escape
  have hother : classParts comments .inClass ('\\' :: 'S' :: ']' :: x) =
      .escape ['S'] :: classParts comments .inClass (']' :: x) := classParts_escape
  refine classParts_open.trans ?_
  exact congrArg _ (hspace.trans (congrArg _ (hother.trans (congrArg _ classParts_close))))

/-- An escape of a single character outside of classes. -/
theorem classParts_letter (hc : c ∉ ['x', 'u', 'U', 'p', 'P']) :
    classParts comments .outside ('\\' :: c :: x) = classParts comments .outside x := by
  rw [classParts_outside_escape]
  simp only [List.mem_cons, List.not_mem_nil, or_false, not_or] at hc
  simp [escapeLength, hc]

/-- An escape of a single character in a class. -/
theorem classParts_sign (hc : c ∉ ['x', 'u', 'U', 'p', 'P']) :
    classParts comments .inClass ('\\' :: c :: x) =
      .escape [c] :: classParts comments .inClass x := by
  rw [classParts_escape]
  simp only [List.mem_cons, List.not_mem_nil, or_false, not_or] at hc
  simp [escapeLength, hc]

theorem classParts_referenceTo (n : Nat) :
    classParts comments .outside (referenceTo n ++ x) = classParts comments .outside x := by
  obtain ⟨d, ds, hn, hletter, hplain, hparen⟩ := exists_referenceTo_eq n
  rw [hn, List.cons_append, List.cons_append, classParts_letter hletter,
    classParts_append hplain hparen]

end Text

section Steps

variable {comments : Bool} {e : Setting} {p q : Spot} {ms : History} {t r w x : List Char}
  {scope : Scope} {lexeme : Lexeme} {s : Lexeme.Settings} {c c' : Context} {written' : String}
  {custom : List Char} {subpatterns : Option Subpatterns}

/-- What a move that reads writes of a class. -/
inductive ClassStep (p q : Spot) : List ClassPart → Prop
  | apart (leaves : p.scope = .outside) (enters : q.scope = .outside) : ClassStep p q []
  | anything (leaves : p.scope = .outside) (enters : q.scope = .outside) :
    ClassStep p q [.opening, .escape ['s'], .escape ['S'], .closing]
  | opening (leaves : p.scope = .outside) (enters : q.scope = .inClass)
    (nonempty : q.rest.head? ≠ some ']') (nonfull : ∀ r, q.rest ≠ '^' :: ']' :: r) :
    ClassStep p q [.opening]
  | closing (leaves : p.scope = .inClass) (enters : q.scope = .outside)
    (rest : p.rest = ']' :: q.rest) : ClassStep p q [.closing]
  | escape {a : Char} {r u : List Char} (leaves : p.scope = .inClass) (enters : q.scope = .inClass)
    (rest : p.rest = a :: r) (sign : a ∈ ['\\', '[', '&', '~']) : ClassStep p q [.escape u]
  | char {a : Char} (leaves : p.scope = .inClass) (enters : q.scope = .inClass)
    (rest : p.rest = a :: q.rest) (own : a ∉ ['\\', '[', ']', '&', '~']) :
    ClassStep p q [.char a]

private theorem escapeLength_zero : escapeLength ('x' :: '0' :: '0' :: x) = 3 := by
  simp [escapeLength, braced?, hexRun, isHex]

private theorem classParts_zero : classParts comments .inClass (['\\', 'x', '0', '0'] ++ x) =
    [.escape ['x', '0', '0']] ++ classParts comments .inClass x := by
  change classParts comments .inClass ('\\' :: 'x' :: '0' :: '0' :: x) = _
  rw [classParts_escape, escapeLength_zero]
  rfl

theorem Moves.classStep_inClass (h : Moves e p (.read t w q)) (comments : Bool)
    (hscope : p.scope = .inClass)
    (mirrors : Mirrors q.rest x)
    (gap : q.scope = .inClass → braced? q.rest = none → braced? x = none) :
    ∃ ps, ClassStep p q ps ∧
      classParts comments .inClass (w ++ x) = ps ++ classParts comments q.scope x := by
  obtain ⟨atStart, text, scope, context⟩ := p
  obtain rfl : scope = .inClass := hscope
  cases h with
  | lexeme rest spelled kept emitted =>
    cases emitted with
    | zero =>
      cases spelled
      exact ⟨_, .escape rfl rfl rest (by decide), classParts_zero⟩
    | numberedReference _ outside => cases outside
    | _ => cases spelled <;> simp [Lexeme.isReparsed] at kept
  | copied rest bare copied =>
    cases copied with
    | @escape _ u _ length =>
      refine ⟨_, .escape (u := u) rfl rfl rest (by decide), ?_⟩
      rw [List.cons_append, classParts_escape, escapeLength_congr mirrors (gap rfl) length,
        List.take_left, List.drop_left]
      rfl
  | @single a r rest bare own =>
    have ha : a ≠ '\\' := by
      rintro rfl
      simp [show text = '\\' :: r from rest, copiedLength?] at own
    by_cases hclose : a = ']'
    · subst hclose
      exact ⟨_, .closing rfl rfl rest, classParts_close⟩
    · rw [single_inClass hclose]
      by_cases hsign : a ∈ ['[', '&', '~']
      · have hletter : a ∉ ['x', 'u', 'U', 'p', 'P'] := by
          simp only [List.mem_cons, List.not_mem_nil, or_false] at hsign
          rcases hsign with rfl | rfl | rfl <;> decide
        rw [if_pos hsign]
        exact ⟨_, .escape rfl rfl rest (List.mem_cons_of_mem _ hsign), classParts_sign hletter⟩
      · rw [if_neg hsign]
        refine ⟨_, .char rfl rfl rest ?_, classParts_char ⟨ha, hclose⟩⟩
        simp_all

private theorem classParts_apart : classParts comments .outside (['(', '?', ':', ')'] ++ x) =
    classParts comments .outside x :=
  classParts_opener (t := [')']) (by decide) (by decide) (by decide) (by decide)

private theorem classParts_separator :
    classParts comments .outside (separator r ++ x) = classParts comments .outside x := by
  unfold separator
  split
  · rfl
  · exact classParts_apart

/-- What is written for a lexeme holds no class but the one of all characters. -/
private theorem classParts_lexeme (spelled : lexeme.Spelled s .outside t r)
    (kept : lexeme.isReparsed = false)
    (emitted : lexeme.Emits .outside written' r custom subpatterns c w c')
    (clear : w = ['('] → ∀ y, x = '?' :: '#' :: y → commentEnd? comments y = none) :
    classParts comments .outside (w ++ x) = classParts comments .outside x ∨
      classParts comments .outside (w ++ x) =
        [.opening, .escape ['s'], .escape ['S'], .closing] ++ classParts comments .outside x := by
  cases emitted with
  | subpattern => simp [Lexeme.isReparsed] at kept
  | emptyClass =>
    have hb : classParts comments .outside ('\\' :: 'b' :: '\\' :: 'B' :: x) =
        classParts comments .outside ('\\' :: 'B' :: x) := classParts_letter (by decide)
    exact .inl (hb.trans (classParts_letter (by decide)))
  | fullClass | dot => exact .inr classParts_anyChar
  | comment | spacing => exact .inl classParts_separator
  | modifier => exact .inl rfl
  | zero =>
    change classParts comments .outside ('\\' :: 'x' :: '0' :: '0' :: x) = _ ∨ _
    rw [classParts_outside_escape, escapeLength_zero]
    exact .inl rfl
  | numberedReference => exact .inl (classParts_referenceTo _)
  | namedReference =>
    left
    rw [List.append_assoc, classParts_referenceTo]
    split
    · exact classParts_apart
    · rfl
  | namedGroup | group => exact .inl (classParts_parenthesis (clear rfl))
  | gathering =>
    exact .inl (classParts_opener (t := []) (by decide) (by decide) (by decide) (by decide))

private theorem classParts_copied (copied : Copied .outside t r) (mirrors : Mirrors r x)
    (gap : ∀ n, braced? r = none → braced? x = some n →
      ∃ t w, IsCounted t ∧ x = t ++ w ∧ n = t.length) :
    classParts comments .outside (t ++ x) = classParts comments .outside x := by
  cases copied with
  | @escape _ u _ length =>
    rw [List.cons_append, classParts_outside_escape]
    rcases escapeLength_cases mirrors length with hl | ⟨n, hr, hx, hl⟩
    · rw [hl, List.drop_left]
    · obtain ⟨t, w, isCounted, rfl, rfl⟩ := gap n hr hx
      rw [hl, ← List.drop_drop, List.drop_left, List.drop_left,
        classParts_append (arePlain_of_isCounted isCounted)
          (IsQuantifier.counted isCounted).not_mem_paren]
  | opener isOpener =>
    simp only [openers, List.mem_cons, List.not_mem_nil, or_false] at isOpener
    rcases isOpener with rfl | rfl | rfl | rfl | rfl | rfl
    · exact classParts_opener (t := ['=']) (by decide) (by decide) (by decide) (by decide)
    · exact classParts_opener (t := ['!']) (by decide) (by decide) (by decide) (by decide)
    all_goals exact classParts_opener (t := []) (by decide) (by decide) (by decide) (by decide)
  | lazy simple =>
    simp only [List.mem_cons, List.not_mem_nil, or_false] at simple
    rcases simple with rfl | rfl | rfl <;> exact classParts_append (by decide) (by decide)
  | @counted t z _ isCounted isMark =>
    have hparen : '(' ∉ t := (IsQuantifier.counted isCounted).not_mem_paren
    rw [List.append_assoc, classParts_append (arePlain_of_isCounted isCounted) hparen]
    rcases isMark with rfl | ⟨rfl, -⟩
    · exact classParts_append (by decide) (by decide)
    · rfl

/-- A bracket that opens a class is not closed at once. -/
theorem ne_close_of_scan? (bare : Lexeme.scan? s .outside ('[' :: r) = none) :
    r.head? ≠ some ']' ∧ ∀ y, r ≠ '^' :: ']' :: y := by
  constructor
  · intro hr
    obtain ⟨y, rfl⟩ := List.head?_eq_some_iff.mp hr
    simp [Lexeme.scan?] at bare
  · rintro y rfl
    simp [Lexeme.scan?] at bare

theorem single_outside_eq {a : Char} (ha : a ≠ '[') : Setting.single .outside a =
    (if a ∈ ['\x7b', '\x7d', ']'] then ['\\', a] else [a], .outside) := by
  unfold Setting.single
  split <;> simp_all

theorem Moves.classStep_outside (h : Moves e p (.read t w q)) (comments : Bool)
    (hscope : p.scope = .outside)
    (mirrors : Mirrors q.rest x)
    (gap : ∀ n, braced? q.rest = none → braced? x = some n →
      ∃ t w, IsCounted t ∧ x = t ++ w ∧ n = t.length)
    (clear : w = ['('] → ∀ y, x = '?' :: '#' :: y → commentEnd? comments y = none) :
    ∃ ps, ClassStep p q ps ∧
      classParts comments .outside (w ++ x) = ps ++ classParts comments q.scope x := by
  obtain ⟨atStart, text, scope, context⟩ := p
  obtain rfl : scope = .outside := hscope
  cases h with
  | lexeme rest spelled kept emitted =>
    rcases classParts_lexeme spelled kept emitted clear with heq | heq
    · exact ⟨[], .apart rfl rfl, heq⟩
    · exact ⟨_, .anything rfl rfl, heq⟩
  | copied rest bare copied => exact ⟨[], .apart rfl rfl, classParts_copied copied mirrors gap⟩
  | @single a r rest bare own =>
    have ha : a ≠ '\\' := by
      rintro rfl
      simp [show text = '\\' :: r from rest, copiedLength?] at own
    by_cases hopen : a = '['
    · subst hopen
      obtain ⟨nonempty, nonfull⟩ := ne_close_of_scan? (r := r) (by rw [← rest]; exact bare)
      exact ⟨_, .opening rfl rfl nonempty nonfull, classParts_open⟩
    · rw [single_outside_eq hopen] at clear ⊢
      refine ⟨[], .apart rfl rfl, ?_⟩
      by_cases hsign : a ∈ ['\x7b', '\x7d', ']']
      · have hletter : a ∉ ['x', 'u', 'U', 'p', 'P'] := by
          simp only [List.mem_cons, List.not_mem_nil, or_false] at hsign
          rcases hsign with rfl | rfl | rfl <;> decide
        rw [if_pos hsign]
        exact classParts_letter hletter
      · rw [if_neg hsign] at clear ⊢
        by_cases hparen : a = '('
        · subst hparen
          exact classParts_parenthesis (clear rfl)
        · exact classParts_cons ⟨ha, hopen⟩ hparen

end Steps

section Runs

variable {comments : Bool} {e : Setting} {p q : Spot} {m : Move} {ms : History}
  {ps : List ClassPart} {w t : List Char}

/-- What the moves of a whole reading write of classes. An expansion opens a group, in a class as
well. -/
inductive ClassReading : Spot → History → List ClassPart → Prop
  | done {p : Spot} (ended : p.rest = []) : ClassReading p [] []
  | read {p q : Spot} {t w : List Char} {ms : History} {ps qs : List ClassPart}
    (step : ClassStep p q ps) (tail : ClassReading q ms qs) :
    ClassReading p ((p, .read t w q) :: ms) (ps ++ qs)
  | expand {p q : Spot} {ms : History} {ps : List ClassPart} (scope : q.scope = p.scope)
    (before : p.rest.head? = some '\x7b') (after : q.rest.head? = some '(')
    (tail : ClassReading q ms ps) : ClassReading p ((p, .expand q) :: ms) ps

theorem afterComment_eq_none {body : List Char} (h : ')' ∉ body) :
    Plain.Reader.afterComment body = none := by
  fun_induction Plain.Reader.afterComment body <;> simp_all

/-- A parenthesis alone is written where a group is recorded. -/
theorem groupCount_of_emits {scope : Scope} {lexeme : Lexeme} {c c' : Context} {written' : String}
    {r custom : List Char} {subpatterns : Option Subpatterns}
    (emitted : lexeme.Emits scope written' r custom subpatterns c ['('] c') :
    c'.groupCount = c.groupCount + 1 := by
  have not_separator (h : separator r = ['(']) : False := by
    unfold separator at h
    split at h <;> simp at h
  generalize hw : ['('] = w at emitted
  cases emitted with
  | namedGroup added | group _ added => exact groupCount_addGroup added
  | comment | spacing => exact (not_separator hw.symm).elim
  | numberedReference | namedReference => simp [referenceTo] at hw
  | _ => simp [anyChar] at hw

theorem Copied.ne_parenthesis {scope : Scope} {r : List Char} (h : Copied scope t r) :
    t ≠ ['('] := by
  rintro rfl
  generalize ht : ['('] = t at h
  cases h with
  | escape => simp at ht
  | opener isOpener => subst ht; exact absurd isOpener (by decide)
  | lazy => simp at ht
  | counted isCounted =>
    obtain ⟨u, rfl, -⟩ := isCounted.exists_eq_cons
    simp at ht

/-- A parenthesis that is written opens no comment that is closed, where no group is glued to a
question mark and no open comment is closed. -/
theorem Moves.afterComment_eq_none {r : Spot} {y : List Char} (h : Moves e p (.read t w q))
    (tail : Reading e q ms r) (hend : r.rest = []) (hscope : p.scope = .outside)
    (apart : glue p.context q.context (written ms) = 0)
    (unclosed : p.OpensComment → ∀ y, w ++ written ms = '(' :: '?' :: '#' :: y → ')' ∉ y)
    (hw : w = ['(']) (hy : written ms = '?' :: '#' :: y) :
    Plain.Reader.afterComment y = none := by
  have recorded (hlt : p.context.groupCount < q.context.groupCount) : False := by
    rw [glue, hy, if_pos ⟨hlt, rfl⟩] at apart
    cases apart
  obtain ⟨-, -, started⟩ := h.text_ne_nil
  obtain ⟨atStart, text, scope, context⟩ := p
  obtain rfl : scope = .outside := hscope
  cases h with
  | lexeme rest spelled kept emitted =>
    subst hw
    exact (recorded (by simp [groupCount_of_emits emitted])).elim
  | copied _ _ copied => exact absurd hw copied.ne_parenthesis
  | @single a u rest bare own =>
    obtain rfl : a = '(' := by
      rcases single_cases .outside a with hs | hs
      · exact (List.cons.inj (hs.symm.trans hw)).1
      · simp [hs] at hw
    rw [rest] at bare own
    obtain ⟨b, rfl⟩ := List.head?_eq_some_iff.mp (head?_of_single bare)
    obtain ⟨x, hx, echoes⟩ := exists_echoes_of_mark tail hend started rfl rfl
    obtain rfl : x = '#' :: y := (List.cons.inj (hx.symm.trans hy)).2
    obtain ⟨b, rfl⟩ := echoes ['#'] y rfl (by decide)
    have hb : ')' ∉ b := fun hb => by
      obtain ⟨body, v, rfl, hbody⟩ := List.eq_append_cons_of_mem hb
      have hscan := (Lexeme.Spelled.comment (r := v)
        (s := e.lexemeSettings ⟨atStart, text, .outside, context⟩) hbody).scan?
      simp only [List.cons_append, List.append_assoc, List.nil_append] at hscan bare
      rw [bare] at hscan
      cases hscan
    refine Extended.afterComment_eq_none (unclosed ⟨rfl, b, rest, hb⟩ y ?_)
    rw [hw, hy]
    rfl

theorem Reading.classReading (h : Reading e p ms q) (hend : q.rest = [])
    (clear : comments = true → glued ms = 0 ∧ ¬ClosesOpenComment ms) :
    ClassReading p ms (classParts comments p.scope (written ms)) := by
  induction h with
  | done =>
    rw [written_nil, classParts_nil]
    exact .done hend
  | @step p q m ms move tail ih =>
    have hm := moves_of_move? move
    have clear' : comments = true → glued ms = 0 ∧ ¬ClosesOpenComment ms := by
      intro hc
      obtain ⟨apart, unclosed⟩ := clear hc
      rw [glued, Nat.add_eq_zero_iff] at apart
      exact ⟨apart.1, fun hclosed => unclosed (.inr hclosed)⟩
    have hi := ih hend clear'
    cases m with
    | expand p' =>
      cases hm with
      | subpattern rest => exact .expand rfl (by rw [rest]; rfl) rfl hi
    | read t w p' =>
      obtain ⟨-, -, started⟩ := hm.text_ne_nil
      have mirrors := mirrors_written tail hend started
      have gap (n : Nat) := exists_isCounted_of_braced? (n := n) tail hend started
      cases hscope : p.scope with
      | inClass =>
        have ungapped (hp : p'.scope = .inClass) (hr : braced? p'.rest = none) :
            braced? (written ms) = none := by
          by_contra hx
          obtain ⟨n, hn⟩ := Option.ne_none_iff_exists'.mp hx
          exact absurd (hp.symm.trans (gap n hr hn).1) (by decide)
        obtain ⟨ps, step, hps⟩ := hm.classStep_inClass comments hscope mirrors ungapped
        rw [written_cons]
        change ClassReading _ _ (classParts _ _ (w ++ written ms))
        rw [hps]
        exact .read step hi
      | outside =>
        have unclear (hw : w = ['(']) (y : List Char) (hy : written ms = '?' :: '#' :: y) :
            commentEnd? comments y = none := by
          cases comments with
          | false => rfl
          | true =>
            obtain ⟨apart, unclosed⟩ := clear rfl
            rw [glued, Nat.add_eq_zero_iff] at apart
            exact hm.afterComment_eq_none tail hend hscope apart.2
              (fun hp y hy => fun hmem => unclosed (.inl ⟨hp, y, hy, hmem⟩)) hw hy
        obtain ⟨ps, step, hps⟩ := hm.classStep_outside comments hscope mirrors
          (fun n hr hx => (gap n hr hx).2) unclear
        rw [written_cons]
        change ClassReading _ _ (classParts _ _ (w ++ written ms))
        rw [hps]
        exact .read step hi

namespace ClassReading

/-- What a character stands for where it stands in a class. -/
def partOf (c : Char) : ClassPart := if c = ']' then .closing else .char c

theorem partOf_inj {a c : Char} : partOf a = partOf c ↔ a = c := by
  unfold partOf
  split <;> split <;> simp_all [eq_comm]

theorem partOf_of_ne {a : Char} (ha : a ≠ ']') : partOf a = .char a := if_neg ha

theorem partOf_ne_escape {a : Char} {u : List Char} : partOf a ≠ .escape u := by
  unfold partOf
  split <;> simp

/-- A hyphen, a caret or a bracket that closes is written first in a class where it is read
first. -/
theorem head?_eq_iff (h : ClassReading p ms ps) (hscope : p.scope = .inClass) {c : Char}
    (hc : c ∈ ['-', '^', ']']) : ps.head? = some (partOf c) ↔ p.rest.head? = some c := by
  have hsign {a : Char} (ha : a ∈ ['\\', '[', '&', '~', '(', '\x7b']) : a ≠ c := by
    rintro rfl
    simp only [List.mem_cons, List.not_mem_nil, or_false] at hc
    rcases hc with rfl | rfl | rfl <;> exact absurd ha (by decide)
  induction h with
  | done ended => simp [ended]
  | read step =>
    cases step with
    | apart leaves | anything leaves | opening leaves => simp [leaves] at hscope
    | closing _ _ rest =>
      have hpart : ClassPart.closing = partOf ']' := rfl
      rw [rest, hpart]
      exact Option.some_inj.trans (partOf_inj.trans Option.some_inj.symm)
    | @escape a _ _ _ _ rest sign =>
      rw [rest]
      refine iff_of_false (fun he => partOf_ne_escape (Option.some.inj he).symm) fun he => ?_
      exact hsign (List.mem_append_left ['(', '\x7b'] sign) (Option.some.inj he)
    | @char a _ _ rest own =>
      have hne : a ≠ ']' := by
        rintro rfl
        simp at own
      rw [rest, ← partOf_of_ne hne]
      exact Option.some_inj.trans (partOf_inj.trans Option.some_inj.symm)
  | expand scope before after _ ih =>
    simp [ih (scope.trans hscope), before, after, hsign]

/-- Two characters are written one behind the other in a class where they are read so. -/
theorem prefix_iff (h : ClassReading p ms ps) (hscope : p.scope = .inClass) {a b : Char}
    (ha : a ∈ ['-', '^']) (hb : b ∈ ['-', '^', ']']) :
    [.char a, partOf b] <+: ps ↔ [a, b] <+: p.rest := by
  have hpart : partOf a = .char a := partOf_of_ne (by rintro rfl; simp at ha)
  have hhead := h.head?_eq_iff hscope (List.mem_append_left [']'] ha)
  by_cases hfirst : p.rest.head? = some a
  · cases h with
    | done ended => simp [ended] at hfirst
    | expand _ before =>
      obtain rfl : '\x7b' = a := Option.some.inj (before.symm.trans hfirst)
      simp at ha
    | read step tail =>
      rw [← hhead, hpart] at hfirst
      cases step with
      | apart leaves | anything leaves | opening leaves => simp [leaves] at hscope
      | closing | escape => simp at hfirst
      | @char d _ enters rest own =>
        rw [rest, List.singleton_append, List.cons_prefix_cons, List.cons_prefix_cons,
          List.singleton_prefix_iff_head?_eq_some, List.singleton_prefix_iff_head?_eq_some,
          tail.head?_eq_iff enters hb]
        simp
  · refine iff_of_false ?_ ?_
    · rintro ⟨qs, rfl⟩
      exact hfirst (hhead.mp (by rw [hpart]; rfl))
    · rintro ⟨r, hr⟩
      exact hfirst (by rw [← hr]; rfl)

theorem char_notMem (h : ClassReading p ms ps) {c : Char} (hc : c ∈ ['[', '&', '~']) :
    .char c ∉ ps := by
  induction h with
  | done => simp
  | read step _ ih =>
    rw [List.mem_append, not_or]
    refine ⟨?_, ih⟩
    cases step with
    | char _ _ _ own =>
      intro hm
      obtain rfl : c = _ := by simpa using hm
      simp_all
    | _ => simp
  | expand _ _ _ _ ih => exact ih

theorem nonempty (h : ClassReading p ms ps) : ¬[.opening, .closing] <:+: ps := by
  induction h with
  | done => simp
  | @read p q t w ms ps qs step tail ih =>
    cases step with
    | opening leaves enters nonempty =>
      have hhead := (tail.head?_eq_iff enters (c := ']') (by simp)).not.mpr nonempty
      rw [List.singleton_append, List.infix_cons_iff, not_or, List.cons_prefix_cons,
        List.singleton_prefix_iff_head?_eq_some]
      exact ⟨fun hp => hhead hp.2, ih⟩
    | _ => simpa [List.infix_cons_iff] using ih
  | expand _ _ _ _ ih => exact ih

theorem nonfull (h : ClassReading p ms ps) : ¬[.opening, .char '^', .closing] <:+: ps := by
  induction h with
  | done => simp
  | @read p q t w ms ps qs step tail ih =>
    cases step with
    | opening leaves enters _ nonfull =>
      have hfront := tail.prefix_iff enters (a := '^') (b := ']') (by simp) (by simp)
      rw [List.singleton_append, List.infix_cons_iff, not_or, List.cons_prefix_cons]
      refine ⟨fun hp => ?_, ih⟩
      obtain ⟨r, hr⟩ := hfront.mp hp.2
      exact nonfull r hr.symm
    | _ => simpa [List.infix_cons_iff] using ih
  | expand _ _ _ _ ih => exact ih

theorem hyphens_iff (h : ClassReading p ms ps) : [.char '-', .char '-'] <:+: ps ↔
    ∃ p' m, (p', m) ∈ ms ∧ p'.scope = .inClass ∧ ['-', '-'] <+: p'.rest := by
  have hcons (p : Spot) (m : Move) (ms : History) :
      (∃ p' m', (p', m') ∈ (p, m) :: ms ∧ p'.scope = .inClass ∧ ['-', '-'] <+: p'.rest) ↔
        (p.scope = .inClass ∧ ['-', '-'] <+: p.rest) ∨
          ∃ p' m', (p', m') ∈ ms ∧ p'.scope = .inClass ∧ ['-', '-'] <+: p'.rest := by
    simp only [List.mem_cons, or_and_right, exists_or, Prod.mk.injEq]
    simp
  induction h with
  | done => simp
  | @read p q t w ms ps qs step tail ih =>
    rw [hcons]
    refine Iff.trans ?_ (or_congr_right ih)
    have hfront (hscope : p.scope = .inClass) : [.char '-', .char '-'] <+: ps ++ qs ↔
        ['-', '-'] <+: p.rest :=
      (ClassReading.read (t := t) (w := w) step tail).prefix_iff hscope (b := '-') (by simp)
        (by simp)
    cases step with
    | apart leaves | anything leaves | opening leaves => simp [leaves, List.infix_cons_iff]
    | closing leaves | escape leaves | char leaves =>
      rw [← hfront leaves, List.singleton_append, List.infix_cons_iff]
      simp [leaves]
  | @expand p q ms ps scope before after tail ih =>
    have hne : ¬['-', '-'] <+: p.rest := by
      rintro ⟨r, hr⟩
      simp [← hr] at before
    rw [hcons]
    exact ih.trans (or_iff_right fun h => hne h.2).symm

end ClassReading

/-- Nothing in the classes opens a class of its own, intersects sets or takes their symmetric
difference, and no class is empty or full. -/
structure AreEscaped (ps : List ClassPart) : Prop where
  unnested : .char '[' ∉ ps
  intersection : ¬[.char '&', .char '&'] <:+: ps
  symmetricDifference : ¬[.char '~', .char '~'] <:+: ps
  nonempty : ¬[.opening, .closing] <:+: ps
  nonfull : ¬[.opening, .char '^', .closing] <:+: ps

theorem ClassReading.areEscaped (h : ClassReading p ms ps) : AreEscaped ps := by
  have single {c : Char} (hc : c ∈ ['[', '&', '~']) : ¬[.char c, .char c] <:+: ps :=
    fun hi => h.char_notMem hc (hi.mem (by simp))
  exact ⟨h.char_notMem (by decide), single (by decide), single (by decide), h.nonempty, h.nonfull⟩

theorem afterComment_suffix {body rest : List Char}
    (h : Plain.Reader.afterComment body = some rest) : rest <:+ body := by
  fun_induction Plain.Reader.afterComment body with
  | case1 => cases h
  | case2 => cases h
  | case3 body =>
    cases h
    exact List.suffix_cons _ _
  | case4 a body ih => exact (ih h).trans ((List.suffix_cons _ _).trans (List.suffix_cons _ _))
  | case5 a body _ _ _ ih => exact (ih h).trans (List.suffix_cons _ _)

/-- A class stands behind a bracket in the text. -/
theorem exists_of_classParts {scope : Scope} {x : List Char} {us : List ClassPart}
    (h : classParts comments scope x = us ++ .opening :: ps) :
    ∃ y, '[' :: y <:+ x ∧ classParts comments .inClass y = ps := by
  have grow {x x' : List Char} (hs : x' <:+ x)
      (h : ∃ y, '[' :: y <:+ x' ∧ classParts comments .inClass y = ps) :
      ∃ y, '[' :: y <:+ x ∧ classParts comments .inClass y = ps :=
    h.imp fun y hy => ⟨hy.1.trans hs, hy.2⟩
  have strip {part : ClassPart} {qs us : List ClassPart} (hp : part ≠ .opening)
      (h : part :: qs = us ++ .opening :: ps) : ∃ us', qs = us' ++ .opening :: ps := by
    cases us with
    | nil => exact absurd (List.cons.inj h).1 hp
    | cons _ us => exact ⟨us, (List.cons.inj h).2⟩
  fun_induction classParts comments scope x generalizing us with
  | case1 => simp at h
  | case2 cs ih => exact grow ((List.drop_suffix _ _).trans (List.suffix_cons _ _)) (ih h)
  | case3 cs ih =>
    obtain ⟨us, hus⟩ := strip (by simp) h
    exact grow ((List.drop_suffix _ _).trans (List.suffix_cons _ _)) (ih hus)
  | case4 cs ih =>
    cases us with
    | nil => exact ⟨cs, List.suffix_refl _, (List.cons.inj h).2⟩
    | cons _ us => exact grow (List.suffix_cons _ _) (ih (List.cons.inj h).2)
  | case5 cs ih | case6 _ cs _ _ ih =>
    obtain ⟨us, hus⟩ := strip (by simp) h
    exact grow (List.suffix_cons _ _) (ih hus)
  | case7 body rest hend ih =>
    refine grow (.trans ?_ (List.suffix_append ['(', '?', '#'] body)) (ih h)
    unfold commentEnd? at hend
    split at hend
    · exact afterComment_suffix hend
    · cases hend
  | case8 body _ ih | case9 _ body _ _ _ ih => exact grow (List.suffix_cons _ _) (ih h)

end Runs

end Patterns.Extended
