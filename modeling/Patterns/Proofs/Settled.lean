import Patterns.Proofs.Captures
import Patterns.Proofs.Translation

/-!
# Plain text read again

What is written for a pattern can be read as a pattern itself, without flags. It is written once
more as it stands (`Settles`), unless a group is glued to a question mark, or a comment that the
pattern left open is closed by a parenthesis that was only written behind it.
-/
namespace Patterns.Extended
open Patterns.Text

/-- The context of a reading without flags that has recorded `n` groups. -/
def Context.unnamed (n : Nat) : Context := ⟨[], List.replicate n none⟩

@[simp] theorem Context.groupCount_unnamed (n : Nat) : (unnamed n).groupCount = n := by
  simp [unnamed, groupCount]

@[simp] theorem Context.hasFlag_unnamed (n : Nat) (flag : Char) :
    (unnamed n).hasFlag flag = false := by
  simp [unnamed, hasFlag]

theorem Context.record_unnamed (n : Nat) : (unnamed n).record none = unnamed (n + 1) := by
  simp [unnamed, record, List.replicate_succ']

/-- Past the start `x` is read without flags, behind `n` groups, and written as it stands; the
context at its end satisfies `P`. -/
def Settles (e : Setting) (scope : Scope) (n : Nat) (x : List Char) (P : Context → Prop) : Prop :=
  ∃ ms q, Reading e ⟨false, x, scope, .unnamed n⟩ ms q ∧ q.rest = [] ∧ written ms = x ∧ P q.context

/-- The front `w` of `w ++ x` is read without flags and written as it stands. -/
def Keeps (e : Setting) (scope : Scope) (n : Nat) (w x : List Char) (scope' : Scope) (n' : Nat) :
    Prop :=
  ∃ ms, Reading e ⟨false, w ++ x, scope, .unnamed n⟩ ms ⟨false, x, scope', .unnamed n'⟩ ∧
    written ms = w

variable {e : Setting} {scope scope' scope'' : Scope} {n n' n'' : Nat} {w w' x r t : List Char}
  {P : Context → Prop}

namespace Keeps

theorem settles_iff (h : Keeps e scope n w x scope' n') :
    Settles e scope n (w ++ x) P ↔ Settles e scope' n' x P := by
  obtain ⟨ms, hms, hw⟩ := h
  constructor
  · rintro ⟨ms', q, hms', hend, hw', hcount⟩
    obtain ⟨ms'', rfl, htail⟩ := hms.split hms' hend
    rw [written_append, hw, List.append_cancel_left_eq] at hw'
    exact ⟨ms'', q, htail, hend, hw', hcount⟩
  · rintro ⟨ms', q, hms', hend, hw', hcount⟩
    exact ⟨ms ++ ms', q, hms.trans hms', hend, by rw [written_append, hw, hw'], hcount⟩

theorem nil : Keeps e scope n [] x scope n := ⟨[], .done _, rfl⟩

theorem append (h : Keeps e scope n w (w' ++ x) scope' n')
    (h' : Keeps e scope' n' w' x scope'' n'') : Keeps e scope n (w ++ w') x scope'' n'' := by
  obtain ⟨ms, hms, hw⟩ := h
  obtain ⟨ms', hms', hw'⟩ := h'
  refine ⟨ms ++ ms', ?_, by rw [written_append, hw, hw']⟩
  rw [List.append_assoc]
  exact hms.trans hms'

theorem of_moves (h : Moves e ⟨false, w ++ x, scope, .unnamed n⟩
    (.read w w ⟨false, x, scope', .unnamed n'⟩)) : Keeps e scope n w x scope' n' :=
  ⟨_, .step h.move? (.done _), by simp [Move.output]⟩

end Keeps

theorem Reading.atStart_eq {p q : Spot} {ms : History} (h : Reading e p ms q)
    (started : p.atStart = false) : q.atStart = false := by
  induction h with
  | done => exact started
  | @step p q m ms move tail ih =>
    have hm := moves_of_move? move
    cases m with
    | read t w p' => exact ih hm.text_ne_nil.2.2
    | expand p' =>
      cases hm with
      | subpattern => exact ih started

theorem Reads.keeps (h : Reads e (.unnamed n) w x w (.unnamed n')) :
    Keeps e .outside n w x .outside n' := by
  obtain ⟨ms, atStart, hms, hw, -⟩ := h false
  obtain rfl : atStart = false := hms.atStart_eq rfl
  exact ⟨ms, hms, hw⟩

section Pieces

/-- The question mark at the front can be dropped: alone or with the one behind it it is a
quantifier. -/
theorem settles_mark (x : List Char) :
    Settles e .outside n ('?' :: x) P ↔ Settles e .outside n x P := by
  induction hl : x.length using Nat.strongRecOn generalizing x with
  | ind l ih =>
    subst hl
    obtain ⟨z, r, rfl, hz⟩ := exists_isMark x
    have hkeeps : Keeps e .outside n (['?'] ++ z) r .outside n :=
      (reads_quantifier (.simple (by decide)) hz).keeps
    have hboth := hkeeps.settles_iff (P := P)
    rcases hz with rfl | ⟨rfl, -⟩
    · exact hboth.trans (ih r.length (by simp) r rfl).symm
    · exact hboth

theorem settles_quantifier (ht : IsQuantifier t) :
    Settles e .outside n (t ++ x) P ↔ Settles e .outside n x P := by
  obtain ⟨z, r, rfl, hz⟩ := exists_isMark x
  have hkeeps : Keeps e .outside n (t ++ z) r .outside n := (reads_quantifier ht hz).keeps
  have hboth := hkeeps.settles_iff (P := P)
  rw [List.append_assoc] at hboth
  refine hboth.trans ?_
  rcases hz with rfl | ⟨rfl, -⟩
  · exact (settles_mark r).symm
  · rfl

theorem keeps_opener (ht : t ∈ openers) : Keeps e .outside n t x .outside n := by
  have hreads := reads_bareOpener (e := e) (c := .unnamed n) (r := x) ht
  rw [List.append_nil] at hreads
  exact hreads.keeps

theorem keeps_close : Keeps e .outside n [')'] x .outside n := (reads_mark (.inl rfl)).keeps

theorem keeps_apart : Keeps e .outside n ['(', '?', ':', ')'] x .outside n :=
  (keeps_opener (t := ['(', '?', ':']) (by decide)).append keeps_close

theorem keeps_separator : Keeps e .outside n (separator r) x .outside n := by
  unfold separator
  split
  · exact .nil
  · exact keeps_apart

theorem keeps_group (hx : x.head? ≠ some '?') : Keeps e .outside n ['('] x .outside (n + 1) := by
  refine Reads.keeps (reads_lexeme (fun _ => .group hx) rfl ?_)
  exact .group (Context.hasFlag_unnamed n 'n') (congrArg Except.ok (Context.record_unnamed n))

theorem keeps_reference {k : Nat} (hk : 1 ≤ k) (hn : k ≤ n)
    (hx : x.head?.any Char.isDigit = false) : Keeps e .outside n (referenceTo k) x .outside n :=
  (reads_reference hk (by simpa using hn) hx).keeps

/-- An escape that takes as much as it took. -/
theorem keeps_escape {u : List Char} (length : escapeLength (u ++ x) = u.length)
    (bare : ∀ s, Lexeme.scan? s scope ('\\' :: (u ++ x)) = none) :
    Keeps e scope n ('\\' :: u) x scope n :=
  .of_moves (.copied rfl (bare _) (.escape length))

theorem keeps_letter {a : Char} (ha : a ∉ ['k', 'x', 'u', 'U', 'p', 'P']) (hd : a.isDigit = false) :
    Keeps e scope n ['\\', a] x scope n := by
  simp only [List.mem_cons, List.not_mem_nil, or_false, not_or] at ha
  refine keeps_escape (u := [a]) ?_ fun s => scan?_letter hd ha.1
  simp [escapeLength, ha]

theorem keeps_open (h₁ : x.head? ≠ some ']') (h₂ : ∀ y, x = '^' :: y → y.head? ≠ some ']') :
    Keeps e .outside n ['['] x .inClass n :=
  .of_moves (.single rfl (scan?_bracket h₁ h₂) (by simp [copiedLength?, quantifierLength?])
    (by simp [startsWithModifier]))

theorem keeps_inClass {a : Char} (plain : e.subpatterns = none) (ha : a ∉ ['\\', '[', '&', '~']) :
    Keeps e .inClass n [a] x (Setting.single .inClass a).2 n := by
  simp only [List.mem_cons, List.not_mem_nil, or_false, not_or] at ha
  have hmove := Moves.single (e := e) (p := ⟨false, [a] ++ x, .inClass, .unnamed n⟩) rfl
    (scan?_inClass_eq_none (by simp [Setting.lexemeSettings, plain]) ha.1)
    (by simp [copiedLength?, ha.1]) (by simp)
  have hout : (Setting.single .inClass a).1 = [a] := by
    unfold Setting.single
    split <;> simp_all
  rw [hout] at hmove
  exact .of_moves hmove

theorem keeps_anyChar (plain : e.subpatterns = none) : Keeps e .outside n anyChar x .outside n := by
  have hopen : Keeps e .outside n ['['] (['\\', 's'] ++ (['\\', 'S'] ++ ([']'] ++ x))) .inClass n :=
    keeps_open (by simp) (by simp)
  have hspace : Keeps e .inClass n ['\\', 's'] (['\\', 'S'] ++ ([']'] ++ x)) .inClass n :=
    keeps_letter (by decide) (by decide)
  have hother : Keeps e .inClass n ['\\', 'S'] ([']'] ++ x) .inClass n :=
    keeps_letter (by decide) (by decide)
  have hclose : Keeps e .inClass n [']'] x .outside n := keeps_inClass plain (by decide)
  exact ((hopen.append hspace).append hother).append hclose

end Pieces

section Echoes

variable {p q : Spot} {ms : History}

/-- Characters that are not written unless they are read. -/
def AreOrdinary (t : List Char) : Prop := ∀ c ∈ t, c ∉ ['\\', '[', '(', '?', '*', '+', '\x7b']

instance (t : List Char) : Decidable (AreOrdinary t) := List.decidableBAll _ t

/-- The ordinary characters at the front of `x` stand at the front of `r` too. -/
def Echoes (r x : List Char) : Prop := ∀ v w, x = v ++ w → AreOrdinary v → ∃ u, r = v ++ u

theorem areOrdinary_of_isName {name : List Char} (h : IsName name) : AreOrdinary name := by
  intro c hc hsign
  have hflag := h.2 c hc
  simp only [List.mem_cons, List.not_mem_nil, or_false] at hsign
  rcases hsign with rfl | rfl | rfl | rfl | rfl | rfl | rfl <;> exact absurd hflag (by decide)

theorem AreOrdinary.append (h : AreOrdinary t) (h' : AreOrdinary w) : AreOrdinary (t ++ w) :=
  List.forall_mem_append.mpr ⟨h, h'⟩

theorem Fronted.mem_signs {d : Char} (h : Fronted scope (d :: x)) :
    d ∈ ['\\', '[', '(', '?', '*', '+', '\x7b'] := by
  generalize hw : d :: x = w at h
  cases h with
  | sign isSign =>
    obtain rfl := (List.cons.inj hw).1
    exact List.mem_append_left ['\x7b'] isSign
  | counted _ isCounted =>
    obtain ⟨u, rfl, -⟩ := isCounted.exists_eq_cons
    obtain rfl := (List.cons.inj hw).1
    decide

theorem echoes_written (h : Reading e p ms q) (hend : q.rest = []) (started : p.atStart = false) :
    Echoes p.rest (written ms) := by
  intro v
  induction v generalizing p ms with
  | nil => exact fun _ _ _ => ⟨p.rest, rfl⟩
  | cons d v ih =>
    intro w hw hv
    rw [AreOrdinary, List.forall_mem_cons] at hv
    rcases written_front h hend started with hnil | ⟨a, p', ms', hp', started', h', hw'⟩ | hf
    · simp [hnil] at hw
    · rw [hw'] at hw
      obtain ⟨rfl, hx⟩ := List.cons.inj hw
      obtain ⟨u, hr⟩ := ih h' started' w hx hv.2
      exact ⟨u, by rw [hp', hr]; rfl⟩
    · rw [hw] at hf
      exact absurd hf.mem_signs hv.1

/-- Behind a question mark that is a quantifier. -/
theorem exists_echoes_of_mark (h : Reading e p ms q) (hend : q.rest = [])
    (started : p.atStart = false) (hscope : p.scope = .outside) (hp : p.rest = '?' :: r) :
    ∃ x, written ms = '?' :: x ∧ Echoes r x := by
  obtain ⟨atStart, rest, scope, c⟩ := p
  obtain rfl : atStart = false := started
  obtain rfl : scope = .outside := hscope
  obtain rfl : rest = '?' :: r := hp
  obtain ⟨z, r, rfl, hz⟩ := exists_isMark r
  have hreads : Reads e c (['?'] ++ z) r (['?'] ++ z) c :=
    reads_quantifier (.simple (by decide)) hz
  obtain ⟨run, atStart, hrun, hw, -⟩ := hreads false
  obtain ⟨ms, rfl, htail⟩ := hrun.split (by simpa using h) hend
  refine ⟨z ++ written ms, by rw [written_append, hw]; rfl, ?_⟩
  rcases hz with rfl | ⟨rfl, -⟩
  · rintro v w hv ordinary
    cases v with
    | nil => exact ⟨_, rfl⟩
    | cons d v =>
      obtain ⟨rfl, -⟩ := List.cons.inj hv
      exact absurd (by decide) (ordinary '?' (by simp))
  · exact echoes_written htail hend (hrun.atStart_eq rfl)

/-- A backslash that does not start a reference. -/
theorem scan?_backslash {s : Lexeme.Settings} {y : List Char}
    (hd : y.head?.any Char.isDigit = false)
    (hk : scope = .outside → ∀ name r, IsName name → y ≠ 'k' :: '<' :: (name ++ '>' :: r)) :
    Lexeme.scan? s scope ('\\' :: y) = none := by
  cases h : Lexeme.scan? s scope ('\\' :: y) with
  | none => rfl
  | some found =>
    obtain ⟨lexeme, k⟩ := found
    obtain ⟨t, r, he, -, spelled⟩ := Lexeme.spelled_of_scan? h
    cases spelled with
    | numberedReference nonempty areDigits =>
      obtain ⟨d, ds, rfl⟩ := List.exists_cons_of_ne_nil nonempty
      obtain rfl := (List.cons.inj he).2
      exact absurd (areDigits d (by simp)) (by simpa using hd)
    | @namedReference name _ isName =>
      exact absurd (by simpa using he) (hk rfl name r isName)
    | spacing _ nonempty length =>
      have hz : Lexeme.spacingLength false ('\\' :: y) = 0 :=
        Lexeme.spacingLength_eq_zero (by decide)
      rw [← he, hz] at length
      exact absurd (List.length_eq_zero_iff.mp length.symm) nonempty
    | _ => simp at he

/-- An escape does not start a reference before what is written for the text behind it. -/
theorem scan?_escape_of_echoes {s : Lexeme.Settings} {u : List Char}
    (bare : Lexeme.scan? s scope ('\\' :: (u ++ r)) = none)
    (length : escapeLength (u ++ r) = u.length) (mirrors : Mirrors r x) (echoes : Echoes r x)
    (s' : Lexeme.Settings) : Lexeme.scan? s' scope ('\\' :: (u ++ x)) = none := by
  refine scan?_backslash ?_ ?_
  · have hd := head?_of_scan? bare
    cases u with
    | nil => exact mirrors.head?_digit hd
    | cons => exact hd
  · rintro rfl name y isName he
    cases u with
    | nil =>
      obtain rfl : r = [] := by
        cases r with
        | nil => rfl
        | cons a r => simp [escapeLength] at length
      simp [mirrors.nil rfl] at he
    | cons a u =>
      obtain ⟨rfl, he⟩ := List.cons.inj he
      obtain rfl : u = [] := by simpa [escapeLength] using length.symm
      have ordinary : AreOrdinary (['<'] ++ (name ++ ['>'])) :=
        .append (by decide) ((areOrdinary_of_isName isName).append (by decide))
      obtain ⟨v, rfl⟩ := echoes ('<' :: (name ++ ['>'])) y (by simpa using he) ordinary
      have spelled : (Lexeme.namedReference name).Spelled s .outside
          ('\\' :: 'k' :: '<' :: (name ++ ['>'])) v := .namedReference isName
      have hscan := spelled.scan?
      simp only [List.cons_append, List.append_assoc, List.nil_append] at hscan bare
      rw [bare] at hscan
      cases hscan

end Echoes

section Parentheses

variable {s : Lexeme.Settings}

private theorem areOrdinary_opener (ht : t ∈ openers) :
    ∃ u, t = '(' :: '?' :: u ∧ AreOrdinary u := by
  simp only [openers, List.mem_cons, List.not_mem_nil, or_false] at ht
  rcases ht with rfl | rfl | rfl | rfl | rfl | rfl <;> exact ⟨_, rfl, by decide⟩

/-- No lexeme stands at a parenthesis in what is written, where none stood in the pattern. -/
private theorem scan?_parenthesis_mark {s s' : Lexeme.Settings}
    (bare : Lexeme.scan? s .outside ('(' :: '?' :: r) = none) (echoes : Echoes r x)
    (closed : ∀ b y, r = '#' :: b → ')' ∉ b → x = '#' :: y → ')' ∉ y)
    (started : s'.atStart = false) : Lexeme.scan? s' .outside ('(' :: '?' :: x) = none := by
  have absent {lexeme : Lexeme} {t u : List Char} (hr : r = t ++ u)
      (spelled : lexeme.Spelled s .outside ('(' :: '?' :: t) u) : False := by
    have hscan := spelled.scan?
    rw [List.cons_append, List.cons_append, ← hr, bare] at hscan
    cases hscan
  have hname {name : List Char} (h : IsName name) : AreOrdinary (name ++ ['>']) :=
    (areOrdinary_of_isName h).append (by decide)
  cases h : Lexeme.scan? s' .outside ('(' :: '?' :: x) with
  | none => rfl
  | some found =>
    obtain ⟨lexeme, k⟩ := found
    obtain ⟨t, u, he, -, spelled⟩ := Lexeme.spelled_of_scan? h
    cases spelled with
    | @comment body _ hbody =>
      obtain rfl : x = '#' :: (body ++ ')' :: u) := by simpa using he
      obtain ⟨b, rfl⟩ := echoes ['#'] _ rfl (by decide)
      by_cases hb : ')' ∈ b
      · obtain ⟨body', v, rfl, hbody'⟩ := List.eq_append_cons_of_mem hb
        exact (absent (u := v) (t := '#' :: (body' ++ [')'])) (by simp) (.comment hbody')).elim
      · exact absurd (by simp) (closed b _ rfl hb rfl)
    | @namedGroup name _ isName =>
      obtain ⟨v, rfl⟩ := echoes (['<'] ++ (name ++ ['>'])) u (by simpa using he)
        (.append (by decide) (hname isName))
      exact (absent rfl (.namedGroup isName)).elim
    | @markedGroup name _ isName =>
      obtain ⟨v, rfl⟩ := echoes (['P', '<'] ++ (name ++ ['>'])) u (by simpa using he)
        (.append (by decide) (hname isName))
      exact (absent rfl (.markedGroup isName)).elim
    | modifier atStart => simp [started] at atStart
    | group hbare =>
      obtain rfl := (List.cons.inj he).2
      exact absurd rfl hbare
    | spacing _ nonempty length =>
      have hz : Lexeme.spacingLength false ('(' :: '?' :: x) = 0 :=
        Lexeme.spacingLength_eq_zero (by decide)
      rw [← he, hz] at length
      exact absurd (List.length_eq_zero_iff.mp length.symm) nonempty
    | _ => simp at he

private theorem copiedLength?_parenthesis_mark
    (own : copiedLength? .outside ('(' :: '?' :: r) = none) (echoes : Echoes r x) :
    copiedLength? .outside ('(' :: '?' :: x) = none := by
  cases h : copiedLength? .outside ('(' :: '?' :: x) with
  | none => rfl
  | some n =>
    obtain ⟨t, u, he, -, copied⟩ := copied_of_copiedLength? h
    cases copied with
    | escape => simp at he
    | opener isOpener =>
      obtain ⟨t, rfl, ordinary⟩ := areOrdinary_opener isOpener
      obtain ⟨v, rfl⟩ := echoes t u (by simpa using he) ordinary
      have hcopied := (Copied.opener (r := v) isOpener).copiedLength?
      simp only [List.cons_append, own] at hcopied
      cases hcopied
    | lazy simple =>
      obtain rfl := (List.cons.inj he).1
      exact absurd simple (by decide)
    | counted isCounted =>
      obtain ⟨t, rfl, -⟩ := isCounted.exists_eq_cons
      simp at he

/-- A run of letters at the front of what is written stands in the pattern. -/
private theorem startsWithModifier_mark
    (settled : startsWithModifier ('(' :: '?' :: r) = false) (echoes : Echoes r x) :
    startsWithModifier ('(' :: '?' :: x) = false := by
  by_contra hx
  obtain ⟨run, c, u, he, hne, hrun, hc⟩ :=
    startsWithModifier_iff.mp ((Bool.not_eq_false _).mp hx)
  have hordinary : AreOrdinary run := by
    intro d hd hsign
    have ha := hrun d hd
    simp only [List.mem_cons, List.not_mem_nil, or_false] at hsign
    rcases hsign with rfl | rfl | rfl | rfl | rfl | rfl | rfl <;> exact absurd ha (by decide)
  have hend : AreOrdinary [c] := by rcases hc with rfl | rfl <;> decide
  obtain ⟨v, rfl⟩ := echoes (run ++ [c]) u (by simpa using he) (hordinary.append hend)
  have h : startsWithModifier ('(' :: '?' :: (run ++ [c] ++ v)) = true :=
    startsWithModifier_iff.mpr ⟨run, c, v, by simp, hne, hrun, hc⟩
  rw [settled] at h
  cases h

/-- A parenthesis that is read alone before a question mark is so again. -/
theorem keeps_parenthesis (bare : Lexeme.scan? s .outside ('(' :: '?' :: r) = none)
    (own : copiedLength? .outside ('(' :: '?' :: r) = none)
    (settled : startsWithModifier ('(' :: '?' :: r) = false) (echoes : Echoes r x)
    (closed : ∀ b y, r = '#' :: b → ')' ∉ b → x = '#' :: y → ')' ∉ y) :
    Keeps e .outside n ['('] ('?' :: x) .outside n :=
  .of_moves (.single rfl (scan?_parenthesis_mark bare echoes closed rfl)
    (copiedLength?_parenthesis_mark own echoes)
    fun h => by simp [startsWithModifier_mark settled echoes] at h)

end Parentheses

section Moves

variable {lexeme : Lexeme} {s : Lexeme.Settings} {c c' : Context} {written' : String}
  {custom : List Char} {subpatterns : Option Subpatterns}

/-- What is written for a lexeme is written again, with the group that the lexeme records. -/
theorem settles_lexeme (plain : e.subpatterns = none) (spelled : lexeme.Spelled s scope t r)
    (kept : lexeme.isReparsed = false)
    (emitted : lexeme.Emits scope written' r custom subpatterns c w c') (mirrors : Mirrors r x)
    (apart : glue c c' x = 0) :
    Settles e scope c.groupCount (w ++ x) P ↔ Settles e scope c'.groupCount x P := by
  have recorded (h : c'.groupCount = c.groupCount + 1) :
      Settles e .outside c.groupCount (['('] ++ x) P ↔ Settles e .outside c'.groupCount x P := by
    have hx : x.head? ≠ some '?' := by
      intro hx
      rw [glue, if_pos ⟨by omega, hx⟩] at apart
      cases apart
    rw [h]
    exact (keeps_group hx).settles_iff
  cases emitted with
  | subpattern => simp [Lexeme.isReparsed] at kept
  | emptyClass =>
    cases spelled
    exact (Keeps.append (keeps_letter (a := 'b') (by decide) (by decide))
      (keeps_letter (a := 'B') (by decide) (by decide))).settles_iff
  | fullClass | dot =>
    cases spelled
    exact (keeps_anyChar plain).settles_iff
  | comment | spacing =>
    cases spelled
    exact keeps_separator.settles_iff
  | modifier set =>
    have hcount : c'.groupCount = c.groupCount :=
      congrArg List.length (groups_setModifierFlags set)
    rw [hcount]
    rfl
  | zero =>
    refine (keeps_escape (u := ['x', '0', '0']) ?_ fun s => scan?_letter rfl ?_).settles_iff
    · simp [escapeLength, braced?, hexRun, isHex]
    · decide
  | numberedReference positive outside known =>
    subst outside
    cases spelled with
    | numberedReference nonempty areDigits apart =>
      exact (keeps_reference (digitsValue_pos nonempty areDigits positive) known
        (mirrors.head?_digit apart)).settles_iff
  | namedReference found =>
    cases spelled
    obtain ⟨hpos, hle⟩ := groupIndex?_le found
    split
    · exact ((keeps_reference hpos hle rfl).append keeps_apart).settles_iff
    · next hdigit =>
      rw [List.append_nil]
      exact (keeps_reference hpos hle (mirrors.head?_digit (by simpa using hdigit))).settles_iff
  | namedGroup added => cases spelled <;> exact recorded (groupCount_addGroup added)
  | gathering =>
    cases spelled
    exact (keeps_opener (by decide)).settles_iff
  | group _ added =>
    cases spelled
    exact recorded (groupCount_addGroup added)

/-- An escape that takes a quantifier with it, though none stood behind it in the pattern. -/
private theorem settles_escape {u : List Char} (length : escapeLength (u ++ r) = u.length)
    (bare : ∀ s, Lexeme.scan? s scope ('\\' :: (u ++ x)) = none) (mirrors : Mirrors r x)
    (gap : ∀ k, braced? r = none → braced? x = some k →
      scope = .outside ∧ ∃ t w, IsCounted t ∧ x = t ++ w ∧ k = t.length) :
    Settles e scope n ('\\' :: u ++ x) P ↔ Settles e scope n x P := by
  rcases escapeLength_cases mirrors length with hl | ⟨k, hr, hx, hl⟩
  · exact (keeps_escape hl bare).settles_iff
  · obtain ⟨rfl, t, w, isCounted, rfl, rfl⟩ := gap k hr hx
    have hkeeps : Keeps e .outside n ('\\' :: (u ++ t)) w .outside n := by
      refine keeps_escape ?_ fun s => ?_
      · rw [List.append_assoc, hl, List.length_append]
      · rw [List.append_assoc]
        exact bare s
    have h := hkeeps.settles_iff (P := P)
    rw [List.cons_append, List.append_assoc] at h
    exact h.trans (settles_quantifier (.counted isCounted)).symm

theorem settles_copied (bare : Lexeme.scan? s scope (t ++ r) = none) (copied : Copied scope t r)
    (mirrors : Mirrors r x) (echoes : Echoes r x)
    (gap : ∀ k, braced? r = none → braced? x = some k →
      scope = .outside ∧ ∃ t w, IsCounted t ∧ x = t ++ w ∧ k = t.length) :
    Settles e scope n (t ++ x) P ↔ Settles e scope n x P := by
  cases copied with
  | escape length =>
    exact settles_escape length (scan?_escape_of_echoes bare length mirrors echoes) mirrors gap
  | opener isOpener => exact (keeps_opener isOpener).settles_iff
  | @lazy a _ simple =>
    have h : Settles e .outside n ([a] ++ ('?' :: x)) P ↔ Settles e .outside n ('?' :: x) P :=
      settles_quantifier (.simple simple)
    exact h.trans (settles_mark x)
  | counted isCounted isMark =>
    rw [List.append_assoc, settles_quantifier (.counted isCounted)]
    rcases isMark with rfl | ⟨rfl, -⟩
    · exact settles_mark x
    · rfl

/-- Characters that are read alone outside of classes. -/
private theorem settles_outside {a : Char} (ha : a ∉ ['\\', '[', '\x7b', '\x7d', ']'])
    (hp : a = '(' → Keeps e .outside n [a] x .outside n) :
    Settles e .outside n ([a] ++ x) P ↔ Settles e .outside n x P := by
  simp only [List.mem_cons, List.not_mem_nil, or_false, not_or] at ha
  by_cases hq : a ∈ ['?', '*', '+']
  · exact settles_quantifier (.simple hq)
  · by_cases hparen : a = '('
    · exact (hp hparen).settles_iff
    · by_cases hdot : a = '.'
      · subst hdot
        have hreads : Reads e (.unnamed n) ['.'] x (if (Context.unnamed n).hasFlag 's' then anyChar
            else ['.']) (.unnamed n) := reads_dot
        rw [if_neg (by simp)] at hreads
        exact hreads.keeps.settles_iff
      · have hs : a ∉ Lexeme.starters := by simp [Lexeme.starters, ha, hparen, hdot]
        have hreads := reads_char (e := e) (c := .unnamed n) (r := x) hs hq (by simp)
        have hout : (Setting.single .outside a).1 = [a] := by
          unfold Setting.single
          split <;> simp_all
        rw [hout] at hreads
        exact hreads.keeps.settles_iff

theorem settles_single {a : Char} (plain : e.subpatterns = none) (ha : a ≠ '\\')
    (echoes : scope = .outside → a = '[' → Echoes r x)
    (bare : Lexeme.scan? s scope (a :: r) = none)
    (hp : scope = .outside → a = '(' → Keeps e .outside n [a] x .outside n) :
    Settles e scope n ((Setting.single scope a).1 ++ x) P ↔
      Settles e (Setting.single scope a).2 n x P := by
  fun_cases Setting.single scope a with
  | case1 =>
    have absent {t u : List Char} {lexeme : Lexeme} (hr : '[' :: r = t ++ u)
        (spelled : lexeme.Spelled s .outside t u) : False := by
      have hscan := spelled.scan?
      rw [← hr, bare] at hscan
      cases hscan
    have hopen : Keeps e .outside n ['['] x .inClass n := by
      refine keeps_open ?_ ?_
      · intro hx
        obtain ⟨y, rfl⟩ := List.head?_eq_some_iff.mp hx
        obtain ⟨u, rfl⟩ := echoes rfl rfl [']'] y rfl (by decide)
        exact absent rfl .emptyClass
      · rintro y rfl hy
        obtain ⟨y, rfl⟩ := List.head?_eq_some_iff.mp hy
        obtain ⟨u, rfl⟩ := echoes rfl rfl ['^', ']'] y rfl (by decide)
        exact absent rfl .fullClass
    exact hopen.settles_iff
  | case2 => exact (keeps_inClass plain (a := ']') (by decide)).settles_iff
  | case9 =>
    cases scope with
    | inClass =>
      have hkeeps := keeps_inClass (x := x) (n := n) plain (a := a) (by simp_all)
      have hscope : (Setting.single .inClass a).2 = .inClass := by
        unfold Setting.single
        split <;> simp_all
      rw [hscope] at hkeeps
      exact hkeeps.settles_iff
    | outside => exact settles_outside (by simp_all) (hp rfl)
  | _ => exact (keeps_letter (by decide) (by decide)).settles_iff

end Moves

/-- A comment that the pattern leaves open is closed in what is written. -/
def ClosesOpenComment : History → Prop
  | [] => False
  | (p, m) :: ms =>
    (p.OpensComment ∧ ∃ y, m.output ++ written ms = '(' :: '?' :: '#' :: y ∧ ')' ∈ y) ∨
      ClosesOpenComment ms

section Runs

variable {e' : Setting} {p q p' : Spot} {ms : History}

/-- What a move writes is written again, and records the group that the move records. -/
theorem Moves.settles (h : Moves e p (.read t w p')) (plain : e'.subpatterns = none)
    (tail : Reading e p' ms q) (hend : q.rest = [])
    (apart : glue p.context p'.context (written ms) = 0)
    (unclosed : p.OpensComment → ∀ y, w ++ written ms = '(' :: '?' :: '#' :: y → ')' ∉ y) :
    Settles e' p.scope p.context.groupCount (w ++ written ms) P ↔
      Settles e' p'.scope p'.context.groupCount (written ms) P := by
  obtain ⟨-, -, started⟩ := h.text_ne_nil
  have mirrors := mirrors_written tail hend started
  have echoes := echoes_written tail hend started
  cases h with
  | lexeme rest spelled kept emitted =>
    exact settles_lexeme plain spelled kept emitted mirrors apart
  | copied rest bare copied =>
    rw [rest] at bare
    exact settles_copied bare copied mirrors echoes
      fun k => exists_isCounted_of_braced? tail hend started
  | @single a r rest bare own settled =>
    rw [rest] at bare own settled
    have ha : a ≠ '\\' := by
      rintro rfl
      simp [copiedLength?] at own
    refine settles_single plain ha (fun _ _ => echoes) bare ?_
    rintro hscope rfl
    rw [hscope] at bare own
    obtain ⟨r, rfl⟩ := List.head?_eq_some_iff.mp (head?_of_single bare)
    have hsingle : (Setting.single p.scope '(').2 = .outside := by
      rw [hscope]
      rfl
    obtain ⟨x, hx, hechoes⟩ := exists_echoes_of_mark tail hend started hsingle rfl
    rw [hx]
    refine keeps_parenthesis bare own (by simpa [hscope] using settled) hechoes ?_
    rintro b y rfl hb rfl
    refine unclosed ⟨hscope, b, rest, hb⟩ y ?_
    rw [hx, hscope]
    rfl

theorem Moves.eq_of_expand (h : Moves e p (.expand p')) :
    p'.scope = p.scope ∧ p'.context = p.context := by
  cases h
  exact ⟨rfl, rfl⟩

theorem settles_nil : Settles e scope n [] P ↔ P (.unnamed n) := by
  constructor
  · rintro ⟨ms, q, hms, -, -, h⟩
    cases hms with
    | done => exact h
    | step move => simp [move?_eq_none_iff.mpr] at move
  · exact fun h => ⟨[], _, .done _, rfl, rfl, h⟩

/-- A comment that is closed is removed. -/
theorem not_settles_comment {y : List Char} (hy : ')' ∈ y) :
    ¬Settles e .outside n ('(' :: '?' :: '#' :: y) P := by
  rintro ⟨ms, q, hms, hend, hw, -⟩
  obtain ⟨a, w, hw', hor⟩ := written_comment hy hms hend
  rw [hw'] at hw
  obtain ⟨rfl, rfl⟩ := List.cons.inj hw
  rcases hor with hmem | ⟨-, v, hv⟩
  · exact absurd hmem (by decide)
  · simp at hv

/-- Where no group is glued to a question mark, what is written for a pattern settles exactly where
no comment is closed in it, with as many groups as the pattern has, all without names. -/
theorem settles_written_iff (h : Reading e p ms q) (hend : q.rest = [])
    (plain : e'.subpatterns = none) (apart : glued ms = 0) :
    Settles e' p.scope p.context.groupCount (written ms) P ↔
      ¬ClosesOpenComment ms ∧ P (.unnamed q.context.groupCount) := by
  induction h with
  | done => simpa [ClosesOpenComment] using settles_nil
  | @step p q move ms hmove tail ih =>
    by_cases hp : p.OpensComment ∧
      ∃ y, move.output ++ written ms = '(' :: '?' :: '#' :: y ∧ ')' ∈ y
    · have hclosed : ClosesOpenComment ((p, move) :: ms) := .inl hp
      obtain ⟨⟨hscope, -⟩, y, hy, hmem⟩ := hp
      rw [written_cons, hy, hscope]
      exact iff_of_false (not_settles_comment hmem) fun h => h.1 hclosed
    · simp only [glued, Nat.add_eq_zero_iff] at apart
      have htail : ClosesOpenComment ((p, move) :: ms) ↔ ClosesOpenComment ms := or_iff_right hp
      rw [htail, ← ih hend apart.1]
      simp only [not_and, not_exists] at hp
      have hm := moves_of_move? hmove
      cases move with
      | read t w p' => exact hm.settles plain tail hend apart.2 hp
      | expand p' =>
        obtain ⟨hscope, hcontext⟩ := hm.eq_of_expand
        simp [Move.output, Move.next, hscope, hcontext]

end Runs

end Patterns.Extended
