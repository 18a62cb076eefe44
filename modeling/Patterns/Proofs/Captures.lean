import Patterns.Proofs.Recompilation
import Patterns.Proofs.References

/-!
# Capturing parentheses in plain text

`captures` counts the parentheses of a plain text that open a capturing group and do nothing else.
In what is written for a pattern these are the groups that the reading of the pattern records,
without those that have a question mark behind their parenthesis (`glued`).
-/
namespace Patterns.Extended
open Patterns.Text

/-- The parentheses outside of classes and escapes that no question mark follows. -/
def captures : Scope → List Char → Nat
  | _, [] => 0
  | scope, '\\' :: cs => captures scope (cs.drop (escapeLength cs))
  | .outside, '[' :: cs => captures .inClass cs
  | .inClass, ']' :: cs => captures .outside cs
  | .outside, '(' :: cs => captures .outside cs + if cs.head? = some '?' then 0 else 1
  | scope, _ :: cs => captures scope cs
  termination_by _ cs => cs.length
  decreasing_by all_goals simp only [List.length_drop, List.length_cons]; omega

section Text

variable {scope : Scope} {c : Char} {t x : List Char}

@[simp] theorem captures_nil : captures scope [] = 0 := by
  cases scope <;> simp [captures]

theorem captures_escape :
    captures scope ('\\' :: t) = captures scope (t.drop (escapeLength t)) := by
  cases scope <;> rw [captures]

/-- An escape of a single character. -/
theorem captures_letter (hc : c ∉ ['x', 'u', 'U', 'p', 'P']) :
    captures scope ('\\' :: c :: x) = captures scope x := by
  rw [captures_escape]
  simp only [List.mem_cons, List.not_mem_nil, or_false, not_or] at hc
  simp [escapeLength, hc]

theorem captures_open : captures .outside ('[' :: x) = captures .inClass x := by
  rw [captures]

theorem captures_close : captures .inClass (']' :: x) = captures .outside x := by
  rw [captures]

theorem captures_parenthesis : captures .outside ('(' :: x) =
    captures .outside x + if x.head? = some '?' then 0 else 1 := by
  rw [captures]

theorem captures_cons (hc : IsPlain scope c) (hp : scope = .outside → c ≠ '(') :
    captures scope (c :: x) = captures scope x := by
  cases scope <;> simp_all [IsPlain, captures]

theorem captures_append (ht : ArePlain scope t) (hp : scope = .outside → '(' ∉ t) :
    captures scope (t ++ x) = captures scope x := by
  induction t with
  | nil => rfl
  | cons c t ih =>
    rw [ArePlain, List.forall_mem_cons] at ht
    rw [List.cons_append, captures_cons ht.1 fun h => ?_, ih ht.2 fun h => ?_]
    · exact fun he => hp h (by simp [he])
    · exact fun hm => hp h (by simp [hm])

theorem captures_anyChar : captures .outside (anyChar ++ x) = captures .outside x := by
  have hspace : captures .inClass ('\\' :: 's' :: '\\' :: 'S' :: ']' :: x) =
      captures .inClass ('\\' :: 'S' :: ']' :: x) := captures_letter (by decide)
  have hother : captures .inClass ('\\' :: 'S' :: ']' :: x) = captures .inClass (']' :: x) :=
    captures_letter (by decide)
  exact captures_open.trans (hspace.trans (hother.trans captures_close))

/-- The opener of a group that captures nothing. -/
theorem captures_opener (ht : ArePlain .outside t) (hp : '(' ∉ t) :
    captures .outside ('(' :: '?' :: (t ++ x)) = captures .outside x := by
  rw [captures_parenthesis, captures_cons (by decide) (by decide), captures_append ht fun _ => hp]
  rfl

/-- What a reference is written with: none of it opens anything. -/
theorem exists_referenceTo_eq (n : Nat) : ∃ d ds, referenceTo n = '\\' :: d :: ds ∧
    d ∉ ['x', 'u', 'U', 'p', 'P'] ∧ ArePlain .outside ds ∧ '(' ∉ ds := by
  have hdigits := areDigits_toDigits n
  obtain ⟨d, ds, hn⟩ := List.exists_cons_of_ne_nil (Nat.toDigits_ne_nil (n := n) (b := 10))
  rw [hn] at hdigits
  have hnot {c : Char} (hc : c ∈ d :: ds) {a : Char} (ha : a.isDigit = false) : c ≠ a := by
    rintro rfl
    simp [hdigits c hc] at ha
  refine ⟨d, ds, by rw [referenceTo, hn], ?_, fun c hc => ?_, fun hm => ?_⟩
  · simp [hnot (c := d) (by simp)]
  · exact ⟨hnot (by simp [hc]) (by decide), hnot (by simp [hc]) (by decide)⟩
  · exact hnot (c := '(') (by simp [hm]) (by decide) rfl

theorem captures_referenceTo (n : Nat) :
    captures .outside (referenceTo n ++ x) = captures .outside x := by
  obtain ⟨d, ds, hn, hletter, hplain, hparen⟩ := exists_referenceTo_eq n
  rw [hn, List.cons_append, List.cons_append, captures_letter hletter,
    captures_append hplain fun _ => hparen]

end Text

/-- Whether a group is recorded before a text that starts with a question mark. -/
def glue (c c' : Context) (x : List Char) : Nat :=
  if c.groupCount < c'.groupCount ∧ x.head? = some '?' then 1 else 0

theorem glue_of_groupCount_eq {c c' : Context} {x : List Char} (h : c'.groupCount = c.groupCount) :
    glue c c' x = 0 := by
  rw [glue, h, if_neg fun h => Nat.lt_irrefl _ h.1]

/-- How many groups are recorded that have a question mark written behind their parenthesis. -/
def glued : History → Nat
  | [] => 0
  | (p, m) :: ms => glued ms + glue p.context m.next.context (written ms)

variable {e : Setting} {p q : Spot} {m : Move} {ms : History} {t r w x : List Char}

section Moves

variable {scope : Scope} {lexeme : Lexeme} {s : Lexeme.Settings} {c c' : Context}

theorem groups_setModifierFlags {custom flags : List Char} {written : String}
    (h : setModifierFlags custom written flags c = .ok c') : c'.groups = c.groups := by
  induction flags generalizing c with
  | nil =>
    cases h
    rfl
  | cons flag flags ih =>
    unfold setModifierFlags at h
    split at h
    · cases h
    · split at h
      · cases h
      · rw [ih h, Context.groups_setFlag]

theorem groups_addGroup {name : Option String} (h : c.addGroup name = .ok c') :
    c'.groups = c.groups ++ [name] := by
  rw [(Context.addGroup_eq_ok_iff.mp h).2]
  rfl

theorem groupCount_addGroup {name : Option String} (h : c.addGroup name = .ok c') :
    c'.groupCount = c.groupCount + 1 := by
  rw [Context.groupCount, groups_addGroup h]
  exact List.length_append

private theorem captures_apart : captures .outside (['(', '?', ':', ')'] ++ x) =
    captures .outside x :=
  captures_opener (t := [':', ')']) (by decide) (by decide)

private theorem captures_separator :
    captures .outside (separator r ++ x) = captures .outside x := by
  unfold separator
  split
  · rfl
  · exact captures_apart

/-- A recorded group is written as a parenthesis. -/
private theorem captures_added (h : c'.groupCount = c.groupCount + 1) :
    captures .outside (['('] ++ x) + c.groupCount + glue c c' x =
      captures .outside x + c'.groupCount := by
  have hlt : c.groupCount < c'.groupCount := by omega
  rw [List.singleton_append, captures_parenthesis, glue]
  by_cases hx : x.head? = some '?'
  · rw [if_pos hx, if_pos ⟨hlt, hx⟩]
    omega
  · rw [if_neg hx, if_neg fun h => hx h.2]
    omega

/-- What is written for a lexeme holds the group that the lexeme records. -/
theorem captures_lexeme {written : String} {custom : List Char} {subpatterns : Option Subpatterns}
    (spelled : lexeme.Spelled s scope t r) (kept : lexeme.isReparsed = false)
    (emitted : lexeme.Emits scope written r custom subpatterns c w c') :
    captures scope (w ++ x) + c.groupCount + glue c c' x =
      captures scope x + c'.groupCount := by
  have hsame {w : List Char} {c' : Context} (h : captures scope (w ++ x) = captures scope x)
      (hc : c'.groupCount = c.groupCount) :
      captures scope (w ++ x) + c.groupCount + glue c c' x =
        captures scope x + c'.groupCount := by
    rw [h, glue_of_groupCount_eq hc, hc, Nat.add_zero]
  cases emitted with
  | subpattern => simp [Lexeme.isReparsed] at kept
  | zero =>
    refine hsame ?_ rfl
    have hl : escapeLength ('x' :: '0' :: '0' :: x) = 3 := by
      simp [escapeLength, braced?, hexRun, isHex]
    change captures scope ('\\' :: 'x' :: '0' :: '0' :: x) = captures scope x
    rw [captures_escape, hl]
    rfl
  | numberedReference positive outside =>
    subst outside
    exact hsame (captures_referenceTo _) rfl
  | namedReference =>
    cases spelled
    refine hsame ?_ rfl
    rw [List.append_assoc, captures_referenceTo]
    split
    · exact captures_apart
    · rfl
  | emptyClass =>
    cases spelled
    refine hsame ?_ rfl
    have hb : captures .outside ('\\' :: 'b' :: '\\' :: 'B' :: x) =
        captures .outside ('\\' :: 'B' :: x) := captures_letter (by decide)
    exact hb.trans (captures_letter (by decide))
  | fullClass | dot =>
    cases spelled
    exact hsame captures_anyChar rfl
  | comment | spacing =>
    cases spelled
    exact hsame captures_separator rfl
  | modifier set =>
    exact hsame rfl (congrArg List.length (groups_setModifierFlags set))
  | namedGroup added =>
    have hcount := groupCount_addGroup added
    cases spelled <;> exact captures_added hcount
  | gathering =>
    cases spelled
    exact hsame (captures_opener (t := [':']) (by decide) (by decide)) rfl
  | group _ added =>
    cases spelled
    exact captures_added (groupCount_addGroup added)

/-- A copied piece captures nothing. -/
theorem captures_copied (copied : Copied scope t r) (h : Mirrors r x)
    (gap : ∀ n, braced? r = none → braced? x = some n →
      captures scope (x.drop n) = captures scope x) :
    captures scope (t ++ x) = captures scope x := by
  cases copied with
  | @escape _ u _ length =>
    rw [List.cons_append, captures_escape]
    rcases escapeLength_cases h length with hl | ⟨n, hr, hx, hl⟩
    · rw [hl, List.drop_left]
    · rw [hl, ← List.drop_drop, List.drop_left, gap n hr hx]
  | opener isOpener =>
    simp only [openers, List.mem_cons, List.not_mem_nil, or_false] at isOpener
    rcases isOpener with rfl | rfl | rfl | rfl | rfl | rfl
    · exact captures_opener (t := ['<', '=']) (by decide) (by decide)
    · exact captures_opener (t := ['<', '!']) (by decide) (by decide)
    · exact captures_opener (t := [':']) (by decide) (by decide)
    · exact captures_opener (t := ['=']) (by decide) (by decide)
    · exact captures_opener (t := ['!']) (by decide) (by decide)
    · exact captures_opener (t := ['>']) (by decide) (by decide)
  | lazy simple =>
    simp only [List.mem_cons, List.not_mem_nil, or_false] at simple
    rcases simple with rfl | rfl | rfl <;> exact captures_append (by decide) (by decide)
  | @counted t z _ isCounted isMark =>
    have hparen : '(' ∉ t := (IsQuantifier.counted isCounted).not_mem_paren
    rw [List.append_assoc, captures_append (arePlain_of_isCounted isCounted) fun _ => hparen]
    rcases isMark with rfl | ⟨rfl, -⟩
    · exact captures_append (by decide) (by decide)
    · rfl

/-- A single parenthesis outside of classes stands before a question mark. -/
theorem head?_of_single {r : List Char} (bare : Lexeme.scan? s .outside ('(' :: r) = none) :
    r.head? = some '?' := by
  by_contra hr
  have hscan := (Lexeme.Spelled.group (s := s) hr).scan?
  rw [List.singleton_append, bare] at hscan
  cases hscan

theorem captures_single {a : Char} (ha : a ≠ '\\')
    (hp : scope = .outside → a = '(' → x.head? = some '?') :
    captures scope ((Setting.single scope a).1 ++ x) = captures (Setting.single scope a).2 x := by
  fun_cases Setting.single scope a with
  | case1 => exact captures_open
  | case2 => exact captures_close
  | case9 =>
    have hopen : scope = .outside → a = '[' → False := ‹_›
    have hclose : scope = .inClass → a = ']' → False := ‹_›
    rw [List.singleton_append]
    by_cases hparen : scope = .outside ∧ a = '('
    · obtain ⟨rfl, rfl⟩ := hparen
      rw [captures_parenthesis, if_pos (hp rfl rfl), Nat.add_zero]
    · refine captures_cons ⟨ha, ?_⟩ fun hs hc => hparen ⟨hs, hc⟩
      cases scope with
      | outside => exact hopen rfl
      | inClass => exact hclose rfl
  | _ => exact captures_letter (by decide)

/-- A move that reads writes the group that it records, if any. -/
theorem Moves.captures_eq (h : Moves e p (.read t w q)) (mirrors : Mirrors q.rest x)
    (mark : q.scope = .outside → q.rest.head? = some '?' → x.head? = some '?')
    (gap : ∀ n, braced? q.rest = none → braced? x = some n →
      captures q.scope (x.drop n) = captures q.scope x) :
    captures p.scope (w ++ x) + p.context.groupCount + glue p.context q.context x =
      captures q.scope x + q.context.groupCount := by
  cases h with
  | lexeme rest spelled kept emitted => exact captures_lexeme spelled kept emitted
  | copied rest bare copied =>
    rw [captures_copied copied mirrors gap, glue_of_groupCount_eq rfl, Nat.add_zero]
  | @single a r rest bare own =>
    have ha : a ≠ '\\' := by
      rintro rfl
      simp [rest, copiedLength?] at own
    rw [captures_single ha, glue_of_groupCount_eq rfl, Nat.add_zero]
    rintro hscope rfl
    rw [hscope, rest] at bare
    exact mark (by rw [hscope]; rfl) (head?_of_single bare)

end Moves

/-- A question mark outside of classes is written where it stands. -/
theorem head?_written_mark (h : Reading e p ms q) (hend : q.rest = []) (hscope : p.scope = .outside)
    (hp : p.rest.head? = some '?') : (written ms).head? = some '?' := by
  obtain ⟨atStart, rest, scope, c⟩ := p
  obtain rfl : scope = .outside := hscope
  obtain ⟨u, rfl⟩ := List.head?_eq_some_iff.mp hp
  obtain ⟨z, r, rfl, hz⟩ := exists_isMark u
  have hreads : Reads e c (['?'] ++ z) r (['?'] ++ z) c :=
    reads_quantifier (.simple (by decide)) hz
  obtain ⟨w, hw⟩ := hreads.exists_written (by simpa using h) hend
  rw [hw]
  rfl

/-- The capturing parentheses in what is written are those of the groups that are recorded, without
the ones before a question mark. -/
theorem captures_written (h : Reading e p ms q) (hend : q.rest = []) :
    captures p.scope (written ms) + p.context.groupCount + glued ms = q.context.groupCount := by
  induction h with
  | done => simp [glued]
  | @step p q m ms move tail ih =>
    have hm := moves_of_move? move
    have hi := ih hend
    cases m with
    | read t w p' =>
      obtain ⟨-, -, started⟩ := hm.text_ne_nil
      have gap (n : Nat) (hr : braced? p'.rest = none) (hx : braced? (written ms) = some n) :
          captures p'.scope ((written ms).drop n) = captures p'.scope (written ms) := by
        obtain ⟨outside, t, w, isCounted, hw, rfl⟩ :=
          exists_isCounted_of_braced? tail hend started hr hx
        obtain outside : p'.scope = .outside := outside
        rw [hw, outside, List.drop_left, captures_append (arePlain_of_isCounted isCounted)
          fun _ => (IsQuantifier.counted isCounted).not_mem_paren]
      have hstep := hm.captures_eq (mirrors_written tail hend started)
        (head?_written_mark tail hend) gap
      simp only [written_cons, Move.output, Move.next, glued] at hi ⊢
      omega
    | expand p' =>
      cases hm with
      | subpattern =>
        have hnone (c : Context) (x : List Char) : glue c c x = 0 := glue_of_groupCount_eq rfl
        simpa [glued, Move.output, Move.next, Spot.withRest, hnone] using hi

end Patterns.Extended
