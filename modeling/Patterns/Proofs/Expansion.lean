import Patterns.Proofs.Reads

/-!
# Expansion before translation

`Unfolds` puts the subpatterns into a pattern where the reading of it expands them. The text that
comes out is translated in the same way as the pattern is, unless a comment that the pattern left
open is passed before an expansion: the parenthesis of the subpattern closes it.
-/
namespace Patterns.Extended
open Patterns.Text

/-- `Alike r x`: the texts agree up to a reference in `r` in whose place a group stands in `x`. -/
inductive Alike : List Char → List Char → Prop
  | nil : Alike [] []
  | cons (c : Char) {r x : List Char} (tail : Alike r x) : Alike (c :: r) (c :: x)
  | reference {b y : List Char} (closed : '\x7d' ∈ b) : Alike ('\x7b' :: '\x7b' :: b) ('(' :: y)

namespace Alike

variable {r x t : List Char}

theorem append (h : Alike r x) (t : List Char) : Alike (t ++ r) (t ++ x) := by
  induction t with
  | nil => exact h
  | cons c t ih => exact .cons c ih

theorem refl (r : List Char) : Alike r r := by
  have h := nil.append r
  rwa [List.append_nil] at h

theorem exists_left (h : Alike r (t ++ x)) (ht : '(' ∉ t) : ∃ r', r = t ++ r' ∧ Alike r' x := by
  induction t generalizing r with
  | nil => exact ⟨r, rfl, h⟩
  | cons c t ih =>
    simp only [List.mem_cons, not_or] at ht
    rw [List.cons_append] at h
    cases h with
    | cons _ tail =>
      obtain ⟨r', rfl, hr'⟩ := ih tail ht.2
      exact ⟨r', rfl, hr'⟩
    | reference => exact absurd rfl ht.1

theorem exists_right (h : Alike (t ++ r) x) (ht : '\x7b' ∉ t) : ∃ x', x = t ++ x' ∧ Alike r x' := by
  induction t generalizing x with
  | nil => exact ⟨x, rfl, h⟩
  | cons c t ih =>
    simp only [List.mem_cons, not_or] at ht
    rw [List.cons_append] at h
    generalize hs : t ++ r = s at h
    cases h with
    | cons _ tail =>
      rw [← hs] at tail
      obtain ⟨x', rfl, hx'⟩ := ih tail ht.2
      exact ⟨x', rfl, hx'⟩
    | reference => exact absurd rfl ht.1

/-- The heads are the same or the two parentheses. -/
theorem head?_any (h : Alike r x) {f : Char → Bool} (hf : f '\x7b' = f '(') :
    r.head?.any f = x.head?.any f := by
  cases h with
  | nil => rfl
  | cons => rfl
  | reference => simpa using hf

theorem head?_ne (h : Alike r x) {c : Char} (hc : c ≠ '\x7b') (hp : c ≠ '(') :
    r.head? ≠ some c ↔ x.head? ≠ some c := by
  cases h with
  | nil => rfl
  | cons => rfl
  | reference => simp [Ne.symm hc, Ne.symm hp]

theorem mem_brace (h : Alike r x) (hx : '\x7d' ∈ x) : '\x7d' ∈ r := by
  induction h with
  | nil => exact hx
  | cons c _ ih =>
    rcases List.mem_cons.mp hx with rfl | hx
    · exact List.mem_cons_self
    · exact List.mem_cons_of_mem _ (ih hx)
  | reference closed => simp [closed]

theorem mirrors (h : Alike r x) : Mirrors r x where
  nil := by
    rintro rfl
    cases h
    rfl
  alphanum := by
    rintro v w rfl hv
    have hp : '(' ∉ v := fun hm => absurd (hv _ hm) (by decide)
    obtain ⟨r', hr, -⟩ := h.exists_left hp
    exact ⟨r', hr⟩

theorem braced?_eq_none (h : Alike r x) (hr : braced? r = none) : braced? x = none := by
  rw [braced?_eq_none_iff] at hr ⊢
  rintro b rfl hb
  cases h with
  | cons _ tail => exact hr _ rfl (tail.mem_brace hb)

end Alike

variable {e : Setting} {r x t : List Char} {scope : Scope}

section Quantifiers

private theorem startsWithQuantifier_left (h : Alike r x) (hx : startsWithQuantifier x = true) :
    startsWithQuantifier r = true := by
  obtain ⟨t, x', rfl, ht⟩ := startsWithQuantifier_iff.mp hx
  obtain ⟨r', rfl, -⟩ := h.exists_left ht.not_mem_paren
  exact startsWithQuantifier_iff.mpr ⟨t, r', rfl, ht⟩

private theorem startsWithQuantifier_right (h : Alike r x) (hr : startsWithQuantifier r = true) :
    startsWithQuantifier x = true := by
  obtain ⟨t, r', rfl, ht⟩ := startsWithQuantifier_iff.mp hr
  have hx : ∃ x', x = t ++ x' := by
    cases ht with
    | simple hc =>
      obtain ⟨x', hx, -⟩ := h.exists_right (by
        simp only [List.mem_cons, List.not_mem_nil, or_false] at hc ⊢
        rcases hc with rfl | rfl | rfl <;> decide)
      exact ⟨x', hx⟩
    | counted ht =>
      obtain ⟨u, rfl, hne, hu, -⟩ := ht.exists_eq_cons
      obtain ⟨d, ds, rfl⟩ := List.exists_cons_of_ne_nil hne
      cases h with
      | cons _ tail =>
        obtain ⟨x', rfl, -⟩ := tail.exists_right hu
        exact ⟨x', rfl⟩
      | reference => exact absurd List.mem_cons_self hu
  obtain ⟨x', rfl⟩ := hx
  exact startsWithQuantifier_iff.mpr ⟨t, x', rfl, ht⟩

theorem Alike.separator_eq (h : Alike r x) : separator r = separator x := by
  have hq : startsWithQuantifier r = startsWithQuantifier x :=
    Bool.eq_iff_iff.mpr ⟨startsWithQuantifier_right h, startsWithQuantifier_left h⟩
  rw [separator, separator, hq]

end Quantifiers

section Lexemes

variable {s : Lexeme.Settings} {lexeme : Lexeme}

def Lexeme.Settings.apart (s : Lexeme.Settings) : Lexeme.Settings := { s with building := false }

private theorem spacingLength_congr {inComment : Bool} (h : Alike r x)
    (hr : Lexeme.spacingLength inComment (t ++ r) = t.length) :
    Lexeme.spacingLength inComment (t ++ x) = t.length := by
  induction t generalizing inComment with
  | nil =>
    cases h with
    | nil => rfl
    | cons c tail =>
      simp only [List.nil_append, List.length_nil, Lexeme.spacingLength] at hr ⊢
      split at hr
      · split at hr <;> omega
      · split at hr
        · omega
        · split at hr
          · omega
          · simp [*]
    | reference =>
      cases inComment with
      | true => simp [Lexeme.spacingLength] at hr
      | false => exact Lexeme.spacingLength_eq_zero (by decide)
  | cons c t ih =>
    simp only [List.cons_append, List.length_cons, Lexeme.spacingLength] at hr ⊢
    split at hr
    · split at hr
      · rw [if_pos ‹_›, if_pos ‹_›, ih (by omega)]; omega
      · rw [if_pos ‹_›, if_neg ‹_›, ih (by omega)]; omega
    · split at hr
      · rw [if_neg ‹_›, if_pos ‹_›, ih (by omega)]; omega
      · split at hr
        · rw [if_neg ‹_›, if_neg ‹_›, if_pos ‹_›, ih (by omega)]; omega
        · omega

private theorem spelled_congr {s s' : Lexeme.Settings}
    (settings : s.apart = s'.apart)
    (digit : r.head?.any Char.isDigit = x.head?.any Char.isDigit)
    (mark : r.head? ≠ some '?' ↔ x.head? ≠ some '?')
    (gap : lexeme = .spacing → Lexeme.spacingLength false (t ++ x) = t.length)
    (kept : lexeme.isReparsed = false) (hs : lexeme.Spelled s scope t r) :
    lexeme.Spelled s' scope t x := by
  obtain ⟨_, _, _, _⟩ := s
  obtain ⟨_, _, _, _⟩ := s'
  simp only [Lexeme.Settings.apart, Lexeme.Settings.mk.injEq, and_true] at settings
  obtain ⟨rfl, rfl, rfl⟩ := settings
  cases hs with
  | subpattern => simp [Lexeme.isReparsed] at kept
  | numberedReference nonempty areDigits apart =>
    exact .numberedReference nonempty areDigits (digit ▸ apart)
  | namedReference isName => exact .namedReference isName
  | emptyClass => exact .emptyClass
  | fullClass => exact .fullClass
  | comment closed => exact .comment closed
  | namedGroup isName => exact .namedGroup isName
  | markedGroup isName => exact .markedGroup isName
  | modifier atStart isName => exact .modifier atStart isName
  | group bare => exact .group (mark.mp bare)
  | dot dotAll => exact .dot dotAll
  | spacing spaced nonempty _ => exact .spacing spaced nonempty (gap rfl)

/-- A lexeme that is not a reference to a subpattern is spelled in the same way before both. -/
theorem Alike.spelled (h : Alike r x) (kept : lexeme.isReparsed = false)
    (hs : lexeme.Spelled s scope t r) : lexeme.Spelled s.apart scope t x := by
  refine spelled_congr (s := s) rfl (h.head?_any (by decide))
    (h.head?_ne (by decide) (by decide)) ?_ kept hs
  rintro rfl
  cases hs with
  | spacing _ _ length => exact spacingLength_congr h length

/-- And the same is written for it. -/
theorem Alike.emits (h : Alike r x) (kept : lexeme.isReparsed = false) {written : String}
    {custom w : List Char} {subpatterns subpatterns' : Option Subpatterns} {c c' : Context}
    (he : lexeme.Emits scope written r custom subpatterns c w c') :
    lexeme.Emits scope written x custom subpatterns' c w c' := by
  cases he with
  | subpattern => simp [Lexeme.isReparsed] at kept
  | comment => exact h.separator_eq ▸ .comment
  | spacing => exact h.separator_eq ▸ .spacing
  | namedReference found =>
    rw [h.head?_any (f := Char.isDigit) (by decide)]
    exact .namedReference found
  | emptyClass => exact .emptyClass
  | fullClass => exact .fullClass
  | modifier set => exact .modifier set
  | zero => exact .zero
  | numberedReference positive outside known => exact .numberedReference positive outside known
  | dot => exact .dot
  | namedGroup added => exact .namedGroup added
  | gathering flag => exact .gathering flag
  | group flag added => exact .group flag added

theorem Alike.copied (h : Alike r x) (hc : Copied scope t r) : Copied scope t x := by
  cases hc with
  | escape length => exact .escape (escapeLength_congr h.mirrors h.braced?_eq_none length)
  | opener isOpener => exact .opener isOpener
  | lazy simple => exact .lazy simple
  | counted isCounted isMark =>
    refine .counted isCounted ?_
    rcases isMark with rfl | ⟨rfl, hr⟩
    · exact .inl rfl
    · exact .inr ⟨rfl, (h.head?_ne (by decide) (by decide)).mp hr⟩

end Lexemes

section Absence

variable {s : Lexeme.Settings} {lexeme : Lexeme} {a : Char}

private theorem not_mem_of_isName {name : List Char} {c : Char} (h : IsName name)
    (hc : Flags.isFlagChar c = false) : c ∉ name :=
  fun hm => absurd (h.2 c hm) (by simp [hc])

/-- Lexemes but comments and spacing have no parenthesis inside. -/
private theorem not_mem_tail (hs : lexeme.Spelled s scope (a :: t) x) (hc : lexeme ≠ .comment)
    (hp : lexeme ≠ .spacing) : '(' ∉ t := by
  generalize ht : a :: t = u at hs
  have hn {name : List Char} (h : IsName name) : '(' ∉ name := not_mem_of_isName h (by decide)
  cases hs with
  | subpattern _ isName => obtain ⟨-, rfl⟩ := List.cons.inj ht; simp [hn isName]
  | numberedReference _ areDigits =>
    obtain ⟨-, rfl⟩ := List.cons.inj ht
    exact fun hm => absurd (areDigits _ hm) (by decide)
  | namedReference isName => obtain ⟨-, rfl⟩ := List.cons.inj ht; simp [hn isName]
  | emptyClass => obtain ⟨-, rfl⟩ := List.cons.inj ht; decide
  | fullClass => obtain ⟨-, rfl⟩ := List.cons.inj ht; decide
  | comment => exact absurd rfl hc
  | namedGroup isName => obtain ⟨-, rfl⟩ := List.cons.inj ht; simp [hn isName]
  | markedGroup isName => obtain ⟨-, rfl⟩ := List.cons.inj ht; simp [hn isName]
  | modifier _ isName => obtain ⟨-, rfl⟩ := List.cons.inj ht; simp [hn isName]
  | group => obtain ⟨-, rfl⟩ := List.cons.inj ht; simp
  | dot => obtain ⟨-, rfl⟩ := List.cons.inj ht; simp
  | spacing => exact absurd rfl hp

private theorem spelled_left (h : Alike r x) (hs : lexeme.Spelled s.apart scope t x)
    (hp : lexeme ≠ .spacing) : lexeme.Spelled s scope t r := by
  have kept : lexeme.isReparsed = false := by
    cases hs with
    | subpattern building => simp [Lexeme.Settings.apart] at building
    | _ => rfl
  exact spelled_congr (s := s.apart) rfl (h.head?_any (by decide)).symm
    (h.head?_ne (by decide) (by decide)).symm (fun he => absurd he hp) kept hs

private theorem scan?_ne_none_of_spacing (hs : Lexeme.Spelled s.apart scope .spacing t x)
    {rest : List Char} (ha : t ++ x = a :: rest) : Lexeme.scan? s scope (a :: r) ≠ none := by
  cases hs with
  | spacing spaced nonempty length =>
    have hpos : 0 < Lexeme.spacingLength false (a :: rest) := by
      rw [← ha, length]
      exact List.length_pos_iff.mpr nonempty
    have hb := Lexeme.isBlank_or_eq_of_spacingLength_pos hpos
    have hsp : s.spaced = true := spaced
    rw [Lexeme.scan?_of_not_mem_starters (Lexeme.not_mem_starters_of_isBlank_or hb), if_pos hsp]
    have hne : Lexeme.spacingLength false (a :: r) ≠ 0 := by
      rcases hb with hb | rfl
      · simp [Lexeme.spacingLength, hb]
      · simp [Lexeme.spacingLength_comment]
    simp [hne]

private theorem scan?_ne_none_of_comment (h : Alike r x)
    (hs : Lexeme.Spelled s.apart scope .comment t u) (ha : t ++ u = a :: x)
    (closed : ∀ body, a :: r = '(' :: '?' :: '#' :: body → ')' ∉ body → x = r) :
    Lexeme.scan? s scope (a :: r) ≠ none := by
  cases hs with
  | @comment body _ hbody =>
    obtain ⟨rfl, hx⟩ : '(' = a ∧ ['?', '#'] ++ (body ++ ')' :: u) = x := by simpa using ha
    rw [← hx] at h
    obtain ⟨r', rfl, hr'⟩ := h.exists_left (by decide)
    by_cases hm : ')' ∈ r'
    · obtain ⟨body', w, rfl, hbody'⟩ := List.eq_append_cons_of_mem hm
      have hspelled :
          Lexeme.Spelled s .outside .comment ('(' :: '?' :: '#' :: (body' ++ [')'])) w :=
        .comment hbody'
      have hscan := hspelled.scan?
      simp only [List.cons_append, List.append_assoc, List.nil_append] at hscan ⊢
      simp [hscan]
    · have he := closed r' rfl hm
      rw [← hx, List.append_cancel_left_eq] at he
      exact absurd (by simp [← he]) hm

/-- Where no lexeme stands in the one text none stands in the other, unless a comment is closed. -/
theorem Alike.scan?_eq_none (h : Alike r x) (hr : Lexeme.scan? s scope (a :: r) = none)
    (closed : scope = .outside → ∀ body, a :: r = '(' :: '?' :: '#' :: body → ')' ∉ body → x = r) :
    Lexeme.scan? s.apart scope (a :: x) = none := by
  cases hx : Lexeme.scan? s.apart scope (a :: x) with
  | none => rfl
  | some found =>
    obtain ⟨lexeme, n⟩ := found
    obtain ⟨t, u, ht, -, hs⟩ := Lexeme.spelled_of_scan? hx
    by_cases hp : lexeme = .spacing
    · subst hp
      exact absurd hr (scan?_ne_none_of_spacing hs ht.symm)
    by_cases hc : lexeme = .comment
    · subst hc
      have hscope : scope = .outside := by
        cases hs
        rfl
      exact absurd hr (scan?_ne_none_of_comment h hs ht.symm (closed hscope))
    obtain ⟨b, t, rfl⟩ := List.exists_cons_of_ne_nil hs.ne_nil
    obtain ⟨rfl, rfl⟩ := List.cons.inj ht
    obtain ⟨r', rfl, hr'⟩ := h.exists_left (not_mem_tail hs hc hp)
    have hscan := (spelled_left hr' hs hp).scan?
    rw [List.cons_append, hr] at hscan
    simp at hscan

private theorem exists_copied_left (h : Alike r x) {u : List Char} (hc : Copied scope t u)
    (ha : a :: x = t ++ u) : ∃ t' r', a :: r = t' ++ r' ∧ Copied scope t' r' := by
  cases hc with
  | escape =>
    obtain rfl := (List.cons.inj ha).1
    have hle := escapeLength_le r
    refine ⟨'\\' :: r.take (escapeLength r), r.drop (escapeLength r), by simp, .escape ?_⟩
    simp [hle]
  | opener isOpener =>
    have hmem := isOpener
    obtain ⟨t, rfl, ht⟩ := exists_eq_cons_of_mem_openers isOpener
    obtain ⟨rfl, rfl⟩ := List.cons.inj ha
    obtain ⟨r', rfl, -⟩ := h.exists_left ht
    exact ⟨_, r', rfl, .opener hmem⟩
  | lazy simple =>
    obtain ⟨rfl, rfl⟩ := List.cons.inj ha
    obtain ⟨r', rfl, -⟩ := Alike.exists_left (t := ['?']) h (by decide)
    exact ⟨_, r', rfl, .lazy simple⟩
  | @counted t z _ isCounted isMark =>
    have hcounted := isCounted
    obtain ⟨v, rfl, -, -, hv⟩ := isCounted.exists_eq_cons
    obtain ⟨rfl, rfl⟩ := List.cons.inj ha
    have h' : Alike r (v ++ (z ++ u)) := by simpa using h
    obtain ⟨r', rfl, -⟩ := h'.exists_left hv
    obtain ⟨z', r', rfl, hz⟩ := exists_isMark r'
    exact ⟨_, r', by simp, .counted hcounted hz⟩

theorem Alike.copiedLength?_eq_none (h : Alike r x) (hr : copiedLength? scope (a :: r) = none) :
    copiedLength? scope (a :: x) = none := by
  cases hx : copiedLength? scope (a :: x) with
  | none => rfl
  | some n =>
    obtain ⟨t, u, ht, -, hc⟩ := copied_of_copiedLength? hx
    obtain ⟨t', r', ha, hc'⟩ := exists_copied_left h hc ht
    rw [ha, hc'.copiedLength?] at hr
    simp at hr

theorem Alike.startsWithModifier_left (h : Alike r x) (hx : startsWithModifier (a :: x) = true) :
    startsWithModifier (a :: r) = true := by
  obtain ⟨run, c, u, ha, hne, hrun, hc⟩ := startsWithModifier_iff.mp hx
  obtain ⟨rfl, hx'⟩ := List.cons.inj ha
  rw [show '?' :: (run ++ c :: u) = '?' :: (run ++ [c]) ++ u by simp] at hx'
  rw [hx'] at h
  obtain ⟨r', rfl, -⟩ := h.exists_left (by
    simp only [List.mem_cons, List.mem_append, List.not_mem_nil, or_false, not_or]
    refine ⟨by decide, fun hm => absurd (hrun _ hm) (by decide), ?_⟩
    rcases hc with rfl | rfl <;> decide)
  exact startsWithModifier_iff.mpr ⟨run, c, r', by simp, hne, hrun, hc⟩

end Absence

/-- The setting of a pattern that is translated without subpatterns. -/
def Setting.alone (e : Setting) (pattern : List Char) : Setting :=
  { e with subpatterns := none, pattern := String.ofList pattern }

/-- A comment is opened that nothing in the rest closes. -/
def Spot.OpensComment (p : Spot) : Prop :=
  p.scope = .outside ∧ ∃ body, p.rest = '(' :: '?' :: '#' :: body ∧ ')' ∉ body

/-- Somewhere a comment is opened that nothing closes, and later a subpattern is expanded. -/
def PassesOpenComment : History → Prop
  | [] => False
  | (p, _) :: ms => p.OpensComment ∧ 0 < expansions ms ∨ PassesOpenComment ms

variable {p q : Spot} {m : Move} {ms : History} {w W : List Char}

section Simulation

/-- A move that reads is made on the expanded text too. -/
theorem Moves.alone (h : Moves e p (.read t w q)) (ha : Alike q.rest x)
    (closed : p.OpensComment → x = q.rest) :
    Moves (e.alone W) (p.withRest (t ++ x)) (.read t w (q.withRest x)) := by
  have absent {a : Char} {t r : List Char} {s : Lexeme.Settings} (ha : Alike r x)
      (hr : p.rest = a :: (t ++ r)) (bare : Lexeme.scan? s p.scope p.rest = none)
      (closed : p.OpensComment → x = r) :
      Lexeme.scan? s.apart p.scope (a :: (t ++ x)) = none := by
    rw [hr] at bare
    refine (ha.append t).scan?_eq_none bare fun hscope body hbody hclosed => ?_
    rw [closed ⟨hscope, body, hr.trans hbody, hclosed⟩]
  cases h with
  | lexeme rest spelled kept emitted =>
    exact .lexeme rfl (ha.spelled kept spelled) kept (ha.emits kept emitted)
  | @copied _ r rest bare copied =>
    obtain ⟨a, u, rfl⟩ := List.exists_cons_of_ne_nil copied.ne_nil
    exact .copied rfl (absent ha rest bare closed) (ha.copied copied)
  | @single a r rest bare own settled =>
    rw [rest] at own settled
    exact .single rfl (absent (t := []) ha rest bare closed) (ha.copiedLength?_eq_none own)
      fun hm => settled ⟨hm.1, ha.startsWithModifier_left hm.2⟩

theorem alike_textRead (h : Reading e p ms q) (hend : q.rest = []) :
    Alike p.rest (textRead ms) := by
  induction h with
  | done p =>
    rw [hend]
    exact .nil
  | @step p q m ms move tail ih =>
    have hm := moves_of_move? move
    cases m with
    | read t w p' =>
      obtain ⟨-, hrest, -⟩ := hm.text_ne_nil
      rw [hrest]
      exact (ih hend).append t
    | expand p' =>
      cases hm with
      | subpattern rest =>
        have htail := ih hend
        simp only [Move.next, Spot.withRest, List.cons_append, List.nil_append] at htail
        rw [rest]
        simp only [textRead_cons, Move.text, List.nil_append]
        generalize textRead ms = x at htail
        cases htail with
        | cons _ _ => exact .reference (by simp)

/-- Where nothing is expanded the rest is read as it stands. -/
theorem textRead_eq_rest (h : Reading e p ms q) (hend : q.rest = []) (hx : expansions ms = 0) :
    textRead ms = p.rest := by
  rw [h.rest_eq hx, hend, List.append_nil]

/-- The moves that read, on the expanded text. -/
theorem exists_reading_alone (h : Reading e p ms q) (hend : q.rest = [])
    (hms : ¬PassesOpenComment ms) :
    ∃ ms', Reading (e.alone W) (p.withRest (textRead ms)) ms' q ∧ written ms' = written ms ∧
      expansions ms' = 0 := by
  induction h with
  | done p => exact ⟨[], by rw [textRead_nil, ← hend]; exact .done p, rfl, rfl⟩
  | @step p q m ms move tail ih =>
    simp only [PassesOpenComment, not_or, not_and] at hms
    obtain ⟨ms', hms', hw, hx⟩ := ih hend hms.2
    have hm := moves_of_move? move
    cases m with
    | read t w p' =>
      have hmove := hm.alone (W := W) (alike_textRead tail hend) fun hopen =>
        textRead_eq_rest tail hend (by have := hms.1 hopen; omega)
      exact ⟨_, .step hmove.move? hms', by simp [Move.output, hw], by simp [Move.isExpansion, hx]⟩
    | expand p' =>
      refine ⟨ms', ?_, by simp [Move.output, hw], hx⟩
      cases hm with
      | subpattern => exact hms'

end Simulation

section OpenComments

variable {c : Context} {body : List Char}

private theorem mem_textRead (h : Reading e p ms q) (hend : q.rest = []) (hp : ')' ∈ p.rest) :
    ')' ∈ textRead ms := by
  induction h with
  | done p => simp [hend] at hp
  | @step p q m ms move tail ih =>
    have hm := moves_of_move? move
    rw [textRead_cons, List.mem_append]
    cases m with
    | read t w p' =>
      obtain ⟨-, hrest, -⟩ := hm.text_ne_nil
      rw [hrest, List.mem_append] at hp
      exact hp.imp_right (ih hend)
    | expand p' =>
      cases hm with
      | subpattern => exact .inr (ih hend (by simp [Move.next, Spot.withRest]))

private theorem mem_textRead_of_expansions (h : Reading e p ms q) (hend : q.rest = [])
    (hx : 0 < expansions ms) : ')' ∈ textRead ms := by
  induction h with
  | done p => simp at hx
  | @step p q m ms move tail ih =>
    have hm := moves_of_move? move
    rw [textRead_cons, List.mem_append]
    cases m with
    | read t w p' => exact .inr (ih hend (by simpa [Move.isExpansion] using hx))
    | expand p' =>
      cases hm with
      | subpattern => exact .inr (mem_textRead tail hend (by simp [Move.next, Spot.withRest]))

private theorem reads_openComment (hbody : ')' ∉ body) :
    Reads e c ['(', '?'] ('#' :: body) ['(', '?'] c := by
  have hopen : Reads e c ['('] (['?'] ++ '#' :: body) ['('] c := by
    refine .of_moves fun _ => .single rfl ?_ ?_ ?_
    · have hf : body.findIdx? (· == ')') = none := by
        rw [List.findIdx?_eq_none_iff]
        intro a ha
        simp only [beq_eq_false_iff_ne, ne_eq]
        rintro rfl
        exact hbody ha
      simp [Lexeme.scan?, hf]
    · rfl
    · simp [startsWithModifier]
  have hmark : Reads e c ['?'] ('#' :: body) ['?'] c := by
    refine reads_single (by decide) (fun _ => ?_) (.inr (by simp))
    exact (IsQuantifier.simple (by decide)).scan?_eq_none
  exact hopen.append hmark

/-- After removed text a separator is written, or else a quantifier. -/
private theorem exists_written_separated (hreads : Reads e c t r (separator r) c) {atStart : Bool}
    (h : Reading e ⟨atStart, t ++ r, .outside, c⟩ ms q) (hend : q.rest = []) :
    ∃ a w, written ms = a :: w ∧
      (a ∈ ['?', '*', '+', '\x7b'] ∨ a = '(' ∧ ∃ w', w = '?' :: ':' :: w') := by
  cases hq : startsWithQuantifier r with
  | true =>
    obtain ⟨u, v, rfl, hu⟩ := startsWithQuantifier_iff.mp hq
    obtain ⟨z, r, rfl, hz⟩ := exists_isMark v
    obtain ⟨a, u, rfl, ha⟩ := hu.exists_eq_cons
    rw [← List.append_assoc _ z] at hreads h
    have hboth := hreads.append (reads_quantifier hu hz)
    rw [← List.append_assoc] at h
    obtain ⟨w, hw⟩ := hboth.exists_written h hend
    rw [separator, if_pos (by rwa [List.append_assoc])] at hw
    exact ⟨a, u ++ z ++ w, by simp [hw], .inl ha⟩
  | false =>
    obtain ⟨w, hw⟩ := hreads.exists_written h hend
    rw [separator, hq] at hw
    exact ⟨'(', _, hw, .inr ⟨rfl, _, rfl⟩⟩

private theorem reads_spacing_of_ne_zero (hx : c.hasFlag 'x' = true)
    (hr : Lexeme.spacingLength false r ≠ 0) :
    ∃ t r', r = t ++ r' ∧ Reads e c t r' (separator r') c := by
  obtain ⟨t, r', rfl, hne, hl⟩ := Lexeme.exists_spacing hr
  exact ⟨t, r', rfl, .of_moves fun _ => .lexeme rfl (.spacing hx hne hl) rfl .spacing⟩

/-- A comment that is left open is written as it stands, up to its third character at least. -/
private theorem written_openComment (hp : p.OpensComment) (h : Reading e p ms q)
    (hend : q.rest = []) : ∃ a w, written ms = '(' :: '?' :: a :: w ∧ a ≠ ':' := by
  obtain ⟨atStart, rest, scope, c⟩ := p
  obtain ⟨rfl, body, rfl, hbody⟩ := hp
  obtain ⟨run, atStart', hrun, hw, -⟩ := reads_openComment (e := e) (c := c) hbody atStart
  obtain ⟨ms', rfl, hms'⟩ := hrun.split h hend
  rw [written_append, hw]
  by_cases hx : c.hasFlag 'x' = true
  · obtain ⟨t, r, ht, hreads⟩ := reads_spacing_of_ne_zero (e := e) (r := '#' :: body) hx
      (by simp [Lexeme.spacingLength_comment])
    rw [ht] at hms'
    obtain ⟨a, w, ha, hor⟩ := exists_written_separated hreads hms' hend
    refine ⟨a, w, by rw [ha]; rfl, ?_⟩
    rcases hor with hmem | ⟨rfl, -⟩
    · rintro rfl
      exact absurd hmem (by decide)
    · decide
  · have hreads : Reads e c ['#'] body ['#'] c := by
      refine reads_single (by decide) (fun _ => ?_) (.inl (by decide))
      rw [List.singleton_append, Lexeme.scan?_of_not_mem_starters (by decide)]
      exact if_neg hx
    obtain ⟨w, hw'⟩ := hreads.exists_written hms' hend
    exact ⟨'#', w, by rw [hw']; rfl, by decide⟩

theorem written_comment {atStart : Bool} {rest : List Char} (hrest : ')' ∈ rest)
    (h : Reading e ⟨atStart, '(' :: '?' :: '#' :: rest, .outside, c⟩ ms q) (hend : q.rest = []) :
    ∃ a w, written ms = a :: w ∧
      (a ∈ ['?', '*', '+', '\x7b'] ∨ a = '(' ∧ ∃ w', w = '?' :: ':' :: w') := by
  obtain ⟨body, r, rfl, hbody⟩ := List.eq_append_cons_of_mem hrest
  have hreads : Reads e c ('(' :: '?' :: '#' :: (body ++ [')'])) r (separator r) c :=
    reads_lexeme (fun _ => .comment hbody) rfl .comment
  exact exists_written_separated hreads (by simpa using h) hend

end OpenComments

section Unfolding

/-- `Unfolds e p W`: where the reading from `p` comes to a reference to a subpattern, the
subpattern is put in the place of the reference as a group, and is read next; `W` is the text
behind `p` with all of them in their places. -/
inductive Unfolds (e : Setting) : Spot → List Char → Prop
  | done {p : Spot} (done : p.rest = []) : Unfolds e p []
  | read {p q : Spot} {t w W : List Char} (move : e.move? p = .ok (some (.read t w q)))
    (tail : Unfolds e q W) : Unfolds e p (t ++ W)
  | expand {p : Spot} {name r W : List Char} {text : String} {n : Nat}
    (rest : p.rest = '\x7b' :: '\x7b' :: (name ++ ['\x7d', '\x7d']) ++ r)
    (recognised : Lexeme.scan? (e.lexemeSettings p) p.scope p.rest = some (.subpattern name, n))
    (found : (e.subpatterns.getD []).lookup (String.ofList name) = some text)
    (tail : Unfolds e (p.withRest (['(', '?', ':'] ++ text.toList ++ [')'] ++ r)) W) :
    Unfolds e p W

theorem unfolds_of_reading (h : Reading e p ms q) (hend : q.rest = []) :
    Unfolds e p (textRead ms) := by
  induction h with
  | done p => exact .done hend
  | @step p q m ms move tail ih =>
    cases m with
    | read t w p' => exact .read move (ih hend)
    | expand p' =>
      cases moves_of_move? move with
      | @subpattern name r text rest isName building found =>
        have spelled : (Lexeme.subpattern name).Spelled (e.lexemeSettings p) p.scope _ r :=
          .subpattern building isName
        have hs := spelled.scan?
        rw [← rest] at hs
        exact .expand rest hs found (ih hend)

theorem exists_reading_of_unfolds (h : Unfolds e p W) :
    ∃ ms q, Reading e p ms q ∧ q.rest = [] ∧ textRead ms = W := by
  induction h with
  | done done => exact ⟨[], _, .done _, done, rfl⟩
  | read move _ ih =>
    obtain ⟨ms, q, hms, hend, rfl⟩ := ih
    exact ⟨_, q, .step move hms, hend, rfl⟩
  | @expand p name r W text n rest recognised found _ ih =>
    obtain ⟨ms, q, hms, hend, rfl⟩ := ih
    have hname : IsName name ∧ e.subpatterns.isSome = true := by
      obtain ⟨_, _, _, -, spelled⟩ := Lexeme.spelled_of_scan? recognised
      generalize p.scope = scope at spelled
      cases spelled with
      | subpattern building isName => exact ⟨isName, building⟩
    exact ⟨_, q, .step (Moves.subpattern rest hname.1 hname.2 found).move? hms, hend, rfl⟩

private theorem written_ne_of_openComment (h : Reading e p ms q) (hend : q.rest = [])
    (hopen : p.OpensComment) (hx : 0 < expansions ms) {ms' : History} {q' : Spot}
    (h' : Reading (e.alone W) (p.withRest (textRead ms)) ms' q') (hend' : q'.rest = []) :
    written ms' ≠ written ms := by
  obtain ⟨a, w, hw, ha⟩ := written_openComment hopen h hend
  have hclose := mem_textRead_of_expansions h hend hx
  have halike := alike_textRead h hend
  obtain ⟨atStart, rest, scope, c⟩ := p
  obtain ⟨rfl, body, rfl, -⟩ := hopen
  generalize textRead ms = x at h' hclose halike
  cases halike with
  | cons _ tail =>
    obtain ⟨x, rfl, -⟩ := Alike.exists_right (t := ['?', '#']) tail (by decide)
    obtain ⟨a', w', hw', hor⟩ := written_comment (by simpa using hclose) h' hend'
    rw [hw, hw']
    rintro he
    obtain ⟨rfl, rfl⟩ := List.cons.inj he
    rcases hor with hmem | ⟨-, v, hv⟩
    · exact absurd hmem (by decide)
    · exact ha (List.cons.inj (List.cons.inj hv).2).1

/-- The expanded text is translated differently where a comment that was left open is passed. -/
theorem written_ne_of_passesOpenComment (h : Reading e p ms q) (hend : q.rest = [])
    (hpass : PassesOpenComment ms) {ms' : History} {q' : Spot}
    (h' : Reading (e.alone W) (p.withRest (textRead ms)) ms' q') (hend' : q'.rest = []) :
    written ms' ≠ written ms := by
  induction h generalizing ms' with
  | done p => exact absurd hpass id
  | @step p q m ms move tail ih =>
    have hm := moves_of_move? move
    by_cases hopen : p.OpensComment ∧ 0 < expansions ms
    · exact written_ne_of_openComment (.step move tail) hend hopen.1 (by simp; omega) h' hend'
    · have hpass' : PassesOpenComment ms := hpass.resolve_left hopen
      cases m with
      | read t w p' =>
        have hmove := hm.alone (W := W) (alike_textRead tail hend) fun ho =>
          textRead_eq_rest tail hend (Nat.eq_zero_of_not_pos fun hx => hopen ⟨ho, hx⟩)
        have hone : Reading (e.alone W) _ _ _ := .step hmove.move? (.done _)
        obtain ⟨ms'', rfl, h''⟩ := hone.split h' hend'
        simpa [Move.output] using ih hend hpass' h''
      | expand p' =>
        cases hm with
        | subpattern => exact ih hend hpass' h'

theorem Unfolds.eq (h : Unfolds e p W) {V : List Char} (h' : Unfolds e p V) : V = W := by
  obtain ⟨ms, q, hms, hend, rfl⟩ := exists_reading_of_unfolds h
  obtain ⟨ms', q', hms', hend', rfl⟩ := exists_reading_of_unfolds h'
  rw [(hms.unique hend hms' hend').1]

/-- The reading of the pattern passes a comment that is left open before an expansion. -/
def Setting.PassesOpenComment (e : Setting) (c : Context) : Prop :=
  ∃ ms q, Reading e (.start e.pattern.toList c) ms q ∧ q.rest = [] ∧ Extended.PassesOpenComment ms

/-- Translation is translation of the expanded text without subpatterns, exactly where no comment
that is left open is passed before an expansion. -/
theorem toPlain_alone_iff {limit : Nat} {c c' : Context} {out : List Char}
    (ht : e.dialect.tokens = []) (h : e.toPlain limit c = .ok (out, c')) :
    ∃ W, (∀ V, Unfolds e (.start e.pattern.toList c) V ↔ V = W) ∧ ∀ limit',
      ((e.alone W).toPlain limit' c = .ok (out, c') ↔ ¬e.PassesOpenComment c) := by
  obtain ⟨ms, q, hms, hend, -, rfl, rfl⟩ := (toPlain_eq_ok_iff ht).mp h
  have hunfolds := unfolds_of_reading hms hend
  have htext : (e.alone (textRead ms)).pattern.toList = textRead ms := String.toList_ofList
  refine ⟨textRead ms, fun V => ⟨hunfolds.eq, fun he => he ▸ hunfolds⟩, fun limit' => ?_⟩
  rw [toPlain_eq_ok_iff (e := e.alone (textRead ms)) ht, htext]
  constructor
  · rintro ⟨ms', q', hms', hend', -, hw, -⟩ ⟨all, q'', hall, hend'', hpass⟩
    obtain ⟨rfl, rfl⟩ := hms.unique hend hall hend''
    exact written_ne_of_passesOpenComment hms hend hpass hms' hend' hw
  · intro hpass
    obtain ⟨ms', hms', hw, hx⟩ := exists_reading_alone (W := textRead ms) hms hend
      fun hp => hpass ⟨ms, q, hms, hend, hp⟩
    exact ⟨ms', q, hms', hend, by omega, hw, rfl⟩

/-- A subpattern that is expanded outside of comments. -/
theorem toPlain_alone_group :
    let e : Setting := ⟨{}, ⟨true, fun _ _ => none⟩, some [("s", "a")], "\x7b\x7bs\x7d\x7db"⟩
    e.toPlain 1 (.ofFlags "") = .ok ("(?:a)b".toList, .ofFlags "") ∧
      ∃ W, (∀ V, Unfolds e (.start e.pattern.toList (.ofFlags "")) V ↔ V = W) ∧ ∀ limit',
        ((e.alone W).toPlain limit' (.ofFlags "") = .ok ("(?:a)b".toList, .ofFlags "") ↔
          ¬e.PassesOpenComment (.ofFlags "")) := by
  intro e
  have h : e.toPlain 1 (.ofFlags "") = .ok ("(?:a)b".toList, .ofFlags "") := by cbv
  exact ⟨h, toPlain_alone_iff rfl h⟩

/-- The parenthesis of an expanded subpattern closes a comment. -/
theorem toPlain_open_comment :
    let e : Setting := ⟨{}, ⟨true, fun _ _ => none⟩, some [("s", "a")], "(?#\x7b\x7bs\x7d\x7d"⟩
    e.toPlain 1 (.ofFlags "") = .ok ("(?#(?:a)".toList, .ofFlags "") ∧
      Unfolds e (.start e.pattern.toList (.ofFlags "")) "(?#(?:a)".toList ∧
      (e.alone "(?#(?:a)".toList).toPlain 1 (.ofFlags "") = .ok ("(?:)".toList, .ofFlags "") := by
  intro e
  refine ⟨by cbv, ?_, by cbv⟩
  have hgroup : Unfolds e ⟨false, "(?:a)".toList, .outside, .ofFlags ""⟩
      (['(', '?', ':'] ++ (['a'] ++ ([')'] ++ []))) :=
    .read rfl (.read rfl (.read rfl (.done rfl)))
  have hreference : Unfolds e ⟨false, "\x7b\x7bs\x7d\x7d".toList, .outside, .ofFlags ""⟩
      (['(', '?', ':'] ++ (['a'] ++ ([')'] ++ []))) :=
    .expand (p := ⟨false, '\x7b' :: '\x7b' :: (['s'] ++ ['\x7d', '\x7d']) ++ [], .outside, _⟩)
      rfl rfl rfl hgroup
  have hmark : Unfolds e ⟨false, "?#\x7b\x7bs\x7d\x7d".toList, .outside, .ofFlags ""⟩
      (['?'] ++ (['#'] ++ (['(', '?', ':'] ++ (['a'] ++ ([')'] ++ []))))) :=
    .read (q := ⟨false, "#\x7b\x7bs\x7d\x7d".toList, .outside, .ofFlags ""⟩) rfl
      (.read rfl hreference)
  exact .read (t := ['(']) (w := ['(']) (by cbv) hmark

end Unfolding

end Patterns.Extended
