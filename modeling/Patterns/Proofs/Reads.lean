import Patterns.Proofs.Reading

/-!
# Texts that are read

`Reads` composes readings of texts that stand next to each other outside of classes.
-/
namespace Patterns.Extended
open Patterns.Text

/-- Outside of classes `text` before `after` is read without an expansion. -/
def Reads (e : Setting) (c : Context) (text after output : List Char) (c' : Context) : Prop :=
  ∀ atStart, ∃ ms atStart', Reading e ⟨atStart, text ++ after, .outside, c⟩ ms
    ⟨atStart', after, .outside, c'⟩ ∧ written ms = output ∧ expansions ms = 0

variable {e : Setting} {c c' c'' : Context} {t t' r w w' : List Char}

namespace Reads

theorem nil : Reads e c [] r [] c := fun atStart => ⟨[], atStart, .done _, rfl, rfl⟩

theorem append (h : Reads e c t (t' ++ r) w c') (h' : Reads e c' t' r w' c'') :
    Reads e c (t ++ t') r (w ++ w') c'' := by
  intro atStart
  obtain ⟨ms, atStart', hms, hw, hx⟩ := h atStart
  obtain ⟨ms', atStart'', hms', hw', hx'⟩ := h' atStart'
  refine ⟨ms ++ ms', atStart'', ?_, by simp [hw, hw'], by simp [hx, hx']⟩
  rw [List.append_assoc]
  exact hms.trans hms'

theorem of_moves (h : ∀ atStart, Moves e ⟨atStart, t ++ r, .outside, c⟩
    (.read t w ⟨false, r, .outside, c'⟩)) : Reads e c t r w c' := by
  intro atStart
  exact ⟨_, false, .step (h atStart).move? (.done _), by simp [Move.output],
    by simp [Move.isExpansion]⟩

theorem unchanged (h : Reads e c t r w c) : Reads e c t r w ⟨c.flags, c.groups ++ []⟩ := by
  rwa [List.append_nil]

end Reads

theorem reads_lexeme {lexeme : Lexeme} (spelled : ∀ s, lexeme.Spelled s .outside t r)
    (kept : lexeme.isReparsed = false)
    (emitted : lexeme.Emits .outside (String.ofList t) r e.dialect.flags e.subpatterns c w c') :
    Reads e c t r w c' :=
  .of_moves fun _ => .lexeme rfl (spelled _) kept emitted

theorem reads_copied (bare : ∀ s, Lexeme.scan? s .outside (t ++ r) = none)
    (copied : Copied .outside t r) : Reads e c t r t c :=
  .of_moves fun _ => .copied rfl (bare _) copied

/-- What is written from a spot starts with what is written for a text in front of it. -/
theorem Reads.exists_written (hreads : Reads e c t r w c') {atStart : Bool} {ms : History}
    {q : Spot}
    (h : Reading e ⟨atStart, t ++ r, .outside, c⟩ ms q) (hend : q.rest = []) :
    ∃ w', written ms = w ++ w' := by
  obtain ⟨run, _, hrun, rfl, -⟩ := hreads atStart
  obtain ⟨ms', rfl, -⟩ := hrun.split h hend
  exact ⟨written ms', written_append _ _⟩

theorem toPlain_of_reads {limit : Nat} {out : List Char} (ht : e.dialect.tokens = [])
    (h : Reads e c e.pattern.toList [] out c') : e.toPlain limit c = .ok (out, c') := by
  obtain ⟨ms, atStart, hms, hw, hx⟩ := h true
  rw [List.append_nil] at hms
  exact (toPlain_eq_ok_iff ht).mpr ⟨ms, _, hms, rfl, by omega, hw, rfl⟩

section Characters

variable {a : Char}

theorem copiedLength?_eq_none (hb : a ≠ '\\') (hp : a ≠ '(') (hc : a ≠ '\x7b')
    (hq : a ∉ ['?', '*', '+'] ∨ r.head? ≠ some '?') : copiedLength? .outside (a :: r) = none := by
  cases h : copiedLength? .outside (a :: r) with
  | none => rfl
  | some n =>
    obtain ⟨t, r', he, -, copied⟩ := copied_of_copiedLength? h
    cases copied with
    | escape => exact absurd (List.cons.inj he).1 hb
    | opener isOpener =>
      simp only [openers, List.mem_cons, List.not_mem_nil, or_false] at isOpener
      rcases isOpener with rfl | rfl | rfl | rfl | rfl | rfl <;>
        exact absurd (List.cons.inj he).1 hp
    | lazy simple =>
      obtain ⟨rfl, rfl⟩ := List.cons.inj he
      rcases hq with hq | hq
      · exact absurd simple hq
      · simp at hq
    | counted isCounted =>
      obtain ⟨_, _, _, _, _, rfl⟩ := isCounted
      exact absurd (List.cons.inj he).1 hc

theorem not_startsWithModifier (hp : a ≠ '(') : ¬startsWithModifier (a :: r) = true := by
  intro h
  obtain ⟨_, _, _, he, -⟩ := startsWithModifier_iff.mp h
  exact hp (List.cons.inj he).1

private theorem single_outside (h : a ≠ '[') : (Setting.single .outside a).2 = .outside := by
  unfold Setting.single
  split <;> simp_all

theorem reads_single (ha : a ∉ Lexeme.starters)
    (bare : ∀ atStart, Lexeme.scan? (e.lexemeSettings ⟨atStart, [a] ++ r, .outside, c⟩) .outside
      ([a] ++ r) = none)
    (hq : a ∉ ['?', '*', '+'] ∨ r.head? ≠ some '?') :
    Reads e c [a] r (Setting.single .outside a).1 c := by
  simp only [Lexeme.starters, List.mem_cons, List.not_mem_nil, or_false, not_or] at ha
  refine .of_moves fun atStart => ?_
  have h := Moves.single (p := ⟨atStart, [a] ++ r, .outside, c⟩) rfl (bare atStart)
    (copiedLength?_eq_none ha.2.1 ha.2.2.2.1 ha.1 hq)
    (fun h => not_startsWithModifier ha.2.2.2.1 h.2)
  rw [single_outside ha.2.2.1] at h
  exact h

theorem reads_dot : Reads e c ['.'] r (if c.hasFlag 's' then anyChar else ['.']) c := by
  refine .of_moves fun atStart => ?_
  by_cases hs : c.hasFlag 's' = true
  · rw [if_pos hs]
    exact .lexeme rfl (.dot hs) rfl .dot
  · rw [if_neg hs]
    refine .single rfl ?_ (copiedLength?_eq_none (by decide) (by decide) (by decide)
      (.inl (by decide))) (fun h => not_startsWithModifier (by decide) h.2)
    simp [Lexeme.scan?, Setting.lexemeSettings, hs]

end Characters

section Quantifiers

variable {z : List Char}

private theorem reads_simple {a : Char} (ha : a ∈ ['?', '*', '+']) (hz : IsMark z r) :
    Reads e c ([a] ++ z) r ([a] ++ z) c := by
  have hbare (s : Lexeme.Settings) (r : List Char) : Lexeme.scan? s .outside ([a] ++ r) = none :=
    (IsQuantifier.simple ha).scan?_eq_none
  rcases hz with rfl | ⟨rfl, hr⟩
  · exact reads_copied (fun s => hbare s (['?'] ++ r)) (.lazy ha)
  · have hs : a ∉ Lexeme.starters ∧ (Setting.single .outside a).1 = [a] := by
      simp only [List.mem_cons, List.not_mem_nil, or_false] at ha
      rcases ha with rfl | rfl | rfl <;> exact ⟨by decide, rfl⟩
    have h := reads_single (e := e) (c := c) hs.1 (fun _ => hbare _ r) (.inr hr)
    rwa [hs.2] at h

private theorem reads_counted (ht : IsCounted t) (hz : IsMark z r) :
    Reads e c (t ++ z) r (t ++ z) c := by
  refine reads_copied (fun _ => ?_) (.counted ht hz)
  rw [List.append_assoc]
  exact (IsQuantifier.counted ht).scan?_eq_none

/-- Quantifiers are written as they stand, with their marks. -/
theorem reads_quantifier (ht : IsQuantifier t) (hz : IsMark z r) :
    Reads e c (t ++ z) r (t ++ z) c := by
  cases ht with
  | simple ha => exact reads_simple ha hz
  | counted ht => exact reads_counted ht hz

end Quantifiers

end Patterns.Extended
