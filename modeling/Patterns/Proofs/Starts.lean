import Patterns.Matcher
import Patterns.Proofs.Attempts
import Patterns.Proofs.Exposure
import Patterns.Proofs.Numbering

/-!
# Patterns that keep their starts

A match starts where it was tried, whatever engine finds it, unless a part of the pattern moves the
start (`Regex.keepsStart_of_compile?`). A look ahead at the end of a pattern does not: there the
whole match is a group, which starts where the match was tried as well.
-/
namespace Patterns
open Patterns.Text Patterns.Plain

namespace Plain.Regex

variable {r : Regex} {s : Subject} {origin budget i start stop : Nat} {groups : List (Option Span)}

/-- An engine that looks for more than a text comes from `i` to the end of a match, with slots. -/
inductive Reaches (r : Regex) (s : Subject) (origin budget i stop : Nat) (slots : Slots) : Prop
  | automaton {a : Automaton} (engine_eq : r.engine = .automaton a)
    (h : a.match? s r.groups i (s.size - i) = some (stop, slots))
  | machine {p : Program} (engine_eq : r.engine = .machine p)
    (h : p.match? s origin budget i = .matched stop slots)

theorem start_of_attempt (h : r.attempt s origin budget i = .found start stop groups) :
    start = i ∨ ∃ stop' slots, r.Reaches s origin budget i stop' slots ∧
      start = min ((slots[0]?).join.getD i) ((slots[1]?).join.getD stop') := by
  rw [attempt] at h
  split at h
  · split at h
    · cases h
      exact .inl rfl
    · cases h
  · next hengine =>
    split at h
    · next hmatch =>
      cases h
      exact .inr ⟨_, _, .automaton hengine hmatch, rfl⟩
    · cases h
  · next hengine =>
    split at h
    · next hmatch =>
      cases h
      exact .inr ⟨_, _, .machine hengine hmatch, rfl⟩
    · cases h
    · cases h
    · cases h

/-- The bounds that are told of a match are its start, and a place that is not before it. -/
theorem keepsStart_of_reaches (h : ∀ {origin budget i stop slots},
      r.Reaches s origin budget i stop slots → i ≤ stop ∧
        (∀ v, (slots[0]?).join = some v → v = i) ∧ ∀ v, (slots[1]?).join = some v → i ≤ v) :
    r.KeepsStart s := by
  rintro origin i f - - ⟨budget, hattempt⟩
  rcases start_of_attempt hattempt with hstart | ⟨stop, slots, hreaches, hstart⟩
  · exact hstart
  · obtain ⟨hle, hfirst, hlast⟩ := h hreaches
    have hfirst' : (slots[0]?).join.getD i = i := by
      cases hslot : (slots[0]?).join with
      | none => rfl
      | some v => exact hfirst v hslot
    have hlast' : i ≤ (slots[1]?).join.getD stop := by
      cases hslot : (slots[1]?).join with
      | none => exact hle
      | some v => exact hlast v hslot
    rw [hstart, hfirst', Nat.min_eq_left hlast']

variable {e : Expr} {n : Nat} {moves : Bool}

theorem keepsStart_of_automaton (hengine : (∃ cs, r.engine = .text cs) ∨
    r.engine = .automaton (Automaton.ofExpr e false)) (h : e.StartsOnce n moves) :
    r.KeepsStart s := by
  have hopens : (Automaton.ofExpr e false).OpensOnce := Automaton.opensOnce_of_startsOnce h
  refine keepsStart_of_reaches fun hreaches => ?_
  cases hreaches with
  | automaton hautomaton hmatch =>
    rcases hengine with ⟨cs, hengine⟩ | hengine
    · cases hengine.symm.trans hautomaton
    · cases hengine.symm.trans hautomaton
      obtain ⟨hfirst, hslots⟩ := Automaton.slots_of_match? rfl hopens hmatch
      exact ⟨Automaton.le_of_match? rfl hmatch, hfirst, hslots 1⟩
  | machine hmachine =>
    rcases hengine with ⟨cs, hengine⟩ | hengine <;> cases hengine.symm.trans hmachine

theorem keepsStart_of_machine {referenced : List Nat} {p : Program}
    (hengine : r.engine = .machine p) (h : e.StartsOnce n)
    (hprogram : Program.ofExpr? referenced n e = some p) : r.KeepsStart s := by
  refine keepsStart_of_reaches fun hreaches => ?_
  cases hreaches with
  | automaton hautomaton => cases hengine.symm.trans hautomaton
  | machine hmachine hmatch =>
    cases hengine.symm.trans hmachine
    exact Program.start_of_match? h hprogram hmatch

/-- A pattern without a part that moves the start of a match keeps its start in every engine. One
that is regular is read again for its automaton, in which nothing moves a start. -/
theorem keepsStart_of_compile? {source : String} {anyCase multiline : Bool}
    (h : compile? source anyCase multiline = some r)
    (hkeep : ∀ text, readPattern source anyCase multiline {} = some text →
      text.expr.all (!·.isReset) = true) : r.KeepsStart s := by
  rw [compile?, Option.bind_eq_bind, Option.bind_eq_some_iff] at h
  obtain ⟨text, htext, h⟩ := h
  dsimp only at h
  split at h
  · simp only [Option.bind_eq_bind, Option.bind_eq_some_iff] at h
    obtain ⟨text', htext', a, ha, h⟩ := h
    obtain rfl := Automaton.eq_of_ofExpr? ha
    refine keepsStart_of_automaton ?_ (startsOnce_of_readPattern htext')
    cases h
    dsimp only
    split
    · exact .inl ⟨_, rfl⟩
    · exact .inr rfl
  · simp only [Option.bind_eq_bind, Option.bind_eq_some_iff] at h
    obtain ⟨p, hprogram, h⟩ := h
    cases h
    exact keepsStart_of_machine rfl
      ((startsOnce_of_readPattern htext).tame (hkeep text htext)) hprogram

end Plain.Regex

namespace Matcher

/-- No part of the pattern, as it is read, moves the start of its match. -/
def keepsStart (m : Matcher) : Bool :=
  (readPattern m.source m.flags.ignoreCase m.flags.multiline {}).all (·.expr.all (!·.isReset))

theorem keepsStart_body {m : Matcher} (h : m.keepsStart = true) (s : Subject) :
    m.body.KeepsStart s :=
  Regex.keepsStart_of_compile? m.body_eq fun text htext => by rwa [keepsStart, htext] at h

end Matcher

end Patterns
