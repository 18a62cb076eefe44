import Patterns.Proofs.Rewriting

/-!
# Texts quoted for a template

A text in which each dollar is written twice is a template for the text itself. No dollar of it
reaches what stands behind it, so it can stand in front of any template.
-/
namespace Patterns
open Patterns.Text

namespace Template

variable {s : Subject} {f : Match s}

/-- Writes each dollar twice. -/
def quoteList (cs : List Char) : List Char :=
  cs.flatMap fun c => if c = '$' then ['$', '$'] else [c]

/-- The template for a text. -/
def quote (t : String) : String := String.ofList (quoteList t.toList)

theorem quoteList_cons (c : Char) (cs : List Char) :
    quoteList (c :: cs) = (if c = '$' then ['$', '$'] else [c]) ++ quoteList cs := rfl

/-- A text without dollars is quoted as it stands. -/
theorem quoteList_of_not_mem {cs : List Char} (h : '$' ∉ cs) : quoteList cs = cs := by
  induction cs with
  | nil => rfl
  | cons c cs ih =>
    obtain ⟨hc, hcs⟩ : c ≠ '$' ∧ '$' ∉ cs := by simpa [eq_comm] using h
    rw [quoteList_cons, if_neg hc, ih hcs]
    rfl

/-- A dollar behind a dollar is taken with it, whatever follows. -/
theorem expandList_dollars (rest : List Char) :
    expandList f ('$' :: '$' :: rest) = (expandList f rest).map ("$" ++ ·) := by
  have hreference : reference f.groupCount f.hasName ('$' :: rest) = (.literal ['$'], 1) := rfl
  rw [expandList, if_pos rfl, hreference]
  cases h : expandList f rest with
  | error e => simp [h, Reference.text, bind, Except.bind, Except.map]
  | ok t => simp [h, Reference.text, bind, Except.bind, Except.map, pure, Except.pure]

theorem expandList_char {c : Char} (hc : c ≠ '$') (rest : List Char) :
    expandList f (c :: rest) = (expandList f rest).map (String.singleton c ++ ·) := by
  rw [expandList, if_neg hc]
  cases expandList f rest <;> rfl

/-- In front of any template a quoted text stands for itself. -/
theorem expandList_quoteList (cs rest : List Char) :
    expandList f (quoteList cs ++ rest) = (expandList f rest).map (String.ofList cs ++ ·) := by
  induction cs with
  | nil => cases h : expandList f rest <;> simp [quoteList, h, Except.map]
  | cons c cs ih =>
    have hcons : String.ofList (c :: cs) = String.singleton c ++ String.ofList cs := by
      rw [← List.singleton_append, String.ofList_append]
      rfl
    have hstep : expandList f (quoteList (c :: cs) ++ rest) =
        (expandList f (quoteList cs ++ rest)).map (String.singleton c ++ ·) := by
      rw [quoteList_cons]
      by_cases hc : c = '$'
      · subst hc
        exact expandList_dollars _
      · rw [if_neg hc]
        exact expandList_char hc _
    rw [hstep, ih, hcons]
    cases expandList f rest <;> simp [Except.map, String.append_assoc]

theorem expand_quote_append (t v : String) (f : Match s) :
    expand (quote t ++ v) f = (expand v f).map (t ++ ·) := by
  rw [expand, quote, String.toList_append, String.toList_ofList, expandList_quoteList,
    String.ofList_toList]
  rfl

theorem expand_quote (t : String) (f : Match s) : expand (quote t) f = .ok t := by
  have h := expand_quote_append t "" f
  rw [String.append_empty] at h
  rw [h, show expand "" f = .ok "" by simp [expand, expandList], Except.map, String.append_empty]

theorem quote_of_not_mem {t : String} (h : '$' ∉ t.toList) : quote t = t := by
  rw [quote, quoteList_of_not_mem h, String.ofList_toList]

end Template

namespace Matcher

variable {m : Matcher} {s : Subject} {r r' : Replacement} {t : String}

theorem substitute_congr (h : ∀ (f : Match s) (cursor : Nat), r.write f cursor = r'.write f cursor)
    (fs : List (Match s)) (last cursor : Nat) :
    m.substitute r fs last cursor = m.substitute r' fs last cursor := by
  induction fs generalizing last cursor with
  | nil => rfl
  | cons f fs ih => simp only [substitute, h, ih]

theorem replace_congr (h : ∀ (f : Match s) (cursor : Nat), r.write f cursor = r'.write f cursor)
    (needle : Needle) (scope : Option ReplaceScope) :
    Patterns.replace s needle r scope = Patterns.replace s needle r' scope := by
  simp only [Patterns.replace, replace, substitute_congr h]

/-- Where the same text is written for every match, replacing fails only if the needle cannot be
used, or a search fails. -/
theorem result_replace_same
    (writes : ∀ (f : Match s) (cursor : Nat), ∃ cursor', r.write f cursor = .ok (t, cursor'))
    (needle : Needle) (scope : Option ReplaceScope) :
    (Patterns.replace s needle r scope).result = needle.toMatcher.bind fun m =>
      (m.scopedRun s scope).answer (fill (gaps s 0 (m.scopedRun s scope).found)
        ((m.scopedRun s scope).found.map fun _ => t)) := by
  cases hneedle : needle.toMatcher with
  | error e => rw [Patterns.replace, hneedle]; rfl
  | ok m =>
    obtain ⟨all, hreplace, hrun⟩ := exists_scoped hneedle scope
    rw [hreplace, result_replace, hrun, substitute_eq_fill m.cursor fun f _ => writes f]
    rfl

end Matcher

end Patterns
