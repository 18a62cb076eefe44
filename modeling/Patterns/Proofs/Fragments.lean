import Patterns.Literal
import Patterns.Proofs.Translation

/-!
# Fragments of plain text

Plain text falls into fragments, each of which is read as a whole. A capturing fragment has the name
of its group, which plain text does not show; `Fragments.text` prints it and `Fragments.plain` does
not. Before the groups `count` and in front of a text, `Fragments.Fit` says that no fragment runs on
into what follows it, and that references go to groups on their left.
-/
namespace Patterns.Extended
open Patterns.Text

/-- A character that is a fragment by itself. -/
def Sign := {c : Char // c ∉ ['\\', '[', ']', '\x7b', '\x7d', '(', '*', '+', '?']}

/-- A character that neither is part of a class nor starts an escape or a group. -/
def IsInert (c : Char) : Prop := c ∉ ['\\', '[', ']', '(']

instance (c : Char) : Decidable (IsInert c) := inferInstanceAs (Decidable (c ∉ _))

def AreInert (t : List Char) : Prop := ∀ c ∈ t, IsInert c

instance (t : List Char) : Decidable (AreInert t) := List.decidableBAll _ t

/-- An escape that ends in the same place whatever text follows. -/
structure Escape where
  letter : Char
  tail : List Char
  letter_isDigit : letter.isDigit = false
  letter_ne : letter ≠ 'k'
  areInert_tail : AreInert tail
  escapeLength_eq : ∀ r, escapeLength (letter :: tail ++ r) = tail.length + 1

inductive Fragment where
  | sign (c : Sign)
  | escape (u : Escape)
  | oneOf (body : ClassBody)
  | reference (n : Nat)
  | capture (name : Option GroupName)
  | opener (o : {o : List Char // o ∈ openers})
  | quantifier (q : Quantifier)

namespace Fragment

def print (opener : Option GroupName → List Char) : Fragment → List Char
  | .sign c => [c.1]
  | .escape u => '\\' :: u.letter :: u.tail
  | .oneOf body => '[' :: (body.plain ++ [']'])
  | .reference n => referenceTo n
  | .capture name => opener name
  | .opener o => o.1
  | .quantifier q => q.text

def named : Option GroupName → List Char
  | none => ['(']
  | some name => ['(', '?', '<'] ++ name.1 ++ ['>']

def text (s : Fragment) : List Char := s.print named

def plain (s : Fragment) : List Char := s.print fun _ => ['(']

/-- Stands between alternatives. -/
def bar : Fragment := .sign ⟨'|', by decide⟩

/-- Stands at the end of a group. -/
def close : Fragment := .sign ⟨')', by decide⟩

def groups : Fragment → Groups
  | .capture name => [name.map GroupName.string]
  | _ => []

/-- A fragment with `offset` groups in front of those that it knows. -/
def shift (offset : Nat) : Fragment → Fragment
  | .reference n => .reference (n + offset)
  | s => s

/-- A fragment without its name. -/
def nameless : Fragment → Fragment
  | .capture _ => .capture none
  | s => s

def Fits (count : Nat) (after : List Char) : Fragment → Prop
  | .reference n => 1 ≤ n ∧ n ≤ count ∧ after.head?.any Char.isDigit = false
  | .capture _ | .quantifier _ => after.head? ≠ some '?'
  | _ => True

variable {s : Fragment} {count : Nat} {after after' : List Char}

theorem plain_bar : bar.plain = ['|'] := rfl

theorem plain_close : close.plain = [')'] := rfl

theorem groups_bar : bar.groups = [] := rfl

theorem groups_close : close.groups = [] := rfl

@[simp] theorem groups_shift (offset : Nat) : (s.shift offset).groups = s.groups := by
  cases s <;> rfl

@[simp] theorem plain_nameless : s.nameless.plain = s.plain := by cases s <;> rfl

@[simp] theorem text_nameless : s.nameless.text = s.plain := by cases s <;> rfl

theorem plain_ne_nil : s.plain ≠ [] := by
  cases s with
  | opener o =>
    obtain ⟨u, hu, -⟩ := exists_eq_cons_of_mem_openers o.2
    simp [plain, print, hu]
  | quantifier q => cases h : q.amount <;> simp [plain, print, Quantifier.text, h]
  | _ => simp [plain, print, referenceTo]

theorem head?_text : s.text.head? = s.plain.head? := by
  cases s with
  | capture name => cases name <;> rfl
  | _ => rfl

theorem head?_plain_shift (offset : Nat) : (s.shift offset).plain.head? = s.plain.head? := by
  cases s <;> rfl

theorem Fits.congr (h : s.Fits count after) (hhead : after'.head? = after.head?) :
    s.Fits count after' := by
  cases s <;> simp_all [Fits]

theorem Fits.shift (h : s.Fits count after) (offset : Nat) :
    (s.shift offset).Fits (offset + count) after := by
  cases s with
  | reference n => exact ⟨by have := h.1; omega, by have := h.2.1; omega, h.2.2⟩
  | _ => exact h

end Fragment

namespace Fragments

def text (ss : List Fragment) : List Char := ss.flatMap Fragment.text

def plain (ss : List Fragment) : List Char := ss.flatMap Fragment.plain

def groups (ss : List Fragment) : Groups := ss.flatMap Fragment.groups

def shift (offset : Nat) (ss : List Fragment) : List Fragment := ss.map (Fragment.shift offset)

def nameless (ss : List Fragment) : List Fragment := ss.map Fragment.nameless

def Fit : Nat → List Char → List Fragment → Prop
  | _, _, [] => True
  | count, after, s :: ss =>
    s.Fits count (plain ss ++ after) ∧ Fit (count + s.groups.length) after ss

variable {s : Fragment} {ss ss' : List Fragment} {count offset : Nat}
  {after after' r r' : List Char}

section Lists

@[simp] theorem text_nil : text [] = [] := rfl

@[simp] theorem text_cons : text (s :: ss) = s.text ++ text ss := rfl

@[simp] theorem text_append : text (ss ++ ss') = text ss ++ text ss' := by simp [text]

@[simp] theorem plain_nil : plain [] = [] := rfl

@[simp] theorem plain_cons : plain (s :: ss) = s.plain ++ plain ss := rfl

@[simp] theorem plain_append : plain (ss ++ ss') = plain ss ++ plain ss' := by simp [plain]

@[simp] theorem groups_nil : groups [] = [] := rfl

@[simp] theorem groups_cons : groups (s :: ss) = s.groups ++ groups ss := rfl

@[simp] theorem groups_append : groups (ss ++ ss') = groups ss ++ groups ss' := by simp [groups]

@[simp] theorem shift_nil : shift offset [] = [] := rfl

@[simp] theorem shift_cons : shift offset (s :: ss) = s.shift offset :: shift offset ss := rfl

@[simp] theorem groups_shift (offset : Nat) : groups (shift offset ss) = groups ss := by
  induction ss with
  | nil => rfl
  | cons s ss ih => simp [ih]

@[simp] theorem plain_nameless : plain (nameless ss) = plain ss := by
  simp [plain, nameless, List.flatMap_map]

@[simp] theorem text_nameless : text (nameless ss) = plain ss := by
  simp [text, plain, nameless, List.flatMap_map]

theorem groups_nameless : groups (nameless ss) = List.replicate (groups ss).length none := by
  induction ss with
  | nil => rfl
  | cons s ss ih =>
    have hs : s.nameless.groups = List.replicate s.groups.length none := by cases s <;> rfl
    rw [groups_cons, List.length_append, List.replicate_add, ← hs, ← ih]
    rfl

end Lists

section Heads

theorem head?_plain_cons : (plain (s :: ss) ++ r).head? = s.plain.head? := by
  rw [plain_cons, List.append_assoc, List.head?_append_of_ne_nil _ Fragment.plain_ne_nil]

theorem head?_text_append (hr : r.head? = r'.head?) :
    (text ss ++ r).head? = (plain ss ++ r').head? := by
  cases ss with
  | nil => exact hr
  | cons s ss =>
    have hs : s.text ≠ [] := fun h => Fragment.plain_ne_nil
      (List.head?_eq_none_iff.mp (Fragment.head?_text.symm.trans (by rw [h]; rfl)))
    rw [head?_plain_cons, text_cons, List.append_assoc, List.head?_append_of_ne_nil _ hs,
      Fragment.head?_text]

theorem head?_plain_shift : (plain (shift offset ss) ++ r).head? = (plain ss ++ r).head? := by
  cases ss with
  | nil => rfl
  | cons s ss => rw [shift_cons, head?_plain_cons, head?_plain_cons, Fragment.head?_plain_shift]

end Heads

section Fit

@[simp] theorem fit_singleton : Fit count after [s] ↔ s.Fits count after := by simp [Fit]

theorem fit_append : Fit count after (ss ++ ss') ↔
    Fit count (plain ss' ++ after) ss ∧ Fit (count + (groups ss).length) after ss' := by
  induction ss generalizing count with
  | nil => simp [Fit]
  | cons s ss ih => simp [Fit, ih, Nat.add_assoc, and_assoc]

theorem Fit.shift (h : Fit count after ss) (offset : Nat) :
    Fit (offset + count) after (shift offset ss) := by
  induction ss generalizing count with
  | nil => trivial
  | cons s ss ih =>
    refine ⟨(h.1.shift offset).congr head?_plain_shift, ?_⟩
    rw [Fragment.groups_shift, Nat.add_assoc]
    exact ih h.2

theorem Fit.nameless (h : Fit count after ss) : Fit count after (nameless ss) := by
  induction ss generalizing count with
  | nil => trivial
  | cons s ss ih =>
    have hs : s.nameless.Fits count (plain ss ++ after) := by
      cases s <;> exact h.1
    have hg : s.nameless.groups.length = s.groups.length := by cases s <;> rfl
    refine ⟨?_, ?_⟩
    · rw [show plain (ss.map Fragment.nameless) = plain ss from plain_nameless]
      exact hs
    · rw [hg]
      exact ih h.2

/-- Each list of fragments behind the groups of those before it. -/
def shiftEach : Nat → List (List Fragment) → List (List Fragment)
  | _, [] => []
  | prior, ss :: sss => shift prior ss :: shiftEach (prior + (groups ss).length) sss

/-- Only the last fragment looks at the text behind all of them. -/
theorem Fit.of_getLast? (h : Fit count after ss)
    (hlast : ∀ s ∈ ss.getLast?, ∀ n, s.Fits n after → s.Fits n after') : Fit count after' ss := by
  induction ss generalizing count with
  | nil => trivial
  | cons s ss ih =>
    obtain ⟨hs, hss⟩ := h
    cases ss with
    | nil => exact ⟨hlast s rfl count hs, trivial⟩
    | cons s' ss =>
      refine ⟨hs.congr ?_, ih hss fun a ha => hlast a ?_⟩
      · rw [head?_plain_cons, head?_plain_cons]
      · rwa [List.getLast?_cons_cons]

/-- What fits at the end fits before a text that starts with neither a digit nor a mark. -/
theorem Fit.apart (h : Fit count [] ss) (digit : r.head?.any Char.isDigit = false)
    (mark : r.head? ≠ some '?') : Fit count r ss := by
  refine h.of_getLast? fun s _ n fits => ?_
  cases s with
  | reference => exact ⟨fits.1, fits.2.1, digit⟩
  | capture | quantifier => exact mark
  | _ => trivial

/-- More groups in front do no harm. -/
theorem Fit.mono (h : Fit count after ss) {more : Nat} (hle : count ≤ more) :
    Fit more after ss := by
  induction ss generalizing count more with
  | nil => trivial
  | cons s ss ih =>
    refine ⟨?_, ih h.2 (by omega)⟩
    cases s with
    | reference => exact ⟨h.1.1, Nat.le_trans h.1.2.1 hle, h.1.2.2⟩
    | _ => exact h.1

end Fit

section Intercalation

variable {mark : List Fragment} {sss : List (List Fragment)}

private theorem flatMap_intercalate (f : Fragment → List Char) :
    (mark.intercalate sss).flatMap f = (mark.flatMap f).intercalate (sss.map (·.flatMap f)) := by
  induction sss with
  | nil => rfl
  | cons ss sss ih =>
    cases sss with
    | nil => simp
    | cons ss' sss =>
      rw [List.intercalate_cons_cons, List.flatMap_append, List.flatMap_append, ih, List.map_cons,
        List.map_cons, List.map_cons, List.intercalate_cons_cons]

theorem text_intercalate : text (mark.intercalate sss) = (text mark).intercalate (sss.map text) :=
  flatMap_intercalate _

theorem plain_intercalate :
    plain (mark.intercalate sss) = (plain mark).intercalate (sss.map plain) :=
  flatMap_intercalate _

theorem groups_intercalate (h : groups mark = []) :
    groups (mark.intercalate sss) = sss.flatMap groups := by
  induction sss with
  | nil => rfl
  | cons ss sss ih =>
    cases sss with
    | nil => simp
    | cons ss' sss =>
      rw [List.intercalate_cons_cons, groups_append, groups_append, h, ih, List.append_nil]
      rfl

theorem flatMap_groups_shiftEach (prior : Nat) :
    (shiftEach prior sss).flatMap groups = sss.flatMap groups := by
  induction sss generalizing prior with
  | nil => rfl
  | cons ss sss ih => rw [shiftEach, List.flatMap_cons, List.flatMap_cons, groups_shift, ih]

theorem Fit.before_bar (h : Fit count [] ss) : Fit count ('|' :: r) ss := h.apart rfl (by simp)

/-- Behind a bar and before one a list of fragments fits as it does by itself. -/
theorem fit_bars (h : ∀ ss ∈ sss, Fit 0 [] ss) (prior : Nat) :
    Fit prior [] ([Fragment.bar].intercalate (shiftEach prior sss)) := by
  induction sss generalizing prior with
  | nil => trivial
  | cons ss sss ih =>
    have hss : Fit prior [] (shift prior ss) := (h ss (by simp)).shift prior
    have hsss := ih (fun ss hm => h ss (by simp [hm])) (prior + (groups ss).length)
    rw [shiftEach]
    cases hsss' : shiftEach (prior + (groups ss).length) sss with
    | nil => simpa using hss
    | cons ss' sss' =>
      rw [hsss'] at hsss
      rw [List.intercalate_cons_cons, List.append_assoc]
      refine fit_append.mpr ⟨hss.before_bar, trivial, ?_⟩
      rw [groups_shift]
      exact hsss

end Intercalation

end Fragments

section Trees

variable {flags : List Char} {before : Groups} {after r x : List Char} {t : Tree}

/-- Where a digit or a mark stands in front of `x`, one stands in front of `r`. -/
structure KeepsFront (r x : List Char) : Prop where
  digit : r.head?.any Char.isDigit = false → x.head?.any Char.isDigit = false
  mark : r.head? ≠ some '?' → x.head? ≠ some '?'

namespace KeepsFront

theorem of_head? (h : x.head? = r.head?) : KeepsFront r x := by
  constructor <;> rw [h] <;> exact id

theorem of_cons {a : Char} (hd : a.isDigit = false) (hm : a ≠ '?') : KeepsFront r (a :: x) :=
  ⟨fun _ => by simpa using hd, fun _ => by simpa using hm⟩

theorem append (h : KeepsFront r x) (t : List Char) : KeepsFront (t ++ r) (t ++ x) := by
  cases t with
  | nil => exact h
  | cons a t => exact .of_head? rfl

end KeepsFront

theorem Tree.keepsFront (hw : t.WellFormed flags before after) (h : KeepsFront after r) :
    KeepsFront (t.text ++ after) (t.plain flags before after ++ r) := by
  induction t generalizing before after r with
  | empty => exact h
  | char c =>
    simp only [Tree.plain]
    split
    · exact .of_cons (by decide) (by decide)
    · exact .of_head? rfl
  | dot =>
    simp only [Tree.plain]
    split
    · exact .of_cons (by decide) (by decide)
    · exact .of_head? rfl
  | escape | oneOf | reference | namedReference => exact .of_head? rfl
  | group o body =>
    have hplain : ∃ u, o.plain flags = '(' :: u := by
      cases o with
      | unnamed =>
        simp only [Opener.plain]
        split <;> exact ⟨_, rfl⟩
      | _ => exact ⟨_, rfl⟩
    obtain ⟨u, hu⟩ := hplain
    simp only [Tree.plain, hu]
    exact .of_cons (by decide) (by decide)
  | quantified atom q ih =>
    have hq := ih hw.2 (h.append q.text)
    simpa [Tree.text, Tree.print, Tree.plain] using hq
  | concat left right ihl ihr =>
    have hl := ihl hw.1 (ihr hw.2 h)
    simpa [Tree.text, Tree.print, Tree.plain] using hl
  | alternation left right ihl ihr =>
    have hl := ihl (r := '|' :: (right.plain flags (before ++ left.groups flags) after ++ r)) hw.1
      (.of_head? rfl)
    simpa [Tree.text, Tree.print, Tree.plain] using hl

def Escape.ofEscaped (c : Escaped) : Escape where
  letter := c.1
  tail := []
  letter_isDigit := c.2.1
  letter_ne := fun h => c.2.2 (by simp [h])
  areInert_tail := by decide
  escapeLength_eq := fun r => by
    have hc := c.2.2
    simp only [List.mem_cons, List.not_mem_nil, or_false, not_or] at hc
    simp [escapeLength, hc]

namespace Opener

def fragment (flags : List Char) : Opener → Fragment
  | .unnamed =>
    if flags.contains 'n' then .opener ⟨['(', '?', ':'], by decide⟩ else .capture none
  | .named _ name => .capture (some name)
  | .gathering => .opener ⟨['(', '?', ':'], by decide⟩
  | .ahead negated =>
    .opener ⟨['(', '?', if negated then '!' else '='], by cases negated <;> decide⟩
  | .behind negated =>
    .opener ⟨['(', '?', '<', if negated then '!' else '='], by cases negated <;> decide⟩

variable {o : Opener}

theorem plain_fragment : (o.fragment flags).plain = o.plain flags := by
  cases o with
  | unnamed =>
    simp only [fragment, Opener.plain]
    split <;> rfl
  | _ => rfl

theorem groups_fragment : (o.fragment flags).groups = o.groups flags := by
  cases o with
  | unnamed =>
    simp only [fragment, Opener.groups]
    split <;> rfl
  | _ => rfl

theorem fits_fragment {count : Nat} (hr : r.head? ≠ some '?') :
    (o.fragment flags).Fits count r := by
  cases o with
  | unnamed =>
    simp only [fragment]
    split
    · trivial
    · exact hr
  | named => exact hr
  | _ => trivial

end Opener

private theorem isEscaped_brace {c : Char} (h : c ∈ [']', '\x7d']) :
    c.isDigit = false ∧ c ∉ ['k', 'x', 'u', 'U', 'p', 'P'] := by
  simp only [List.mem_cons, List.not_mem_nil, or_false] at h
  rcases h with rfl | rfl <;> decide

private theorem not_mem_of_literal (c : Literal) (h : c.1 ∉ [']', '\x7d']) :
    c.1 ∉ ['\\', '[', ']', '\x7b', '\x7d', '(', '*', '+', '?'] := by
  have hc := c.2
  simp only [List.mem_cons, List.not_mem_nil, or_false, not_or] at h hc ⊢
  simp [h, hc]

def Literal.fragment (c : Literal) : Fragment :=
  if h : c.1 ∈ [']', '\x7d'] then .escape (.ofEscaped ⟨c.1, isEscaped_brace h⟩)
  else .sign ⟨c.1, not_mem_of_literal c h⟩

def anyBody : ClassBody :=
  ⟨[.escape ⟨'s', by decide⟩, .escape ⟨'S', by decide⟩], by decide⟩

namespace Tree

/-- The fragments that the plain text of a tree falls into. -/
def fragments (flags : List Char) : Groups → List Char → Tree → List Fragment
  | _, _, .empty => []
  | _, _, .char c => [c.fragment]
  | _, _, .dot => if flags.contains 's' then [.oneOf anyBody] else [.sign ⟨'.', by decide⟩]
  | _, _, .escape c => [.escape (.ofEscaped c)]
  | _, _, .oneOf body => [.oneOf body]
  | _, _, .reference n => [.reference n]
  | before, after, .namedReference name =>
    .reference (before.idxOf (some name.string) + 1) ::
      if after.head?.any Char.isDigit then
        [.opener ⟨['(', '?', ':'], by decide⟩, Fragment.close]
      else []
  | before, after, .group o body =>
    o.fragment flags ::
      (body.fragments flags (before ++ o.groups flags) (')' :: after) ++ [Fragment.close])
  | before, after, .quantified atom q =>
    atom.fragments flags before (q.text ++ after) ++ [.quantifier q]
  | before, after, .concat left right =>
    left.fragments flags before (right.text ++ after) ++
      right.fragments flags (before ++ left.groups flags) after
  | before, after, .alternation left right =>
    left.fragments flags before ('|' :: (right.text ++ after)) ++
      Fragment.bar :: right.fragments flags (before ++ left.groups flags) after

@[simp] theorem plain_fragments :
    Fragments.plain (t.fragments flags before after) = t.plain flags before after := by
  induction t generalizing before after with
  | char c =>
    by_cases h : c.1 ∈ [']', '\x7d']
    · simp [fragments, Literal.fragment, plain, Fragment.plain, Fragment.print, Escape.ofEscaped, h]
    · simp [fragments, Literal.fragment, plain, Fragment.plain, Fragment.print, h]
  | dot =>
    simp only [fragments, plain]
    split <;> rfl
  | namedReference name =>
    simp only [fragments, plain]
    split <;> simp [Fragment.plain, Fragment.print, Fragment.close]
  | group o body ih =>
    simp [fragments, plain, Opener.plain_fragment, ih, Fragment.plain_close]
  | quantified atom q ih => simp [fragments, plain, ih, Fragment.plain, Fragment.print]
  | concat left right ihl ihr => simp [fragments, plain, ihl, ihr]
  | alternation left right ihl ihr => simp [fragments, plain, ihl, ihr, Fragment.plain_bar]
  | _ => simp [fragments, plain, Fragment.plain, Fragment.print, Escape.ofEscaped]

@[simp] theorem groups_fragments :
    Fragments.groups (t.fragments flags before after) = t.groups flags := by
  induction t generalizing before after with
  | char c =>
    by_cases h : c.1 ∈ [']', '\x7d'] <;>
      simp [fragments, Literal.fragment, groups, Fragment.groups, h]
  | dot =>
    simp only [fragments]
    split <;> rfl
  | namedReference name =>
    simp only [fragments]
    split <;> rfl
  | group o body ih => simp [fragments, groups, Opener.groups_fragment, ih, Fragment.groups_close]
  | quantified atom q ih => simp [fragments, groups, ih, Fragment.groups]
  | concat left right ihl ihr => simp [fragments, groups, ihl, ihr]
  | alternation left right ihl ihr => simp [fragments, groups, ihl, ihr, Fragment.groups_bar]
  | _ => rfl

theorem fit_fragments (hw : t.WellFormed flags before after)
    (ha : t.isAtom = true ∨ after.head? ≠ some '?') (hr : KeepsFront after r) :
    Fragments.Fit before.length r (t.fragments flags before after) := by
  induction t generalizing before after r with
  | char c =>
    by_cases h : c.1 ∈ [']', '\x7d']
    · simp [fragments, Literal.fragment, h, Fragment.Fits]
    · simp [fragments, Literal.fragment, h, Fragment.Fits]
  | dot =>
    simp only [fragments]
    split <;> exact ⟨trivial, trivial⟩
  | empty => trivial
  | escape | oneOf => exact ⟨trivial, trivial⟩
  | reference n => exact ⟨⟨hw.1, hw.2.1, hr.digit hw.2.2⟩, trivial⟩
  | namedReference name =>
    have hlt := List.idxOf_lt_length_of_mem (show some name.string ∈ before from hw)
    simp only [fragments]
    split
    · exact ⟨⟨by omega, by omega, rfl⟩, trivial, trivial, trivial⟩
    · next hd => exact ⟨⟨by omega, by omega, hr.digit (by simpa using hd)⟩, trivial⟩
  | group o body ih =>
    obtain ⟨-, hwbody⟩ := hw
    have hfit := ih (r := ')' :: r) hwbody (.inr (by simp)) (.of_head? rfl)
    have hmark := (keepsFront hwbody (r := ')' :: r) (.of_head? rfl)).mark
      (head?_text_append hwbody (by simp))
    refine ⟨Opener.fits_fragment ?_, ?_⟩
    · simpa [Fragment.plain_close] using hmark
    · rw [Opener.groups_fragment, ← List.length_append]
      exact Fragments.fit_append.mpr ⟨hfit, trivial, trivial⟩
  | quantified atom q ih =>
    have hmark : r.head? ≠ some '?' := hr.mark (ha.resolve_left (by simp [isAtom]))
    have hfit := ih (r := q.text ++ r) hw.2 (.inl hw.1) (hr.append q.text)
    refine Fragments.fit_append.mpr ⟨?_, hmark, trivial⟩
    simpa [Fragment.plain, Fragment.print] using hfit
  | concat left right ihl ihr =>
    have hmark : after.head? ≠ some '?' := ha.resolve_left (by simp [isAtom])
    refine Fragments.fit_append.mpr ⟨?_, ?_⟩
    · rw [plain_fragments]
      exact ihl hw.1 (.inr (head?_text_append hw.2 hmark)) (keepsFront hw.2 hr)
    · rw [groups_fragments, ← List.length_append]
      exact ihr hw.2 (.inr hmark) hr
  | alternation left right ihl ihr =>
    have hmark : after.head? ≠ some '?' := ha.resolve_left (by simp [isAtom])
    refine Fragments.fit_append.mpr ⟨?_, trivial, ?_⟩
    · rw [Fragments.plain_cons, plain_fragments]
      exact ihl hw.1 (.inr (by simp)) (.of_head? rfl)
    · rw [groups_fragments, Fragment.groups_bar, ← List.length_append]
      exact ihr hw.2 (.inr hmark) hr

end Tree

end Trees

section Literals

theorem mem_toDigits_sixteen {n : Nat} {c : Char} (hc : c ∈ Nat.toDigits 16 n) :
    ∃ k < 16, c = Nat.digitChar k := by
  induction n using Nat.strongRecOn with
  | ind n ih =>
    rcases Nat.lt_or_ge n 16 with h | h
    · rw [Nat.toDigits_of_lt_base h] at hc
      exact ⟨n, h, by simpa using hc⟩
    · rw [Nat.toDigits_of_base_le (by decide) h, List.mem_append] at hc
      rcases hc with hc | hc
      · exact ih (n / 16) (by omega) hc
      · exact ⟨n % 16, Nat.mod_lt n (by decide), by simpa using hc⟩

private theorem toUpper_digitChar : ∀ k < 16, IsInert (Nat.digitChar k).toUpper ∧
    (Nat.digitChar k).toUpper ≠ '\x7d' := by decide

def Escape.ofNumber (n : Nat) : Escape where
  letter := 'x'
  tail := '\x7b' :: ((Nat.toDigits 16 n).map Char.toUpper ++ ['\x7d'])
  letter_isDigit := by decide
  letter_ne := by decide
  areInert_tail := by
    intro c hc
    simp only [List.mem_cons, List.mem_append, List.mem_map, List.not_mem_nil, or_false] at hc
    rcases hc with rfl | ⟨d, hd, rfl⟩ | rfl
    · decide
    · obtain ⟨k, hk, rfl⟩ := mem_toDigits_sixteen hd
      exact (toUpper_digitChar k hk).1
    · decide
  escapeLength_eq := fun r => by
    have hclose : '\x7d' ∉ (Nat.toDigits 16 n).map Char.toUpper := by
      intro h
      obtain ⟨d, hd, he⟩ := List.mem_map.mp h
      obtain ⟨k, hk, rfl⟩ := mem_toDigits_sixteen hd
      exact (toUpper_digitChar k hk).2 he
    have hbraced : braced? ('\x7b' :: ((Nat.toDigits 16 n).map Char.toUpper ++ '\x7d' :: r)) =
        some (((Nat.toDigits 16 n).map Char.toUpper).length + 2) :=
      braced?_eq_some_iff.mpr ⟨_, r, rfl, hclose, rfl⟩
    simp only [List.cons_append, List.append_assoc, List.nil_append, escapeLength, hbraced,
      Option.getD_some, List.length_cons, List.length_append, List.length_nil]
    omega

private theorem isEscaped_of_mem {c : Char} (h : c ∈ Literal.metacharacters) :
    c.isDigit = false ∧ c ∉ ['k', 'x', 'u', 'U', 'p', 'P'] := by
  simp only [Literal.metacharacters, List.mem_cons, List.not_mem_nil, or_false] at h
  rcases h with rfl | rfl | rfl | rfl | rfl | rfl | rfl | rfl | rfl | rfl | rfl | rfl | rfl | rfl |
    rfl | rfl | rfl | rfl <;> decide

private theorem mem_metacharacters {c : Char}
    (h : c ∈ ['\\', '[', ']', '\x7b', '\x7d', '(', '*', '+', '?']) :
    c ∈ Literal.metacharacters := by
  simp only [List.mem_cons, List.not_mem_nil, or_false] at h
  rcases h with rfl | rfl | rfl | rfl | rfl | rfl | rfl | rfl | rfl <;> decide

namespace Fragment

/-- The fragment that a character of a literal text is written as. -/
def literal (c : Char) : Fragment :=
  if isBlank c && c != ' ' then .escape (.ofNumber c.toNat)
  else if h : c ∈ Literal.metacharacters then .escape (.ofEscaped ⟨c, isEscaped_of_mem h⟩)
  else .sign ⟨c, fun hc => h (mem_metacharacters hc)⟩

variable {c : Char}

@[simp] theorem plain_literal : (literal c).plain = Literal.escapeChar c := by
  unfold literal Literal.escapeChar
  split
  · simp [plain, print, Escape.ofNumber]
  · split <;> simp_all [plain, print, Escape.ofEscaped]

private theorem literal_eq (c : Char) : (∃ u, literal c = .escape u) ∨ ∃ s, literal c = .sign s := by
  unfold literal
  split
  · exact .inl ⟨_, rfl⟩
  · split
    · exact .inl ⟨_, rfl⟩
    · exact .inr ⟨_, rfl⟩

@[simp] theorem text_literal : (literal c).text = (literal c).plain := by
  obtain ⟨u, h⟩ | ⟨s, h⟩ := literal_eq c <;> (rw [h]; rfl)

@[simp] theorem groups_literal : (literal c).groups = [] := by
  obtain ⟨u, h⟩ | ⟨s, h⟩ := literal_eq c <;> (rw [h]; rfl)

@[simp] theorem shift_literal (offset : Nat) : (literal c).shift offset = literal c := by
  obtain ⟨u, h⟩ | ⟨s, h⟩ := literal_eq c <;> (rw [h]; rfl)

theorem fits_literal {count : Nat} {r : List Char} : (literal c).Fits count r := by
  obtain ⟨u, h⟩ | ⟨s, h⟩ := literal_eq c <;> (rw [h]; trivial)

end Fragment

namespace Fragments

variable {cs : List Char}

def literal (cs : List Char) : List Fragment := cs.map Fragment.literal

@[simp] theorem plain_literal : plain (literal cs) = Literal.escapeList cs := by
  simp [plain, literal, List.flatMap_map, Literal.escapeList]

@[simp] theorem text_literal : text (literal cs) = plain (literal cs) := by
  simp [text, plain, literal, List.flatMap_map]

@[simp] theorem groups_literal : groups (literal cs) = [] := by
  simp [groups, literal, List.flatMap_map]

@[simp] theorem shift_literal (offset : Nat) : shift offset (literal cs) = literal cs := by
  simp [shift, literal]

theorem fit_literal {count : Nat} {r : List Char} : Fit count r (literal cs) := by
  induction cs generalizing count with
  | nil => trivial
  | cons c cs ih => exact ⟨Fragment.fits_literal, ih⟩

end Fragments

end Literals

end Patterns.Extended
