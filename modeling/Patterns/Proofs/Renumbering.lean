import Patterns.Composition
import Patterns.Proofs.Fragments

/-!
# Renumbering of plain text

A part of a union is written with names for its groups and with its references moved. Where a text
falls into fragments this is the text of the fragments behind more groups, and its plain text is the
one in which `shiftReferences` moves the references and leaves everything else.
-/
namespace Patterns.Extended
open Patterns.Text

/-- Plain text with `offset` added to each of its references outside of classes. -/
def shiftReferences (offset : Nat) : Scope → List Char → List Char
  | _, [] => []
  | .outside, '\\' :: cs =>
    let digits := cs.takeWhile Char.isDigit
    if cs.head?.any (fun c => c.isDigit && c != '0') then
      referenceTo (digitsValue digits + offset)
        ++ shiftReferences offset .outside (cs.drop digits.length)
    else
      '\\' :: cs.take (escapeLength cs)
        ++ shiftReferences offset .outside (cs.drop (escapeLength cs))
  | .inClass, '\\' :: cs =>
    '\\' :: cs.take (escapeLength cs) ++ shiftReferences offset .inClass (cs.drop (escapeLength cs))
  | .outside, '[' :: cs => '[' :: shiftReferences offset .inClass cs
  | .inClass, ']' :: cs => ']' :: shiftReferences offset .outside cs
  | scope, c :: cs => c :: shiftReferences offset scope cs
  termination_by _ cs => cs.length
  decreasing_by all_goals simp only [List.length_drop, List.length_cons]; omega

namespace Fragment

variable {β : Type}

/-- What is done with a fragment: references and capturing groups have ways of their own. -/
def act (copy : List Char → β → β) (refer : Nat → β → β) (capture : Option GroupName → β → β) :
    Fragment → β → β
  | .reference n => refer n
  | .capture name => capture name
  | s => copy s.plain

end Fragment

/-- A function that goes through plain text from the left, with references to at most `bound`
groups. Its result comes from the result for what is behind: a piece is copied, or it is a
reference, or the opener of a capturing group. -/
structure Traverses {β : Type} (bound : Nat) (f : Scope → Groups → List Char → β)
    (copy : List Char → β → β) (refer : Nat → β → β) (capture : Option GroupName → β → β) :
    Prop where
  copy_nil {x : β} : copy [] x = x
  copy_append {t t' : List Char} {x : β} : copy (t ++ t') x = copy t (copy t' x)
  char {scope : Scope} {a : Char} {ns : Groups} {r : List Char} (ha : a ∉ ['\\', '[', ']'])
    (hp : scope = .outside → a ≠ '(') : f scope ns (a :: r) = copy [a] (f scope ns r)
  escape {scope : Scope} {u : Escape} {ns : Groups} {r : List Char} :
    f scope ns ('\\' :: u.letter :: u.tail ++ r) = copy ('\\' :: u.letter :: u.tail) (f scope ns r)
  openClass {ns : Groups} {r : List Char} : f .outside ns ('[' :: r) = copy ['['] (f .inClass ns r)
  closeClass {ns : Groups} {r : List Char} :
    f .inClass ns (']' :: r) = copy [']'] (f .outside ns r)
  reference {n : Nat} {ns : Groups} {r : List Char} (hn : 1 ≤ n) (hle : n ≤ bound)
    (hr : r.head?.any Char.isDigit = false) :
    f .outside ns (referenceTo n ++ r) = refer n (f .outside ns r)
  capture {name : Option GroupName} {ns : Groups} {r : List Char} (hr : r.head? ≠ some '?') :
    f .outside (name.map GroupName.string :: ns) ('(' :: r) = capture name (f .outside ns r)
  opener {ns : Groups} {r : List Char} :
    f .outside ns ('(' :: '?' :: r) = copy ['('] (f .outside ns ('?' :: r))

section References

variable {n : Nat} {r : List Char}

private theorem takeWhile_reference (hr : r.head?.any Char.isDigit = false) :
    (Nat.toDigits 10 n ++ r).takeWhile Char.isDigit = Nat.toDigits 10 n :=
  takeWhile_append_eq (areDigits_toDigits n) hr

private theorem head?_reference (hn : 1 ≤ n) :
    (Nat.toDigits 10 n ++ r).head?.any (fun c => c.isDigit && c != '0') = true := by
  obtain ⟨d, ds, hd⟩ := List.exists_cons_of_ne_nil (Nat.toDigits_ne_nil (n := n) (b := 10))
  have hdigit := areDigits_toDigits n
  have hzero := head?_toDigits hn
  rw [hd] at hdigit hzero ⊢
  simpa [hdigit d (by simp)] using hzero

end References

private theorem areInert_append {t t' : List Char} (ht : AreInert t) (ht' : AreInert t') :
    AreInert (t ++ t') :=
  List.forall_mem_append.mpr ⟨ht, ht'⟩

theorem areInert_digits (n : Nat) : AreInert (Nat.toDigits 10 n) := by
  intro c hc hmem
  have hd := areDigits_toDigits n c hc
  simp only [List.mem_cons, List.not_mem_nil, or_false] at hmem
  rcases hmem with rfl | rfl | rfl | rfl <;> exact absurd hd (by decide)

theorem Quantifier.areInert_text (q : Quantifier) : AreInert q.text := by
  have hclose : AreInert ['\x7d'] := by decide
  have hcomma {t : List Char} (ht : AreInert t) : AreInert (',' :: t) :=
    areInert_append (t := [',']) (by decide) ht
  have hopen {t : List Char} (ht : AreInert t) : AreInert ('\x7b' :: t) :=
    areInert_append (t := ['\x7b']) (by decide) ht
  have hdigits (n : Nat) {t : List Char} (ht : AreInert t) : AreInert (Nat.toDigits 10 n ++ t) :=
    areInert_append (areInert_digits n) ht
  have hmark : AreInert q.mark := by
    unfold Quantifier.mark
    split <;> decide
  refine areInert_append ?_ hmark
  split
  · decide
  · decide
  · decide
  · exact hopen (hdigits _ hclose)
  · exact hopen (hdigits _ (hcomma hclose))
  · exact hopen (hdigits _ (hcomma (hdigits _ hclose)))

variable {offset bound : Nat}

theorem traverses_shiftReferences (offset bound : Nat) :
    Traverses bound (fun scope _ => shiftReferences offset scope) (· ++ ·)
      (fun n => (referenceTo (n + offset) ++ ·)) (fun _ => (['('] ++ ·)) where
  copy_nil := rfl
  copy_append := List.append_assoc ..
  char {scope} _ _ _ ha _ := by
    simp only [List.mem_cons, List.not_mem_nil, or_false, not_or] at ha
    cases scope <;> simp [shiftReferences, ha]
  escape {scope u ns r} := by
    have hl := u.escapeLength_eq r
    rw [List.cons_append] at hl
    rw [List.cons_append, List.cons_append]
    cases scope with
    | outside =>
      rw [shiftReferences, if_neg (by simp [u.letter_isDigit]), hl]
      simp
    | inClass =>
      rw [shiftReferences, hl]
      simp
  openClass := by simp [shiftReferences]
  closeClass := by simp [shiftReferences]
  reference {n ns r} hn _ hr := by
    simp only [referenceTo, List.cons_append]
    rw [shiftReferences, if_pos (head?_reference hn), takeWhile_reference hr, List.drop_left,
      digitsValue_toDigits]
    rfl
  capture _ := by simp [shiftReferences]
  opener := by simp [shiftReferences]

private theorem renumber_char {inClass : Bool} {a : Char} {ns : Groups} {r : List Char}
    (ha : a ∉ ['\\', '[', ']']) (hp : inClass = false → a ≠ '(') :
    Engine.renumber offset inClass ns (a :: r) = a :: Engine.renumber offset inClass ns r := by
  simp only [List.mem_cons, List.not_mem_nil, or_false, not_or] at ha
  cases inClass with
  | false => simp [Engine.renumber, ha, hp rfl]
  | true => by_cases h : a = '(' <;> simp [Engine.renumber, ha, h]

theorem traverses_renumber (offset : Nat) (few : bound < UInt64.size) :
    Traverses bound (fun scope => Engine.renumber offset (scope = .inClass)) (· ++ ·)
      (fun n => (referenceTo (n + offset) ++ ·)) (fun name => (Fragment.named name ++ ·)) where
  copy_nil := rfl
  copy_append := List.append_assoc ..
  char {scope _ _ _} ha hp := renumber_char ha (by cases scope <;> simp [hp])
  escape {scope u ns r} := by
    have htail (v r : List Char) (hv : AreInert v) :
        Engine.renumber offset (scope = .inClass) ns (v ++ r) =
          v ++ Engine.renumber offset (scope = .inClass) ns r := by
      induction v with
      | nil => rfl
      | cons c v ih =>
        have hc := hv c (by simp)
        simp only [IsInert, List.mem_cons, List.not_mem_nil, or_false, not_or] at hc
        rw [List.cons_append, renumber_char (by simp [hc]) (fun _ => hc.2.2.2),
          ih fun d hd => hv d (by simp [hd])]
        rfl
    rw [List.cons_append, List.cons_append, Engine.renumber]
    simp [u.letter_isDigit, htail _ _ u.areInert_tail]
  openClass := by simp [Engine.renumber]
  closeClass := by simp [Engine.renumber]
  reference {n ns r} hn hle hr := by
    have hlt : n < UInt64.size := Nat.lt_of_le_of_lt hle few
    have hzero := head?_toDigits hn
    simp only [referenceTo, List.cons_append]
    rw [Engine.renumber, takeWhile_reference hr, digitsValue_toDigits, if_pos, List.drop_left]
    · rfl
    · simpa [Nat.toDigits_ne_nil, hlt] using hzero
  capture {name ns r} hr := by
    cases name with
    | none => simp [Engine.renumber, hr, Fragment.named]
    | some name => simp [Engine.renumber, hr, Fragment.named, GroupName.string]
  opener := by simp [Engine.renumber]

namespace Traverses

variable {β : Type} {bound : Nat} {f : Scope → Groups → List Char → β} {copy : List Char → β → β}
  {refer : Nat → β → β} {capture : Option GroupName → β → β} {ns : Groups} {r : List Char}

private theorem item (h : Traverses bound f copy refer capture) (i : ClassItem) :
    f .inClass ns (i.plain ++ r) = copy i.plain (f .inClass ns r) := by
  cases i with
  | char c =>
    simp only [ClassItem.plain]
    split
    · next hc =>
      have hescaped : c.1.isDigit = false ∧ c.1 ∉ ['k', 'x', 'u', 'U', 'p', 'P'] := by
        simp only [List.mem_cons, List.not_mem_nil, or_false] at hc
        rcases hc with he | he | he <;> rw [he] <;> decide
      exact h.escape (u := .ofEscaped ⟨c.1, hescaped⟩)
    · next hc =>
      refine h.char ?_ (by simp)
      have hc' := c.2
      simp only [List.mem_cons, List.not_mem_nil, or_false, not_or] at hc ⊢
      simp [hc, hc']
  | escape c => exact h.escape (u := .ofEscaped c)

private theorem items (h : Traverses bound f copy refer capture) (is : List ClassItem) :
    f .inClass ns (is.flatMap ClassItem.plain ++ r) =
      copy (is.flatMap ClassItem.plain) (f .inClass ns r) := by
  induction is with
  | nil => exact h.copy_nil.symm
  | cons i is ih => rw [List.flatMap_cons, List.append_assoc, h.item, ih, h.copy_append]

private theorem chars (h : Traverses bound f copy refer capture) {t : List Char} (ht : AreInert t) :
    f .outside ns (t ++ r) = copy t (f .outside ns r) := by
  induction t with
  | nil => exact h.copy_nil.symm
  | cons c t ih =>
    have hc := ht c (by simp)
    simp only [IsInert, List.mem_cons, List.not_mem_nil, or_false, not_or] at hc
    rw [List.cons_append, h.char (by simp [hc]) (fun _ => hc.2.2.2),
      ih fun d hd => ht d (by simp [hd]), ← h.copy_append]
    rfl

theorem fragment (h : Traverses bound f copy refer capture) (ns : Groups) {s : Fragment}
    {count : Nat}
    (fits : s.Fits count r) (hcount : count ≤ bound) :
    f .outside (s.groups ++ ns) (s.plain ++ r) = s.act copy refer capture (f .outside ns r) := by
  cases s with
  | sign c =>
    have hc := c.2
    simp only [List.mem_cons, List.not_mem_nil, or_false, not_or] at hc
    exact h.char (by simp [hc]) (fun _ => hc.2.2.2.2.2.1)
  | escape u => exact h.escape
  | oneOf body =>
    have hbody : f .outside ns (['['] ++ (body.plain ++ ([']'] ++ r))) =
        copy ['['] (copy body.plain (copy [']'] (f .outside ns r))) := by
      rw [List.singleton_append, h.openClass, ClassBody.plain, h.items, List.singleton_append,
        h.closeClass]
    rw [← h.copy_append, ← h.copy_append] at hbody
    simpa [Fragment.plain, Fragment.print, Fragment.groups, Fragment.act] using hbody
  | reference n => exact h.reference fits.1 (Nat.le_trans fits.2.1 hcount) fits.2.2
  | capture name => exact h.capture fits
  | opener o =>
    obtain ⟨o, ho⟩ := o
    have hrest : ∃ u, o = '(' :: '?' :: u ∧ AreInert ('?' :: u) := by
      simp only [openers, List.mem_cons, List.not_mem_nil, or_false] at ho
      rcases ho with rfl | rfl | rfl | rfl | rfl | rfl <;> exact ⟨_, rfl, by decide⟩
    obtain ⟨u, rfl, hu⟩ := hrest
    exact h.opener.trans ((congrArg (copy ['(']) (h.chars hu)).trans h.copy_append.symm)
  | quantifier q => exact h.chars q.areInert_text

theorem fragments (h : Traverses bound f copy refer capture) (ns : Groups) {ss : List Fragment}
    {count : Nat}
    (fit : Fragments.Fit count r ss) (hcount : count + (Fragments.groups ss).length ≤ bound) :
    f .outside (Fragments.groups ss ++ ns) (Fragments.plain ss ++ r) =
      ss.foldr (Fragment.act copy refer capture) (f .outside ns r) := by
  induction ss generalizing count with
  | nil => rfl
  | cons s ss ih =>
    rw [Fragments.groups_cons, List.length_append] at hcount
    rw [Fragments.groups_cons, Fragments.plain_cons, List.append_assoc, List.append_assoc,
      h.fragment _ fit.1 (by omega), ih fit.2 (by omega), List.foldr_cons]

end Traverses

section Fragments

variable {ss : List Fragment}

private theorem foldr_act (offset : Nat) (opener : Option GroupName → List Char) (r : List Char) :
    ss.foldr (Fragment.act (· ++ ·) (fun n => (referenceTo (n + offset) ++ ·))
      (fun name => (opener name ++ ·))) r =
      (Fragments.shift offset ss).flatMap (Fragment.print opener) ++ r := by
  induction ss with
  | nil => rfl
  | cons s ss ih =>
    rw [List.foldr_cons, ih, Fragments.shift_cons, List.flatMap_cons, List.append_assoc]
    cases s <;> rfl

theorem shiftReferences_plain (fit : Fragments.Fit 0 [] ss) :
    shiftReferences offset .outside (Fragments.plain ss) =
      Fragments.plain (Fragments.shift offset ss) := by
  have h := (traverses_shiftReferences offset _).fragments [] fit (Nat.le_refl _)
  rw [foldr_act] at h
  have hnil : shiftReferences offset .outside [] = [] := by simp [shiftReferences]
  rwa [hnil, List.append_nil, List.append_nil] at h

theorem renumber_plain (fit : Fragments.Fit 0 [] ss)
    (few : (Fragments.groups ss).length < UInt64.size) :
    Engine.renumber offset false (Fragments.groups ss) (Fragments.plain ss) =
      Fragments.text (Fragments.shift offset ss) := by
  have h := (traverses_renumber offset few).fragments [] fit (by omega)
  rw [foldr_act] at h
  have hnil : Engine.renumber offset false [] [] = [] := by simp [Engine.renumber]
  simp only [List.append_nil, reduceCtorEq, decide_false, hnil] at h
  exact h

end Fragments

end Patterns.Extended
