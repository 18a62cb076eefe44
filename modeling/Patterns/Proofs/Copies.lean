import Patterns.Proofs.Lexemes

/-!
# Copied pieces by their spelling

`Copied` says which text is copied as it stands before which text: escapes, openers of groups that
capture nothing, and quantifiers. What an escape takes depends on the text behind it only through
what `Mirrors` keeps.
-/
namespace Patterns.Extended
open Patterns.Text

/-- The braces of a counted quantifier, with one bound or two. -/
def IsCounted (t : List Char) : Prop :=
  ∃ least most, least ≠ [] ∧ AreDigits least ∧ (most = [] ∨ ∃ ds, AreDigits ds ∧ most = ',' :: ds)
    ∧ t = '\x7b' :: (least ++ (most ++ ['\x7d']))

/-- Only the first character is a brace that opens, and none is a parenthesis. -/
theorem IsCounted.exists_eq_cons {t : List Char} (h : IsCounted t) :
    ∃ u, t = '\x7b' :: u ∧ u ≠ [] ∧ '\x7b' ∉ u ∧ '(' ∉ u := by
  obtain ⟨least, most, hne, hl, hm, rfl⟩ := h
  have digits {ds : List Char} {c : Char} (hds : AreDigits ds) (hc : c.isDigit = false) : c ∉ ds :=
    fun hmem => absurd (hds c hmem) (by simp [hc])
  have hmost {c : Char} (hc : c.isDigit = false) (hcomma : c ≠ ',') : c ∉ most := by
    rcases hm with rfl | ⟨ds, hds, rfl⟩
    · simp
    · simp [hcomma, digits hds hc]
  refine ⟨_, rfl, by simp, ?_, ?_⟩
  · simp [digits hl, hmost]
  · simp [digits hl, hmost]

/-- The mark that makes a quantifier lazy is taken where it stands. -/
def IsMark (z r : List Char) : Prop := z = ['?'] ∨ z = [] ∧ r.head? ≠ some '?'

variable {scope : Scope} {t z r cs : List Char}

theorem exists_isMark (cs : List Char) : ∃ z r, cs = z ++ r ∧ IsMark z r := by
  by_cases h : cs.head? = some '?'
  · obtain ⟨r, rfl⟩ := List.head?_eq_some_iff.mp h
    exact ⟨['?'], r, rfl, .inl rfl⟩
  · exact ⟨[], cs, rfl, .inr ⟨rfl, h⟩⟩

private theorem quantifierLength?_close (n : Nat) (w : List Char) :
    (match '\x7d' :: w with
      | '\x7d' :: '?' :: _ => some (n + 3)
      | '\x7d' :: _ => some (n + 2)
      | _ => none) = some (n + if w.head? = some '?' then 3 else 2) := by
  split
  · next h =>
    obtain rfl := (List.cons.inj h).2
    simp
  · next hq h =>
    obtain rfl := (List.cons.inj h).2
    have hw : w.head? ≠ some '?' := by
      intro he
      obtain ⟨u, rfl⟩ := List.head?_eq_some_iff.mp he
      exact hq u rfl
    simp [hw]
  · next h => exact (h w rfl).elim

private theorem quantifierLength?_bounds {least most w : List Char} (hne : least ≠ [])
    (hl : AreDigits least) (hm : most = [] ∨ ∃ ds, AreDigits ds ∧ most = ',' :: ds) :
    quantifierLength? ('\x7b' :: (least ++ (most ++ '\x7d' :: w)))
      = some (least.length + most.length + if w.head? = some '?' then 3 else 2) := by
  have htl : (least ++ (most ++ '\x7d' :: w)).takeWhile Char.isDigit = least := by
    refine takeWhile_append_eq hl ?_
    rcases hm with rfl | ⟨ds, -, rfl⟩ <;> rfl
  have hpos : least.length ≠ 0 := by simpa using hne
  simp only [quantifierLength?, htl, List.drop_left, if_neg hpos]
  rcases hm with rfl | ⟨ds, hds, rfl⟩
  · exact quantifierLength?_close _ w
  · have htd : (ds ++ '\x7d' :: w).takeWhile Char.isDigit = ds := takeWhile_append_eq hds rfl
    simp only [List.cons_append, htd, List.drop_left, List.length_cons]
    exact quantifierLength?_close _ w

theorem quantifierLength?_of_isCounted (ht : IsCounted t) (hz : IsMark z r) :
    quantifierLength? (t ++ (z ++ r)) = some (t ++ z).length := by
  obtain ⟨least, most, hne, hl, hm, rfl⟩ := ht
  have h := quantifierLength?_bounds (w := z ++ r) hne hl hm
  simp only [List.cons_append, List.append_assoc, List.nil_append] at h ⊢
  rw [h]
  rcases hz with rfl | ⟨rfl, hr⟩ <;> simp [*] <;> omega

private theorem exists_most {w v : List Char} {m : Nat}
    (h : (match w with
      | ',' :: rest =>
        ((rest.takeWhile Char.isDigit).length + 1,
          rest.drop (rest.takeWhile Char.isDigit).length)
      | rest => (0, rest)) = (m, v)) :
    ∃ most, w = most ++ v ∧ (most = [] ∨ ∃ ds, AreDigits ds ∧ most = ',' :: ds) := by
  split at h
  · next rest =>
    obtain ⟨r, hr, -⟩ := eq_takeWhile_append Char.isDigit rest
    have ha := all_takeWhile Char.isDigit rest
    generalize rest.takeWhile Char.isDigit = ds at h hr ha
    obtain rfl : v = r := by rw [hr, List.drop_left] at h; exact (Prod.mk.inj h).2.symm
    exact ⟨',' :: ds, by simp [hr], .inr ⟨ds, ha, rfl⟩⟩
  · exact ⟨[], by simpa using (Prod.mk.inj h).2, .inl rfl⟩

private theorem isCounted_of_bounds {body w : List Char} {m : Nat}
    (hpos : (body.takeWhile Char.isDigit).length ≠ 0)
    (hm : (match body.drop (body.takeWhile Char.isDigit).length with
      | ',' :: rest =>
        ((rest.takeWhile Char.isDigit).length + 1,
          rest.drop (rest.takeWhile Char.isDigit).length)
      | rest => (0, rest)) = (m, '\x7d' :: w)) :
    ∃ t r, '\x7b' :: body = t ++ r ∧ IsCounted t := by
  obtain ⟨r, hr, -⟩ := eq_takeWhile_append Char.isDigit body
  have ha := all_takeWhile Char.isDigit body
  generalize body.takeWhile Char.isDigit = least at hpos hm hr ha
  subst hr
  rw [List.drop_left] at hm
  obtain ⟨most, rfl, hmost⟩ := exists_most hm
  exact ⟨'\x7b' :: (least ++ (most ++ ['\x7d'])), w, by simp, least, most, by simpa using hpos,
    ha, hmost, rfl⟩

theorem exists_isCounted (h : (quantifierLength? cs).isSome = true) :
    ∃ t r, cs = t ++ r ∧ IsCounted t := by
  revert h
  fun_cases quantifierLength? cs with
  | case2 _ _ hpos _ _ hm => exact fun _ => isCounted_of_bounds hpos hm
  | case3 _ _ hpos _ _ _ hm => exact fun _ => isCounted_of_bounds hpos hm
  | _ => intro h; simp at h

theorem isCounted_of_quantifierLength? {n : Nat} (h : quantifierLength? cs = some n) :
    ∃ t z r, cs = t ++ (z ++ r) ∧ n = (t ++ z).length ∧ IsCounted t ∧ IsMark z r := by
  have hsome : (quantifierLength? cs).isSome = true := by simp [h]
  obtain ⟨t, w, rfl, ht⟩ := exists_isCounted hsome
  obtain ⟨z, r, rfl, hz⟩ := exists_isMark w
  rw [quantifierLength?_of_isCounted ht hz] at h
  exact ⟨t, z, r, rfl, (Option.some.inj h).symm, ht, hz⟩

/-- A quantifier without the mark that makes it lazy. -/
inductive IsQuantifier : List Char → Prop
  | simple {c : Char} (hc : c ∈ ['?', '*', '+']) : IsQuantifier [c]
  | counted {t : List Char} (ht : IsCounted t) : IsQuantifier t

theorem IsQuantifier.exists_eq_cons (h : IsQuantifier t) :
    ∃ a u, t = a :: u ∧ a ∈ ['?', '*', '+', '\x7b'] := by
  cases h with
  | @simple c hc =>
    refine ⟨c, [], rfl, ?_⟩
    simp only [List.mem_cons, List.not_mem_nil, or_false] at hc ⊢
    rcases hc with rfl | rfl | rfl <;> simp
  | counted ht =>
    obtain ⟨_, _, _, _, _, rfl⟩ := ht
    exact ⟨'\x7b', _, rfl, by simp⟩

theorem IsQuantifier.not_mem_paren (h : IsQuantifier t) : '(' ∉ t := by
  cases h with
  | simple hc =>
    simp only [List.mem_cons, List.not_mem_nil, or_false] at hc ⊢
    rcases hc with rfl | rfl | rfl <;> decide
  | counted ht =>
    obtain ⟨u, rfl, -, -, hu⟩ := ht.exists_eq_cons
    simp [hu]

theorem startsWithQuantifier_iff :
    startsWithQuantifier cs = true ↔ ∃ t r, cs = t ++ r ∧ IsQuantifier t := by
  constructor
  · intro h
    revert h
    fun_cases startsWithQuantifier cs with
    | case1 r => exact fun _ => ⟨['?'], r, rfl, .simple (by simp)⟩
    | case2 r => exact fun _ => ⟨['*'], r, rfl, .simple (by simp)⟩
    | case3 r => exact fun _ => ⟨['+'], r, rfl, .simple (by simp)⟩
    | case4 =>
      intro h
      obtain ⟨t, r, hr, ht⟩ := exists_isCounted h
      exact ⟨t, r, hr, .counted ht⟩
  · rintro ⟨t, r, rfl, ht⟩
    cases ht with
    | simple hc =>
      simp only [List.mem_cons, List.not_mem_nil, or_false] at hc
      rcases hc with rfl | rfl | rfl <;> rfl
    | counted ht =>
      obtain ⟨z, r, rfl, hz⟩ := exists_isMark r
      have hl := quantifierLength?_of_isCounted ht hz
      obtain ⟨_, _, _, _, _, rfl⟩ := ht
      exact congrArg Option.isSome hl

private theorem scan?_brace {s : Lexeme.Settings} {c : Char} (hc : c ≠ '\x7b') :
    Lexeme.scan? s .outside ('\x7b' :: c :: cs) = none := by
  cases h : Lexeme.scan? s .outside ('\x7b' :: c :: cs) with
  | none => rfl
  | some found =>
    obtain ⟨lexeme, n⟩ := found
    obtain ⟨t, r, he, -, spelled⟩ := Lexeme.spelled_of_scan? h
    cases spelled with
    | subpattern =>
      simp only [List.cons_append, List.cons.injEq] at he
      exact absurd he.2.1 hc
    | spacing _ nonempty length =>
      have hz : Lexeme.spacingLength false ('\x7b' :: c :: cs) = 0 :=
        Lexeme.spacingLength_eq_zero (by decide)
      rw [← he, hz] at length
      exact absurd (List.length_eq_zero_iff.mp length.symm) nonempty
    | _ => simp at he

/-- A quantifier is never taken for a lexeme. -/
theorem IsQuantifier.scan?_eq_none {s : Lexeme.Settings} (ht : IsQuantifier t) :
    Lexeme.scan? s .outside (t ++ r) = none := by
  cases ht with
  | simple hc =>
    simp only [List.mem_cons, List.not_mem_nil, or_false] at hc
    rcases hc with rfl | rfl | rfl <;>
    · rw [List.cons_append, Lexeme.scan?_of_not_mem_starters (by decide),
        Lexeme.spacingLength_eq_zero (by decide)]
      simp
  | counted ht =>
    obtain ⟨least, most, hne, hl, -, rfl⟩ := ht
    obtain ⟨d, ds, rfl⟩ := List.exists_cons_of_ne_nil hne
    refine scan?_brace ?_
    rintro rfl
    exact absurd (hl '\x7b' (by simp)) (by decide)

theorem braced?_eq_some_iff {n : Nat} :
    braced? cs = some n ↔
      ∃ body r, cs = '\x7b' :: (body ++ '\x7d' :: r) ∧ '\x7d' ∉ body ∧ n = body.length + 2 := by
  constructor
  · intro h
    revert h
    fun_cases braced? cs with
    | case1 body =>
      intro h
      obtain ⟨m, hm, rfl⟩ := Option.map_eq_some_iff.mp h
      obtain ⟨t, r, rfl, ht, rfl⟩ := findIdx?_eq_some_iff_append.mp hm
      exact ⟨t, r, rfl, ht, rfl⟩
    | case2 => simp
  · rintro ⟨body, r, rfl, hb, rfl⟩
    have hf : (body ++ '\x7d' :: r).findIdx? (· == '\x7d') = some body.length :=
      findIdx?_eq_some_iff_append.mpr ⟨body, r, rfl, hb, rfl⟩
    simp [braced?, hf]

theorem IsCounted.braced? (h : IsCounted t) : braced? (t ++ r) = some t.length := by
  obtain ⟨least, most, -, hl, hm, rfl⟩ := h
  have digits {ds : List Char} (hds : AreDigits ds) : '\x7d' ∉ ds :=
    fun hmem => absurd (hds _ hmem) (by decide)
  refine braced?_eq_some_iff.mpr ⟨least ++ most, r, by simp, ?_, by simp [Nat.add_assoc]⟩
  rcases hm with rfl | ⟨ds, hds, rfl⟩
  · simp [digits hl]
  · simp [digits hl, digits hds]

theorem braced?_eq_none_iff :
    braced? cs = none ↔ ∀ body, cs = '\x7b' :: body → '\x7d' ∉ body := by
  constructor
  · rintro h body rfl hb
    obtain ⟨t, r, rfl, ht⟩ := List.eq_append_cons_of_mem hb
    rw [braced?_eq_some_iff.mpr ⟨t, r, rfl, ht, rfl⟩] at h
    simp at h
  · intro h
    cases hb : braced? cs with
    | none => rfl
    | some n =>
      obtain ⟨body, r, rfl, -, -⟩ := braced?_eq_some_iff.mp hb
      exact absurd (by simp) (h _ rfl)

/-- Hexadecimal digits are taken all or none. -/
theorem hexRun_eq {n : Nat} {v w : List Char} (hv : ∀ c ∈ v, isHex c = true) (hn : v.length = n) :
    hexRun n (v ++ w) = n := by
  subst hn
  have ha : v.all isHex = true := by simpa using hv
  simp [hexRun, ha]

theorem exists_of_hexRun_ne_zero {n : Nat} (h : hexRun n cs ≠ 0) :
    hexRun n cs = n ∧ ∃ v w, cs = v ++ w ∧ v.length = n ∧ ∀ c ∈ v, isHex c = true := by
  unfold hexRun at h ⊢
  split at h
  · next hc => exact ⟨if_pos hc, cs.take n, cs.drop n, by simp, hc.1, by simpa using hc.2⟩
  · exact absurd rfl h

theorem isAlphanum_of_isHex {c : Char} (h : isHex c = true) : c.isAlphanum = true := by
  simp only [isHex, Bool.or_eq_true, Bool.and_eq_true, decide_eq_true_eq, Char.le_def,
    UInt32.le_iff_toNat_le] at h
  simp only [Char.isAlphanum, Char.isAlpha, Char.isUpper, Char.isLower, Bool.or_eq_true,
    Bool.and_eq_true, decide_eq_true_eq, ge_iff_le, UInt32.le_iff_toNat_le]
  rcases h with (h | h) | h
  · exact .inr h
  · exact .inl (.inr ⟨h.1, Nat.le_trans h.2 (by decide)⟩)
  · exact .inl (.inl ⟨h.1, Nat.le_trans h.2 (by decide)⟩)

theorem escapeLength_le (cs : List Char) : escapeLength cs ≤ cs.length := by
  have hb (n : Nat) (cs : List Char) (h : n ≤ cs.length) : (braced? cs).getD n ≤ cs.length := by
    cases he : braced? cs with
    | none => exact h
    | some m =>
      obtain ⟨body, r, rfl, -, rfl⟩ := braced?_eq_some_iff.mp he
      simp
  have hh (n : Nat) (cs : List Char) : hexRun n cs ≤ cs.length := by
    unfold hexRun
    split
    · next h =>
      have hl := h.1
      simp only [List.length_take] at hl
      omega
    · exact Nat.zero_le _
  fun_cases escapeLength cs with
  | case1 => simp
  | case2 c cs =>
    have hp : (if cs.head?.any Char.isAlpha = true then 1 else 0) ≤ cs.length := by
      cases cs with
      | nil => simp
      | cons d cs => split <;> simp
    have h₂ := hb _ cs (hh 2 cs)
    have h₄ := hb _ cs (hh 4 cs)
    have h₈ := hh 8 cs
    have h₁ := hb _ cs hp
    rw [List.length_cons]
    split <;> omega

/-- Text whose letters and digits stand at the front of the text it comes from. -/
structure Mirrors (r x : List Char) : Prop where
  nil : r = [] → x = []
  alphanum : ∀ v w, x = v ++ w → (∀ c ∈ v, c.isAlphanum = true) → ∃ w', r = v ++ w'

section Mirrors

variable {u x : List Char}

private theorem braced?_cases {f : List Char → Nat}
    (hf : f (u ++ r) = u.length → f (u ++ x) = u.length ∧ ∀ b, u ≠ '\x7b' :: b)
    (hu : (braced? (u ++ r)).getD (f (u ++ r)) = u.length) :
    (braced? (u ++ x)).getD (f (u ++ x)) = u.length ∨
      ∃ n, braced? r = none ∧ braced? x = some n ∧
        (braced? (u ++ x)).getD (f (u ++ x)) = u.length + n := by
  cases hb : braced? (u ++ r) with
  | some n =>
    obtain ⟨body, r', he, hbody, rfl⟩ := braced?_eq_some_iff.mp hb
    have hl : u.length = body.length + 2 := by simpa [hb] using hu.symm
    have hu' : u = '\x7b' :: (body ++ ['\x7d']) := by
      rw [show '\x7b' :: (body ++ '\x7d' :: r') = '\x7b' :: (body ++ ['\x7d']) ++ r' by simp] at he
      exact (List.append_inj he (by simp [hl])).1
    have hx : braced? (u ++ x) = some (body.length + 2) :=
      braced?_eq_some_iff.mpr ⟨body, x, by simp [hu'], hbody, rfl⟩
    exact .inl (by simp [hx, hl])
  | none =>
    obtain ⟨hfx, hne⟩ := hf (by simpa [hb] using hu)
    cases u with
    | nil =>
      cases hx : braced? x with
      | none => exact .inl (by simpa [hx] using hfx)
      | some n => exact .inr ⟨n, hb, rfl, by simp [hx]⟩
    | cons c u =>
      have hx : braced? (c :: u ++ x) = none := by
        rw [braced?_eq_none_iff]
        intro b hb'
        obtain rfl := (List.cons.inj hb').1
        exact absurd rfl (hne u)
      exact .inl (by rw [hx]; exact hfx)

private theorem hexRun_congr {n : Nat} (h : Mirrors r x) (hu : hexRun n (u ++ r) = u.length) :
    hexRun n (u ++ x) = u.length ∧ ∀ b, u ≠ '\x7b' :: b := by
  by_cases he : u = []
  · subst he
    refine ⟨?_, by simp⟩
    rcases Nat.eq_zero_or_pos (hexRun n x) with hx | hx
    · exact hx
    obtain ⟨hn, v, w, rfl, hv, hhex⟩ := exists_of_hexRun_ne_zero (Nat.ne_of_gt hx)
    obtain ⟨w', hr⟩ := h.alphanum v w rfl fun c hc => isAlphanum_of_isHex (hhex c hc)
    rw [List.nil_append, hr, hexRun_eq hhex hv] at hu
    exact hn.trans hu
  · have hne : hexRun n (u ++ r) ≠ 0 := by
      rw [hu]
      simpa using he
    obtain ⟨hn, v, w, hvw, hv, hhex⟩ := exists_of_hexRun_ne_zero hne
    obtain ⟨rfl, -⟩ := List.append_inj hvw (by omega)
    refine ⟨by rw [hexRun_eq hhex hv, hv], ?_⟩
    rintro b rfl
    exact absurd (hhex '\x7b' (by simp)) (by decide)

private def letterLength (cs : List Char) : Nat := if cs.head?.any Char.isAlpha then 1 else 0

private theorem letterLength_congr (h : Mirrors r x) (hu : letterLength (u ++ r) = u.length) :
    letterLength (u ++ x) = u.length ∧ ∀ b, u ≠ '\x7b' :: b := by
  unfold letterLength at hu ⊢
  cases u with
  | cons c u =>
    refine ⟨hu, ?_⟩
    rintro b he
    obtain rfl := (List.cons.inj he).1
    simp at hu
  | nil =>
    refine ⟨?_, by simp⟩
    cases x with
    | nil => rfl
    | cons c x =>
      by_cases hc : c.isAlpha = true
      · obtain ⟨w, hr⟩ := h.alphanum [c] x rfl (by simp [Char.isAlphanum, hc])
        simp [hr, hc] at hu
      · simp [hc]

/-- An escape takes the same text when what stands behind it is mirrored, or else braces that did
not stand behind it. -/
theorem escapeLength_cases (h : Mirrors r x) (hu : escapeLength (u ++ r) = u.length) :
    escapeLength (u ++ x) = u.length ∨
      ∃ n, braced? r = none ∧ braced? x = some n ∧ escapeLength (u ++ x) = u.length + n := by
  cases u with
  | nil =>
    have hr : r = [] := by
      cases r with
      | nil => rfl
      | cons c r => simp [escapeLength] at hu
    exact .inl (by simp [h.nil hr, escapeLength])
  | cons c u =>
    have hx (n : Nat) := braced?_cases (r := r) (x := x) (u := u) (f := hexRun n) (hexRun_congr h)
    have hp := braced?_cases (r := r) (x := x) (u := u) (f := letterLength) (letterLength_congr h)
    simp only [List.cons_append, escapeLength, List.length_cons, Nat.add_comm 1,
      Nat.add_right_cancel_iff, Nat.add_right_comm _ 1] at hu ⊢
    split at hu
    · exact hx 2 hu
    · exact hx 4 hu
    · exact .inl (hexRun_congr h hu).1
    · exact hp hu
    · exact hp hu
    · exact .inl hu

theorem escapeLength_congr (h : Mirrors r x) (hb : braced? r = none → braced? x = none)
    (hu : escapeLength (u ++ r) = u.length) : escapeLength (u ++ x) = u.length := by
  rcases escapeLength_cases h hu with hx | ⟨n, hr, hx, -⟩
  · exact hx
  · simp [hb hr] at hx

end Mirrors

/-- Openers of groups that capture nothing. -/
def openers : List (List Char) :=
  [['(', '?', '<', '='], ['(', '?', '<', '!'], ['(', '?', ':'], ['(', '?', '='], ['(', '?', '!'],
    ['(', '?', '>']]

theorem exists_eq_cons_of_mem_openers (h : t ∈ openers) : ∃ u, t = '(' :: u ∧ '(' ∉ u := by
  simp only [openers, List.mem_cons, List.not_mem_nil, or_false] at h
  rcases h with rfl | rfl | rfl | rfl | rfl | rfl <;> exact ⟨_, rfl, by decide⟩

/-- `Copied scope t r`: the text `t` before `r` is copied as it stands. -/
inductive Copied : Scope → List Char → List Char → Prop
  | escape {scope : Scope} {u r : List Char} (length : escapeLength (u ++ r) = u.length) :
    Copied scope ('\\' :: u) r
  | opener {t r : List Char} (isOpener : t ∈ openers) : Copied .outside t r
  | lazy {c : Char} {r : List Char} (simple : c ∈ ['?', '*', '+']) : Copied .outside [c, '?'] r
  | counted {t z r : List Char} (isCounted : IsCounted t) (isMark : IsMark z r) :
    Copied .outside (t ++ z) r

theorem Copied.ne_nil (h : Copied scope t r) : t ≠ [] := by
  cases h with
  | escape => simp
  | opener isOpener =>
    rintro rfl
    exact absurd isOpener (by decide)
  | lazy => simp
  | counted isCounted =>
    obtain ⟨_, _, _, _, _, rfl⟩ := isCounted
    simp

theorem Copied.copiedLength? (h : Copied scope t r) :
    copiedLength? scope (t ++ r) = some t.length := by
  cases h with
  | escape length => simp [Extended.copiedLength?, length, Nat.add_comm]
  | opener isOpener =>
    simp only [openers, List.mem_cons, List.not_mem_nil, or_false] at isOpener
    rcases isOpener with rfl | rfl | rfl | rfl | rfl | rfl <;> rfl
  | lazy simple =>
    simp only [List.mem_cons, List.not_mem_nil, or_false] at simple
    rcases simple with rfl | rfl | rfl <;> rfl
  | counted isCounted isMark =>
    have h := quantifierLength?_of_isCounted isCounted isMark
    obtain ⟨_, _, _, _, _, rfl⟩ := isCounted
    rw [List.append_assoc]
    exact h

theorem copied_of_copiedLength? {n : Nat} (h : copiedLength? scope cs = some n) :
    ∃ t r, cs = t ++ r ∧ n = t.length ∧ Copied scope t r := by
  have take {t r : List Char} {m : Nat} (hc : Copied .outside t r) (hm : m = t.length)
      (h : some m = some n) : ∃ u w, t ++ r = u ++ w ∧ n = u.length ∧ Copied .outside u w :=
    ⟨t, r, rfl, (Option.some.inj h).symm.trans hm, hc⟩
  revert h
  fun_cases copiedLength? scope cs with
  | case1 _ cs =>
    intro h
    have hle := escapeLength_le cs
    obtain rfl := Option.some.inj h
    refine ⟨'\\' :: cs.take (escapeLength cs), cs.drop (escapeLength cs), by simp, ?_, .escape ?_⟩
    · simp only [List.length_cons, List.length_take]
      omega
    · simp [hle]
  | case2 => simp
  | case3 r => exact take (t := ['(', '?', '<', '=']) (.opener (by decide)) rfl
  | case4 r => exact take (t := ['(', '?', '<', '!']) (.opener (by decide)) rfl
  | case5 r => exact take (t := ['(', '?', ':']) (.opener (by decide)) rfl
  | case6 r => exact take (t := ['(', '?', '=']) (.opener (by decide)) rfl
  | case7 r => exact take (t := ['(', '?', '!']) (.opener (by decide)) rfl
  | case8 r => exact take (t := ['(', '?', '>']) (.opener (by decide)) rfl
  | case9 r => exact take (t := ['?', '?']) (.lazy (by decide)) rfl
  | case10 r => exact take (t := ['*', '?']) (.lazy (by decide)) rfl
  | case11 r => exact take (t := ['+', '?']) (.lazy (by decide)) rfl
  | case12 =>
    intro h
    obtain ⟨t, z, r, rfl, rfl, ht, hz⟩ := isCounted_of_quantifierLength? h
    exact ⟨t ++ z, r, by simp, rfl, .counted ht hz⟩

theorem startsWithModifier_iff :
    startsWithModifier cs = true ↔
      ∃ run c r, cs = '(' :: '?' :: (run ++ c :: r) ∧ run ≠ [] ∧
        (∀ d ∈ run, (d.isAlpha || d == '-') = true) ∧ (c = ')' ∨ c = ':') := by
  constructor
  · intro h
    unfold startsWithModifier at h
    split at h
    · next body =>
      obtain ⟨r, hr, -⟩ := eq_takeWhile_append (fun c => c.isAlpha || c == '-') body
      have ha := all_takeWhile (fun c => c.isAlpha || c == '-') body
      generalize body.takeWhile (fun c => c.isAlpha || c == '-') = run at h hr ha
      subst hr
      cases r with
      | nil => simp at h
      | cons c r =>
        have hc : run ≠ [] ∧ (c = ')' ∨ c = ':') := by
          simpa [List.length_pos_iff] using h
        exact ⟨run, c, r, rfl, hc.1, ha, hc.2⟩
    · simp at h
  · rintro ⟨run, c, r, rfl, hne, ha, hc⟩
    have ht : (run ++ c :: r).takeWhile (fun c => c.isAlpha || c == '-') = run := by
      refine takeWhile_append_eq ha ?_
      rcases hc with rfl | rfl <;> rfl
    have hpos : 0 < run.length := List.length_pos_iff.mpr hne
    rcases hc with rfl | rfl <;> simp [startsWithModifier, ht, hpos]

end Patterns.Extended
