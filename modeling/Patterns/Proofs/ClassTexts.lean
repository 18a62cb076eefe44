import Patterns.Proofs.Caching
import Patterns.Proofs.ClassSets
import Patterns.Proofs.Classes
import Patterns.Proofs.Modes
import Patterns.Proofs.Searches
import Patterns.Proofs.Union

/-!
# Classes as they are read

A class of a plain text is read as the tokens that its parts spell. Where nothing in it opens a
class of its own or works on sets, it denotes the plain set of its members and ranges.
-/
namespace Patterns.Plain
open Patterns.Extended Patterns.Text

section Properties

variable {name : String}

private theorem length_code (c : Category) : c.code.toLower.toList.length = 2 := by
  rw [String.toLower, String.toList_map, List.length_map]
  cases c <;> rfl

/-- A short name of categories is a letter. -/
theorem exists_isAlpha_of_named? {cs : List Category} (hs : name.toList.length ≤ 1)
    (h : Category.named? name = some cs) : ∃ d ∈ name.toList, d.isAlpha = true := by
  unfold Category.named? at h
  split at h
  case h_21 =>
    obtain ⟨c, hc, -⟩ := Option.map_eq_some_iff.mp h
    have hname := List.find?_some hc
    rw [Bool.or_eq_true, beq_iff_eq, beq_iff_eq] at hname
    rcases hname with rfl | rfl
    · simp [length_code] at hs
    · exfalso
      revert hs
      cases c <;> decide
  all_goals simp at hs ⊢

theorem exists_isAlpha_of_category? {t : CharSet} (hs : name.toList.length ≤ 1)
    (h : Property.category? name = some t) : ∃ d ∈ name.toList, d.isAlpha = true := by
  unfold Property.category? at h
  split at h
  case h_4 =>
    obtain ⟨cs, hcs, -⟩ := Option.map_eq_some_iff.mp h
    exact exists_isAlpha_of_named? hs hcs
  all_goals simp at hs

/-- Without braces a property is a letter. -/
theorem isAlpha_of_ofLetter? {c : Char} {t : CharSet} (h : Property.ofLetter? c = some t) :
    c.isAlpha = true := by
  have hlength : (Property.normalize (String.singleton c)).toList.length ≤ 1 := by
    simp only [Property.normalize, String.toList_singleton, String.toList_ofList, List.length_map]
    exact List.length_filter_le _ [c]
  obtain ⟨d, hd, halpha⟩ := exists_isAlpha_of_category? hlength h
  simp only [Property.normalize, String.toList_singleton, String.toList_ofList] at hd
  obtain ⟨a, ha, rfl⟩ := List.mem_map.mp hd
  obtain rfl := List.mem_singleton.mp (List.mem_filter.mp ha).1
  rwa [Char.isAlpha_toLower_eq_isAlpha] at halpha

end Properties

namespace Reader

variable {r r' : Reader} {c d : Char} {cs rest : List Char} {α β : Type}

theorem exists_of_bind {x : Read α} {f : α → Read β} {b : β} (h : (x >>= f).run r = some (b, r')) :
    ∃ a r₁, x.run r = some (a, r₁) ∧ (f a).run r₁ = some (b, r') := by
  obtain ⟨⟨a, r₁⟩, ha, hb⟩ := Option.bind_eq_some_iff.mp h
  exact ⟨a, r₁, ha, hb⟩

theorem eq_of_pure {a b : α} (h : (pure a : Read α).run r = some (b, r')) : b = a ∧ r' = r := by
  obtain ⟨rfl, rfl⟩ := Prod.mk.inj (Option.some.inj h)
  exact ⟨rfl, rfl⟩

theorem eq_of_lift {x : Option α} {a : α} (h : (liftM x : Read α).run r = some (a, r')) :
    x = some a ∧ r' = r := by
  cases x with
  | none => cases h
  | some b =>
    obtain ⟨rfl, rfl⟩ := Prod.mk.inj (Option.some.inj h)
    exact ⟨rfl, rfl⟩

theorem eq_of_setRest {u : Unit} (h : (setRest rest).run r = some (u, r')) :
    r' = { r with rest } :=
  (Prod.mk.inj (Option.some.inj h)).2.symm

/-- A property takes its name in braces, or one letter. -/
theorem property_cases {negated : Bool} {s : CharSet}
    (h : (property negated).run r = some (s, r')) :
    r' = { r with rest := (r.rest.drop ((braced? r.rest).getD
      (if r.rest.head?.any Char.isAlpha then 1 else 0))) } := by
  simp only [property, StateT.run_bind, run_peek, run_ignoresCase, Option.bind_eq_bind,
    Option.bind_some] at h
  split at h
  · next body hr =>
    obtain ⟨after, hbody, -⟩ := eq_takeWhile_append (· != '\x7d') body
    have hall := all_takeWhile (· != '\x7d') body
    generalize body.takeWhile (· != '\x7d') = name at h hbody hall
    subst hbody
    rw [List.drop_left] at h
    split at h
    · next rest =>
      obtain ⟨_, _, hset, h⟩ := exists_of_bind h
      obtain rfl := eq_of_setRest hset
      obtain ⟨t, _, hlift, h⟩ := exists_of_bind h
      obtain ⟨-, rfl⟩ := eq_of_lift hlift
      obtain ⟨-, rfl⟩ := eq_of_pure h
      have hname : '\x7d' ∉ name := fun hm => by simpa using hall _ hm
      rw [hr, braced?_eq_some_iff.mpr ⟨name, rest, rfl, hname, rfl⟩]
      simp
    · cases h
  · next c rest hc hr =>
    obtain ⟨_, _, hset, h⟩ := exists_of_bind h
    obtain rfl := eq_of_setRest hset
    obtain ⟨t, _, hlift, h⟩ := exists_of_bind h
    obtain ⟨ht, rfl⟩ := eq_of_lift hlift
    obtain ⟨-, rfl⟩ := eq_of_pure h
    have hbraced : braced? (c :: rest) = none :=
      braced?_eq_none_iff.mpr fun body he => (hc (List.cons.inj he).1).elim
    simp [hr, hbraced, isAlpha_of_ofLetter? ht]
  · cases h

/-- A character by its code takes digits, or digits in braces. -/
theorem hexChar?_cases {width : Nat} (hw : width ≠ 0) (h : hexChar? width cs = some (c, rest)) :
    braced? cs = none ∧ rest = cs.drop (hexRun width cs) ∨
      ∃ digits, cs = '\x7b' :: (digits ++ '\x7d' :: rest) ∧ ∀ d ∈ digits, isHexDigit d = true := by
  simp only [hexChar?] at h
  split at h
  · next hshort =>
    rw [Bool.and_eq_true, beq_iff_eq] at hshort
    have hrun : hexRun width cs = width := if_pos hshort
    obtain ⟨-, v, w, rfl, hv, hhex⟩ := exists_of_hexRun_ne_zero (hrun.symm ▸ hw)
    obtain ⟨a, v, rfl⟩ := List.exists_cons_of_length_pos (hv ▸ Nat.pos_of_ne_zero hw)
    refine .inl ⟨braced?_eq_none_iff.mpr fun body he => ?_, ?_⟩
    · obtain rfl := (List.cons.inj he).1
      exact absurd (hhex '\x7b' (by simp)) (by decide)
    · rw [hrun]
      obtain ⟨_, -, he⟩ := Option.map_eq_some_iff.mp h
      exact (Prod.mk.inj he).2.symm
  · right
    split at h
    · next body _ =>
      obtain ⟨after, hbody, -⟩ := eq_takeWhile_append isHexDigit body
      have hall := all_takeWhile isHexDigit body
      generalize body.takeWhile isHexDigit = digits at h hbody hall
      subst hbody
      rw [List.drop_left] at h
      split at h
      · split at h
        · cases h
        · obtain ⟨_, -, he⟩ := Option.map_eq_some_iff.mp h
          obtain rfl := (Prod.mk.inj he).2
          exact ⟨digits, rfl, hall⟩
      · cases h
    · cases h

theorem hex_cases {width : Nat} {x : CommonEscape} (hw : width ≠ 0)
    (h : (commonEscape.hex width).run r = some (x, r')) : (∃ c, x = .code c) ∧
      (braced? r.rest = none ∧ r' = { r with rest := r.rest.drop (hexRun width r.rest) } ∨
        ∃ digits rest, r.rest = '\x7b' :: (digits ++ '\x7d' :: rest) ∧
          (∀ d ∈ digits, isHexDigit d = true) ∧ r' = { r with rest }) := by
  obtain ⟨_, _, hpeek, hfound⟩ := exists_of_bind h
  obtain ⟨rfl, rfl⟩ := Prod.mk.inj (Option.some.inj hpeek)
  obtain ⟨⟨c, rest⟩, _, hlift, hset⟩ := exists_of_bind hfound
  obtain ⟨hchar, rfl⟩ := eq_of_lift hlift
  obtain ⟨_, _, hset, hcode⟩ := exists_of_bind hset
  obtain rfl := eq_of_setRest hset
  obtain ⟨rfl, rfl⟩ := eq_of_pure hcode
  refine ⟨⟨c, rfl⟩, ?_⟩
  rcases hexChar?_cases hw hchar with ⟨hbraced, rfl⟩ | ⟨digits, hrest, hdigits⟩
  · exact .inl ⟨hbraced, rfl⟩
  · exact .inr ⟨digits, rest, hrest, hdigits, rfl⟩

theorem commonEscape_letter {x : CommonEscape} (hd : d ∉ ['x', 'u', 'U', 'p', 'P'])
    (h : (commonEscape d).run r = some (x, r')) : r' = r := by
  simp only [List.mem_cons, List.not_mem_nil, or_false, not_or] at hd
  unfold commonEscape at h
  split at h
  case h_9 | h_10 | h_11 | h_12 | h_13 => simp at hd
  case h_22 =>
    split at h
    · cases h
    · exact (eq_of_pure h).2
  all_goals exact (eq_of_pure h).2

/-- An escape takes what belongs to it. A character by its code of eight digits may have them in
braces, which do not belong to an escape of a pattern. -/
theorem commonEscape_cases {x : CommonEscape} (h : (commonEscape d).run r = some (x, r')) :
    r' = { r with rest := r.rest.drop (escapeLength (d :: r.rest) - 1) } ∨
      ∃ digits rest, d = 'U' ∧ r.rest = '\x7b' :: (digits ++ '\x7d' :: rest) ∧
        (∀ c ∈ digits, isHexDigit c = true) ∧ (∃ c, x = .code c) ∧ r' = { r with rest } := by
  by_cases hd : d ∈ ['x', 'u', 'U', 'p', 'P']
  · have named (negated : Bool)
        (h : (do return .set (← property negated) : Read CommonEscape).run r = some (x, r')) :
        r' = { r with rest := r.rest.drop ((braced? r.rest).getD
          (if r.rest.head?.any Char.isAlpha then 1 else 0)) } := by
      obtain ⟨s, _, hproperty, h⟩ := exists_of_bind h
      obtain ⟨-, rfl⟩ := eq_of_pure h
      exact property_cases hproperty
    have coded {width : Nat} (hw : width ≠ 0)
        (h : (commonEscape.hex width).run r = some (x, r')) :
        r' = { r with rest := r.rest.drop ((braced? r.rest).getD (hexRun width r.rest)) } := by
      rcases (hex_cases hw h).2 with ⟨hbraced, rfl⟩ | ⟨digits, rest, hrest, hdigits, rfl⟩
      · rw [hbraced]
        rfl
      · have hclose : '\x7d' ∉ digits := fun hm => absurd (hdigits _ hm) (by decide)
        rw [hrest, braced?_eq_some_iff.mpr ⟨digits, rest, rfl, hclose, rfl⟩]
        simp
    simp only [List.mem_cons, List.not_mem_nil, or_false] at hd
    rcases hd with rfl | rfl | rfl | rfl | rfl
    · exact .inl (by simpa [escapeLength] using coded (show 2 ≠ 0 by decide) h)
    · exact .inl (by simpa [escapeLength] using coded (show 4 ≠ 0 by decide) h)
    · obtain ⟨hcode, hor⟩ := hex_cases (show 8 ≠ 0 by decide) h
      rcases hor with ⟨-, rfl⟩ | ⟨digits, rest, hrest, hdigits, rfl⟩
      · exact .inl (by simp [escapeLength])
      · exact .inr ⟨digits, rest, rfl, hrest, hdigits, hcode, rfl⟩
    · exact .inl (by simpa [escapeLength] using named false h)
    · exact .inl (by simpa [escapeLength] using named true h)
  · obtain rfl := commonEscape_letter hd h
    simp only [List.mem_cons, List.not_mem_nil, or_false, not_or] at hd
    exact .inl (by simp [escapeLength, hd])

end Reader

/-- The tokens that the parts of a class are read as: a character that is not escaped is a mark, and
nothing else is. The braces and digits behind `\U` are read with it. -/
inductive Spells : List ClassPart → List ClassToken → Prop
  | nil : Spells [] []
  | char {c : Char} {k : List ClassPart} {ts : List ClassToken} (unclosed : c ≠ ']')
    (rest : Spells k ts) : Spells (.char c :: k) (.mark c :: ts)
  | escape {u : List Char} {t : ClassToken} {k : List ClassPart} {ts : List ClassToken}
    (escaped : ∀ c, t ≠ .mark c) (rest : Spells k ts) : Spells (.escape u :: k) (t :: ts)
  | code {digits : List Char} {c : Char} {k : List ClassPart} {ts : List ClassToken}
    (areDigits : ∀ d ∈ digits, Reader.isHexDigit d = true) (rest : Spells k ts) :
    Spells (.escape ['U'] :: .char '\x7b' :: (digits.map .char ++ .char '\x7d' :: k))
      (.literal c :: ts)

namespace Spells

variable {k : List ClassPart} {ts : List ClassToken} {a b : Char}

theorem mem (h : Spells k ts) (hm : .mark a ∈ ts) : .char a ∈ k := by
  induction h with
  | nil => simp at hm
  | char _ _ ih =>
    rw [List.mem_cons] at hm ⊢
    exact hm.imp (fun he => by rw [ClassToken.mark.inj he]) ih
  | escape escaped _ ih =>
    rcases List.mem_cons.mp hm with he | hm
    · exact absurd he.symm (escaped a)
    · exact List.mem_cons_of_mem _ (ih hm)
  | code _ _ ih => simp [ih (by simpa using hm)]

theorem mark_ne_close (h : Spells k ts) : .mark ']' ∉ ts := by
  induction h with
  | nil => simp
  | char unclosed _ ih => simp [ih, unclosed.symm]
  | escape escaped _ ih => simp [ih, (escaped ']').symm]
  | code _ _ ih => simp [ih]

theorem head?_eq (h : Spells k ts) (ht : ts.head? = some (.mark a)) : k.head? = some (.char a) := by
  cases h with
  | nil => simp at ht
  | char => simpa using ht
  | escape escaped => exact absurd (by simpa using ht) (escaped a)
  | code => simp at ht

theorem isInfix (h : Spells k ts) (ht : [.mark a, .mark b] <:+: ts) :
    [.char a, .char b] <:+: k := by
  induction h with
  | nil => simp at ht
  | @char c k ts _ rest ih =>
    rw [List.infix_cons_iff, List.cons_prefix_cons,
      List.singleton_prefix_iff_head?_eq_some] at ht ⊢
    exact ht.imp (fun hp => ⟨by rw [ClassToken.mark.inj hp.1], rest.head?_eq hp.2⟩) ih
  | escape escaped _ ih =>
    rw [List.infix_cons_iff, List.cons_prefix_cons] at ht
    rcases ht with ⟨he, -⟩ | ht
    · exact absurd he.symm (escaped a)
    · exact List.infix_cons (ih ht)
  | @code digits _ k _ _ _ ih =>
    have hsuffix : k <:+ .escape ['U'] :: .char '\x7b' :: (digits.map .char ++ .char '\x7d' :: k) :=
      ⟨.escape ['U'] :: .char '\x7b' :: (digits.map .char ++ [.char '\x7d']), by simp⟩
    rw [List.infix_cons_iff, List.cons_prefix_cons] at ht
    rcases ht with ⟨he, -⟩ | ht
    · cases he
    · exact (ih ht).trans hsuffix.isInfix

theorem isFlat (h : Spells k ts) (unnested : .char '[' ∉ k)
    (single : ∀ c, ClassOperator.ofMark? c ≠ none → ¬[.char c, .char c] <:+: k) :
    ClassText.IsFlat ts where
  unopened hm := unnested (h.mem hm)
  unclosed := h.mark_ne_close
  single c hc hi := single c hc (h.isInfix hi)

theorem eq_nil (h : Spells k []) : k = [] := by
  cases h
  rfl

theorem eq_caret (h : Spells k [.mark '^']) : k = [.char '^'] := by
  cases h with
  | char _ rest => rw [rest.eq_nil]
  | escape escaped => exact absurd rfl (escaped '^')

end Spells

namespace Reader

variable {r r' : Reader} {k ps : List ClassPart} {found ts : List ClassToken} {comments : Bool}

section Tokens

variable {fuel depth : Nat} {c : Char} {cs : List Char}

theorem classTokens_mark (hr : r.rest = c :: cs) (hc : c ∉ ['\\', '[', ']']) :
    (classTokens (fuel + 1) depth found).run r =
      (classTokens fuel depth (.mark c :: found)).run { r with rest := cs } := by
  simp only [List.mem_cons, List.not_mem_nil, or_false, not_or] at hc
  simp [classTokens, run_peek, run_setRest, hr, hc]

theorem classTokens_close (hr : r.rest = ']' :: cs) : (classTokens (fuel + 1) 1 found).run r =
    some (found.reverse ++ [.mark ']'], { r with rest := cs }) := by
  simp [classTokens, run_peek, run_setRest, hr]

/-- An escape is read as one token, which is not a mark. -/
theorem classTokens_escape (hr : r.rest = '\\' :: cs)
    (h : (classTokens (fuel + 1) 1 found).run r = some (ts, r')) :
    ∃ t rest, (∀ c, t ≠ .mark c) ∧
      (classTokens fuel 1 (t :: found)).run { r with rest } = some (ts, r') ∧
      (rest = cs.drop (escapeLength cs) ∨
        ∃ digits, cs = 'U' :: '\x7b' :: (digits ++ '\x7d' :: rest) ∧
          (∀ d ∈ digits, isHexDigit d = true) ∧ ∃ c, t = .literal c) := by
  cases cs with
  | nil => simp [classTokens, run_peek, run_setRest, hr] at h
  | cons d cs =>
    simp only [classTokens, StateT.run_bind, run_peek, run_setRest, hr, Option.bind_eq_bind,
      Option.bind_some] at h
    split at h
    · next hletter =>
      have hd : escapeLength (d :: cs) = 1 := by
        simp only [classLetters, List.contains_iff_mem, List.mem_cons, List.not_mem_nil,
          or_false] at hletter
        rcases hletter with rfl | rfl | rfl | rfl | rfl | rfl <;> rfl
      exact ⟨.literal d, cs, by simp, h, .inl (by rw [hd]; rfl)⟩
    · obtain ⟨x, r₁, hescape, hmatch⟩ := exists_of_bind h
      have hnext : ∃ t, (∀ c, t ≠ .mark c) ∧ (classTokens fuel 1 (t :: found)).run r₁ =
          some (ts, r') ∧ ∀ c, x = .code c → t = .literal c := by
        cases x with
        | char e | code e =>
          dsimp only at hmatch
          split at hmatch
          · cases hmatch
          · exact ⟨.literal e, by simp, hmatch, by simp⟩
        | set s => exact ⟨.set s, by simp, hmatch, by simp⟩
        | nested s => exact ⟨.nested s, by simp, hmatch, by simp⟩
      obtain ⟨t, escaped, hrun, hcode⟩ := hnext
      rcases commonEscape_cases hescape with rfl | ⟨digits, rest, rfl, hrest, hdigits, ⟨c, hc⟩, rfl⟩
      · refine ⟨t, _, escaped, hrun, .inl ?_⟩
        obtain ⟨n, hn⟩ : ∃ n, escapeLength (d :: cs) = n + 1 := ⟨_, Nat.add_comm 1 _⟩
        change cs.drop (escapeLength (d :: cs) - 1) = _
        rw [hn]
        rfl
      · exact ⟨t, rest, escaped, hrun, .inr ⟨digits, by rw [← hrest], hdigits, c, hcode c hc⟩⟩

end Tokens

/-- What does not close a class comes before the bracket that closes it. -/
theorem exists_eq_append_of_unclosed (us : List ClassPart) {qs : List ClassPart}
    (h : us ++ qs = k ++ .closing :: ps) (hus : .closing ∉ us) :
    ∃ k', k = us ++ k' ∧ qs = k' ++ .closing :: ps := by
  rcases List.append_eq_append_iff.mp h with hk | ⟨vs, hvs, htail⟩
  · exact hk
  · cases vs with
    | nil => exact ⟨[], by simp [hvs], by simpa using htail.symm⟩
    | cons part vs =>
      obtain ⟨rfl, -⟩ := List.cons.inj htail
      exact absurd (by simp [hvs]) hus

/-- The parts of a character by its code in braces. -/
theorem classParts_code {digits rest : List Char} (h : ∀ d ∈ digits, isHexDigit d = true) :
    classParts comments .inClass ('\\' :: 'U' :: '\x7b' :: (digits ++ '\x7d' :: rest)) =
      .escape ['U'] :: ('\x7b' :: (digits ++ ['\x7d'])).map .char ++
        classParts comments .inClass rest := by
  have hlength : escapeLength ('U' :: '\x7b' :: (digits ++ '\x7d' :: rest)) = 1 := by
    simp [escapeLength, hexRun, isHex]
  have hdigit {d a : Char} (hd : d ∈ digits) (ha : isHexDigit a = false) : d ≠ a := by
    rintro rfl
    simp [h d hd] at ha
  have hplain : ArePlain .inClass ('\x7b' :: (digits ++ ['\x7d'])) := by
    simp only [ArePlain, List.forall_mem_cons, List.forall_mem_append]
    exact ⟨by decide, fun d hd => ⟨hdigit hd (by decide), hdigit hd (by decide)⟩,
      by decide, by simp⟩
  have htext : '\x7b' :: (digits ++ '\x7d' :: rest) =
      '\x7b' :: (digits ++ ['\x7d']) ++ rest := by simp
  rw [classParts_escape, hlength, List.drop_one, List.tail_cons, htext, classParts_chars hplain]
  rfl

/-- A class is read as the tokens that its parts spell, up to the bracket that closes it. -/
theorem classTokens_cases {fuel : Nat} (h : (classTokens fuel 1 found).run r = some (ts, r'))
    (hk : classParts comments .inClass r.rest = k ++ .closing :: ps) (unclosed : .closing ∉ k)
    (unnested : .char '[' ∉ k) :
    ∃ us rest, Spells k us ∧ ts = found.reverse ++ us ++ [.mark ']'] ∧ r' = { r with rest } ∧
      classParts comments .outside rest = ps := by
  induction fuel generalizing r found k with
  | zero => cases h
  | succ fuel ih =>
    -- the token that is read first, and the parts of it
    have onward {t : ClassToken} {us k' : List ClassPart} {rest : List Char}
        (spells : ∀ ts, Spells k' ts → Spells (us ++ k') (t :: ts)) (hsplit : k = us ++ k')
        (hrun : (classTokens fuel 1 (t :: found)).run { r with rest } = some (ts, r'))
        (htail : classParts comments .inClass rest = k' ++ .closing :: ps) :
        ∃ us rest, Spells k us ∧ ts = found.reverse ++ us ++ [.mark ']'] ∧ r' = { r with rest } ∧
          classParts comments .outside rest = ps := by
      subst hsplit
      rw [List.mem_append, not_or] at unclosed unnested
      obtain ⟨ts', rest, hspells, rfl, rfl, hps⟩ := ih hrun htail unclosed.2 unnested.2
      exact ⟨t :: ts', rest, spells ts' hspells, by simp, rfl, hps⟩
    cases hr : r.rest with
    | nil => simp [hr] at hk
    | cons c cs =>
      rw [hr] at hk
      by_cases hclose : c = ']'
      · subst hclose
        rw [classTokens_close hr] at h
        rw [classParts_close] at hk
        obtain ⟨rfl, rfl⟩ := Prod.mk.inj (Option.some.inj h)
        cases k with
        | nil => exact ⟨[], cs, .nil, by simp, rfl, (List.cons.inj hk).2⟩
        | cons part k => simp [(List.cons.inj hk).1] at unclosed
      · by_cases hescape : c = '\\'
        · subst hescape
          obtain ⟨t, rest, escaped, hrun, rfl | ⟨digits, rfl, hdigits, c, rfl⟩⟩ :=
            classTokens_escape hr h
          · rw [classParts_escape] at hk
            obtain ⟨k', hsplit, htail⟩ := exists_eq_append_of_unclosed [.escape _] hk (by simp)
            exact onward (fun _ => .escape escaped) hsplit hrun htail
          · rw [classParts_code hdigits] at hk
            obtain ⟨k', hsplit, htail⟩ := exists_eq_append_of_unclosed _ hk (by simp)
            exact onward (fun _ spells => by simpa using spells.code hdigits) hsplit hrun htail
        · rw [classParts_char ⟨hescape, hclose⟩] at hk
          obtain ⟨k', hsplit, htail⟩ := exists_eq_append_of_unclosed [.char c] hk (by simp)
          have hopen : c ≠ '[' := by
            rintro rfl
            exact unnested (by simp [hsplit])
          rw [classTokens_mark hr (by simp [hescape, hopen, hclose])] at h
          exact onward (fun _ => .char hclose) hsplit h htail

/-- The class with the parts `k` that is closed in `y` before `ps` is read plainly: the tokens that
it is read as spell its parts, and it is refused or denotes a set as their members and ranges do. -/
def ReadsPlainly (k ps : List ClassPart) (comments : Bool) (y : List Char) : Prop :=
  ∀ r : Reader, r.rest = y →
    match (classTokens (y.length + 1) 1 []).run r with
    | none => bracketed.run r = none
    | some (ts, r') => ∃ us, ts = us ++ [.mark ']'] ∧ Spells k us ∧
      classParts comments .outside r'.rest = ps ∧
      bracketed.run r = (ClassText.plain? (r.modes.anyCase || r.throughout.anyCase) us).map
        fun s => (.set s, r')

/-- A class that is not closed at once is read as its tokens. -/
theorem bracketed_run (hclose : r.rest.head? ≠ some ']') (hfull : ∀ y, r.rest ≠ '^' :: ']' :: y) :
    bracketed.run r = ((classTokens (r.rest.length + 1) 1 []).run r).bind fun found =>
      (ClassText.set? (found.2.modes.anyCase || found.2.throughout.anyCase) found.1).map
        fun s => (.set s, found.2) := by
  have hset (found : List ClassToken × Reader) :
      (do
        let s ← ClassText.set? (← ignoresCase) found.1
        return .set s : Read Expr).run found.2 =
        (ClassText.set? (found.2.modes.anyCase || found.2.throughout.anyCase) found.1).map
          fun s => (.set s, found.2) := by
    rw [StateT.run_bind, run_ignoresCase]
    cases h : ClassText.set? (found.2.modes.anyCase || found.2.throughout.anyCase) found.1 <;>
      simp [h]
  by_cases hcaret : ∃ y, r.rest = '^' :: y
  · obtain ⟨y, hr⟩ := hcaret
    have hy : ∀ z, y ≠ ']' :: z := fun z hz => hfull z (by rw [hr, hz])
    rw [hr, List.length_cons, classTokens_mark hr (by decide)]
    simp only [bracketed, StateT.run_bind, run_peek, run_setRest, hr, Option.bind_eq_bind,
      Option.bind_some]
    exact congrArg (Option.bind _) (funext hset)
  · have hr : ∀ y, r.rest ≠ '^' :: y := fun y hy => hcaret ⟨y, hy⟩
    simp only [bracketed, StateT.run_bind, run_peek, Option.bind_eq_bind, Option.bind_some]
    split
    · next y hy => simp [hy] at hclose
    · exact congrArg (Option.bind _) (funext hset)

/-- A class in which nothing opens a class of its own or works on sets is read plainly. -/
theorem readsPlainly {y : List Char} (hy : classParts comments .inClass y = k ++ .closing :: ps)
    (unclosed : .closing ∉ k) (hk : k ≠ []) (hcaret : k ≠ [.char '^']) (unnested : .char '[' ∉ k)
    (single : ∀ c, ClassOperator.ofMark? c ≠ none → ¬[.char c, .char c] <:+: k) :
    ReadsPlainly k ps comments y := by
  rintro r rfl
  have hclose : r.rest.head? ≠ some ']' := by
    intro hr
    obtain ⟨y, hr⟩ := List.head?_eq_some_iff.mp hr
    obtain ⟨part, k, rfl⟩ := List.exists_cons_of_ne_nil hk
    rw [hr, classParts_close] at hy
    simp [(List.cons.inj hy).1] at unclosed
  have hfull : ∀ y, r.rest ≠ '^' :: ']' :: y := by
    intro y hr
    rw [hr, classParts_char (by decide), classParts_close] at hy
    obtain ⟨k', rfl, htail⟩ := exists_eq_append_of_unclosed [.char '^'] hy (by simp)
    cases k' with
    | nil => exact hcaret rfl
    | cons part k => simp [(List.cons.inj htail).1] at unclosed
  rw [bracketed_run hclose hfull]
  split
  · next hnone => rw [hnone, Option.bind_none]
  · next ts r' htokens =>
    obtain ⟨us, rest, spells, rfl, rfl, hps⟩ := classTokens_cases htokens hy unclosed unnested
    have hnil : us ≠ [] := by
      rintro rfl
      exact hk spells.eq_nil
    have hmark : us ≠ [.mark '^'] := by
      rintro rfl
      exact hcaret spells.eq_caret
    refine ⟨us, rfl, spells, hps, ?_⟩
    rw [htokens, Option.bind_some, ← ClassText.set?_eq_plain? (spells.isFlat unnested single) hnil
      hmark]
    rfl

end Reader

end Patterns.Plain

namespace Patterns.Extended
open Patterns.Text Patterns.Plain

/-- A class without two hyphens one behind the other is read plainly. -/
theorem AreEscaped.exists_readsPlainly {comments : Bool} {out : List Char}
    {us k ps : List ClassPart} (h : AreEscaped (classParts comments .outside out))
    (hparts : classParts comments .outside out = us ++ .opening :: (k ++ .closing :: ps))
    (unclosed : .closing ∉ k) (difference : ¬[.char '-', .char '-'] <:+: k) :
    ∃ y, '[' :: y <:+ out ∧ classParts comments .inClass y = k ++ .closing :: ps ∧
      Reader.ReadsPlainly k ps comments y := by
  obtain ⟨y, hy, hk⟩ := exists_of_classParts hparts
  have hinfix : .opening :: (k ++ [.closing]) <:+: classParts comments .outside out :=
    ⟨us, ps, by simp [hparts]⟩
  have hmembers : k <:+: classParts comments .outside out :=
    ((List.prefix_append k [.closing]).isInfix.trans (List.suffix_cons _ _).isInfix).trans hinfix
  refine ⟨y, hy, hk, Reader.readsPlainly hk unclosed ?_ ?_ ?_ ?_⟩
  · rintro rfl
    exact h.nonempty hinfix
  · rintro rfl
    exact h.nonfull hinfix
  · exact fun hm => h.unnested (hmembers.mem hm)
  · intro c hc hi
    unfold ClassOperator.ofMark? at hc
    split at hc
    · exact h.intersection (hi.trans hmembers)
    · exact difference hi
    · exact h.symmetricDifference (hi.trans hmembers)
    · exact hc rfl

/-- What the classes of `out` are like where the moves `ms` write it. Each class with the parts `k`
stands in the text, behind a bracket. -/
structure HasPlainClasses (ms : History) (comments : Bool) (out : List Char) : Prop where
  escaped : AreEscaped (classParts comments .outside out)
  hyphens : [.char '-', .char '-'] <:+: classParts comments .outside out ↔
    ∃ p m, (p, m) ∈ ms ∧ p.scope = .inClass ∧ ['-', '-'] <+: p.rest
  plain : ∀ us k ps, classParts comments .outside out = us ++ .opening :: (k ++ .closing :: ps) →
    .closing ∉ k → ¬[.char '-', .char '-'] <:+: k →
    ∃ y, '[' :: y <:+ out ∧ classParts comments .inClass y = k ++ .closing :: ps ∧
      Reader.ReadsPlainly k ps comments y

/-- In the plain text of a pattern every bracket, ampersand and tilde of a class is escaped, and no
class is empty or full. Two hyphens stand one behind the other in a class exactly where the reading
comes to two of them, and any other class is read as the plain set of its members and ranges. Where
comments are passed this holds if no group is glued to a question mark and no open comment is
closed. -/
theorem classes_toPlain {e : Setting} {limit : Nat} {c c' : Context} {out : List Char}
    (ht : e.dialect.tokens = []) (h : e.toPlain limit c = .ok (out, c')) :
    ∃ ms q, Reading e (.start e.pattern.toList c) ms q ∧ q.rest = [] ∧ written ms = out ∧
      ∀ comments, (comments = true → glued ms = 0 ∧ ¬ClosesOpenComment ms) →
        HasPlainClasses ms comments out := by
  obtain ⟨ms, q, hms, hend, -, rfl, -⟩ := (toPlain_eq_ok_iff ht).mp h
  refine ⟨ms, q, hms, hend, rfl, fun comments clear => ?_⟩
  have hreading : ClassReading _ ms (classParts comments .outside (written ms)) :=
    hms.classReading hend clear
  exact ⟨hreading.areEscaped, hreading.hyphens_iff, fun us k ps hparts unclosed difference =>
    hreading.areEscaped.exists_readsPlainly hparts unclosed difference⟩

/-- A class with all that works on sets but hyphens. -/
theorem classes_toPlain_escaped :
    let e : Setting := ⟨{}, ⟨true, fun _ _ => none⟩, none, "[^][&&~[^-]"⟩
    e.toPlain 0 (.ofFlags "") = .ok ("[\\s\\S][\\&\\&\\~\\[^-]".toList, ⟨[], []⟩) ∧
      classParts true .outside "[\\s\\S][\\&\\&\\~\\[^-]".toList =
        [.opening, .escape ['s'], .escape ['S'], .closing, .opening, .escape ['&'], .escape ['&'],
          .escape ['~'], .escape ['['], .char '^', .char '-', .closing] ∧
      ∃ ms q, Reading e (.start e.pattern.toList (.ofFlags "")) ms q ∧ q.rest = [] ∧
        written ms = "[\\s\\S][\\&\\&\\~\\[^-]".toList ∧
        ∀ comments, (comments = true → glued ms = 0 ∧ ¬ClosesOpenComment ms) →
          HasPlainClasses ms comments "[\\s\\S][\\&\\&\\~\\[^-]".toList := by
  intro e
  have h : e.toPlain 0 (.ofFlags "") =
      .ok ("[\\s\\S][\\&\\&\\~\\[^-]".toList, ⟨[], []⟩) := by cbv
  have hparts : classParts true .outside "[\\s\\S][\\&\\&\\~\\[^-]".toList =
      [.opening, .escape ['s'], .escape ['S'], .closing, .opening, .escape ['&'], .escape ['&'],
        .escape ['~'], .escape ['['], .char '^', .char '-', .closing] := by cbv
  exact ⟨h, hparts, classes_toPlain rfl h⟩

/-- Two hyphens take the members behind them out of a class. -/
theorem classes_toPlain_difference : ∃ m : Matcher,
    compile {} ⟨true, fun _ _ => none⟩ 10000 "[a-c--b]" "" none = .ok m ∧ m.source = "[a-c--b]" ∧
      [.char '-', .char '-'] <:+: classParts true .outside m.source.toList ∧
      m.find (.ofString "b") 0 false = .ok none ∧
      ∃ s, ClassText.plain? false ("a-c--b".toList.map .mark) = some s ∧ s.mem 'b' = true := by
  obtain ⟨m, hm⟩ : ∃ m, Matcher.ofCompiled "[a-c--b]" (.ofList []) [] "[a-c--b]" "" = .ok m :=
    Matcher.exists_ofCompiled _ _ (by decide +kernel)
  obtain ⟨hsource, hflags, -⟩ := Matcher.eq_of_build hm
  have hplain : Setting.toPlain ⟨{}, ⟨true, fun _ _ => none⟩, none, "[a-c--b]"⟩ 10000
      (.ofFlags "") = .ok ("[a-c--b]".toList, ⟨[], []⟩) := by cbv
  have hparts : classParts true .outside "[a-c--b]".toList =
      [.opening, .char 'a', .char '-', .char 'c', .char '-', .char '-', .char 'b', .closing] := by
    cbv
  have hcompile : compile {} ⟨true, fun _ _ => none⟩ 10000 "[a-c--b]" "" none = .ok m :=
    compile_eq_ok_iff.mpr ⟨rfl, _, _, hplain, hm⟩
  have hset : ∃ s, ClassText.plain? false ("a-c--b".toList.map .mark) = some s ∧
      s.mem 'b' = true := ⟨_, rfl, by decide +kernel⟩
  refine ⟨m, hcompile, hsource, ?_, ?_, hset⟩
  · rw [hsource, hparts]
    exact ⟨[.opening, .char 'a', .char '-', .char 'c'], [.char 'b', .closing], rfl⟩
  · exact Matcher.find_eq_none_of_search (by rw [hsource, hflags]; decide +kernel)

end Patterns.Extended
