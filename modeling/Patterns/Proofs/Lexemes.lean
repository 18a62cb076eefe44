import Mathlib
import Patterns.Extended.Compilation

/-!
# Lexemes by their spelling

`Lexeme.Spelled` says which text spells a lexeme before which text. A lexeme is found at the front
of a text exactly where it is spelled.
-/
namespace Patterns.Extended
open Patterns.Text

section Lists

variable {α : Type} {p : α → Bool} {t r : List α}

theorem takeWhile_append_eq (ht : ∀ c ∈ t, p c = true) (hr : r.head?.any p = false) :
    (t ++ r).takeWhile p = t := by
  have h : r.takeWhile p = [] := by
    cases r with
    | nil => rfl
    | cons c r =>
      have hc : p c = false := by simpa using hr
      simp [hc]
  rw [List.takeWhile_append_of_pos ht, h, List.append_nil]

theorem eq_takeWhile_append (p : α → Bool) (cs : List α) :
    ∃ r, cs = cs.takeWhile p ++ r ∧ r.head?.any p = false := by
  refine ⟨cs.dropWhile p, List.takeWhile_append_dropWhile.symm, ?_⟩
  have h := List.head?_dropWhile_not p cs
  cases hd : (cs.dropWhile p).head? with
  | none => rfl
  | some c => simpa [hd] using h

theorem all_takeWhile (p : α → Bool) (cs : List α) : ∀ c ∈ cs.takeWhile p, p c = true := by
  intro c hc
  induction cs with
  | nil => simp at hc
  | cons a cs ih =>
    rw [List.takeWhile_cons] at hc
    split at hc
    · next ha =>
      rcases List.mem_cons.mp hc with rfl | hc
      · exact ha
      · exact ih hc
    · simp at hc

theorem findIdx?_eq_some_iff_append [DecidableEq α] {a : α} {cs : List α} {n : Nat} :
    cs.findIdx? (· == a) = some n ↔ ∃ t r, cs = t ++ a :: r ∧ a ∉ t ∧ n = t.length := by
  constructor
  · intro h
    induction cs generalizing n with
    | nil => simp at h
    | cons c cs ih =>
      by_cases hc : c = a
      · refine ⟨[], cs, by simp [hc], by simp, ?_⟩
        simpa [List.findIdx?_cons, hc, eq_comm] using h
      · have h' : (cs.findIdx? (· == a)).map (· + 1) = some n := by
          simpa [List.findIdx?_cons, hc] using h
        obtain ⟨m, hm, rfl⟩ := Option.map_eq_some_iff.mp h'
        obtain ⟨t, r, rfl, ht, rfl⟩ := ih hm
        exact ⟨c :: t, r, rfl, by simp [ht, Ne.symm hc], rfl⟩
  · rintro ⟨t, r, rfl, ht, rfl⟩
    induction t with
    | nil => simp [List.findIdx?_cons]
    | cons c t ih =>
      simp only [List.mem_cons, not_or] at ht
      simp [List.findIdx?_cons, Ne.symm ht.1, ih ht.2]

end Lists

/-- Characters of flags, at least one. -/
def IsName (name : List Char) : Prop := name ≠ [] ∧ ∀ c ∈ name, Flags.isFlagChar c = true

def AreDigits (digits : List Char) : Prop := ∀ c ∈ digits, c.isDigit = true

instance (name : List Char) : Decidable (IsName name) :=
  have : Decidable (∀ c ∈ name, Flags.isFlagChar c = true) := List.decidableBAll _ name
  inferInstanceAs (Decidable (_ ∧ _))

instance (digits : List Char) : Decidable (AreDigits digits) := List.decidableBAll _ digits

section Numbers

theorem areDigits_toDigits (n : Nat) : AreDigits (Nat.toDigits 10 n) :=
  fun _ hc => Nat.isDigit_of_mem_toDigits (by decide) (by decide) hc

theorem digitsValue_toDigits (n : Nat) : digitsValue (Nat.toDigits 10 n) = n := by
  have h := Nat.ofDigitChars_ten_toDigits (n := n)
  rwa [Nat.ofDigitChars_eq_foldl] at h

/-- Numbers above zero are written without a zero in front. -/
theorem head?_toDigits {n : Nat} (hn : 0 < n) : (Nat.toDigits 10 n).head? ≠ some '0' := by
  induction n using Nat.strongRecOn with
  | ind n ih =>
    rcases Nat.lt_or_ge n 10 with h | h
    · rw [Nat.toDigits_of_lt_base h]
      intro he
      have h₀ : n.digitChar = '0' := by simpa using he
      have hv := digitsValue_toDigits n
      rw [Nat.toDigits_of_lt_base h, h₀] at hv
      exact absurd hv (Nat.ne_of_lt hn)
    · obtain ⟨d, ds, hd⟩ := List.exists_cons_of_ne_nil (Nat.toDigits_ne_nil (n := n / 10) (b := 10))
      have h₁ := ih (n / 10) (by omega) (by omega)
      rw [hd] at h₁
      rw [Nat.toDigits_of_base_le (by decide) h, hd]
      exact h₁

end Numbers

namespace Lexeme

theorem nameUpTo?_eq_some_iff {d : Char} {ds cs name : List Char}
    (hd : Flags.isFlagChar d = false) :
    nameUpTo? (d :: ds) cs = some name ↔ IsName name ∧ ∃ r, cs = name ++ d :: (ds ++ r) := by
  constructor
  · intro h
    obtain ⟨r, hr, -⟩ := eq_takeWhile_append Flags.isFlagChar cs
    have ha := all_takeWhile Flags.isFlagChar cs
    simp only [nameUpTo?, Bool.and_eq_true, Bool.not_eq_true'] at h
    generalize cs.takeWhile Flags.isFlagChar = found at h hr ha
    split at h
    · next hf =>
      obtain rfl : found = name := by simpa using h
      refine ⟨⟨by simpa using hf.1, ha⟩, ?_⟩
      obtain ⟨rest, hrest⟩ := List.isPrefixOf_iff_prefix.mp hf.2
      refine ⟨rest, ?_⟩
      rw [← List.cons_append, hrest, hr, List.drop_left]
    · simp at h
  · rintro ⟨⟨hne, ha⟩, r, rfl⟩
    have ht : (name ++ d :: (ds ++ r)).takeWhile Flags.isFlagChar = name :=
      takeWhile_append_eq ha (by simp [hd])
    simp [nameUpTo?, ht, hne]

/-- `Spelled s scope lexeme t r`: the text `t` before `r` spells the lexeme. -/
inductive Spelled (s : Settings) : Scope → Lexeme → List Char → List Char → Prop
  | subpattern {scope : Scope} {name r : List Char} (building : s.building = true)
    (isName : IsName name) :
    Spelled s scope (.subpattern name) ('\x7b' :: '\x7b' :: (name ++ ['\x7d', '\x7d'])) r
  | numberedReference {scope : Scope} {digits r : List Char} (nonempty : digits ≠ [])
    (areDigits : AreDigits digits) (apart : r.head?.any Char.isDigit = false) :
    Spelled s scope (.numberedReference digits) ('\\' :: digits) r
  | namedReference {name r : List Char} (isName : IsName name) :
    Spelled s .outside (.namedReference name) ('\\' :: 'k' :: '<' :: (name ++ ['>'])) r
  | emptyClass {r : List Char} : Spelled s .outside (.emptyClass false) ['[', ']'] r
  | fullClass {r : List Char} : Spelled s .outside (.emptyClass true) ['[', '^', ']'] r
  | comment {body r : List Char} (closed : ')' ∉ body) :
    Spelled s .outside .comment ('(' :: '?' :: '#' :: (body ++ [')'])) r
  | namedGroup {name r : List Char} (isName : IsName name) :
    Spelled s .outside (.namedGroup name) ('(' :: '?' :: '<' :: (name ++ ['>'])) r
  | markedGroup {name r : List Char} (isName : IsName name) :
    Spelled s .outside (.namedGroup name) ('(' :: '?' :: 'P' :: '<' :: (name ++ ['>'])) r
  | modifier {flags r : List Char} (atStart : s.atStart = true) (isName : IsName flags) :
    Spelled s .outside (.modifier flags) ('(' :: '?' :: (flags ++ [')'])) r
  | group {r : List Char} (bare : r.head? ≠ some '?') : Spelled s .outside .group ['('] r
  | dot {r : List Char} (dotAll : s.dotAll = true) : Spelled s .outside .dot ['.'] r
  | spacing {t r : List Char} (spaced : s.spaced = true) (nonempty : t ≠ [])
    (length : spacingLength false (t ++ r) = t.length) : Spelled s .outside .spacing t r

variable {s : Settings} {scope : Scope} {lexeme : Lexeme} {t r cs : List Char}

theorem Spelled.ne_nil (h : Spelled s scope lexeme t r) : t ≠ [] := by
  cases h with
  | spacing _ nonempty _ => exact nonempty
  | _ => simp

theorem spacingLength_le (inComment : Bool) (cs : List Char) :
    spacingLength inComment cs ≤ cs.length := by
  fun_induction spacingLength inComment cs <;> simp <;> omega

theorem exists_spacing (h : spacingLength false cs ≠ 0) :
    ∃ t r, cs = t ++ r ∧ t ≠ [] ∧ spacingLength false (t ++ r) = t.length := by
  have hle := spacingLength_le false cs
  refine ⟨cs.take (spacingLength false cs), cs.drop (spacingLength false cs), by simp, ?_,
    by simp [hle]⟩
  intro hnil
  have hl := congrArg List.length hnil
  simp only [List.length_take, List.length_nil] at hl
  omega

private theorem spelled_spacing {n : Nat} (hs : s.spaced = true)
    (h : (if spacingLength false cs = 0 then none else some (spacing, spacingLength false cs))
      = some (lexeme, n)) :
    ∃ t r, cs = t ++ r ∧ n = t.length ∧ Spelled s .outside lexeme t r := by
  split at h
  · simp at h
  · next hz =>
    simp only [Option.some.injEq, Prod.mk.injEq] at h
    obtain ⟨rfl, rfl⟩ := h
    obtain ⟨t, r, rfl, hne, hl⟩ := exists_spacing hz
    exact ⟨t, r, rfl, hl, .spacing hs hne hl⟩

private theorem spelled_number {body : List Char} {n : Nat}
    (h : (if (body.takeWhile Char.isDigit).isEmpty = true then none
      else some (numberedReference (body.takeWhile Char.isDigit),
        1 + (body.takeWhile Char.isDigit).length)) = some (lexeme, n)) :
    ∃ t r, '\\' :: body = t ++ r ∧ n = t.length ∧ Spelled s scope lexeme t r := by
  obtain ⟨r, hr, hapart⟩ := eq_takeWhile_append Char.isDigit body
  have ha := all_takeWhile Char.isDigit body
  generalize body.takeWhile Char.isDigit = digits at h hr ha
  split at h
  · simp at h
  · next hne =>
    simp only [Option.some.injEq, Prod.mk.injEq] at h
    obtain ⟨rfl, rfl⟩ := h
    refine ⟨'\\' :: digits, r, by simp [hr], by simp; omega, ?_⟩
    exact .numberedReference (by simpa using hne) ha hapart

private theorem spelled_name (before : List Char) {d : Char} {ds body : List Char} {n : Nat}
    {make : List Char → Lexeme} {extra : Nat} (hd : Flags.isFlagChar d = false)
    (hextra : extra = before.length + (d :: ds).length)
    (hmake : ∀ name r, IsName name → Spelled s scope (make name) (before ++ (name ++ d :: ds)) r)
    (h : (nameUpTo? (d :: ds) body).map (fun name => (make name, name.length + extra))
      = some (lexeme, n)) :
    ∃ t r, before ++ body = t ++ r ∧ n = t.length ∧ Spelled s scope lexeme t r := by
  obtain ⟨name, hname, he⟩ := Option.map_eq_some_iff.mp h
  obtain ⟨isName, r, rfl⟩ := (nameUpTo?_eq_some_iff hd).mp hname
  simp only [Prod.mk.injEq] at he
  obtain ⟨rfl, rfl⟩ := he
  exact ⟨_, r, by simp, by simp [hextra]; omega, hmake name r isName⟩

/-- A lexeme that is found is spelled by as many characters as it is said to take. -/
theorem spelled_of_scan? {n : Nat} (h : scan? s scope cs = some (lexeme, n)) :
    ∃ t r, cs = t ++ r ∧ n = t.length ∧ Spelled s scope lexeme t r := by
  fun_cases scan? s scope cs with
  | case1 _ body =>
    simp only [scan?] at h
    split at h
    · next hb =>
      exact spelled_name ['\x7b', '\x7b'] rfl rfl (fun name r hn => .subpattern hb hn) h
    · simp at h
  | case2 _ body => exact spelled_number h
  | case3 _ _ => simp [scan?] at h
  | case4 body =>
    exact spelled_name ['\\', 'k', '<'] rfl rfl
      (fun name r hn => .namedReference hn) h
  | case5 _ body hk =>
    simp only [scan?] at h
    exact spelled_number h
  | case6 tail =>
    obtain ⟨rfl, rfl⟩ : emptyClass false = lexeme ∧ 2 = n := by simpa [scan?] using h
    exact ⟨['[', ']'], tail, rfl, rfl, .emptyClass⟩
  | case7 tail =>
    obtain ⟨rfl, rfl⟩ : emptyClass true = lexeme ∧ 3 = n := by simpa [scan?] using h
    exact ⟨['[', '^', ']'], tail, rfl, rfl, .fullClass⟩
  | case8 body =>
    obtain ⟨m, hm, he⟩ := Option.map_eq_some_iff.mp h
    obtain ⟨t, r, rfl, hclosed, rfl⟩ := findIdx?_eq_some_iff_append.mp hm
    obtain ⟨rfl, rfl⟩ : comment = lexeme ∧ t.length + 4 = n := by simpa using he
    exact ⟨'(' :: '?' :: '#' :: (t ++ [')']), r, by simp, by simp, .comment hclosed⟩
  | case9 body =>
    exact spelled_name ['(', '?', '<'] rfl rfl (fun name r hn => .namedGroup hn) h
  | case10 body =>
    exact spelled_name ['(', '?', 'P', '<'] rfl rfl
      (fun name r hn => .markedGroup hn) h
  | case11 body _ _ _ hs =>
    simp only [scan?, hs, if_true] at h
    exact spelled_name ['(', '?'] rfl rfl (fun name r hn => .modifier hs hn) h
  | case12 body _ _ _ hs => simp [scan?, hs] at h
  | case13 tail _ _ _ hq =>
    obtain ⟨rfl, rfl⟩ : group = lexeme ∧ 1 = n := by simpa [scan?] using h
    refine ⟨['('], tail, rfl, rfl, .group ?_⟩
    intro he
    obtain ⟨rest, rfl⟩ := List.head?_eq_some_iff.mp he
    exact hq rest rfl
  | case14 tail hs =>
    obtain ⟨rfl, rfl⟩ : dot = lexeme ∧ 1 = n := by simpa [scan?, hs] using h
    exact ⟨['.'], tail, rfl, rfl, .dot hs⟩
  | case15 tail hs => simp [scan?, hs] at h
  | case16 | case17 =>
    have hs : s.spaced = true := ‹_›
    exact spelled_spacing hs (by simpa [scan?, hs] using h)
  | case18 => simp_all [scan?]

/-- Characters that start a lexeme whatever the settings are. -/
def starters : List Char := ['\x7b', '\\', '[', '(', '.']

theorem scan?_of_not_mem_starters {c : Char} (hc : c ∉ starters) :
    Lexeme.scan? s .outside (c :: r) =
      if s.spaced = true then
        if spacingLength false (c :: r) = 0 then none
        else some (.spacing, spacingLength false (c :: r))
      else none := by
  simp only [starters, List.mem_cons, List.not_mem_nil, or_false, not_or] at hc
  simp [Lexeme.scan?, hc]

theorem spacingLength_comment :
    spacingLength false ('#' :: r) = 1 + spacingLength true r := by
  have hb : isBlank '#' = false := by decide
  simp [spacingLength, hb]

theorem isBlank_or_eq_of_spacingLength_pos {c : Char}
    (h : 0 < spacingLength false (c :: r)) : isBlank c = true ∨ c = '#' := by
  by_cases hb : isBlank c = true
  · exact .inl hb
  · by_cases hc : c = '#'
    · exact .inr hc
    · simp [spacingLength, hb, hc] at h

theorem spacingLength_eq_zero {c : Char} (h : ¬(isBlank c = true ∨ c = '#')) :
    spacingLength false (c :: r) = 0 := by
  rcases Nat.eq_zero_or_pos (spacingLength false (c :: r)) with hz | hpos
  · exact hz
  · exact absurd (isBlank_or_eq_of_spacingLength_pos hpos) h

theorem not_mem_starters_of_isBlank_or {c : Char} (h : isBlank c = true ∨ c = '#') :
    c ∉ starters := by
  intro hc
  simp only [starters, List.mem_cons, List.not_mem_nil, or_false] at hc
  rcases hc with rfl | rfl | rfl | rfl | rfl <;> exact absurd h (by decide)

theorem nameUpTo?_append {d : Char} {name : List Char} (hd : Flags.isFlagChar d = false)
    (isName : IsName name) : nameUpTo? [d] (name ++ d :: r) = some name :=
  (nameUpTo?_eq_some_iff hd).mpr ⟨isName, r, rfl⟩

private theorem scan?_number {digits : List Char} (nonempty : digits ≠ [])
    (areDigits : AreDigits digits) (apart : r.head?.any Char.isDigit = false) :
    scan? s scope ('\\' :: (digits ++ r)) =
      some (.numberedReference digits, digits.length + 1) := by
  have ht : (digits ++ r).takeWhile Char.isDigit = digits := takeWhile_append_eq areDigits apart
  -- The scan tries a reference by name before one by number.
  have hk : ∀ rest, digits ++ r = 'k' :: '<' :: rest → False := by
    intro rest he
    obtain ⟨d, ds, rfl⟩ := List.exists_cons_of_ne_nil nonempty
    simp only [List.cons_append, List.cons.injEq] at he
    have hd := areDigits d (by simp)
    rw [he.1] at hd
    exact absurd hd (by decide)
  cases scope with
  | outside => simp [Lexeme.scan?, ht, nonempty]; omega
  | inClass => simp [Lexeme.scan?, ht, nonempty]; omega

/-- The opener of a modifier is not that of a comment or of a named group. -/
private theorem scan?_modifier {flags : List Char} (atStart : s.atStart = true)
    (isName : IsName flags) :
    scan? s .outside ('(' :: '?' :: (flags ++ ')' :: r)) =
      some (.modifier flags, flags.length + 3) := by
  have hn := nameUpTo?_append (d := ')') (r := r) rfl isName
  obtain ⟨f, fs, rfl⟩ := List.exists_cons_of_ne_nil isName.1
  have hf := isName.2 f (by simp)
  have hs : f ≠ '#' := by rintro rfl; exact absurd hf (by decide)
  have hl : f ≠ '<' := by rintro rfl; exact absurd hf (by decide)
  have hp : ∀ rest, f :: fs ++ ')' :: r = 'P' :: '<' :: rest → False := by
    intro rest he
    cases fs with
    | nil => simp at he
    | cons g gs =>
      have hg := isName.2 g (by simp)
      simp only [List.cons_append, List.cons.injEq] at he
      rw [he.2.1] at hg
      exact absurd hg (by decide)
  simp only [List.cons_append] at hn hp
  simp [Lexeme.scan?, atStart, hn, hs, hl]

/-- Where a lexeme is spelled it is found. -/
theorem Spelled.scan? (h : Spelled s scope lexeme t r) :
    scan? s scope (t ++ r) = some (lexeme, t.length) := by
  cases h with
  | @subpattern _ name _ building isName =>
    have hn : nameUpTo? ['\x7d', '\x7d'] (name ++ '\x7d' :: ('\x7d' :: r)) = some name :=
      (nameUpTo?_eq_some_iff rfl).mpr ⟨isName, r, rfl⟩
    cases scope <;> simp [Lexeme.scan?, building, hn]
  | numberedReference nonempty areDigits apart => exact scan?_number nonempty areDigits apart
  | namedReference isName => simp [Lexeme.scan?, nameUpTo?_append (d := '>') rfl isName]
  | emptyClass => rfl
  | fullClass => rfl
  | @comment body _ closed =>
    have hf : (body ++ ')' :: r).findIdx? (· == ')') = some body.length :=
      findIdx?_eq_some_iff_append.mpr ⟨body, r, rfl, closed, rfl⟩
    simp [Lexeme.scan?, hf]
  | namedGroup isName => simp [Lexeme.scan?, nameUpTo?_append (d := '>') rfl isName]
  | markedGroup isName => simp [Lexeme.scan?, nameUpTo?_append (d := '>') rfl isName]
  | modifier atStart isName => simpa using scan?_modifier atStart isName
  | group bare =>
    cases r with
    | nil => rfl
    | cons c r =>
      have hc : c ≠ '?' := by simpa using bare
      simp [Lexeme.scan?, hc]
  | dot dotAll => simp [Lexeme.scan?, dotAll]
  | spacing spaced nonempty length =>
    obtain ⟨c, t, rfl⟩ := List.exists_cons_of_ne_nil nonempty
    rw [List.cons_append] at length ⊢
    have hpos : 0 < spacingLength false (c :: (t ++ r)) := by simp [length]
    have hc := not_mem_starters_of_isBlank_or (isBlank_or_eq_of_spacingLength_pos hpos)
    rw [scan?_of_not_mem_starters hc, if_pos spaced, if_neg (by omega), length]

end Lexeme

end Patterns.Extended
