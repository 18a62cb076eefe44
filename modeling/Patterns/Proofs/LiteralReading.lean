import Patterns.Proofs.Copying
import Patterns.Proofs.Literals
import Patterns.Proofs.Modes

/-!
# Escaped text as a plain pattern

The reader of plain patterns takes escaped text for the characters of the text, one behind the
other. So the text itself is what a search for it looks for.
-/
namespace Patterns
open Patterns.Text Patterns.Extended Patterns.Plain

namespace Plain

namespace Expr

variable (t : List Char)

/-- The characters of a text, one behind the other. -/
def ofText : Expr := .ofList (t.map (.char · false))

private theorem shapeIn_chars (referenced : List Nat) :
    concatShape referenced (t.map (.char · false)) = ⟨t.length, true, true⟩ := by
  induction t with
  | nil => rfl
  | cons c t ih => simp [concatShape, ih, shape, Shape.append, Shape.one, Nat.add_comm]

theorem shape_ofText (referenced : List Nat) :
    (ofText t).shape referenced = ⟨t.length, true, true⟩ := by
  rcases t with _ | ⟨c, _ | ⟨d, t⟩⟩
  · rfl
  · rfl
  · exact shapeIn_chars (c :: d :: t) referenced

private theorem groupsIn_chars : groupsIn (t.map (.char · false)) = [] := by
  induction t with
  | nil => rfl
  | cons c t ih => simpa [groupsIn, groups] using ih

theorem groups_ofText : (ofText t).groups = [] := by
  rcases t with _ | ⟨c, _ | ⟨d, t⟩⟩
  · rfl
  · rfl
  · exact groupsIn_chars _

private theorem countsInOrderIn_chars : countsInOrderIn (t.map (.char · false)) = true := by
  induction t with
  | nil => rfl
  | cons c t ih => exact (Bool.true_and _).trans ih

theorem countsInOrder_ofText : (ofText t).countsInOrder = true := by
  rcases t with _ | ⟨c, _ | ⟨d, t⟩⟩
  · rfl
  · rfl
  · exact countsInOrderIn_chars _

private theorem weight_char_le (c : Char) : (char c false).weight ≤ 128 := by
  have hsize := c.utf8Size_le_four
  simp only [weight, CharSet.foldIf, CharSet.single, CharSet.weight, Bool.false_eq_true, if_false,
    beq_self_eq_true, if_true]
  split <;> omega

private theorem weightIn_chars_le : weightIn (t.map (.char · false)) ≤ 160 * t.length + 32 := by
  induction t with
  | nil => exact Nat.le_refl _
  | cons c t ih =>
    have hchar := weight_char_le c
    simp only [List.map_cons, weightIn, List.length_cons]
    omega

theorem weight_ofText_le : (ofText t).weight ≤ 160 * t.length + 32 := by
  rcases t with _ | ⟨c, _ | ⟨d, t⟩⟩
  · exact Nat.le_refl _
  · have hchar := weight_char_le c
    change (char c false).weight ≤ 192
    omega
  · exact weightIn_chars_le (c :: d :: t)

theorem text?_ofText {t : List Char} (h : t ≠ []) : (ofText t).text? = some t := by
  rcases t with _ | ⟨c, _ | ⟨d, t⟩⟩
  · exact absurd rfl h
  · rfl
  · change text? (.concat ((c :: d :: t).map (.char · false))) = _
    rw [text?]
    induction c :: d :: t with
    | nil => rfl
    | cons c u ih => simp [ih]

/-- The last of the characters is not a look ahead. -/
theorem exposeLast_ofText : (ofText t).exposeLast = ofText t := by
  rcases t with _ | ⟨c, _ | ⟨d, t⟩⟩
  · rfl
  · rfl
  · change exposeLast (.concat ((c :: d :: t).map (.char · false))) = _
    rw [exposeLast, List.getLast?_map]
    cases (c :: d :: t).getLast? <;> rfl

end Expr

namespace Reader

variable {r : Reader} {c : Char} {t rest : List Char} (fuel depth : Nat)

/-- A reader that takes every character as it stands. -/
structure IsBare (r : Reader) : Prop where
  unspaced : r.modes.spaced = false
  heedsCase : (r.modes.anyCase || r.throughout.anyCase) = false

theorem skipBlanks_of_ne (hc : c ≠ '(') : skipBlanks false (c :: rest) = some (c :: rest) := by
  rw [skipBlanks.eq_def]
  simp [hc]

section Escapes

variable (rest)

theorem run_escape_mark (hc : c ∈ Literal.metacharacters) :
    escape.run { r with rest := c :: rest } =
      some (.char c r.throughout.anyCase, { r with rest }) := by
  simp only [Literal.metacharacters, List.mem_cons, List.not_mem_nil, or_false] at hc
  rcases hc with rfl | rfl | rfl | rfl | rfl | rfl | rfl | rfl | rfl | rfl | rfl | rfl | rfl | rfl |
    rfl | rfl | rfl | rfl <;> rfl

theorem length_codeDigits_le (c : Char) : (Literal.codeDigits c.toNat).length ≤ 8 := by
  have hc : c.toNat < 16 ^ 8 := by
    rcases c.valid with h | h
    · exact Nat.lt_trans h (by decide)
    · exact Nat.lt_trans h.2 (by decide)
  rw [Literal.codeDigits, List.length_map]
  exact Nat.toDigits_length _ _ _ (by decide) hc

theorem hexChar?_code (c : Char) (width : Nat) :
    hexChar? (width + 1) ('\x7b' :: (Literal.codeDigits c.toNat ++ '\x7d' :: rest)) =
      some (c, rest) := by
  have hdigits : (Literal.codeDigits c.toNat ++ '\x7d' :: rest).takeWhile isHexDigit =
      Literal.codeDigits c.toNat :=
    takeWhile_append_eq Literal.isHex_of_mem_codeDigits
      (by simp [show isHexDigit '\x7d' = false by decide])
  have hvalid : c.toNat.isValidChar := c.valid
  simp only [hexChar?, List.take_succ_cons, List.all_cons, show isHexDigit '\x7b' = false by decide,
    Bool.false_and, Bool.and_false, Bool.false_eq_true, if_false, hdigits, List.drop_left]
  simp [Literal.codeDigits_ne_nil, Nat.not_lt.mpr (length_codeDigits_le c),
    Literal.hexValue_codeDigits, scalar?, hvalid]

theorem run_escape_code (c : Char) :
    escape.run { r with rest := 'x' :: '\x7b' :: (Literal.codeDigits c.toNat ++ '\x7d' :: rest) } =
      some (.char c (r.modes.anyCase || r.throughout.anyCase), { r with rest }) := by
  simp [escape, commonEscape, commonEscape.hex, run_peek, run_setRest, hexChar?_code, literal,
    run_ignoresCase]

end Escapes

section Texts

/-- Escaped text starts with a backslash, or with a character that means nothing else. -/
theorem head?_escapeList :
    ∀ c ∈ (Literal.escapeList t).head?, c = '\\' ∨ c ∉ Literal.metacharacters := by
  cases t with
  | nil => simp [Literal.escapeList]
  | cons d t =>
    rw [Literal.escapeList, List.flatMap_cons]
    rcases escapeChar_cases d with ⟨u, hu⟩ | ⟨hd, -, hmeta⟩
    · rw [hu]
      simp
    · rw [hd]
      simpa using .inr hmeta

theorem skipBlanks_escapeList :
    skipBlanks false (Literal.escapeList t) = some (Literal.escapeList t) := by
  have hhead := head?_escapeList (t := t)
  cases h : Literal.escapeList t with
  | nil => rw [skipBlanks]
  | cons c rest =>
    rw [h] at hhead
    refine skipBlanks_of_ne ?_
    rintro rfl
    exact absurd (hhead _ rfl) (by decide)

theorem quantifier?_escapeList : quantifier? false (Literal.escapeList t) = none := by
  have hhead := head?_escapeList (t := t)
  unfold quantifier?
  split
  case h_5 => rfl
  all_goals
    next h =>
      rw [h] at hhead
      exact absurd (hhead _ rfl) (by decide)

theorem run_quantified (bare : r.IsBare) (e : Expr) :
    (quantified e).run { r with rest := Literal.escapeList t } =
      some (e, { r with rest := Literal.escapeList t }) := by
  have hskip : skipBlanks r.modes.spaced (Literal.escapeList t) = some (Literal.escapeList t) := by
    rw [bare.unspaced, skipBlanks_escapeList]
  simp [quantified, run_blanks (r := r) hskip, bare.unspaced, quantifier?_escapeList]

/-- One escaped character is read as that character. -/
theorem run_piece (bare : r.IsBare) (c : Char) :
    (piece (fuel + 1) depth).run { r with rest := Literal.escapeList (c :: t) } =
      some (.char c false, { r with rest := Literal.escapeList t }) := by
  have hskip : skipBlanks r.modes.spaced (Literal.escapeList (c :: t)) =
      some (Literal.escapeList (c :: t)) := by
    rw [bare.unspaced, skipBlanks_escapeList]
  have hcons : Literal.escapeList (c :: t) = Literal.escapeChar c ++ Literal.escapeList t :=
    List.flatMap_cons
  have hquantified := run_quantified (t := t) bare (.char c false)
  obtain ⟨-, hcase⟩ := bare
  rw [Bool.or_eq_false_iff] at hcase
  simp only [piece, StateT.run_bind, run_blanks (r := r) hskip, run_peek, Option.bind_eq_bind,
    Option.bind_some]
  by_cases hblank : (isBlank c && c != ' ') = true
  · rw [hcons, Literal.escapeChar_eq_code hblank]
    simp only [List.cons_append, List.append_assoc, List.nil_append]
    have hescape := run_escape_code (r := r) (Literal.escapeList t) c
    simp only [hcase.1, hcase.2, Bool.or_self] at hescape
    simp [run_setRest, hescape, hquantified]
  · by_cases hmeta : c ∈ Literal.metacharacters
    · have hescape := run_escape_mark (r := r) (Literal.escapeList t) hmeta
      rw [hcase.2] at hescape
      rw [hcons, Literal.escapeChar, if_neg hblank, if_pos (by simpa using hmeta)]
      simp [run_setRest, hescape, hquantified]
    · rw [hcons, Literal.escapeChar, if_neg hblank, if_neg (by simpa using hmeta)]
      have hother {d : Char} (hd : d ∈ Literal.metacharacters) : c ≠ d := fun h => hmeta (h ▸ hd)
      simp only [List.cons_append, List.nil_append]
      -- The characters that start anything else are all among those that are escaped.
      split
      all_goals first
        | exact absurd rfl (hother (by decide))
        | simp [run_setRest, literal, run_ignoresCase, hcase.1, hcase.2, hquantified]

theorem length_escapeList_lt (c : Char) (t : List Char) :
    (Literal.escapeList t).length < (Literal.escapeList (c :: t)).length := by
  have hpos := List.length_pos_iff.mpr (escapeChar_ne_nil c)
  rw [show Literal.escapeList (c :: t) = Literal.escapeChar c ++ Literal.escapeList t from
    List.flatMap_cons, List.length_append]
  omega

/-- Escaped text is read as its characters, one behind the other. -/
theorem run_sequence (bare : r.IsBare) (found : List Expr) (enough : t.length < fuel) :
    (sequence fuel depth found).run { r with rest := Literal.escapeList t } =
      some (.ofList (found.reverse ++ t.map (.char · false)), { r with rest := [] }) := by
  induction t generalizing fuel found with
  | nil =>
    obtain ⟨fuel, rfl⟩ := Nat.exists_eq_succ_of_ne_zero (Nat.ne_zero_of_lt enough)
    simp [sequence, run_peek, Literal.escapeList]
  | cons c t ih =>
    obtain ⟨fuel, rfl⟩ := Nat.exists_eq_succ_of_ne_zero (Nat.ne_zero_of_lt enough)
    have henough : t.length < fuel := Nat.lt_of_succ_lt_succ enough
    obtain ⟨fuel, rfl⟩ := Nat.exists_eq_succ_of_ne_zero (Nat.ne_zero_of_lt henough)
    have hshorter := length_escapeList_lt c t
    have hsome : (Literal.escapeList (c :: t)).isEmpty = false := by
      rw [List.isEmpty_eq_false_iff, ← List.length_pos_iff]
      omega
    have hpiece := run_piece (t := t) fuel depth bare c
    have hothers := ih (fuel + 1) (.char c false :: found) henough
    rw [sequence]
    simp only [StateT.run_bind, run_peek, Option.bind_eq_bind, Option.bind_some, hsome,
      Bool.false_eq_true, if_false, hpiece, Nat.ne_of_lt hshorter, beq_iff_eq, Expr.isEmpty,
      hothers]
    simp

theorem run_alternatives (bare : r.IsBare) (unnumbered : r.numbered = false)
    (enough : t.length < fuel) :
    (alternatives (fuel + 1) depth).run { r with rest := Literal.escapeList t } =
      some (.ofText t, { r with rest := [] }) := by
  have hskip : skipBlanks r.modes.spaced [] = some [] := by
    rw [skipBlanks]
  have hsequence := run_sequence fuel depth bare [] enough
  rw [alternatives]
  simp only [StateT.run_bind, hsequence, run_blanks (r := r) hskip, run_peek, Option.bind_eq_bind,
    Option.bind_some]
  simp [unnumbered, Expr.ofText]

end Texts

end Reader

/-- Escaped text is read as its characters, whatever is said about the ends of lines. -/
theorem readPattern_escape (t : String) (multiline : Bool) (throughout : Throughout)
    (heedsCase : throughout.anyCase = false) :
    readPattern (Literal.escape t) false multiline throughout =
      some ⟨.ofText t.toList, 0, [], []⟩ := by
  have hescape : (Literal.escape t).toList = Literal.escapeList t.toList := by simp [Literal.escape]
  let start : Reader := { rest := [], modes := { multiline }, throughout
                          referenceLimit := (Literal.escape t).utf8ByteSize / 2 }
  have henough : t.toList.length < 8 * (Literal.escapeList t.toList).length + 15 := by
    have hlength := Literal.length_le_escapeList t.toList
    omega
  have hread : (Reader.alternatives (8 * (Literal.escapeList t.toList).length + 16) 0).run
      { start with rest := Literal.escapeList t.toList } =
        some (.ofText t.toList, { start with rest := [] }) :=
    Reader.run_alternatives _ 0 ⟨rfl, heedsCase⟩ rfl henough
  simp [readPattern, hescape, start, hread, Expr.exposeLast_ofText]

/-- What searches for a text. -/
def Engine.ofText : List Char → Engine
  | [] => .automaton (.ofExpr .empty false)
  | t => .text t

def Regex.ofText (t : List Char) : Regex := ⟨.ofText t, 0, []⟩

/-- Escaped text is searched for as text, unless it is too large. -/
theorem compile?_escape (t : String) :
    Regex.compile? (Literal.escape t) false false =
      if (Expr.ofText t.toList).weight ≤ Automaton.maxWeight then some (.ofText t.toList)
      else none := by
  have hread := readPattern_escape t false {} rfl
  simp only [Regex.compile?, hread, Option.bind_eq_bind, Option.bind_some, Expr.shape_ofText,
    if_true, Automaton.ofExpr?, Expr.countsInOrder_ofText, Bool.true_and, decide_eq_true_eq,
    Expr.groups_ofText]
  split
  · cases h : t.toList with
    | nil => rfl
    | cons c cs =>
      rw [Option.bind_some, Expr.text?_ofText (List.cons_ne_nil c cs)]
      rfl
  · rfl

end Plain

namespace Matcher

variable {t : String} {m : Matcher}

theorem eq_of_literal (h : literal t = .ok m) :
    m.body = .ofText t.toList ∧ m.sticky = false ∧ m.global = false := by
  obtain ⟨fl, hfl, hbuild⟩ := plain_eq_ok_iff.mp h
  obtain rfl : fl = {} := (Except.ok.inj hfl).symm
  obtain ⟨hsource, hflags, -⟩ := eq_of_build hbuild
  have hbody := m.body_eq
  rw [hsource, hflags, compilePlain?, compile?_escape] at hbody
  split at hbody
  · exact ⟨(Option.some.inj hbody).symm, congrArg PlainFlags.sticky hflags,
      congrArg PlainFlags.global hflags⟩
  · cases hbody

/-- Texts of up to 65535 characters are not too large. -/
theorem exists_literal (h : t.toList.length ≤ 65535) : ∃ m, literal t = .ok m := by
  have hweight := Expr.weight_ofText_le t.toList
  have hbody : compilePlain? (Literal.escape t) {} = some (.ofText t.toList) := by
    rw [compilePlain?, compile?_escape, if_pos]
    simp only [Automaton.maxWeight]
    omega
  obtain ⟨m, hm, -⟩ := exists_plain (Literal.escape t) "" {} rfl (by rw [hbody]; rfl)
  exact ⟨m, hm⟩

end Matcher

end Patterns
