import Patterns.Matcher
import Patterns.Proofs.Lexemes

/-!
# Modes at the front of a plain pattern

A plain pattern that starts with a parenthesis, a question mark, and a name up to the next
parenthesis sets modes there. Modes are letters, so it is refused where the name has something
else.
-/
namespace Patterns.Plain
open Patterns.Extended

namespace Reader

variable {r : Reader} {name rest : List Char} {c d : Char}

theorem run_blanks {cs : List Char} (h : skipBlanks r.modes.spaced cs = some rest) :
    blanks.run { r with rest := cs } = some ((), { r with rest }) := by
  simp [blanks, h]

theorem run_peek : peek.run r = some (r.rest, r) := rfl

theorem run_setRest : (setRest rest).run r = some ((), { r with rest }) := rfl

theorem run_ignoresCase : ignoresCase.run r = some (r.modes.anyCase || r.throughout.anyCase, r) :=
  rfl

private theorem ne_of_isFlagChar (hc : Flags.isFlagChar c = true)
    (hd : Flags.isFlagChar d = false) : c ≠ d := by
  rintro rfl
  simp [hc] at hd

private theorem skipBlanks_of_isFlagChar {spaced : Bool} (hc : Flags.isFlagChar c = true) :
    skipBlanks spaced (c :: rest) = some (c :: rest) := by
  have ne {d : Char} (hd : Flags.isFlagChar d = false) : c ≠ d := ne_of_isFlagChar hc hd
  rw [skipBlanks.eq_def]
  simp [ne (d := '(') rfl, ne (d := '#') rfl, ne (d := ' ') rfl, ne (d := '\r') rfl,
    ne (d := '\n') rfl, ne (d := '\t') rfl]

private theorem skipBlanks_mark : skipBlanks false ('?' :: rest) = some ('?' :: rest) := by
  rw [skipBlanks.eq_def]
  rfl

private theorem skipBlanks_parenthesis (hc : c ≠ '#') :
    skipBlanks false ('(' :: '?' :: c :: rest) = some ('(' :: '?' :: c :: rest) := by
  rw [skipBlanks.eq_def]
  simp [hc]

theorem isAlpha_of_setMode {on : Bool} {m m' : Modes} (h : setMode c on m = some m') :
    c.isAlpha = true := by
  unfold setMode at h
  split at h
  · decide
  · decide
  · decide
  · decide
  · decide
  · decide
  · cases h

theorem modeLetters_eq_none {fuel count : Nat} {negated hyphen : Bool}
    (isName : ∀ c ∈ name, Flags.isFlagChar c = true) (hname : ∃ c ∈ name, c.isAlpha = false) :
    (modeLetters fuel count negated hyphen).run { r with rest := name ++ rest } = none := by
  induction fuel generalizing count negated hyphen name r with
  | zero => rfl
  | succ fuel ih =>
    cases name with
    | nil => simp at hname
    | cons c name =>
      rw [List.forall_mem_cons] at isName
      have hskip : skipBlanks r.modes.spaced (c :: (name ++ rest)) = some (c :: (name ++ rest)) :=
        skipBlanks_of_isFlagChar isName.1
      simp only [modeLetters, List.cons_append, StateT.run_bind, run_blanks (r := r) hskip,
        run_peek, run_setRest, Option.bind_eq_bind, Option.bind_some]
      split
      · exact absurd isName.1 (by decide)
      · exact absurd isName.1 (by decide)
      · exact absurd isName.1 (by decide)
      · cases hset : setMode c (!negated) r.modes with
        | none => simp [hset]
        | some modes =>
          have hrest : ∃ c ∈ name, c.isAlpha = false := by
            simpa [isAlpha_of_setMode hset] using hname
          simpa [hset] using ih (r := { r with modes }) isName.2 hrest

theorem group_eq_none (fuel depth : Nat) (unspaced : r.modes.spaced = false) (isName : IsName name)
    (hname : ∃ c ∈ name, c.isAlpha = false) :
    (group fuel depth).run { r with rest := '?' :: (name ++ ')' :: rest) } = none := by
  cases fuel with
  | zero => simp [group]
  | succ fuel =>
    obtain ⟨c, cs, rfl⟩ := List.exists_cons_of_ne_nil isName.1
    have hletters (n : Nat) : (modeLetters n 0 false false).run
        { r with rest := c :: (cs ++ ')' :: rest) } = none := modeLetters_eq_none isName.2 hname
    have impossible {d : Char} {u : List Char} (hd : Flags.isFlagChar d = false)
        (h : '?' :: (c :: cs ++ ')' :: rest) = '?' :: d :: u) : False :=
      ne_of_isFlagChar (isName.2 c (by simp)) hd (List.cons.inj (List.cons.inj h).2).1
    have unmarked {d : Char} {u : List Char} (hd : Flags.isFlagChar d = false) (hclose : ')' ≠ d)
        (h : '?' :: (c :: cs ++ ')' :: rest) = '?' :: 'P' :: d :: u) : False := by
      have hd' := (List.cons.inj (List.cons.inj h).2).2
      cases cs with
      | nil => exact hclose (List.cons.inj hd').1
      | cons a cs => exact ne_of_isFlagChar (isName.2 a (by simp)) hd (List.cons.inj hd').1
    have hskip : skipBlanks r.modes.spaced ('?' :: (c :: cs ++ ')' :: rest)) =
        some ('?' :: (c :: cs ++ ')' :: rest)) := by
      rw [unspaced]
      exact skipBlanks_mark
    simp only [group]
    by_cases hdepth : depth > maxDepth
    · simp [hdepth]
    · simp only [if_neg hdepth, StateT.run_bind, run_blanks (r := r) hskip, run_peek,
        Option.bind_eq_bind, Option.bind_some]
      split
      · next h => exact (impossible rfl h).elim
      · next h => exact (impossible rfl h).elim
      · next h => exact (impossible rfl h).elim
      · next h => exact (impossible rfl h).elim
      · next h => exact (impossible rfl h).elim
      · next h => exact (impossible rfl h).elim
      · next h => exact (unmarked rfl (by decide) h).elim
      · next h => exact (unmarked rfl (by decide) h).elim
      · next h => exact (impossible rfl h).elim
      · next h => exact (impossible rfl h).elim
      · next h =>
        obtain rfl := (List.cons.inj h).2
        simp [run_setRest, hletters]
      · next h => exact (h _ rfl).elim

theorem piece_eq_none (fuel depth : Nat) (unspaced : r.modes.spaced = false) (isName : IsName name)
    (hname : ∃ c ∈ name, c.isAlpha = false) :
    (piece fuel depth).run { r with rest := '(' :: '?' :: (name ++ ')' :: rest) } = none := by
  cases fuel with
  | zero => simp [piece]
  | succ fuel =>
    have hskip : skipBlanks r.modes.spaced ('(' :: '?' :: (name ++ ')' :: rest)) =
        some ('(' :: '?' :: (name ++ ')' :: rest)) := by
      obtain ⟨c, cs, rfl⟩ := List.exists_cons_of_ne_nil isName.1
      rw [unspaced]
      exact skipBlanks_parenthesis (ne_of_isFlagChar (isName.2 c (by simp)) rfl)
    have hgroup : (group fuel (depth + 1)).run { r with rest := '?' :: (name ++ ')' :: rest) } =
        none := group_eq_none _ _ unspaced isName hname
    simp [piece, run_blanks (r := r) hskip, run_peek, run_setRest, hgroup]

theorem alternatives_eq_none (fuel depth : Nat) (unspaced : r.modes.spaced = false)
    (isName : IsName name) (hname : ∃ c ∈ name, c.isAlpha = false) :
    (alternatives fuel depth).run { r with rest := '(' :: '?' :: (name ++ ')' :: rest) } =
      none := by
  have hpiece (n : Nat) : (piece n depth).run
      { r with rest := '(' :: '?' :: (name ++ ')' :: rest) } = none :=
    piece_eq_none _ _ unspaced isName hname
  cases fuel with
  | zero => simp [alternatives]
  | succ fuel =>
    cases fuel with
    | zero => simp [alternatives, sequence]
    | succ fuel => simp [alternatives, sequence, run_peek, hpiece]

end Reader

/-- Mode letters are letters. -/
theorem compile?_eq_none {source : String} {anyCase multiline : Bool} {name rest : List Char}
    (hsource : source.toList = '(' :: '?' :: (name ++ ')' :: rest)) (isName : IsName name)
    (hname : ∃ c ∈ name, c.isAlpha = false) : Regex.compile? source anyCase multiline = none := by
  have hread : readPattern source anyCase multiline {} = none := by
    let start : Reader := { rest := [], modes := { anyCase, multiline }, throughout := {}
                            referenceLimit := source.utf8ByteSize / 2 }
    have h : (Reader.alternatives (8 * source.toList.length + 16) 0).run
        { start with rest := '(' :: '?' :: (name ++ ')' :: rest) } = none :=
      Reader.alternatives_eq_none _ _ rfl isName hname
    rw [← hsource] at h
    simp [readPattern, start, h]
  simp [Regex.compile?, hread]

end Patterns.Plain
