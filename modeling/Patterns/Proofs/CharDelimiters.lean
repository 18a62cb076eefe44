import Patterns.Proofs.Literals
import Patterns.Proofs.Skipping

/-!
# Delimiters of one character

Where two characters are the delimiters, and a third one may hide the character behind it, reading
that skips what has no partner keeps the texts of the outermost pairs that a stack finds in one
pass. Of the host this takes that a character is found where it stands next, and that what is hidden
is passed over with the text up to the next delimiter.
-/
namespace Patterns
open Patterns.Text Patterns.Brackets

variable {s : Subject} {i q : Nat} {a b c : Char} {mark : Option Char} {cs : List Char}

section Stack

/-- The characters of a text from position `i` on that no escape character hides. -/
def visible (mark : Option Char) : (i : Nat) → List Char → List (Nat × Char)
  | _, [] => []
  | i, c :: cs =>
    if mark = some c then
      match cs with
      | [] => []
      | _ :: cs => visible mark (i + 2) cs
    else (i, c) :: visible mark (i + 1) cs

/-- Where the pairs stand that a stack finds: each `b` closes the latest `a` that is open. A `b`
that closes nothing is passed over, and an `a` that stays open is dropped. -/
def stackPairs (a b : Char) : (opened : List Nat) → List (Nat × Char) → List (Nat × Nat)
  | _, [] => []
  | opened, (i, c) :: cs =>
    if c = a then stackPairs a b (i :: opened) cs
    else if c = b then
      match opened with
      | [] => stackPairs a b [] cs
      | o :: opened => (o, i) :: stackPairs a b opened cs
    else stackPairs a b opened cs

variable {o : Nat} {opened : List Nat} {rest : List (Nat × Char)}

theorem visible_lone (hmark : mark = some c) : visible mark i [c] = [] := by
  rw [visible.eq_def]
  exact if_pos hmark

theorem visible_mark (hmark : mark = some c) (c' : Char) :
    visible mark i (c :: c' :: cs) = visible mark (i + 2) cs := by
  rw [visible.eq_def]
  exact if_pos hmark

theorem visible_cons (hmark : mark ≠ some c) :
    visible mark i (c :: cs) = (i, c) :: visible mark (i + 1) cs := by
  rw [visible.eq_def]
  exact if_neg hmark

theorem stackPairs_left :
    stackPairs a b opened ((i, a) :: rest) = stackPairs a b (i :: opened) rest := by
  simp [stackPairs]

theorem stackPairs_right (h : a ≠ b) :
    stackPairs a b (o :: opened) ((i, b) :: rest) = (o, i) :: stackPairs a b opened rest := by
  simp [stackPairs, h.symm]

theorem stackPairs_stray (h : a ≠ b) :
    stackPairs a b [] ((i, b) :: rest) = stackPairs a b [] rest := by
  simp [stackPairs, h.symm]

theorem stackPairs_other (ha : c ≠ a) (hb : c ≠ b) :
    stackPairs a b opened ((i, c) :: rest) = stackPairs a b opened rest := by
  simp [stackPairs, ha, hb]

end Stack

namespace Matcher

variable {m : Matcher}

/-- A character is found where it stands next. -/
structure FindsChar (m : Matcher) (s : Subject) (c : Char) : Prop where
  first : m.FindsFirst s (m.anchoring s)
  here : ∀ q, (m.anchoring s q).map (·.val.stop) = if s.next? q = some c then some (q + 1) else none

namespace FindsChar

variable (h : m.FindsChar s c)
include h

theorem anchoring_eq_none (hq : s.next? q ≠ some c) : m.anchoring s q = none := by
  have hstop := h.here q
  rw [if_neg hq] at hstop
  exact Option.map_eq_none_iff.mp hstop

theorem exists_anchor (hq : s.next? q = some c) :
    ∃ f : Anchor s q, m.anchoring s q = some f ∧ f.val.stop = q + 1 := by
  have hstop := h.here q
  rw [if_pos hq] at hstop
  exact Option.map_eq_some_iff.mp hstop

theorem first_eq_succ (hq : s.next? q ≠ some c) :
    (m.anchoring s).first q = (m.anchoring s).first (q + 1) :=
  Anchoring.first_of_none (h.anchoring_eq_none hq)

theorem exists_first (hq : s.next? q = some c) :
    ∃ f, (m.anchoring s).first q = some f ∧ f.start = q := by
  obtain ⟨f, hf, hstop⟩ := h.exists_anchor hq
  have hle := f.val.stop_le
  exact ⟨f.val, Anchoring.first_of_some (by omega) hf, f.property⟩

theorem first_eq_none (hq : s.size ≤ q) : (m.anchoring s).first q = none := by
  refine Anchoring.first_eq_none_iff.mpr fun k hk hks => h.anchoring_eq_none ?_
  have hend : s.next? k = none := Array.getElem?_eq_none (by rw [← Subject.size]; omega)
  simp [hend]

theorem stop_of_first {f : Match s} (hf : (m.anchoring s).first i = some f) :
    f.stop = f.start + 1 ∧ m.find s f.start true = .ok (some f) := by
  obtain ⟨-, hanchor, -⟩ := Anchoring.exists_of_first hf
  refine ⟨?_, find_of_anchoring hanchor⟩
  have hstop := h.here f.start
  rw [hanchor] at hstop
  split at hstop
  · exact Option.some.inj hstop
  · cases hstop

end FindsChar

theorem findsChar_of_search (first : m.FindsFirst s (m.anchoring s))
    (h : (compilePlain? m.source m.flags).any (fun body => (List.range (s.size + 1)).all fun q =>
      (foundAt ((anchored? m.source m.flags body.groups).getD body) s q).map (·.stop) ==
        if s.next? q = some c then some (q + 1) else none) = true) : m.FindsChar s c := by
  refine ⟨first, fun q => ?_⟩
  rcases Nat.lt_or_ge s.size q with hq | hq
  · have hend : s.next? q = none := Array.getElem?_eq_none (Nat.le_of_lt hq)
    simp [anchoring, find_of_size_lt hq, hend]
  · rw [m.body_eq, Option.any_some, ← m.anchored_eq, List.all_eq_true] at h
    have hstop := eq_of_beq (h q (List.mem_range.mpr (Nat.lt_succ_of_le hq)))
    rw [← hstop]
    have hmap := congrArg (·.map fun f => f.stop) (m.map_anchoring (s := s) q)
    simp only [Option.map_map] at hmap
    exact hmap

end Matcher

namespace Delimiters

variable {d : Delimiters} {ms : List (Mark s)}

/-- Whether a delimiter stands at `q`. -/
def standsAt (s : Subject) (a b : Char) (q : Nat) : Bool :=
  s.next? q == some a || s.next? q == some b

/-- What an escape character hides is passed over, if there is an escape character. -/
def PassesHidden (d : Delimiters) (s : Subject) (a b : Char) : Option Char → Prop
  | none => d.escape = none
  | some e => ∃ m, d.escape = some m ∧ m.Skips s (· == e) (standsAt s a b)

/-- Two characters are the delimiters, and a third one may hide the character behind it. -/
structure Chars (d : Delimiters) (s : Subject) (a b : Char) (mark : Option Char) : Prop where
  distinct : a ≠ b
  unmarked : mark ≠ some a ∧ mark ≠ some b
  left : d.left.FindsChar s a
  right : d.right.FindsChar s b
  hidden : d.PassesHidden s a b mark

/-- Where the search for the next delimiter starts. -/
def searchStart (s : Subject) (a b : Char) (mark : Option Char) (i : Nat) : Nat :=
  match mark with
  | none => i
  | some e => runEnd (· == e) (standsAt s a b) i (s.toList.drop i)

/-- The first delimiter from `j` on. -/
def firstFrom (d : Delimiters) (s : Subject) (j : Nat) : Option (Side × Match s) :=
  earliest ((d.left.anchoring s).first j) ((d.right.anchoring s).first j)

theorem searchStart_of_size_le (hi : s.size ≤ i) : searchStart s a b mark i = i := by
  have hnil : s.toList.drop i = [] := List.drop_eq_nil_of_le (by rwa [Subject.length_toList])
  cases mark with
  | none => rfl
  | some e =>
    rw [searchStart, hnil]
    rfl

theorem eq_of_earliest {x y : Option (Match s)} {side : Side} {f : Match s}
    (h : earliest x y = some (side, f)) :
    side = .left ∧ x = some f ∨ side = .right ∧ y = some f := by
  cases x with
  | none => cases y <;> simp_all [earliest]
  | some g =>
    cases y with
    | none => simp_all [earliest]
    | some g' =>
      rw [earliest] at h
      split at h <;> simp_all

namespace Chars

variable (chars : d.Chars s a b mark)
include chars

theorem exists_seen (i : Nat) :
    ∃ m, d.seen s i = .ok m ∧ m.found? = d.firstFrom s (searchStart s a b mark i) := by
  obtain ⟨hj, hskip⟩ : ∃ hj, d.skipEscaped s i = .ok ⟨searchStart s a b mark i, hj⟩ := by
    have hidden := chars.hidden
    cases mark with
    | none =>
      refine ⟨Nat.le_refl i, ?_⟩
      rw [skipEscaped, show d.escape = none from hidden]
      rfl
    | some e =>
      obtain ⟨m, escape, skips⟩ := hidden
      rcases Nat.lt_or_ge s.size i with hi | hi
      · rw [searchStart_of_size_le (Nat.le_of_lt hi)]
        exact ⟨Nat.le_refl i, skipEscaped_of_size_lt hi⟩
      · exact exists_skipEscaped escape skips hi
  obtain ⟨m, hnext, hfound⟩ := exists_next chars.left.first chars.right.first
    (searchStart s a b mark i)
  refine ⟨m.weaken hj, ?_, ?_⟩
  · rw [seen, hskip]
    simp only [hnext, Except.map]
  · rw [Delimiter.found?_weaken, hfound]
    rfl

theorem single : d.Single s := by
  refine ⟨fun i f hseen => ?_⟩
  obtain ⟨m, hm, hfound⟩ := chars.exists_seen i
  obtain rfl : .left f = m := by simpa [hseen] using hm
  obtain ⟨-, hleft⟩ | ⟨hside, -⟩ := eq_of_earliest hfound.symm
  case inr => cases hside
  obtain ⟨hstop, hfind⟩ := chars.left.stop_of_first hleft
  refine ⟨hstop, ?_⟩
  cases hmode : d.unbalanced with
  | skip => rw [resumption_of_find hmode hfind (by omega), hstop]
  | refuse | skipLazy => rw [resumption, hmode]

theorem sees_nothing (h : d.firstFrom s (searchStart s a b mark i) = none) : d.Sees s i [] := by
  obtain ⟨m, hm, hfound⟩ := chars.exists_seen i
  rw [h] at hfound
  cases m with
  | none => exact .nothing hm
  | left f | right f => cases hfound

theorem sees_cons {f : Side × Match s} (h : d.firstFrom s (searchStart s a b mark i) = some f)
    (others : d.Sees s f.2.resume ms) : d.Sees s i (⟨f.1, f.2⟩ :: ms) := by
  obtain ⟨m, hm, hfound⟩ := chars.exists_seen i
  rw [h] at hfound
  cases m with
  | none => cases hfound
  | left g | right g =>
    obtain rfl := Option.some.inj hfound
    first
      | exact .left g hm others
      | exact .right g hm others

/-- What is seen is the same wherever the search for the next delimiter comes to the same. -/
theorem sees_of_eq (h : d.firstFrom s (searchStart s a b mark i) =
    d.firstFrom s (searchStart s a b mark q)) (sees : d.Sees s q ms) : d.Sees s i ms := by
  obtain ⟨m, hm, hfound⟩ := chars.exists_seen q
  cases sees with
  | nothing seen =>
    obtain rfl : Delimiter.none = m := Except.ok.inj (seen.symm.trans hm)
    exact chars.sees_nothing (h.trans hfound.symm)
  | left f seen others | right f seen others =>
    obtain rfl := Except.ok.inj (seen.symm.trans hm)
    exact chars.sees_cons (h.trans hfound.symm) others

end Chars

section Text

variable (hcs : s.toList.drop i = c :: cs)
include hcs

theorem next?_of_drop : s.next? i = some c := by
  have hhead := List.head?_drop (l := s.toList) (i := i)
  rw [hcs] at hhead
  simpa [Subject.next?, Subject.toList] using hhead.symm

theorem drop_succ : s.toList.drop (i + 1) = cs := by
  rw [← List.drop_drop, hcs]
  rfl

end Text

namespace Chars

variable (chars : d.Chars s a b mark) (hcs : s.toList.drop i = c :: cs)
include chars

theorem firstFrom_eq_none (hi : s.size ≤ i) : d.firstFrom s i = none := by
  rw [firstFrom, chars.left.first_eq_none hi, chars.right.first_eq_none hi]
  rfl

include hcs

/-- Nothing starts at a character that is not a delimiter. -/
theorem firstFrom_eq_succ (ha : c ≠ a) (hb : c ≠ b) : d.firstFrom s i = d.firstFrom s (i + 1) := by
  have hnext := next?_of_drop hcs
  rw [firstFrom, chars.left.first_eq_succ (by simpa [hnext] using ha),
    chars.right.first_eq_succ (by simpa [hnext] using hb)]
  rfl

theorem exists_firstFrom_left (ha : c = a) :
    ∃ f : Match s, d.firstFrom s i = some (.left, f) ∧ f.start = i ∧ f.stop = i + 1 := by
  obtain ⟨f, hf, hstart⟩ := chars.left.exists_first (ha ▸ next?_of_drop hcs)
  refine ⟨f, ?_, hstart, hstart ▸ (chars.left.stop_of_first hf).1⟩
  rw [firstFrom, hf]
  cases hr : (d.right.anchoring s).first i with
  | none => rfl
  | some g => exact if_pos (hstart ▸ (Anchoring.exists_of_first hr).1)

theorem exists_firstFrom_right (hb : c = b) :
    ∃ f : Match s, d.firstFrom s i = some (.right, f) ∧ f.start = i ∧ f.stop = i + 1 := by
  have hnext : s.next? i = some b := hb ▸ next?_of_drop hcs
  have ha : s.next? i ≠ some a := by simpa [hnext] using chars.distinct.symm
  obtain ⟨f, hf, hstart⟩ := chars.right.exists_first hnext
  refine ⟨f, ?_, hstart, hstart ▸ (chars.right.stop_of_first hf).1⟩
  rw [firstFrom, chars.left.first_eq_succ ha, hf]
  cases hl : (d.left.anchoring s).first (i + 1) with
  | none => rfl
  | some g =>
    have hbehind := (Anchoring.exists_of_first hl).1
    exact if_neg (by omega)

end Chars

section Starts

variable (hcs : s.toList.drop i = c :: cs)
include hcs

theorem standsAt_eq : standsAt s a b i = (c == a || c == b) := by
  rw [standsAt, next?_of_drop hcs]
  rfl

theorem searchStart_of_delimiter (hmark : mark ≠ some c) (hc : c = a ∨ c = b) :
    searchStart s a b mark i = i := by
  cases mark with
  | none => rfl
  | some e =>
    have hne : c ≠ e := fun h => hmark (h ▸ rfl)
    rw [searchStart, hcs]
    exact runEnd_of_here (by simpa using hne) (by simpa [standsAt_eq hcs] using hc)

end Starts

theorem searchStart_of_lone (hcs : s.toList.drop i = [c]) (hmark : mark = some c) :
    searchStart s a b mark i = i := by
  rw [hmark, searchStart, hcs]
  exact runEnd_lone (by simp)

theorem searchStart_of_mark {c' : Char} (hcs : s.toList.drop i = c :: c' :: cs)
    (hmark : mark = some c) : searchStart s a b mark i = searchStart s a b mark (i + 2) := by
  rw [hmark, searchStart, searchStart, hcs, drop_succ (drop_succ hcs)]
  exact runEnd_mark (by simp)

theorem Chars.firstFrom_searchStart_succ (chars : d.Chars s a b mark)
    (hcs : s.toList.drop i = c :: cs) (hmark : mark ≠ some c) (ha : c ≠ a) (hb : c ≠ b) :
    d.firstFrom s (searchStart s a b mark i) = d.firstFrom s (searchStart s a b mark (i + 1)) := by
  cases mark with
  | none => exact chars.firstFrom_eq_succ hcs ha hb
  | some e =>
    have hne : c ≠ e := fun h => hmark (h ▸ rfl)
    have hsame : searchStart s a b (some e) i = searchStart s a b (some e) (i + 1) := by
      rw [searchStart, searchStart, hcs, drop_succ hcs]
      exact runEnd_cons (by simpa using hne) (by simpa [standsAt_eq hcs] using ⟨ha, hb⟩)
    rw [hsame]

theorem Chars.sees_of_delimiter (chars : d.Chars s a b mark) (hcs : s.toList.drop i = c :: cs)
    (hmark : mark ≠ some c) (hc : c = a ∨ c = b) {side : Side} {f : Match s}
    (h : d.firstFrom s i = some (side, f)) (hstart : f.start = i) (hstop : f.stop = i + 1)
    (others : d.Sees s (i + 1) ms) : d.Sees s i (⟨side, f⟩ :: ms) := by
  have hseen : d.firstFrom s (searchStart s a b mark i) = some (side, f) := by
    rw [searchStart_of_delimiter hcs hmark hc, h]
  have hresume : f.resume = i + 1 := by rw [Match.resume_of_lt (by omega), hstop]
  exact chars.sees_cons hseen (hresume.symm ▸ others)

/-- The delimiters that reading sees come to the pairs that a stack finds in the text. -/
theorem Chars.exists_sees (chars : d.Chars s a b mark) (hcs : s.toList.drop i = cs) :
    ∃ ms, d.Sees s i ms ∧ ∀ opened, (allPairs opened ms).map place =
      stackPairs a b (opened.map (·.found.start)) (visible mark i cs) := by
  induction i, cs using visible.induct mark with
  | case1 i =>
    have hend : s.size ≤ i := by simpa [List.drop_eq_nil_iff] using hcs
    have hnone : d.firstFrom s (searchStart s a b mark i) = none := by
      rw [searchStart_of_size_le hend, chars.firstFrom_eq_none hend]
    exact ⟨[], chars.sees_nothing hnone, fun opened => rfl⟩
  | case2 i c hmark =>
    -- A lone escape character hides nothing, and is no delimiter either.
    have hend : s.size ≤ i + 1 := by simpa [List.drop_eq_nil_iff] using drop_succ hcs
    have hnone : d.firstFrom s (searchStart s a b mark i) = none := by
      rw [searchStart_of_lone hcs hmark, chars.firstFrom_eq_succ hcs ?_ ?_,
        chars.firstFrom_eq_none hend]
      · exact fun h => chars.unmarked.1 (h ▸ hmark)
      · exact fun h => chars.unmarked.2 (h ▸ hmark)
    refine ⟨[], chars.sees_nothing hnone, fun opened => ?_⟩
    rw [visible_lone hmark, stackPairs.eq_def]
    rfl
  | case3 i c hmark c' cs ih =>
    obtain ⟨ms, sees, hpairs⟩ := ih (drop_succ (drop_succ hcs))
    refine ⟨ms, chars.sees_of_eq ?_ sees, fun opened => ?_⟩
    · rw [searchStart_of_mark hcs hmark]
    · rw [hpairs, visible_mark hmark]
  | case4 i c cs hmark ih =>
    obtain ⟨ms, sees, hpairs⟩ := ih (drop_succ hcs)
    rw [visible_cons hmark]
    by_cases ha : c = a
    · obtain ⟨f, hf, hstart, hstop⟩ := chars.exists_firstFrom_left hcs ha
      have sees' := chars.sees_of_delimiter hcs hmark (.inl ha) hf hstart hstop sees
      refine ⟨_, sees', fun opened => ?_⟩
      rw [allPairs_left rfl, hpairs, List.map_cons, ha, stackPairs_left, hstart]
    · by_cases hb : c = b
      · obtain ⟨f, hf, hstart, hstop⟩ := chars.exists_firstFrom_right hcs hb
        have sees' := chars.sees_of_delimiter hcs hmark (.inr hb) hf hstart hstop sees
        refine ⟨_, sees', fun opened => ?_⟩
        cases opened with
        | nil => rw [allPairs_stray rfl, hpairs, hb, List.map_nil, stackPairs_stray chars.distinct]
        | cons l opened =>
          rw [allPairs_right rfl, List.map_cons, hpairs, hb, List.map_cons,
            stackPairs_right chars.distinct, place, hstart]
      · have hsame := chars.firstFrom_searchStart_succ hcs hmark ha hb
        refine ⟨ms, chars.sees_of_eq hsame sees, fun opened => ?_⟩
        rw [hpairs, stackPairs_other ha hb]

end Delimiters

namespace Engine

open Delimiters Extended

variable {g : Engine} {e : Char} {l r : Matcher} {mode : Unbalanced}

/-- The pattern for a character. -/
def charText (c : Char) : String := Literal.escape (String.singleton c)

/-- The host takes an escaped character for a pattern without groups, which finds that character
where it stands next. -/
structure TakesChar (s : Subject) (c : Char) : Prop where
  accepts : (compilePlain? (charText c) {}).any (·.groups == 0) = true
  finds : ∀ m : Matcher, m.source = charText c → m.flags = .ofList ['g'] → m.FindsChar s c

/-- The host passes over what an escape character hides and over text without delimiters, as far as
it can. -/
structure TakesMark (s : Subject) (a b e : Char) : Prop where
  accepts : (compilePlain? (charText a ++ "|" ++ charText b) {}).any (·.groups == 0) = true
  passes : ∃ m, Matcher.plain (escapeText e (charText a ++ "|" ++ charText b)) "" = .ok m ∧
    m.Skips s (· == e) (standsAt s a b)

theorem toList_charText (c : Char) : (charText c).toList = Literal.escapeList [c] := by
  simp [charText, Literal.escape]

theorem exists_compile_char (tokens : g.dialect.tokens = []) (taken : TakesChar s c) :
    ∃ m, Extended.compile g.dialect g.surroundings g.reparseLimit (charText c) "g" none = .ok m ∧
      m.source = charText c ∧ m.flags = .ofList ['g'] ∧ m.names = [] := by
  have hplain : Setting.toPlain ⟨g.dialect, g.surroundings, none, charText c⟩ g.reparseLimit
      (.ofFlags "g") = .ok (Literal.escapeList [c], .ofFlags "g") :=
    toPlain_escapeList tokens (toList_charText c)
  have hvalid : Flags.validate g.dialect.flags "g" = .ok () :=
    validate_of_letters (by decide) (by simp [PlainFlags.letters]) _
  obtain ⟨m, hm⟩ : ∃ m, Matcher.ofCompiled (charText c) (.ofList ['g']) [] (charText c) "g" =
      .ok m := Matcher.exists_ofCompiled _ _ taken.accepts
  obtain ⟨hsource, hnames⟩ := Matcher.eq_of_ofCompiled hm
  refine ⟨m, ?_, hsource, (Matcher.eq_of_build hm).2.1, hnames⟩
  rw [compile_of_toPlain hvalid hplain, ← toList_charText, String.ofList_toList]
  exact hm

theorem fallsInto_char (source : l.source = charText c) (names : l.names = []) :
    (Needle.matcher l).FallsInto (Fragments.literal [c]) :=
  .matcher (by rw [source, toList_charText, Fragments.plain_literal])
    (by rw [names, Fragments.groups_literal]) Fragments.fit_literal (by rw [names]; decide)

theorem alternatives_chars (hl : (Needle.matcher l).FallsInto (Fragments.literal [a]))
    (hr : (Needle.matcher r).FallsInto (Fragments.literal [b])) :
    alternatives l r = charText a ++ "|" ++ charText b := by
  rw [alternatives, Needle.sources, Needle.sources, hl.source_eq, hr.source_eq]
  simp [Needle.sources, ← String.toList_inj, toList_charText]

theorem recheck_char (source : l.source = charText c) (names : l.names = [])
    (taken : TakesChar s c) : (Needle.matcher l).recheck = .ok () := by
  obtain ⟨m, hm⟩ : ∃ m, Matcher.ofCompiled (charText c) {} [] (charText c) "" = .ok m :=
    Matcher.exists_ofCompiled _ _ taken.accepts
  rw [Needle.recheck, source, names]
  simp only [List.length_nil, List.replicate_zero, hm]
  rfl

theorem result_escapeMatcher_chars (tokens : g.dialect.tokens = []) (idle : g.compiling = false)
    (hl : l.source = charText a ∧ l.names = []) (hr : r.source = charText b ∧ r.names = [])
    (ha : TakesChar s a) (hb : TakesChar s b) (he : TakesMark s a b e) :
    ((escapeMatcher e l r "g").run.run g).1 =
      Matcher.plain (escapeText e (charText a ++ "|" ++ charText b)) "" := by
  have hfl := fallsInto_char hl.1 hl.2
  have hfr := fallsInto_char hr.1 hr.2
  obtain ⟨pattern, hrun⟩ : ∃ pattern : String, _ :=
    result_escapeMatcher tokens idle hfl hfr (by rw [hl.2, hr.2]; decide)
  have hcheck : Needle.recheckAll [.matcher l, .matcher r] = .ok () := by
    simp only [Needle.recheckAll, recheck_char hl.1 hl.2 ha, recheck_char hr.1 hr.2 hb]
    rfl
  obtain ⟨u, hu⟩ : ∃ u, Matcher.ofCompiled (charText a ++ "|" ++ charText b) {} [] pattern "" =
      .ok u := Matcher.exists_ofCompiled pattern "" he.accepts
  rw [hrun, hcheck, alternatives_chars hfl hfr, hl.2, hr.2]
  simp only [Except.bind, List.append_nil, hu]
  congr 1

/-- The matchers for two characters, and for what an escape character hides, can be made. -/
theorem exists_prepare_chars (mode : Unbalanced) (tokens : g.dialect.tokens = [])
    (idle : g.compiling = false) (distinct : a ≠ b) (unmarked : mark ≠ some a ∧ mark ≠ some b)
    (ha : TakesChar s a) (hb : TakesChar s b) (hmark : ∀ e ∈ mark, TakesMark s a b e) :
    ∃ d, ((prepare (charText a) (charText b) "g" mark mode).run.run g).1 = .ok d ∧
      d.Chars s a b mark := by
  obtain ⟨l, hl, hlsource, hlflags, hlnames⟩ := exists_compile_char tokens ha
  obtain ⟨r, hr, hrsource, hrflags, hrnames⟩ := exists_compile_char tokens hb
  obtain ⟨trace, hrun⟩ := exists_run_prepare idle (charText a) (charText b) "g" mode
  have hbasic : basicFlags "g" = "g" := rfl
  dsimp only at hrun
  rw [hbasic, hl, hr] at hrun
  have hla := ha.finds l hlsource hlflags
  have hrb := hb.finds r hrsource hrflags
  cases mark with
  | none =>
    exact ⟨_, congrArg Prod.fst hrun, distinct, unmarked, hla, hrb, rfl⟩
  | some e =>
    obtain ⟨m, hm, skips⟩ := (hmark e rfl).passes
    have hescape := result_escapeMatcher_chars (g := { g with trace }) tokens idle
      ⟨hlsource, hlnames⟩ ⟨hrsource, hrnames⟩ ha hb (hmark e rfl)
    have hmade := result_prepare_mark e hrun
    simp only [unescaped, bind, Except.bind, pure, Except.pure, hescape, hm, Except.map] at hmade
    exact ⟨_, hmade, distinct, unmarked, hla, hrb, m, rfl, skips⟩

/-- With two characters as delimiters, and perhaps an escape character, reading that skips what has
no partner comes to the texts of the outermost pairs that a stack finds in one pass over the
characters that are not hidden. -/
theorem matchRecursiveTexts_stack (text : String) (tokens : g.dialect.tokens = [])
    (idle : g.compiling = false) (distinct : a ≠ b) (unmarked : mark ≠ some a ∧ mark ≠ some b)
    (skips : mode ≠ .refuse) (ha : TakesChar (.ofString text) a) (hb : TakesChar (.ofString text) b)
    (hmark : ∀ e ∈ mark, TakesMark (.ofString text) a b e) :
    ((matchRecursiveTexts text (Literal.escape (String.singleton a))
      (Literal.escape (String.singleton b)) "g" mark mode).run.run g).1 =
      .ok ((outermost (stackPairs a b [] (visible mark 0 text.toList))).map
        (textInside (.ofString text))) := by
  obtain ⟨made, hmade, chars⟩ :=
    exists_prepare_chars mode tokens idle distinct unmarked ha hb hmark
  let d : Delimiters := { made with names := { matched := "match" } }
  have chars : d.Chars (.ofString text) a b mark :=
    ⟨chars.distinct, chars.unmarked, chars.left, chars.right, chars.hidden⟩
  obtain ⟨hglobal, hsticky, hmode⟩ := eq_of_prepare hmade
  have collects : d.Collects :=
    ⟨hglobal.trans (by simp), hsticky.trans (by simp), fun h => skips (hmode.symm.trans h), rfl⟩
  obtain ⟨ms, sees, hpairs⟩ := chars.exists_sees (i := 0) rfl
  have houtcome := map_outcome (p := .initial _) collects chars.single ⟨rfl, by simp⟩ sees
  rw [hpairs []] at houtcome
  have hresult := result_matchRecursiveTexts (g := g) text (charText a) (charText b) "g" mark mode
  rw [result_matchRecursive, hmade] at hresult
  calc ((matchRecursiveTexts text (charText a) (charText b) "g" mark mode).run.run g).1
      = (d.segments (.ofString text)).map (·.map (·.value)) := hresult
    _ = (d.outcome (.initial _)).map (·.map (·.value)) := by
      rw [segments_eq]
      rfl
    _ = _ := houtcome

/-- The first delimiter is never closed, for the one behind it is hidden. Reading starts again
behind it, and finds the pair there. -/
theorem matchRecursiveTexts_stack_hidden :
    let s := Subject.ofString "(\\)(x)"
    TakesChar s '(' ∧ TakesChar s ')' ∧ TakesMark s '(' ')' '\\' ∧
      ((matchRecursiveTexts "(\\)(x)" "\\(" "\\)" "g" (some '\\') .skip).run.run {}).1 =
        .ok ["x"] := by
  intro s
  have taken : ∀ c ∈ ['(', ')'], TakesChar s c := by
    intro c hc
    obtain rfl | rfl : c = '(' ∨ c = ')' := by simpa using hc
    all_goals
      refine ⟨by decide +kernel, fun m hsource hflags => ?_⟩
      have first : m.FindsFirst s (m.anchoring s) :=
        Matcher.findsFirst_of_search (by rw [hsource, hflags]; decide +kernel)
      exact Matcher.findsChar_of_search first (by rw [hsource, hflags]; decide +kernel)
  have ha := taken '(' (by simp)
  have hb := taken ')' (by simp)
  have he : TakesMark s '(' ')' '\\' := by
    obtain ⟨m, hm, hsource, hflags⟩ := Matcher.exists_plain
      (escapeText '\\' (charText '(' ++ "|" ++ charText ')')) "" {} rfl (by decide +kernel)
    refine ⟨by decide +kernel, m, hm, ?_⟩
    exact Matcher.skips_of_search (by rw [hsource, hflags]; decide +kernel)
  refine ⟨ha, hb, he, ?_⟩
  have hleft : Literal.escape (String.singleton '(') = "\\(" := by decide +kernel
  have hright : Literal.escape (String.singleton ')') = "\\)" := by decide +kernel
  have htexts : (outermost (stackPairs '(' ')' [] (visible (some '\\') 0 "(\\)(x)".toList))).map
      (textInside s) = ["x"] := by decide +kernel
  have hresult : ((matchRecursiveTexts "(\\)(x)" _ _ "g" (some '\\') .skip).run.run {}).1 = _ :=
    matchRecursiveTexts_stack "(\\)(x)" rfl rfl (by decide) (by decide) (by decide) ha hb
      (by simpa using he)
  rwa [hleft, hright, htexts] at hresult

end Engine

end Patterns
