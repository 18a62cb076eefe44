import Patterns.Proofs.Captures
import Patterns.Proofs.Copying
import Patterns.Proofs.Searches

/-!
# Insertions

Where a pattern is built the source of a matcher is read in the place of its name. Its groups are
recorded behind those that stand before the name, but its references are written with the numbers
that they have in the source, so they go to groups of the whole pattern. In a union they are moved
(`shiftReferences`); both are the same where no group is recorded before the insertion.
-/
namespace Patterns.Extended
open Patterns.Text

variable {e : Setting} {p q : Spot} {m : Move} {ms : History} {c c' : Context}
  {t t' r w name : List Char} {ss : List Fragment}

section Groups

/-- A lexeme records one group or none. -/
theorem Lexeme.Emits.records {lexeme : Lexeme} {scope : Scope} {written : String}
    {after custom : List Char} {subpatterns : Option Subpatterns}
    (h : lexeme.Emits scope written after custom subpatterns c w c') :
    c'.groups = c.groups ∨ ∃ name, c.addGroup name = .ok c' := by
  cases h with
  | modifier set => exact .inl (groups_setModifierFlags set)
  | namedGroup added => exact .inr ⟨_, added⟩
  | group _ added => exact .inr ⟨_, added⟩
  | _ => exact .inl rfl

theorem Moves.records (h : Moves e p m) : m.next.context.groups = p.context.groups ∨
    ∃ name, p.context.addGroup name = .ok m.next.context := by
  cases h with
  | lexeme _ _ _ emitted => exact emitted.records
  | _ => exact .inl rfl

/-- Recorded groups stay. -/
theorem Reading.exists_groups (h : Reading e p ms q) :
    ∃ new, q.context.groups = p.context.groups ++ new := by
  induction h with
  | done => exact ⟨[], (List.append_nil _).symm⟩
  | step move _ ih =>
    obtain ⟨new, hnew⟩ := ih
    rcases (moves_of_move? move).records with hm | ⟨name, hm⟩
    · exact ⟨new, hm ▸ hnew⟩
    · exact ⟨name :: new, by rw [hnew, groups_addGroup hm, List.append_assoc]; rfl⟩

theorem distinctNames_addGroup {name : Option String} (h : c.addGroup name = .ok c')
    (before : DistinctNames c.groups) : DistinctNames c'.groups := by
  rw [groups_addGroup h]
  cases name with
  | none => exact distinctNames_append_none.mpr before
  | some name =>
    have hname := (Context.addGroup_eq_ok_iff.mp h).1 name rfl
    exact distinctNames_append_some.mpr ⟨before, (Context.checkName_eq_ok_iff.mp hname).2⟩

theorem Reading.distinctNames (h : Reading e p ms q) (before : DistinctNames p.context.groups) :
    DistinctNames q.context.groups := by
  induction h with
  | done => exact before
  | step move _ ih =>
    rcases (moves_of_move? move).records with hm | ⟨name, hm⟩
    · exact ih (hm ▸ before)
    · exact ih (distinctNames_addGroup hm before)

end Groups

section References

/-- A reference by number is written as it is read. -/
theorem Moves.output_of_numbered {digits : List Char} {n : Nat} (h : Moves e p m)
    (scanned : Lexeme.scan? (e.lexemeSettings p) p.scope p.rest =
      some (.numberedReference digits, n)) (positive : digits.head? ≠ some '0') :
    m.output = referenceTo (digitsValue digits) := by
  cases h with
  | @lexeme lexeme t r w c rest spelled kept emitted =>
    have hs := spelled.scan?
    rw [← rest, scanned] at hs
    obtain rfl : .numberedReference digits = lexeme := congrArg Prod.fst (Option.some.inj hs)
    cases emitted with
    | zero => exact absurd rfl positive
    | numberedReference => rfl
  | @subpattern name r text rest isName building =>
    have spelled : (Lexeme.subpattern name).Spelled (e.lexemeSettings p) p.scope _ r :=
      .subpattern building isName
    have hs := spelled.scan?
    rw [← rest, scanned] at hs
    cases hs
  | copied _ bare | single _ bare =>
    rw [scanned] at bare
    cases bare

end References

section Names

def inBraces (name : List Char) : List Char := '\x7b' :: '\x7b' :: (name ++ ['\x7d', '\x7d'])

/-- No name in braces starts in the text `t` before `r`. -/
def NamesNothing (t r : List Char) : Prop :=
  ∀ u v name x, t = u ++ v → v ≠ [] → IsName name → v ++ r ≠ inBraces name ++ x

theorem NamesNothing.left (h : NamesNothing (t ++ t') r) : NamesNothing t (t' ++ r) := by
  intro u v name x ht hv isName
  have happ := h u (v ++ t') name x (by simp [ht]) (by simp [hv]) isName
  rwa [List.append_assoc] at happ

theorem NamesNothing.right (h : NamesNothing (t ++ t') r) : NamesNothing t' r :=
  fun u v name x ht hv isName => h (t ++ u) v name x (by simp [ht]) hv isName

/-- A name cannot end behind a parenthesis. -/
theorem namesNothing_before_close (h : ∀ name, IsName name → ¬inBraces name <:+: t) :
    NamesNothing t (')' :: r) := by
  intro u v name x ht _ isName heq
  rcases List.append_eq_append_iff.mp heq with ⟨y, hname, hy⟩ | ⟨y, hv, -⟩
  · cases y with
    | nil => exact h name isName ⟨u, [], by rw [ht, hname]; simp⟩
    | cons a y =>
      obtain rfl : ')' = a := (List.cons.inj hy).1
      have hmem : ')' ∈ inBraces name := hname ▸ by simp
      simp only [inBraces, List.mem_cons, List.mem_append, List.not_mem_nil, or_false,
        Char.reduceEq, false_or] at hmem
      exact absurd (isName.2 _ hmem) (by decide)
  · exact h name isName ⟨u, y, by rw [ht, hv, List.append_assoc]⟩

/-- Subpatterns change a move only before a name in braces. -/
theorem move?_again (h : ∀ name x, IsName name → p.rest ≠ inBraces name ++ x) :
    (e.again e.surroundings).move? p = e.move? p := by
  have other (name : List Char) (n : Nat) :
      Lexeme.scan? (e.lexemeSettings p) p.scope p.rest ≠ some (.subpattern name, n) := by
    intro hs
    obtain ⟨t, r, hrest, -, spelled⟩ := Lexeme.spelled_of_scan? hs
    generalize p.scope = scope at spelled
    cases spelled with
    | subpattern _ isName => exact h name r isName hrest
  have hscan : Lexeme.scan? ((e.again e.surroundings).lexemeSettings p) p.scope p.rest =
      Lexeme.scan? (e.lexemeSettings p) p.scope p.rest := scan?_apart other
  unfold Setting.move?
  rw [hscan]
  cases hs : Lexeme.scan? (e.lexemeSettings p) p.scope p.rest with
  | none => rfl
  | some found =>
    obtain ⟨lexeme, n⟩ := found
    cases lexeme with
    | subpattern name => exact absurd hs (other name n)
    | _ => rfl

/-- What is read without subpatterns is read with them, where it names none. -/
theorem Reading.of_again (h : Reading (e.again e.surroundings) p ms q) (hx : expansions ms = 0)
    (names : NamesNothing (textRead ms) q.rest) : Reading e p ms q := by
  induction h with
  | done => exact .done _
  | @step p q m ms move tail ih =>
    have hm := moves_of_move? move
    have hrest := (Reading.step move tail).rest_eq hx
    cases m with
    | read t w p' =>
      obtain ⟨hne, -, -⟩ := hm.text_ne_nil
      rw [textRead_cons] at names hrest
      rw [move?_again fun name x isName => hrest ▸ names [] _ name x rfl (by simp [Move.text, hne])
        isName] at move
      exact .step move (ih (by simpa [Move.isExpansion] using hx) names.right)
    | expand p' => simp [Move.isExpansion] at hx

theorem Reads.of_again (h : Reads (e.again e.surroundings) c t r w c') (names : NamesNothing t r) :
    Reads e c t r w c' := by
  intro atStart
  obtain ⟨ms, atStart', hms, hw, hx⟩ := h atStart
  have htext : t = textRead ms := List.append_cancel_right (hms.rest_eq hx)
  exact ⟨ms, atStart', hms.of_again hx (htext ▸ names), hw, hx⟩

end Names

section Fragments

/-- Where the text of fragments is read to the end no name in it stands for two groups. -/
theorem distinctNames_of_reading {atStart : Bool}
    (h : Reading e ⟨atStart, Fragments.text ss ++ r, .outside, c⟩ ms q) (hend : q.rest = [])
    (bare : c.IsBare) (fit : Fragments.Fit c.groupCount r ss)
    (names : NamesNothing (Fragments.text ss) r) (before : DistinctNames c.groups) :
    DistinctNames (c.groups ++ Fragments.groups ss) := by
  induction ss generalizing c atStart ms with
  | nil => simpa using before
  | cons s ss ih =>
    rw [Fragments.text_cons] at h names
    rw [List.append_assoc] at h
    have distinct : DistinctNames (c.groups ++ s.groups) := by
      cases s with
      | capture name =>
        cases name with
        | none => exact distinctNames_append_none.mpr before
        | some name =>
          refine distinctNames_append_some.mpr ⟨before, fun hm => ?_⟩
          obtain ⟨ms', q', hms', -, herr⟩ :=
            refuses_capture (e := e) (r := Fragments.text ss ++ r) hm atStart
          obtain ⟨_, -, htail⟩ := hms'.split h hend
          cases htail with
          | done => simp [move?_eq_none_iff.mpr hend] at herr
          | step move => simp [herr] at move
      | _ => simpa [Fragment.groups] using before
    have hread := (reads_fragment (e := e.again e.surroundings) rfl bare
      (fit.1.congr (Fragments.head?_text_append (r := r) rfl)) distinct).of_again names.left
    obtain ⟨ms', atStart', hms', -, -⟩ := hread atStart
    obtain ⟨_, -, htail⟩ := hms'.split h hend
    have hi := ih htail (c := ⟨c.flags, c.groups ++ s.groups⟩) bare
      (by simpa [Context.groupCount] using fit.2) names.right distinct
    rwa [Fragments.groups_cons, ← List.append_assoc]

/-- What comes in the place of a name. -/
def gathered (text : List Char) : List Char := ['(', '?', ':'] ++ (text ++ [')'])

private theorem reads_gathering : Reads e c ['(', '?', ':'] r ['(', '?', ':'] c := by
  have h := reads_bareOpener (e := e) (c := c) (r := r) (t := ['(', '?', ':']) (by decide)
  rwa [List.append_nil] at h

/-- An insertion of fragments is written as their plain text, and their groups are recorded. -/
theorem exists_written_insertion {atStart : Bool}
    (h : Reading e ⟨atStart, gathered (Fragments.text ss) ++ r, .outside, c⟩ ms q)
    (hend : q.rest = []) (bare : c.IsBare) (fit : Fragments.Fit 0 [] ss)
    (names : NamesNothing (Fragments.text ss) (')' :: r)) (before : DistinctNames c.groups) :
    ∃ later w, q.context.groups = c.groups ++ Fragments.groups ss ++ later ∧
      written ms = gathered (Fragments.plain ss) ++ w := by
  have hfit : Fragments.Fit c.groupCount (')' :: r) ss :=
    (fit.apart rfl (by simp)).mono (Nat.zero_le _)
  have hclose : Reads e ⟨c.flags, c.groups ++ Fragments.groups ss⟩ [')'] r [')'] _ :=
    reads_mark (.inl rfl)
  rw [gathered, List.append_assoc, List.append_assoc] at h
  have distinct : DistinctNames (c.groups ++ Fragments.groups ss) := by
    obtain ⟨_, _, hms, -, -⟩ :=
      reads_gathering (e := e) (c := c) (r := Fragments.text ss ++ ([')'] ++ r)) atStart
    obtain ⟨_, -, htail⟩ := hms.split h hend
    exact distinctNames_of_reading htail hend bare hfit names before
  have hbody :=
    (reads_fragments (e := e.again e.surroundings) rfl bare hfit distinct).of_again names
  obtain ⟨ms', _, hms', hw, -⟩ := (reads_gathering.append (hbody.append hclose)) atStart
  obtain ⟨ms'', rfl, htail⟩ := hms'.split (by simpa using h) hend
  obtain ⟨later, hlater⟩ := htail.exists_groups
  exact ⟨later, written ms'', hlater, by rw [written_append, hw, gathered]⟩

theorem Fragment.shift_eq_self {s : Fragment} {offset : Nat}
    (h : offset = 0 ∨ ∀ n, s ≠ .reference n) : s.shift offset = s := by
  cases s with
  | reference n =>
    obtain rfl : offset = 0 := h.resolve_right fun hn => hn n rfl
    rfl
  | _ => rfl

private theorem eq_zero_of_referenceTo {n offset : Nat} {x x' : List Char}
    (hx : x.head?.any Char.isDigit = false) (hx' : x'.head?.any Char.isDigit = false)
    (heq : referenceTo (n + offset) ++ x = referenceTo n ++ x') : offset = 0 := by
  have htail : Nat.toDigits 10 (n + offset) ++ x = Nat.toDigits 10 n ++ x' := (List.cons.inj heq).2
  have hdigits := congrArg (List.takeWhile Char.isDigit) htail
  rw [takeWhile_append_eq (areDigits_toDigits _) hx, takeWhile_append_eq (areDigits_toDigits _) hx']
    at hdigits
  have hvalue := congrArg digitsValue hdigits
  rw [digitsValue_toDigits, digitsValue_toDigits] at hvalue
  omega

/-- References stay as they are behind no group, or where there are none. -/
theorem plain_shift_eq_iff {count offset : Nat} (fit : Fragments.Fit count [] ss) :
    Fragments.plain (Fragments.shift offset ss) = Fragments.plain ss ↔
      offset = 0 ∨ ∀ n, Fragment.reference n ∉ ss := by
  constructor
  · intro heq
    induction ss generalizing count with
    | nil => exact .inr fun n => List.not_mem_nil
    | cons s ss ih =>
      rw [Fragments.shift_cons, Fragments.plain_cons, Fragments.plain_cons] at heq
      have other (kept : s.shift offset = s) (hs : ∀ n, Fragment.reference n ≠ s) :
          offset = 0 ∨ ∀ n, Fragment.reference n ∉ s :: ss := by
        rw [kept] at heq
        exact (ih fit.2 (List.append_cancel_left heq)).imp_right fun hn n hm =>
          (List.mem_cons.mp hm).elim (hs n) (hn n)
      cases s with
      | reference n =>
        have hdigit : (Fragments.plain ss).head?.any Char.isDigit = false := by
          simpa using fit.1.2.2
        have hhead : (Fragments.plain (Fragments.shift offset ss)).head? =
            (Fragments.plain ss).head? := by
          have h : (Fragments.plain (Fragments.shift offset ss) ++ []).head? =
              (Fragments.plain ss ++ []).head? := Fragments.head?_plain_shift
          simpa using h
        exact .inl (eq_zero_of_referenceTo (hhead ▸ hdigit) hdigit heq)
      | _ => exact other rfl (by simp)
  · intro h
    have hshift : Fragments.shift offset ss = ss := by
      have hkept : ∀ s ∈ ss, s.shift offset = s := fun s hs =>
        Fragment.shift_eq_self (h.imp_right fun hn n he => hn n (he ▸ hs))
      exact (List.map_congr_left hkept).trans (List.map_id ss)
    rw [hshift]

end Fragments

end Patterns.Extended

namespace Patterns
open Patterns.Text Patterns.Extended

namespace Engine

variable {g : Engine} {pattern flags : String} {subs : List (String × Needle)} {m m₀ : Matcher}

/-- What a pattern is read in that is built. -/
def buildSetting (g : Engine) (subs : List (String × Needle)) (pattern : String) : Setting :=
  ⟨g.dialect, g.surroundings,
    some (subs.map fun (name, sub) => (name, subpatternText sub)).reverse, pattern⟩

/-- A place where the reading of a pattern comes to the name of a matcher. -/
structure Insertion (g : Engine) (pattern : String) (subs : List (String × Needle))
    (flags : String) (m₀ : Matcher) where
  before : History
  place : Spot
  name : List Char
  behind : List Char
  reached : Reading (g.buildSetting subs pattern) (.start pattern.toList (.ofFlags flags)) before
    place
  isName : IsName name
  rest : place.rest = inBraces name ++ behind
  bound : subs.reverse.lookup (String.ofList name) = some (.matcher m₀)

namespace Insertion

variable (i : Insertion g pattern subs flags m₀)

/-- Where the source of the matcher is read. -/
def inside : Spot :=
  i.place.withRest (gathered (stripAnchors m₀.source.toList) ++ i.behind)

/-- A reference by number in the insertion. -/
structure Reference where
  read : History
  place : Spot
  digits : List Char
  length : Nat
  reached : Reading (g.buildSetting subs pattern) i.inside read place
  within : (')' :: i.behind) <:+ place.rest
  scanned : Lexeme.scan? ((g.buildSetting subs pattern).lexemeSettings place) place.scope
    place.rest = some (.numberedReference digits, length)
  positive : digits.head? ≠ some '0'

def Reference.number {i : Insertion g pattern subs flags m₀} (ref : i.Reference) : Nat :=
  digitsValue ref.digits

/-- Outside of classes the source falls into fragments, which nothing makes read in another way. -/
structure FallsInto (ss : List Fragment) : Prop where
  outside : i.place.scope = .outside
  bare : i.place.context.IsBare
  source : stripAnchors m₀.source.toList = Fragments.text ss
  fit : Fragments.Fit 0 [] ss
  names : ∀ name, IsName name → ¬inBraces name <:+: Fragments.text ss

private theorem lookup_subpatternText (ps : List (String × Needle)) (name : String) :
    (ps.map fun (name, sub) => (name, subpatternText sub)).lookup name =
      (ps.lookup name).map subpatternText := by
  induction ps with
  | nil => rfl
  | cons p ps ih =>
    obtain ⟨a, sub⟩ := p
    rw [List.map_cons, List.lookup_cons, List.lookup_cons, ih]
    cases name == a <;> rfl

theorem moves : Moves (g.buildSetting subs pattern) i.place (.expand i.inside) := by
  have hfound : ((g.buildSetting subs pattern).subpatterns.getD []).lookup (String.ofList i.name) =
      some (subpatternText (.matcher m₀)) := by
    have hlookup := lookup_subpatternText subs.reverse (String.ofList i.name)
    rwa [i.bound, List.map_reverse] at hlookup
  have h := Moves.subpattern (e := g.buildSetting subs pattern) i.rest i.isName rfl hfound
  simpa [subpatternText, inside, gathered] using h

/-- What is built is written up to the insertion, and then from inside of it. -/
theorem exists_reading (tokens : g.dialect.tokens = [])
    (built : ((build pattern subs flags).run.run g).1 = .ok m) :
    ∃ ms q, Reading (g.buildSetting subs pattern) i.inside ms q ∧ q.rest = [] ∧
      m.names = q.context.groups ∧
      m.source.toList = Extended.written i.before ++ Extended.written ms := by
  have hm := compile_of_run (idle_of_compileWith built) built
  obtain ⟨-, out, c, hplain, hof⟩ := compile_eq_ok_iff.mp hm
  obtain ⟨ms, q, hms, hend, -, rfl, rfl⟩ :=
    (toPlain_eq_ok_iff (e := g.buildSetting subs pattern) tokens).mp hplain
  obtain ⟨hsource, hnames⟩ := Matcher.eq_of_ofCompiled hof
  obtain ⟨ms', rfl, htail⟩ := i.reached.split hms hend
  have hinside : Reading (g.buildSetting subs pattern) i.place [(i.place, .expand i.inside)]
      i.inside := .step i.moves.move? (.done _)
  obtain ⟨ms'', rfl, htail'⟩ := hinside.split htail hend
  refine ⟨ms'', q, htail', hend, hnames, ?_⟩
  rw [hsource, String.toList_ofList, Extended.written_append]
  rfl

/-- A reference is written with its own number, and goes to a group recorded before it. -/
theorem Reference.exists_written {i : Insertion g pattern subs flags m₀} (ref : i.Reference)
    {ms : History} {q : Spot} (h : Reading (g.buildSetting subs pattern) ref.place ms q)
    (hend : q.rest = []) :
    1 ≤ ref.number ∧ ref.number ≤ ref.place.context.groupCount ∧
      ∃ w, Extended.written ms = referenceTo ref.number ++ w := by
  cases h with
  | done =>
    obtain ⟨x, hx⟩ := ref.within
    simp [hend] at hx
  | @step _ _ move ms move' tail =>
    have hm := moves_of_move? move'
    have hscan := ref.scanned
    have hnumber : (g.buildSetting subs pattern).reference? ref.place = some ref.number := by
      simp [Setting.reference?, hscan, Lexeme.number?, ref.positive, Reference.number]
    obtain ⟨hpos, hle⟩ := hm.reference?_le hnumber
    refine ⟨hpos, hle, Extended.written ms, ?_⟩
    rw [Extended.written_cons, hm.output_of_numbered hscan ref.positive]
    rfl

end Insertion

/-- References of a matcher that is inserted keep their numbers, so each goes to the group of the
whole pattern with this number. Where the source falls into fragments its groups stand behind those
recorded before, and its references go to its own groups exactly where there are none of those. -/
theorem build_references (tokens : g.dialect.tokens = [])
    (built : ((build pattern subs flags).run.run g).1 = .ok m)
    (i : Insertion g pattern subs flags m₀) :
    (∀ ref : i.Reference, ∃ inner later w,
      ref.place.context.groups = i.place.context.groups ++ inner ∧
      m.names = i.place.context.groups ++ inner ++ later ∧
      1 ≤ ref.number ∧ ref.number ≤ (i.place.context.groups ++ inner).length ∧
      m.source.toList = Extended.written i.before ++
        (Extended.written ref.read ++ (referenceTo ref.number ++ w))) ∧
    ∀ ss, i.FallsInto ss →
      (∃ later w, m.names = i.place.context.groups ++ Fragments.groups ss ++ later ∧
        m.source.toList =
          Extended.written i.before ++ (gathered (Fragments.plain ss) ++ w)) ∧
      (shiftReferences i.place.context.groupCount .outside (Fragments.plain ss) =
          Fragments.plain ss ↔
        i.place.context.groups = [] ∨ ∀ n, Fragment.reference n ∉ ss) := by
  obtain ⟨ms, q, hms, hend, hnames, hsource⟩ := i.exists_reading tokens built
  refine ⟨fun ref => ?_, fun ss falls => ⟨?_, ?_⟩⟩
  · obtain ⟨ms', rfl, htail⟩ := ref.reached.split hms hend
    obtain ⟨hpos, hle, w, hw⟩ := ref.exists_written htail hend
    obtain ⟨inner, hinner⟩ := ref.reached.exists_groups
    have hinner : ref.place.context.groups = i.place.context.groups ++ inner := hinner
    obtain ⟨later, hlater⟩ := htail.exists_groups
    refine ⟨inner, later, w, hinner, ?_, hpos, ?_, ?_⟩
    · rw [hnames, hlater, hinner]
    · rw [← hinner]
      exact hle
    · rw [hsource, Extended.written_append, hw]
  · have before : DistinctNames i.place.context.groups :=
      i.reached.distinctNames List.nodup_nil
    have hinside : i.inside = ⟨i.place.atStart, gathered (Fragments.text ss) ++ i.behind, .outside,
        i.place.context⟩ := by
      rw [← falls.source, ← falls.outside]
      rfl
    rw [hinside] at hms
    obtain ⟨later, w, hlater, hw⟩ := exists_written_insertion hms hend falls.bare falls.fit
      (namesNothing_before_close falls.names) before
    exact ⟨later, w, hnames.trans hlater, by rw [hsource, hw]⟩
  · rw [shiftReferences_plain falls.fit, plain_shift_eq_iff falls.fit, Context.groupCount,
      List.length_eq_zero_iff]

section Pairs

/-- The fragments of a group and a reference to it. -/
def echoed : List Fragment :=
  [.capture none, .sign ⟨'b', by decide⟩, .close, .reference 1]

private theorem exists_echoed : ∃ m₀ m : Matcher, Matcher.plain "(b)\\1" "" = .ok m₀ ∧
    m₀.source = "(b)\\1" ∧ stripAnchors m₀.source.toList = Fragments.text echoed ∧
    ((build "(a)\x7b\x7bs\x7d\x7d" [("s", .matcher m₀)] "").run.run {}).1 = .ok m ∧
    m.source = "(a)(?:(b)\\1)" ∧ m.flags = {} ∧ m.names = [none, none] := by
  obtain ⟨m₀, hm₀, hsource₀, -⟩ := Matcher.exists_plain "(b)\\1" "" {} rfl (by decide +kernel)
  obtain ⟨m, hm⟩ : ∃ m, Matcher.ofCompiled "(a)(?:(b)\\1)" (.ofList []) [none, none]
      "(a)\x7b\x7bs\x7d\x7d" "" = .ok m := Matcher.exists_ofCompiled _ _ (by decide +kernel)
  have hstrip : stripAnchors m₀.source.toList = Fragments.text echoed := by
    rw [hsource₀]
    decide
  have htext : subpatternText (.matcher m₀) = "(b)\\1" := by
    rw [subpatternText, hstrip]
    decide
  have hplain : Setting.toPlain (buildSetting {} [("s", .matcher m₀)] "(a)\x7b\x7bs\x7d\x7d") 10000
      (.ofFlags "") = .ok ("(a)(?:(b)\\1)".toList, ⟨[], [none, none]⟩) := by
    have hset : buildSetting {} [("s", .matcher m₀)] "(a)\x7b\x7bs\x7d\x7d" =
        ⟨{}, surroundings {}, some [("s", "(b)\\1")], "(a)\x7b\x7bs\x7d\x7d"⟩ := by
      rw [← htext]
      rfl
    rw [hset]
    cbv
  obtain ⟨lines, hrun⟩ := exists_lines_run_compileWith (g := {}) rfl "(a)\x7b\x7bs\x7d\x7d" ""
    (buildSetting {} [("s", .matcher m₀)] "(a)\x7b\x7bs\x7d\x7d").subpatterns
  obtain ⟨hsource, hnames⟩ := Matcher.eq_of_ofCompiled hm
  exact ⟨m₀, m, hm₀, hsource₀, hstrip, (congrArg Prod.fst hrun).trans
    (compile_eq_ok_iff.mpr ⟨rfl, _, _, hplain, hm⟩), hsource, (Matcher.eq_of_build hm).2.1, hnames⟩

/-- The reference of the inserted source goes to the group before it. -/
theorem build_references_pair :
    ∃ (m₀ m : Matcher)
      (i : Insertion {} "(a)\x7b\x7bs\x7d\x7d" [("s", .matcher m₀)] "" m₀) (ref : i.Reference),
      ((build "(a)\x7b\x7bs\x7d\x7d" [("s", .matcher m₀)] "").run.run {}).1 = .ok m ∧
      i.place.context.groups = [none] ∧ i.FallsInto echoed ∧ ref.number = 1 ∧
      (∃ inner later w, ref.place.context.groups = [none] ++ inner ∧
        m.names = [none] ++ inner ++ later ∧
        m.source.toList = Extended.written i.before ++
          (Extended.written ref.read ++ ("\\1".toList ++ w))) ∧
      (∃ later w, m.names = [none] ++ [none] ++ later ∧
        m.source.toList = Extended.written i.before ++ ("(?:(b)\\1)".toList ++ w)) ∧
      shiftReferences 1 .outside "(b)\\1".toList ≠ "(b)\\1".toList := by
  obtain ⟨m₀, m, -, -, hstrip, built, -⟩ := exists_echoed
  let e := buildSetting {} [("s", .matcher m₀)] "(a)\x7b\x7bs\x7d\x7d"
  obtain ⟨before, hbefore⟩ : ∃ ms, Reading e (.start "(a)\x7b\x7bs\x7d\x7d".toList (.ofFlags "")) ms
      ⟨false, "\x7b\x7bs\x7d\x7d".toList, .outside, ⟨[], [none]⟩⟩ :=
    ⟨_, .step rfl (.step rfl (.step rfl (.done _)))⟩
  let i : Insertion {} "(a)\x7b\x7bs\x7d\x7d" [("s", .matcher m₀)] "" m₀ :=
    ⟨before, _, ['s'], [], hbefore, by decide, rfl, rfl⟩
  have hinside : i.inside = ⟨false, "(?:(b)\\1)".toList, .outside, ⟨[], [none]⟩⟩ := by
    rw [Insertion.inside, hstrip]
    rfl
  obtain ⟨read, hread⟩ : ∃ ms, Reading e i.inside ms
      ⟨false, "\\1)".toList, .outside, ⟨[], [none, none]⟩⟩ := by
    rw [hinside]
    exact ⟨_, .step rfl (.step rfl (.step rfl (.step rfl (.done _))))⟩
  let ref : i.Reference :=
    ⟨read, _, ['1'], 2, hread, ⟨['\\', '1'], rfl⟩, rfl, by decide⟩
  have hfit : Fragments.Fit 0 [] echoed := by
    refine ⟨?_, trivial, trivial, ⟨by decide, by decide, rfl⟩, trivial⟩
    exact fun h => absurd h (by decide)
  have hbrace : '\x7b' ∉ Fragments.text echoed := by decide
  have falls : i.FallsInto echoed := ⟨rfl, fun _ _ => rfl, hstrip, hfit,
    fun _ _ hm => hbrace (hm.subset (List.mem_cons_self ..))⟩
  have hreference : referenceTo ref.number = "\\1".toList := by
    rw [show ref.number = 1 from rfl]
    decide
  obtain ⟨hreferences, hfragments⟩ := build_references (g := {}) rfl built i
  obtain ⟨inner, later, w, hinner, hnames, -, -, hsource⟩ := hreferences ref
  rw [hreference] at hsource
  obtain ⟨⟨later', w', hnames', hsource'⟩, hsame⟩ := hfragments echoed falls
  refine ⟨m₀, m, i, ref, built, rfl, falls, rfl, ⟨inner, later, w, hinner, hnames, hsource⟩,
    ⟨later', w', hnames', hsource'⟩, fun heq => ?_⟩
  rcases hsame.mp heq with hnone | hnone
  · cases hnone
  · exact hnone 1 (by simp [echoed])

/-- What the reference finds is the text of the group before it. -/
theorem build_reference_captured : ∃ m₀ m : Matcher, Matcher.plain "(b)\\1" "" = .ok m₀ ∧
    ((build "(a)\x7b\x7bs\x7d\x7d" [("s", .matcher m₀)] "").run.run {}).1 = .ok m ∧
    m.names = [none, none] ∧ m.source = "(a)(?:(b)\\1)" ∧
    Needle.source 1 (.matcher m₀) = "(b)\\2".toList ∧
    ∃ f, m.find (.ofString "aba") 0 false = .ok (some f) ∧ f.start = 0 ∧ f.stop = 3 := by
  obtain ⟨m₀, m, hm₀, hsource₀, -, built, hsource, hflags, hnames⟩ := exists_echoed
  refine ⟨m₀, m, hm₀, built, hnames, hsource, ?_, ?_⟩
  · rw [Needle.source, hsource₀]
    cbv
  · exact Matcher.exists_find_of_search (by rw [hsource, hflags]; decide +kernel)

end Pairs

end Engine

end Patterns
