import Patterns.Proofs.Caching
import Patterns.Proofs.Modes
import Patterns.Proofs.Settled

/-!
# Sources as patterns

The source of a matcher can be compiled again, without flags. Where the two readings agree it stays
as it is: every capturing group in it is a bare parenthesis, and compiling it records the same
number of groups.
-/
namespace Patterns.Extended
open Patterns.Text

variable {e e' : Setting} {p q : Spot} {ms : History} {name t r x : List Char} {c : Context}
  {P : Context → Prop}

section Starts

/-- Whether a text starts like a modifier. -/
def IsModified (x : List Char) : Prop :=
  ∃ name r, IsName name ∧ x = '(' :: '?' :: (name ++ ')' :: r)

private theorem spelled_start {s s' : Lexeme.Settings} {scope : Scope} {lexeme : Lexeme}
    (hs : { s with atStart := s'.atStart } = s') (hx : ¬IsModified (t ++ r))
    (h : lexeme.Spelled s scope t r) : lexeme.Spelled s' scope t r := by
  obtain ⟨_, _, _, _⟩ := s
  obtain ⟨_, _, _, _⟩ := s'
  simp only [Lexeme.Settings.mk.injEq, true_and] at hs
  obtain ⟨rfl, rfl, rfl⟩ := hs
  cases h with
  | subpattern building isName => exact .subpattern building isName
  | numberedReference nonempty areDigits apart => exact .numberedReference nonempty areDigits apart
  | namedReference isName => exact .namedReference isName
  | emptyClass => exact .emptyClass
  | fullClass => exact .fullClass
  | comment closed => exact .comment closed
  | namedGroup isName => exact .namedGroup isName
  | markedGroup isName => exact .markedGroup isName
  | modifier _ isName => exact absurd ⟨_, r, isName, by simp⟩ hx
  | group bare => exact .group bare
  | dot dotAll => exact .dot dotAll
  | spacing spaced nonempty length => exact .spacing spaced nonempty length

private theorem scan?_start {s s' : Lexeme.Settings} {scope : Scope}
    (hs : { s with atStart := s'.atStart } = s') (hx : ¬IsModified x) :
    Lexeme.scan? s scope x = Lexeme.scan? s' scope x := by
  have found {s s' : Lexeme.Settings} (hs : { s with atStart := s'.atStart } = s')
      {a : Lexeme × Nat} (h : Lexeme.scan? s scope x = some a) :
      Lexeme.scan? s' scope x = some a := by
    obtain ⟨t, r, rfl, hn, spelled⟩ := Lexeme.spelled_of_scan? h
    have hscan := (spelled_start hs hx spelled).scan?
    rwa [← hn] at hscan
  have hs' : { s' with atStart := s.atStart } = s := by rw [← hs]
  exact Option.ext fun a => ⟨found hs, found hs'⟩

/-- Without subpatterns only a modifier is read at the start and not past it. -/
theorem move?_start (plain : e.subpatterns = none) (hx : ¬IsModified x) (scope : Scope)
    (c : Context) : e.move? ⟨true, x, scope, c⟩ = e.move? ⟨false, x, scope, c⟩ := by
  have hscan : Lexeme.scan? (e.lexemeSettings ⟨true, x, scope, c⟩) scope x =
      Lexeme.scan? (e.lexemeSettings ⟨false, x, scope, c⟩) scope x := scan?_start rfl hx
  unfold Setting.move?
  simp only [hscan]
  cases hfound : Lexeme.scan? (e.lexemeSettings ⟨false, x, scope, c⟩) scope x with
  | none => rfl
  | some found =>
    obtain ⟨lexeme, n⟩ := found
    obtain ⟨_, _, -, -, spelled⟩ := Lexeme.spelled_of_scan? hfound
    have kept : lexeme.isReparsed = false := by
      cases spelled with
      | subpattern building => simp [Setting.lexemeSettings, plain] at building
      | _ => rfl
    simp only [kept]
    rfl

/-- What is read from the start of a text that is not modified there. -/
theorem settles_iff_start (plain : e.subpatterns = none) (hx : ¬IsModified x) :
    Settles e .outside 0 x P ↔
      ∃ ms q, Reading e (.start x (.ofFlags "")) ms q ∧ q.rest = [] ∧ written ms = x ∧
        P q.context := by
  have hmove := move?_start plain hx .outside (.unnamed 0)
  constructor
  · rintro ⟨ms, q, hms, hend, hw, hP⟩
    cases hms with
    | done => exact ⟨[], _, .done _, hend, hw, hP⟩
    | step move tail => exact ⟨_ :: _, q, .step (hmove.trans move) tail, hend, hw, hP⟩
  · rintro ⟨ms, q, hms, hend, hw, hP⟩
    cases hms with
    | done => exact ⟨[], _, .done _, hend, hw, hP⟩
    | step move tail => exact ⟨_ :: _, q, .step (hmove.symm.trans move) tail, hend, hw, hP⟩

end Starts

/-- Nothing is expanded without subpatterns. -/
theorem Reading.expansions_eq_zero (h : Reading e p ms q) (plain : e.subpatterns = none) :
    expansions ms = 0 := by
  induction h with
  | done => rfl
  | @step p q m ms move tail ih =>
    rw [expansions_cons, ih]
    cases moves_of_move? move with
    | subpattern _ _ building => simp [plain] at building
    | _ => rfl

section Modifiers

variable (isName : IsName name)
include isName

private theorem ne_of_third {d : Char} (hd : Flags.isFlagChar d = false) (x r : List Char) :
    '(' :: '?' :: d :: x ≠ '(' :: '?' :: (name ++ ')' :: r) := by
  intro h
  obtain ⟨a, cs, rfl⟩ := List.exists_cons_of_ne_nil isName.1
  obtain rfl := (List.cons.inj (List.cons.inj (List.cons.inj h).2).2).1
  simp [isName.2 d (by simp)] at hd

private theorem ne_of_copied (copied : Copied .outside t x) (v r : List Char) :
    t ++ v ≠ '(' :: '?' :: (name ++ ')' :: r) := by
  intro h
  cases copied with
  | escape => simp at h
  | opener isOpener =>
    simp only [openers, List.mem_cons, List.not_mem_nil, or_false] at isOpener
    rcases isOpener with rfl | rfl | rfl | rfl | rfl | rfl <;>
      exact ne_of_third isName rfl _ r h
  | lazy simple =>
    obtain rfl := (List.cons.inj h).1
    exact absurd simple (by decide)
  | counted isCounted =>
    obtain ⟨u, rfl, -⟩ := isCounted.exists_eq_cons
    simp at h

/-- A parenthesis that is read alone does not open a modifier of letters. -/
private theorem exists_not_isAlpha_of_single {s : Lexeme.Settings}
    (bare : Lexeme.scan? s .outside ('(' :: x) = none)
    (settled : startsWithModifier ('(' :: x) = false) (hp : p.rest = x)
    (started : p.atStart = false) (hscope : p.scope = .outside) (h : Reading e p ms q)
    (hend : q.rest = []) (hw : written ms = '?' :: (name ++ ')' :: r)) :
    ∃ c ∈ name, c.isAlpha = false := by
  obtain ⟨u, rfl⟩ := List.head?_eq_some_iff.mp (head?_of_single bare)
  obtain ⟨y, hy, echoes⟩ := exists_echoes_of_mark h hend started hscope hp
  obtain rfl : y = name ++ ')' :: r := (List.cons.inj (hy.symm.trans hw)).2
  obtain ⟨u, rfl⟩ := echoes (name ++ [')']) r (by simp)
    ((areOrdinary_of_isName isName).append (by decide))
  by_contra hall
  simp only [not_exists, not_and, Bool.not_eq_false] at hall
  have hmodifier : startsWithModifier ('(' :: '?' :: (name ++ [')'] ++ u)) = true :=
    startsWithModifier_iff.mpr ⟨name, ')', u, by simp, isName.1,
      fun d hd => by simp [hall d hd], .inl rfl⟩
  rw [settled] at hmodifier
  cases hmodifier

/-- Where the text that is written starts like a modifier, its name is not all letters. -/
theorem exists_not_isAlpha (h : Reading e p ms q) (hend : q.rest = []) (hscope : p.scope = .outside)
    (apart : glued ms = 0) (hw : written ms = '(' :: '?' :: (name ++ ')' :: r)) :
    ∃ c ∈ name, c.isAlpha = false := by
  induction h with
  | done => simp at hw
  | @step p q m ms move tail ih =>
    simp only [glued, Nat.add_eq_zero_iff] at apart
    have hm := moves_of_move? move
    rw [written_cons] at hw
    cases hm with
    | @lexeme lexeme t r' w c rest spelled kept emitted =>
      have separated (h : separator r' ++ written ms = '(' :: '?' :: (name ++ ')' :: r)) :
          ∃ c ∈ name, c.isAlpha = false := by
        unfold separator at h
        split at h
        · exact ih hend hscope apart.1 h
        · exact absurd h (ne_of_third isName rfl _ r)
      have recorded (hcount : c.groupCount = p.context.groupCount + 1)
          (h : '(' :: written ms = '(' :: '?' :: (name ++ ')' :: r)) : False := by
        have hglue : glue p.context c (written ms) = 0 := apart.2
        rw [glue, (List.cons.inj h).2, if_pos ⟨by omega, rfl⟩] at hglue
        cases hglue
      cases emitted with
      | subpattern => simp [Lexeme.isReparsed] at kept
      | comment | spacing => exact separated hw
      | modifier => exact ih hend hscope apart.1 hw
      | namedGroup added => exact (recorded (groupCount_addGroup added) hw).elim
      | group _ added => exact (recorded (groupCount_addGroup added) hw).elim
      | gathering => exact absurd hw (ne_of_third isName rfl _ r)
      | _ => simp [Move.output, referenceTo, anyChar] at hw
    | subpattern => exact ih hend hscope apart.1 hw
    | copied rest bare copied =>
      rw [hscope] at copied
      exact absurd hw (ne_of_copied isName copied _ r)
    | @single a r' rest bare own settled =>
      rw [hscope, rest] at bare settled
      rcases single_cases p.scope a with hs | hs
      · simp only [Move.output, hs] at hw
        obtain ⟨rfl, htail⟩ := List.cons.inj hw
        have hsingle : (Setting.single p.scope '(').2 = .outside := by
          rw [hscope]
          rfl
        exact exists_not_isAlpha_of_single isName bare (by simpa using settled) rfl rfl hsingle tail
          hend htail
      · simp [Move.output, hs] at hw

end Modifiers

end Patterns.Extended

namespace Patterns
open Patterns.Text Patterns.Extended

variable {d : Dialect} {w : Surroundings} {limit : Nat} {pattern flags : String}
  {subpatterns : Option Subpatterns} {m : Matcher}

/-- The plain language accepts the source without flags, with the same number of groups. -/
def Matcher.StandsAlone (m : Matcher) : Prop :=
  (compilePlain? m.source {}).any (·.groups == m.groupCount) = true

/-- Another matcher has the same source and the same number of groups. -/
structure Matcher.SameSource (m m' : Matcher) : Prop where
  source : m'.source = m.source
  groupCount : m'.groupCount = m.groupCount

/-- In this context the source makes a matcher with the same source. -/
def Matcher.IsRemade (m : Matcher) (c : Context) : Prop :=
  ∃ m', ofCompiled m.source (.ofList c.flags) c.groups m.source "" = .ok m' ∧ m.SameSource m'

theorem isRemade_unnamed_iff : m.IsRemade (.unnamed m.groupCount) ↔ m.StandsAlone := by
  have hflags : PlainFlags.ofList (Context.unnamed m.groupCount).flags = {} := rfl
  have hcount : (Context.unnamed m.groupCount).groups.length = m.groupCount :=
    Context.groupCount_unnamed _
  rw [Matcher.IsRemade, hflags, Matcher.StandsAlone]
  constructor
  · rintro ⟨m', hm', -⟩
    have hbody := Matcher.body_of_ofCompiled hm'
    have hgroups := (Matcher.eq_of_build hm').2.2.2.2
    split at hgroups
    · next hlength => simp [hbody, hlength, hcount]
    · cases hgroups
  · intro h
    rw [← hcount] at h
    obtain ⟨m', hm'⟩ := Matcher.exists_ofCompiled m.source "" h
    obtain ⟨hsource, hnames⟩ := Matcher.eq_of_ofCompiled hm'
    exact ⟨m', hm', hsource, by rw [Matcher.groupCount, hnames, hcount]⟩

/-- The source of a matcher compiles to itself, without flags, exactly where its reading glues no
group to a question mark and closes no comment. -/
theorem compile_source (w' : Surroundings) (limit' : Nat) (tokens : d.tokens = [])
    (h : Extended.compile d w limit pattern flags subpatterns = .ok m) :
    ∃ ms q, Reading ⟨d, w, subpatterns, pattern⟩ (.start pattern.toList (.ofFlags flags)) ms q ∧
      q.rest = [] ∧ written ms = m.source.toList ∧
      captures .outside m.source.toList + glued ms = m.groupCount ∧
      (glued ms = 0 → ((∃ m', Extended.compile d w' limit' m.source "" none = .ok m' ∧
        m.SameSource m') ↔ ¬ClosesOpenComment ms ∧ m.StandsAlone)) := by
  obtain ⟨-, out, c, hplain, hm⟩ := compile_eq_ok_iff.mp h
  obtain ⟨ms, q, hms, hend, -, rfl, rfl⟩ := (toPlain_eq_ok_iff tokens).mp hplain
  obtain ⟨hsource, hnames⟩ := Matcher.eq_of_ofCompiled hm
  have hwritten : written ms = m.source.toList := by rw [hsource, String.toList_ofList]
  have hcount : q.context.groupCount = m.groupCount := by
    rw [Matcher.groupCount, hnames]
    rfl
  have hcaptures := captures_written hms hend
  refine ⟨ms, q, hms, hend, hwritten, ?_, fun apart => ?_⟩
  · rw [← hwritten, ← hcount]
    exact hcaptures
  have hunmodified : ¬IsModified m.source.toList := by
    rintro ⟨name, r, isName, hx⟩
    have hname := exists_not_isAlpha isName hms hend rfl apart (hwritten.trans hx)
    have hbody := Matcher.body_of_ofCompiled hm
    rw [← hsource, compilePlain?, Plain.compile?_eq_none hx isName hname] at hbody
    cases hbody
  let e' : Setting := ⟨d, w', none, m.source⟩
  have hsettles : Settles e' .outside 0 (written ms) m.IsRemade ↔
      ¬ClosesOpenComment ms ∧ m.IsRemade (.unnamed q.context.groupCount) :=
    settles_written_iff hms hend rfl apart
  rw [hcount, isRemade_unnamed_iff, hwritten] at hsettles
  rw [← hsettles]
  refine Iff.trans ?_ (settles_iff_start rfl hunmodified).symm
  constructor
  · rintro ⟨m', hm', same⟩
    obtain ⟨-, out', c', hplain', hof⟩ := compile_eq_ok_iff.mp hm'
    obtain ⟨ms', q', hms', hend', -, rfl, rfl⟩ := (toPlain_eq_ok_iff (e := e') tokens).mp hplain'
    have hsource' := (Matcher.eq_of_ofCompiled hof).1
    rw [same.source] at hsource'
    rw [← hsource'] at hof
    exact ⟨ms', q', hms', hend', by rw [hsource', String.toList_ofList], m', hof, same⟩
  · rintro ⟨ms', q', hms', hend', hw', m', hof, same⟩
    have hzero : expansions ms' = 0 := hms'.expansions_eq_zero rfl
    refine ⟨m', compile_eq_ok_iff.mpr ⟨rfl, m.source.toList, q'.context, ?_, ?_⟩, same⟩
    · exact (toPlain_eq_ok_iff (e := e') tokens).mpr ⟨ms', q', hms', hend', by omega, hw', rfl⟩
    · rw [String.ofList_toList]
      exact hof

/-- Without the flags that the plain language reads there is nothing to accept anew. -/
theorem standsAlone_of_ofCompiled {source : String} {f : PlainFlags} {names : List (Option String)}
    {shown : String} (h : Matcher.ofCompiled source f names pattern shown = .ok m)
    (hcase : m.flags.ignoreCase = false) (hlines : m.flags.multiline = false) : m.StandsAlone := by
  obtain ⟨hsource, hflags, -, -, hgroups⟩ := Matcher.eq_of_build h
  rw [hflags] at hcase hlines
  have hbody : compilePlain? m.source {} = some m.body := by
    rw [hsource, ← Matcher.body_of_ofCompiled h, compilePlain?, compilePlain?, hcase, hlines]
  split at hgroups
  · next hlength =>
    have hnames : m.names = names := (Except.ok.inj hgroups).symm
    simp [Matcher.StandsAlone, hbody, hlength, Matcher.groupCount, hnames]
  · cases hgroups

namespace Engine

variable {g : Engine}

/-- Every capturing group of a source is a bare parenthesis, and the source compiles to itself
without flags, exactly where no group is glued to a question mark, no comment that the pattern left
open is closed, and the plain language does not need the flags. -/
theorem compile_source_iff (tokens : g.dialect.tokens = [])
    (h : ((compile pattern flags).run.run g).1 = .ok m) :
    ∃ ms q, Reading ⟨g.dialect, g.surroundings, none, pattern⟩
        (.start pattern.toList (.ofFlags flags)) ms q ∧
      q.rest = [] ∧ Extended.written ms = m.source.toList ∧
      captures .outside m.source.toList + glued ms = m.groupCount ∧
      ((captures .outside m.source.toList = m.groupCount ∧
        ∃ m', ((compile m.source "").run.run ((compile pattern flags).run.run g).2).1 = .ok m' ∧
          m.SameSource m') ↔
        glued ms = 0 ∧ ¬ClosesOpenComment ms ∧
          (m.flags.ignoreCase = true ∨ m.flags.multiline = true → m.StandsAlone)) := by
  have idle := idle_of_compile h
  have hm := compile_of_run idle h
  obtain ⟨lines, hrun⟩ := exists_lines_run_compileWith idle pattern flags none
  have hafter : ((compile pattern flags).run.run g).2 = g.written lines := congrArg Prod.snd hrun
  obtain ⟨lines', hagain⟩ := exists_lines_run_compileWith (g := g.written lines) idle m.source ""
    none
  obtain ⟨ms, q, hms, hend, hwritten, hcount, hsame⟩ :=
    compile_source g.surroundings g.reparseLimit tokens hm
  obtain ⟨-, out, c, -, hof⟩ := compile_eq_ok_iff.mp hm
  have halone : (m.flags.ignoreCase = true ∨ m.flags.multiline = true → m.StandsAlone) ↔
      m.StandsAlone := by
    refine ⟨fun himp => ?_, fun h _ => h⟩
    by_cases hflags : m.flags.ignoreCase = true ∨ m.flags.multiline = true
    · exact himp hflags
    · simp only [not_or, Bool.not_eq_true] at hflags
      exact standsAlone_of_ofCompiled hof hflags.1 hflags.2
  refine ⟨ms, q, hms, hend, hwritten, hcount, ?_⟩
  rw [hafter, halone]
  have hrun' : ((compile m.source "").run.run (g.written lines)).1 =
      Extended.compile g.dialect g.surroundings g.reparseLimit m.source "" none :=
    congrArg Prod.fst hagain
  rw [hrun']
  have hglued : captures .outside m.source.toList = m.groupCount ↔ glued ms = 0 := by omega
  rw [hglued]
  exact and_congr_right hsame

/-- The name of a group is left out of the source. -/
theorem compile_source_named :
    ∃ m, ((compile "(?<n>a)" "").run.run {}).1 = .ok m ∧ m.source = "(a)" ∧
      ∃ ms q, Reading ⟨{}, surroundings {}, none, "(?<n>a)"⟩
          (.start "(?<n>a)".toList (.ofFlags "")) ms q ∧
        q.rest = [] ∧ Extended.written ms = m.source.toList ∧
        captures .outside m.source.toList + glued ms = m.groupCount ∧
        ((captures .outside m.source.toList = m.groupCount ∧
          ∃ m', ((compile m.source "").run.run ((compile "(?<n>a)" "").run.run {}).2).1 = .ok m' ∧
            m.SameSource m') ↔
          glued ms = 0 ∧ ¬ClosesOpenComment ms ∧
            (m.flags.ignoreCase = true ∨ m.flags.multiline = true → m.StandsAlone)) := by
  obtain ⟨m, lines, hrun, hsource, -⟩ : ∃ m lines,
      (compile "(?<n>a)" "").run.run {} = (.ok m, Engine.written {} lines) ∧ m.source = "(a)" ∧
        m.flags = .ofList [] ∧ m.origin = .extended "(?<n>a)" "" :=
    exists_run_compileWith_source "(a)".toList ⟨[], [some "n"]⟩ rfl rfl (by cbv) (by decide +kernel)
  have h : ((compile "(?<n>a)" "").run.run {}).1 = .ok m := congrArg Prod.fst hrun
  exact ⟨m, h, hsource, compile_source_iff rfl h⟩

/-- A group that stands before a question mark, once the comment between them is removed, becomes
the opener of another group. -/
theorem compile_source_glued :
    ∃ m m', ((compile "((?#)?<n>a)" "").run.run {}).1 = .ok m ∧ m.source = "(?<n>a)" ∧
      m.groupCount = 1 ∧ captures .outside m.source.toList = 0 ∧
      ((compile m.source "").run.run ((compile "((?#)?<n>a)" "").run.run {}).2).1 = .ok m' ∧
      m'.source = "(a)" := by
  obtain ⟨m, hm⟩ : ∃ m, Matcher.ofCompiled "(?<n>a)" (.ofList []) [none] "((?#)?<n>a)" "" =
      .ok m := Matcher.exists_ofCompiled _ _ (by decide +kernel)
  obtain ⟨hsource, hnames⟩ := Matcher.eq_of_ofCompiled hm
  obtain ⟨lines, hrun⟩ := exists_lines_run_compileWith (g := {}) rfl "((?#)?<n>a)" "" none
  have hplain : Setting.toPlain ⟨{}, surroundings {}, none, "((?#)?<n>a)"⟩ 10000 (.ofFlags "") =
      .ok ("(?<n>a)".toList, ⟨[], [none]⟩) := by cbv
  have hcompile : Extended.compile {} (surroundings {}) 10000 "((?#)?<n>a)" "" none = .ok m :=
    compile_eq_ok_iff.mpr ⟨rfl, _, _, hplain, hm⟩
  obtain ⟨m', lines', hagain, hsource', -⟩ : ∃ m' lines',
      (compile "(?<n>a)" "").run.run (Engine.written {} lines) =
        (.ok m', (Engine.written {} lines).written lines') ∧ m'.source = "(a)" ∧
        m'.flags = .ofList [] ∧ m'.origin = .extended "(?<n>a)" "" :=
    exists_run_compileWith_source "(a)".toList ⟨[], [some "n"]⟩ rfl rfl (by cbv) (by decide +kernel)
  refine ⟨m, m', (congrArg Prod.fst hrun).trans hcompile, hsource, ?_, ?_, ?_, hsource'⟩
  · rw [Matcher.groupCount, hnames]
    rfl
  · rw [hsource]
    cbv
  · rw [hsource, show ((compile "((?#)?<n>a)" "").run.run {}).2 = _ from congrArg Prod.snd hrun]
    exact congrArg Prod.fst hagain

end Engine

end Patterns
