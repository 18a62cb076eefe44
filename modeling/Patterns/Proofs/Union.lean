import Patterns.Proofs.Renumbering
import Patterns.Proofs.Rereading

/-!
# Unions

The parts of a union are read again, each by itself and then all together. Where their texts fall
into fragments the union is the text of these fragments, with the references of each part moved past
the groups of the parts before it.
-/
namespace Patterns
open Patterns.Text Patterns.Extended

namespace Engine

variable {g : Engine}

theorem run_bind {σ α β : Type} (x : ExceptT Error (StateM σ) α)
    (f : α → ExceptT Error (StateM σ) β) (g : σ) :
    (x >>= f).run.run g =
      match x.run.run g with
      | (.ok a, g') => (f a).run.run g'
      | (.error err, g') => (.error err, g') := by
  change (ExceptT.bindCont f (x.run.run g).1).run (x.run.run g).2 = _
  cases x.run.run g with
  | mk a g' => cases a <;> rfl

/-- A compilation changes nothing but the trace. -/
theorem exists_run_compileWith (h : g.compiling = false) (pattern flags : String)
    (subpatterns : Option Subpatterns) :
    ∃ trace, (compileWith pattern flags subpatterns).run.run g =
      (Extended.compile g.dialect g.surroundings g.reparseLimit pattern flags subpatterns,
        { g with trace }) := by
  obtain ⟨dialect, extensible, compiling, limit, trace, store, cached⟩ := g
  obtain rfl : compiling = false := h
  let g : Engine := ⟨dialect, extensible, false, limit, trace, store, cached⟩
  have hrun : (compileWith pattern flags subpatterns).run.run g =
      (do
        let m ← ExceptT.mk (pure
          (Extended.compile dialect g.surroundings limit pattern flags subpatterns))
        note ("[compile] /" ++ pattern ++ "/" ++ flags ++ " -> /" ++ m.source ++ "/"
          ++ m.flags.toString ++ " groups=" ++ toString m.groupCount)
        return m : EngineM Matcher).run.run g := rfl
  rw [hrun]
  cases Extended.compile dialect g.surroundings limit pattern flags subpatterns with
  | error err => exact ⟨trace, rfl⟩
  | ok m => exact ⟨_, rfl⟩

end Engine

section Compilation

variable {d : Dialect} {w : Surroundings} {limit : Nat} {pattern flags shown : String}
  {names : Groups} {out : List Char} {c : Context} {m : Matcher}

theorem validate_of_letters (hn : flags.toList.Nodup)
    (hl : ∀ c ∈ flags.toList, c ∈ PlainFlags.letters) (custom : List Char) :
    Flags.validate custom flags = .ok () :=
  Flags.validate_eq_ok_iff.mpr ⟨hn, fun c hc => by simp [Flags.isKnown, hl c hc]⟩

theorem compile_of_toPlain {subpatterns : Option Subpatterns}
    (hv : Flags.validate d.flags flags = .ok ())
    (h : Setting.toPlain ⟨d, w, subpatterns, pattern⟩ limit (.ofFlags flags) = .ok (out, c)) :
    Extended.compile d w limit pattern flags subpatterns =
      Matcher.ofCompiled (String.ofList out) (.ofList c.flags) c.groups pattern flags := by
  simp [Extended.compile, hv, h, bind, Except.bind]

theorem compile_of_toPlain_error {subpatterns : Option Subpatterns} {err : Error}
    (hv : Flags.validate d.flags flags = .ok ())
    (h : Setting.toPlain ⟨d, w, subpatterns, pattern⟩ limit (.ofFlags flags) = .error err) :
    Extended.compile d w limit pattern flags subpatterns = .error err := by
  simp [Extended.compile, hv, h, bind, Except.bind]

theorem validate_of_compile (h : Extended.compile d w limit pattern flags none = .ok m) :
    Flags.validate d.flags flags = .ok () := by
  cases hv : Flags.validate d.flags flags with
  | error err => simp [Extended.compile, hv, bind, Except.bind] at h
  | ok _ => rfl

namespace Matcher

variable {source : String} {f : PlainFlags}

theorem eq_of_ofCompiled (h : ofCompiled source f names pattern shown = .ok m) :
    m.source = source ∧ m.names = names := by
  unfold ofCompiled build at h
  split at h
  · simp at h
  · dsimp only at h
    split at h
    · obtain rfl := Except.ok.inj h
      exact ⟨rfl, rfl⟩
    · simp [bind, Except.bind] at h

theorem body_of_ofCompiled (h : ofCompiled source f names pattern shown = .ok m) :
    compilePlain? source f = some m.body := by
  unfold ofCompiled build at h
  split at h
  · simp at h
  · next body hbody =>
    dsimp only at h
    split at h
    · obtain rfl := Except.ok.inj h
      exact hbody
    · simp [bind, Except.bind] at h

theorem groups_of_ofCompiled (h : ofCompiled source f names pattern shown = .ok m) :
    m.body.groups = names.length := by
  unfold ofCompiled build at h
  split at h
  · simp at h
  · dsimp only at h
    split at h
    · next hcount =>
      obtain rfl := Except.ok.inj h
      exact hcount
    · simp [bind, Except.bind] at h

theorem exists_build {origin : Origin} {groups : Plain.Regex → Except Error Groups}
    {body : Plain.Regex} (shown : String) (h : compilePlain? source f = some body)
    (hgroups : groups body = .ok names) :
    ∃ m, build source shown f origin groups = .ok m ∧ m.source = source ∧ m.flags = f ∧
      m.body = body := by
  unfold build
  split
  · next hnone => simp [h] at hnone
  · next body' hbody =>
    obtain rfl : body' = body := Option.some.inj (hbody.symm.trans h)
    rw [hgroups]
    exact ⟨_, rfl, rfl, rfl, rfl⟩

theorem exists_ofCompiled (pattern shown : String)
    (h : (compilePlain? source f).any (·.groups == names.length) = true) :
    ∃ m, ofCompiled source f names pattern shown = .ok m := by
  obtain ⟨body, hbody, hgroups⟩ := (Option.any_eq_true ..).mp h
  have hcount : body.groups = names.length := by simpa using hgroups
  exact (exists_build shown hbody (show _ = Except.ok names from if_pos hcount)).imp
    fun m hm => hm.1

theorem kind_of_ofCompiled {err : Error}
    (h : ofCompiled source f names pattern shown = .error err) : err.kind = .malformed := by
  unfold ofCompiled build at h
  split at h
  · obtain rfl := Except.error.inj h
    rfl
  · dsimp only at h
    split at h
    · simp [bind, Except.bind, pure, Except.pure] at h
    · obtain rfl := Except.error.inj h
      rfl

end Matcher

end Compilation

namespace Needle

def names : Needle → Groups
  | .text _ => []
  | .matcher m => m.names

/-- What a part is in plain text, when `prior` groups stand before it. -/
def source (prior : Nat) : Needle → List Char
  | .text t => Literal.escapeList t.toList
  | .matcher m => shiftReferences prior .outside m.source.toList

def sources : Nat → List Needle → List (List Char)
  | _, [] => []
  | prior, p :: ps => p.source prior :: sources (prior + p.names.length) ps

/-- Reads the plain text of a part again, without its flags. -/
def recheck : Needle → Except Error Unit
  | .text _ => .ok ()
  | .matcher m => do
    let _ ← Matcher.ofCompiled m.source {} (List.replicate m.names.length none) m.source ""
    return ()

def recheckAll : List Needle → Except Error Unit
  | [] => .ok ()
  | p :: ps => do
    p.recheck
    recheckAll ps

/-- The plain text of a part falls into fragments. The numbers of its groups are machine words. -/
inductive FallsInto : Needle → List Fragment → Prop
  | text (t : String) : FallsInto (.text t) (Fragments.literal t.toList)
  | matcher {m : Matcher} {ss : List Fragment} (source : m.source.toList = Fragments.plain ss)
    (names : m.names = Fragments.groups ss) (fit : Fragments.Fit 0 [] ss)
    (few : m.names.length < UInt64.size) : FallsInto (.matcher m) ss

variable {p : Needle} {ps : List Needle} {m : Matcher} {ss : List Fragment}
  {sss : List (List Fragment)}

namespace FallsInto

theorem names_eq (h : p.FallsInto ss) : p.names = Fragments.groups ss := by
  cases h with
  | text t => simp [Needle.names]
  | matcher _ names => exact names

theorem fit (h : p.FallsInto ss) : Fragments.Fit 0 [] ss := by
  cases h with
  | text t => exact Fragments.fit_literal
  | matcher _ _ fit => exact fit

theorem source_eq (h : p.FallsInto ss) (prior : Nat) :
    p.source prior = Fragments.plain (Fragments.shift prior ss) := by
  cases h with
  | text t => simp [Needle.source]
  | matcher source _ fit => rw [Needle.source, source, shiftReferences_plain fit]

end FallsInto

theorem sources_eq (h : List.Forall₂ FallsInto ps sss) (prior : Nat) :
    sources prior ps = (Fragments.shiftEach prior sss).map Fragments.plain := by
  induction h generalizing prior with
  | nil => rfl
  | cons hp _ ih =>
    rw [sources, hp.source_eq, hp.names_eq, ih]
    rfl

theorem flatMap_names (h : List.Forall₂ FallsInto ps sss) :
    ps.flatMap names = sss.flatMap Fragments.groups := by
  induction h with
  | nil => rfl
  | cons hp _ ih => rw [List.flatMap_cons, List.flatMap_cons, hp.names_eq, ih]

end Needle

namespace Engine

variable {g : Engine} {m : Matcher} {ss : List Fragment} {ps : List Needle}
  {sss : List (List Fragment)} {prior : Nat}

theorem mergeNames_replicate (names : Groups) :
    mergeNames names (List.replicate names.length none) = names := by
  induction names with
  | nil => rfl
  | cons a names ih =>
    cases a <;> simp [List.replicate_succ, mergeNames, ih]

theorem distinctNames_replicate (n : Nat) : DistinctNames (List.replicate n none) := by
  simp [DistinctNames]

private theorem compile_matcher (tokens : g.dialect.tokens = [])
    (h : (Needle.matcher m).FallsInto ss) :
    Extended.compile g.dialect g.surroundings g.reparseLimit m.source "" none =
      Matcher.ofCompiled m.source {} (List.replicate m.names.length none) m.source "" := by
  have hplain : Setting.toPlain ⟨g.dialect, g.surroundings, none, m.source⟩ g.reparseLimit
      (.ofFlags "") = .ok (m.source.toList, ⟨[], List.replicate m.names.length none⟩) := by
    cases h with
    | matcher source names fit few =>
      have htext : m.source.toList = Fragments.text (Fragments.nameless ss) := by
        rw [source, Fragments.text_nameless]
      have hread := toPlain_fragments (e := ⟨g.dialect, g.surroundings, none, m.source⟩)
        (c := .ofFlags "") g.reparseLimit tokens rfl htext (fun _ _ => rfl) fit.nameless
        (by simpa [Context.ofFlags, Fragments.groups_nameless] using distinctNames_replicate _)
      rw [hread, Fragments.plain_nameless, source, names, Fragments.groups_nameless]
      rfl
  rw [compile_of_toPlain (validate_of_letters (by simp) (by simp) _) hplain, String.ofList_toList]
  rfl

theorem exists_run_unionParts (tokens : g.dialect.tokens = []) (idle : g.compiling = false)
    (h : List.Forall₂ Needle.FallsInto ps sss) (prior : Nat) :
    ∃ trace, (unionParts prior ps).run.run g =
      ((Needle.recheckAll ps).map fun _ =>
        (Fragments.shiftEach prior sss).map fun ss => String.ofList (Fragments.text ss),
        { g with trace }) := by
  induction h generalizing g prior with
  | nil => exact ⟨g.trace, rfl⟩
  | @cons p ss ps sss hp _ ih =>
    cases p with
    | text t =>
      obtain ⟨trace, hrun⟩ := ih tokens idle prior
      refine ⟨trace, ?_⟩
      have hgroups : prior + (Fragments.groups ss).length = prior := by
        rw [← hp.names_eq]
        rfl
      have htext :
          Literal.escape t = String.ofList (Fragments.text (Fragments.shift prior ss)) := by
        cases hp with
        | text => simp [Literal.escape]
      rw [unionParts, run_bind, hrun, Fragments.shiftEach, hgroups, Needle.recheckAll]
      cases Needle.recheckAll ps with
      | error err => rfl
      | ok _ =>
        rw [List.map_cons, ← htext]
        rfl
    | matcher m =>
      obtain ⟨trace, hrun⟩ := exists_run_compileWith idle m.source "" none
      obtain ⟨trace', hrun'⟩ := ih (g := { g with trace }) tokens idle
        (prior + (Fragments.groups ss).length)
      rw [compile_matcher tokens hp] at hrun
      rw [unionParts, run_bind, compile, hrun, Needle.recheckAll]
      cases hc : Matcher.ofCompiled m.source {} (List.replicate m.names.length none) m.source ""
        with
      | error err =>
        refine ⟨trace, ?_⟩
        simp [Needle.recheck, hc, bind, Except.bind, Except.map]
      | ok again =>
        obtain ⟨hsource, hnames⟩ := Matcher.eq_of_ofCompiled hc
        refine ⟨trace', ?_⟩
        have hgroups : m.names = Fragments.groups ss := hp.names_eq
        have htext : renumber prior false m.names m.source.toList =
            Fragments.text (Fragments.shift prior ss) := by
          cases hp with
          | matcher source names fit few =>
            rw [names] at few
            rw [source, names, renumber_plain fit few]
        simp only [hsource, hnames, mergeNames_replicate, htext]
        rw [run_bind, hgroups, hrun', Needle.recheck, hc]
        cases Needle.recheckAll ps <;> rfl

def Conjunction.mark : Conjunction → List Fragment
  | .or => [Fragment.bar]
  | .none => []

theorem union_eq (nonempty : ps ≠ []) (flags : String) (conjunction : Conjunction) :
    union ps flags conjunction = (do
      let texts ← unionParts 0 ps
      compile ((String.ofList (Fragments.text conjunction.mark)).intercalate texts) flags) := by
  have hempty : ps.isEmpty = false := by simpa using nonempty
  have hmark : (match conjunction with | .or => "|" | .none => "") =
      String.ofList (Fragments.text conjunction.mark) := by cases conjunction <;> rfl
  rw [← hmark]
  unfold union
  rw [hempty]
  rfl

/-- A union is the text of the fragments of its parts, read once more. -/
theorem exists_run_union (tokens : g.dialect.tokens = []) (idle : g.compiling = false)
    (nonempty : ps ≠ []) (h : List.Forall₂ Needle.FallsInto ps sss) (flags : String)
    (conjunction : Conjunction) :
    ∃ pattern : String, pattern.toList =
        Fragments.text (conjunction.mark.intercalate (Fragments.shiftEach 0 sss)) ∧
      ((union ps flags conjunction).run.run g).1 = (Needle.recheckAll ps).bind fun _ =>
        Extended.compile g.dialect g.surroundings g.reparseLimit pattern flags none := by
  obtain ⟨trace, hrun⟩ := exists_run_unionParts tokens idle h 0
  refine ⟨(String.ofList (Fragments.text conjunction.mark)).intercalate
    ((Fragments.shiftEach 0 sss).map fun ss => String.ofList (Fragments.text ss)), ?_, ?_⟩
  · simp [Fragments.text_intercalate, Function.comp_def]
  · rw [union_eq nonempty, run_bind, hrun]
    cases Needle.recheckAll ps with
    | error err => rfl
    | ok _ =>
      obtain ⟨trace', hrun'⟩ := exists_run_compileWith (g := { g with trace }) idle
        ((String.ofList (Fragments.text conjunction.mark)).intercalate
          ((Fragments.shiftEach 0 sss).map fun ss => String.ofList (Fragments.text ss))) flags none
      exact congrArg Prod.fst hrun'

theorem isBare_ofFlags {flags : String} (hl : ∀ c ∈ flags.toList, c ∈ PlainFlags.letters) :
    (Context.ofFlags flags).IsBare := by
  intro flag hflag
  have hother : flag ∉ PlainFlags.letters := by
    simp only [Flags.extended, List.mem_cons, List.not_mem_nil, or_false] at hflag
    rcases hflag with rfl | rfl | rfl <;> decide
  simp only [Context.hasFlag, Context.ofFlags, List.contains_eq_mem, decide_eq_false_iff_not]
  exact fun hm => hother (hl flag hm)

section Joined

variable {flags : String} {conjunction : Conjunction}

theorem groups_joined (h : List.Forall₂ Needle.FallsInto ps sss) (conjunction : Conjunction) :
    Fragments.groups (conjunction.mark.intercalate (Fragments.shiftEach 0 sss)) =
      ps.flatMap Needle.names := by
  rw [Fragments.groups_intercalate (by cases conjunction <;> rfl),
    Fragments.flatMap_groups_shiftEach, Needle.flatMap_names h]

/-- Where no part runs on into the next one the joined text is read as the plain texts of its
parts. -/
theorem toPlain_joined {pattern : String} (flags : String) (tokens : g.dialect.tokens = [])
    (h : List.Forall₂ Needle.FallsInto ps sss)
    (htext : pattern.toList =
      Fragments.text (conjunction.mark.intercalate (Fragments.shiftEach 0 sss)))
    (fit : Fragments.Fit 0 [] (conjunction.mark.intercalate (Fragments.shiftEach 0 sss)))
    (hl : ∀ c ∈ flags.toList, c ∈ PlainFlags.letters)
    (distinct : DistinctNames (ps.flatMap Needle.names)) :
    Setting.toPlain ⟨g.dialect, g.surroundings, none, pattern⟩ g.reparseLimit (.ofFlags flags) =
      .ok ((Fragments.plain conjunction.mark).intercalate (Needle.sources 0 ps),
        ⟨flags.toList, ps.flatMap Needle.names⟩) := by
  rw [toPlain_fragments (c := .ofFlags flags) _ tokens rfl htext (isBare_ofFlags hl) fit
    (by simpa [Context.ofFlags, groups_joined h] using distinct), Fragments.plain_intercalate,
    groups_joined h, ← Needle.sources_eq h]
  rfl

/-- Then the union is made of the plain texts of its parts. -/
theorem exists_run_union_of_fit (flags : String) (conjunction : Conjunction)
    (tokens : g.dialect.tokens = []) (idle : g.compiling = false) (nonempty : ps ≠ [])
    (h : List.Forall₂ Needle.FallsInto ps sss)
    (fit : Fragments.Fit 0 [] (conjunction.mark.intercalate (Fragments.shiftEach 0 sss)))
    (hn : flags.toList.Nodup) (hl : ∀ c ∈ flags.toList, c ∈ PlainFlags.letters)
    (distinct : DistinctNames (ps.flatMap Needle.names)) :
    ∃ pattern : String,
      Setting.toPlain ⟨g.dialect, g.surroundings, none, pattern⟩ g.reparseLimit
          (.ofFlags flags) =
        .ok ((Fragments.plain conjunction.mark).intercalate (Needle.sources 0 ps),
          ⟨flags.toList, ps.flatMap Needle.names⟩) ∧
      ((union ps flags conjunction).run.run g).1 = (Needle.recheckAll ps).bind fun _ =>
        Matcher.ofCompiled
          (String.ofList ((Fragments.plain conjunction.mark).intercalate (Needle.sources 0 ps)))
          (.ofList flags.toList) (ps.flatMap Needle.names) pattern flags := by
  obtain ⟨pattern, htext, hrun⟩ := exists_run_union tokens idle nonempty h flags conjunction
  have hplain := toPlain_joined flags tokens h htext fit hl distinct
  refine ⟨pattern, hplain, ?_⟩
  rw [hrun, compile_of_toPlain (validate_of_letters hn hl _) hplain]

theorem recheckAll_kind {err : Error} (h : Needle.recheckAll ps = .error err) :
    err.kind = .malformed := by
  induction ps with
  | nil => simp [Needle.recheckAll] at h
  | cons p ps ih =>
    cases p with
    | text t => exact ih h
    | matcher m =>
      cases hc : Matcher.ofCompiled m.source {} (List.replicate m.names.length none) m.source ""
        with
      | error err' =>
        have he : err' = err := by
          simpa [Needle.recheckAll, Needle.recheck, hc, bind, Except.bind] using h
        exact he ▸ Matcher.kind_of_ofCompiled hc
      | ok again =>
        refine ih ?_
        simpa [Needle.recheckAll, Needle.recheck, hc, bind, Except.bind, pure, Except.pure] using h

theorem exists_run_union_error (flags : String) (conjunction : Conjunction)
    (tokens : g.dialect.tokens = []) (idle : g.compiling = false) (nonempty : ps ≠ [])
    (h : List.Forall₂ Needle.FallsInto ps sss)
    (fit : Fragments.Fit 0 [] (conjunction.mark.intercalate (Fragments.shiftEach 0 sss)))
    (hn : flags.toList.Nodup) (hl : ∀ c ∈ flags.toList, c ∈ PlainFlags.letters)
    (repeated : ¬DistinctNames (ps.flatMap Needle.names)) :
    ∃ err, ((union ps flags conjunction).run.run g).1 = .error err ∧ err.kind = .malformed := by
  obtain ⟨pattern, htext, hrun⟩ := exists_run_union tokens idle nonempty h flags conjunction
  obtain ⟨name, hname⟩ := exists_toPlain_fragments_error
    (e := ⟨g.dialect, g.surroundings, none, pattern⟩) (c := .ofFlags flags) g.reparseLimit tokens
    rfl htext
    (isBare_ofFlags hl) fit List.nodup_nil
    (by simpa [Context.ofFlags, groups_joined h] using repeated)
  rw [hrun]
  cases hc : Needle.recheckAll ps with
  | error err => exact ⟨err, rfl, recheckAll_kind hc⟩
  | ok _ =>
    refine ⟨.repeatedGroupName name, ?_, rfl⟩
    exact compile_of_toPlain_error (validate_of_letters hn hl _) hname

end Joined

end Engine

section WellFormed

variable {m : Matcher} {t : Tree} {flags : String} {p : Needle} {ps : List Needle}

/-- A matcher that was compiled from a well-formed pattern, by an engine without tokens, wherever
its cursor stands now. -/
structure Matcher.CompiledFrom (m : Matcher) (t : Tree) (flags : String) : Prop where
  wellFormed : t.WellFormed flags.toList [] []
  isSolid : 'x' ∈ flags.toList → t.isSolid = true
  compiled : ∃ (g : Engine) (m' : Matcher), g.dialect.tokens = [] ∧
    ((Engine.compile (String.ofList t.text) flags).run.run g).1 = .ok m' ∧
    m = m'.withCursor m.cursor

theorem toPlain_tree {g : Engine} (tokens : g.dialect.tokens = [])
    (hw : t.WellFormed flags.toList [] []) (hx : 'x' ∈ flags.toList → t.isSolid = true) :
    Setting.toPlain ⟨g.dialect, g.surroundings, none, String.ofList t.text⟩ g.reparseLimit
      (.ofFlags flags) =
      .ok (t.plain flags.toList [] [], ⟨flags.toList, t.groups flags.toList⟩) := by
  refine toPlain_of_reads tokens ?_
  rw [String.toList_ofList]
  exact reads_tree (c := .ofFlags flags) rfl
    (by simpa [Context.hasFlag, Context.ofFlags] using hx) hw (.inr (by simp))

theorem Matcher.CompiledFrom.eq (h : m.CompiledFrom t flags) :
    m.source = String.ofList (t.plain flags.toList [] []) ∧ m.names = t.groups flags.toList := by
  obtain ⟨g, m', tokens, hrun, hcursor⟩ := h.compiled
  have idle : g.compiling = false := by
    cases hc : g.compiling with
    | false => rfl
    | true =>
      rw [Engine.run_compile_of_compiling hc] at hrun
      simp [Surroundings.compile] at hrun
  obtain ⟨trace, hcompile⟩ := Engine.exists_run_compileWith idle (String.ofList t.text) flags none
  rw [Engine.compile, hcompile] at hrun
  have hplain := toPlain_tree tokens h.wellFormed h.isSolid
  obtain ⟨hsource, hnames⟩ := Matcher.eq_of_ofCompiled
    ((compile_of_toPlain (validate_of_compile hrun) hplain).symm.trans hrun)
  rw [hcursor]
  exact ⟨hsource, hnames⟩

/-- A well-formed pattern has a matcher where the plain language takes its plain text. -/
theorem Matcher.exists_compiledFrom (t : Tree) (flags : String)
    (hw : t.WellFormed flags.toList [] [])
    (hx : 'x' ∈ flags.toList → t.isSolid = true) (hv : Flags.validate [] flags = .ok ())
    (h : (compilePlain? (String.ofList (t.plain flags.toList [] [])) (.ofList flags.toList)).any
      (·.groups == (t.groups flags.toList).length) = true) :
    ∃ m : Matcher, m.CompiledFrom t flags := by
  obtain ⟨m, hm⟩ := exists_ofCompiled (String.ofList t.text) flags h
  obtain ⟨trace, hrun⟩ := Engine.exists_run_compileWith (g := {}) rfl (String.ofList t.text) flags
    none
  have hcompile := compile_of_toPlain (d := {}) hv (toPlain_tree (g := {}) rfl hw hx)
  exact ⟨m, hw, hx, {}, m, rfl, (congrArg Prod.fst hrun).trans (hcompile.trans hm), rfl⟩

/-- Literal text, or a matcher of a well-formed pattern whose groups machine words can count. -/
inductive Needle.IsWellFormed : Needle → Prop
  | text (t : String) : IsWellFormed (.text t)
  | matcher {m : Matcher} {t : Tree} {flags : String} (compiled : m.CompiledFrom t flags)
    (few : m.names.length < UInt64.size) : IsWellFormed (.matcher m)

theorem Matcher.CompiledFrom.fallsInto (h : m.CompiledFrom t flags)
    (few : m.names.length < UInt64.size) :
    (Needle.matcher m).FallsInto (t.fragments flags.toList [] []) := by
  obtain ⟨hsource, hnames⟩ := h.eq
  refine .matcher ?_ ?_ ?_ few
  · rw [hsource, String.toList_ofList, Tree.plain_fragments]
  · rw [hnames, Tree.groups_fragments]
  · exact Tree.fit_fragments h.wellFormed (.inr (by simp)) (.of_head? rfl)

theorem Needle.IsWellFormed.exists_fallsInto (h : p.IsWellFormed) : ∃ ss, p.FallsInto ss := by
  cases h with
  | text t => exact ⟨_, .text t⟩
  | matcher compiled few => exact ⟨_, compiled.fallsInto few⟩

theorem Needle.exists_fallInto (h : ∀ p ∈ ps, p.IsWellFormed) :
    ∃ sss, List.Forall₂ FallsInto ps sss := by
  induction ps with
  | nil => exact ⟨[], .nil⟩
  | cons p ps ih =>
    obtain ⟨ss, hss⟩ := (h p (by simp)).exists_fallsInto
    obtain ⟨sss, hsss⟩ := ih fun q hq => h q (by simp [hq])
    exact ⟨ss :: sss, .cons hss hsss⟩

theorem Needle.fit_of_forall₂ {sss : List (List Fragment)} (h : List.Forall₂ FallsInto ps sss) :
    ∀ ss ∈ sss, Fragments.Fit 0 [] ss := by
  induction h with
  | nil => simp
  | cons hp _ ih =>
    exact List.forall_mem_cons.mpr ⟨hp.fit, ih⟩

/-- Alternatives keep what their parts are in plain text, but for references, which move past the
groups of earlier parts; a name in two parts is refused. -/
theorem Engine.union_or {g : Engine} (tokens : g.dialect.tokens = []) (idle : g.compiling = false)
    (nonempty : ps ≠ []) (hps : ∀ p ∈ ps, p.IsWellFormed) (hn : flags.toList.Nodup)
    (hl : ∀ c ∈ flags.toList, c ∈ PlainFlags.letters) :
    (DistinctNames (ps.flatMap Needle.names) →
      ∃ pattern : String,
        Setting.toPlain ⟨g.dialect, g.surroundings, none, pattern⟩ g.reparseLimit
            (.ofFlags flags) =
          .ok (['|'].intercalate (Needle.sources 0 ps),
            ⟨flags.toList, ps.flatMap Needle.names⟩) ∧
        ((union ps flags .or).run.run g).1 = (Needle.recheckAll ps).bind fun _ =>
          Matcher.ofCompiled (String.ofList (['|'].intercalate (Needle.sources 0 ps)))
            (.ofList flags.toList) (ps.flatMap Needle.names) pattern flags) ∧
    (¬DistinctNames (ps.flatMap Needle.names) →
      ∃ err, ((union ps flags .or).run.run g).1 = .error err ∧ err.kind = .malformed) := by
  obtain ⟨sss, h⟩ := Needle.exists_fallInto hps
  have fit := Fragments.fit_bars (Needle.fit_of_forall₂ h) 0
  exact ⟨exists_run_union_of_fit flags .or tokens idle nonempty h fit hn hl,
    exists_run_union_error flags .or tokens idle nonempty h fit hn hl⟩

/-- A named group and a reference to it. -/
def paired (name : GroupName) (c : Literal) : Tree :=
  .concat (.group (.named false name) (.char c)) (.namedReference name)

theorem union_or_paired :
    ∃ m m' : Matcher,
      m.CompiledFrom (paired ⟨['n'], by decide⟩ ⟨'a', by decide⟩) "i" ∧
      m'.CompiledFrom (paired ⟨['m'], by decide⟩ ⟨'b', by decide⟩) "gs" ∧
      ∃ pattern : String,
        Setting.toPlain ⟨{}, Engine.surroundings {}, none, pattern⟩ 10000 (.ofFlags "im") =
          .ok ("(a)\\1|\\||(b)\\2".toList, ⟨['i', 'm'], [some "n", some "m"]⟩) ∧
        ((Engine.union [.matcher m, .text "|", .matcher m'] "im" .or).run.run {}).1 =
          (Needle.recheckAll [.matcher m, .text "|", .matcher m']).bind fun _ =>
            Matcher.ofCompiled "(a)\\1|\\||(b)\\2" { ignoreCase := true, multiline := true }
              [some "n", some "m"] pattern "im" := by
  obtain ⟨m, hm⟩ := Matcher.exists_compiledFrom (paired ⟨['n'], by decide⟩ ⟨'a', by decide⟩) "i"
    (by decide) (by decide) rfl
    (by decide +kernel)
  obtain ⟨m', hm'⟩ := Matcher.exists_compiledFrom (paired ⟨['m'], by decide⟩ ⟨'b', by decide⟩) "gs"
    (by decide) (by decide) rfl
    (by decide +kernel)
  refine ⟨m, m', hm, hm', ?_⟩
  obtain ⟨hsource, hnames⟩ := hm.eq
  obtain ⟨hsource', hnames'⟩ := hm'.eq
  have hfew : m.names.length < UInt64.size := by rw [hnames]; decide
  have hfew' : m'.names.length < UInt64.size := by rw [hnames']; decide
  have hjoined : [.matcher m, .text "|", .matcher m'].flatMap Needle.names =
      [some "n", some "m"] := by
    simp only [List.flatMap_cons, List.flatMap_nil, Needle.names, hnames, hnames']
    decide
  have hsources : ['|'].intercalate (Needle.sources 0 [.matcher m, .text "|", .matcher m']) =
      "(a)\\1|\\||(b)\\2".toList := by
    simp only [Needle.sources, Needle.source, Needle.names, hsource, hsource', hnames,
      String.toList_ofList]
    cbv
  have hnodup : "im".toList.Nodup := by decide
  have hunion := (Engine.union_or (g := {}) rfl rfl
    (show [.matcher m, .text "|", .matcher m'] ≠ [] by simp)
    (by simp [Needle.IsWellFormed.text, Needle.IsWellFormed.matcher hm hfew,
      Needle.IsWellFormed.matcher hm' hfew']) hnodup (by simp [PlainFlags.letters])).1
    (by rw [hjoined]; decide)
  rw [hjoined, hsources] at hunion
  exact hunion

end WellFormed

end Patterns
