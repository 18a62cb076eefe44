import Patterns.Balanced
import Patterns.Proofs.Union

/-!
# Requests

`Request` lists what a caller can ask of an engine, and `after` is the engine that a list of
requests leaves, whether they succeed or fail. Most operations change nothing but the trace
(`Writes`). `Changes` lists every other change once, and the invariants of engines go through it
(`after_induction`).
-/
namespace Patterns
open Patterns.Text Patterns.Extended

@[simp] theorem Trace.limit_write (t : Trace) (line : String) : (t.write line).limit = t.limit := by
  unfold Trace.write
  split <;> rfl

@[simp] theorem Trace.limit_foldl_write (t : Trace) (lines : List String) :
    (lines.foldl Trace.write t).limit = t.limit := by
  induction lines generalizing t with
  | nil => rfl
  | cons line lines ih => rw [List.foldl_cons, ih, limit_write]

/-- What a caller can ask of an engine. A caller who holds a matcher may share it and move its
cursor; that is all that searching with it changes. -/
inductive Request where
  | compile (pattern flags : String)
  | cache (pattern flags : String)
  | flushCache
  | copy (m : Matcher) (add remove : String)
  | globalize (m : Matcher)
  | union (parts : List Needle) (flags : String) (conjunction : Engine.Conjunction)
  | build (pattern : String) (subpatterns : List (String × Needle)) (flags : String)
  | matchRecursive (text left right flags : String) (escape : Option Char)
    (unbalanced : Unbalanced) (names : SegmentNames)
  | registerToken (pattern : Matcher) (handler : Handler) (o : TokenOptions)
    (isFlag : o.flag.all Flags.isFlagChar = true)
  | install (f : Feature)
  | uninstall (f : Feature)
  | installFeatures (text : String)
  | uninstallFeatures (text : String)
  | setReparseLimit (limit : Nat)
  | setTraceLimit (limit : Nat)
  | enableTrace (enabled : Bool)
  | takeTrace
  | share (m : Matcher)
  | setCursor (h : Handle) (cursor : Nat)

namespace Engine

/-- An operation whose answer is dropped. -/
def asked {α : Type} (x : EngineM α) : EngineM Unit := do
  let _ ← x

end Engine

open Engine in
def Request.perform : Request → EngineM Unit
  | compile pattern flags => asked (Engine.compile pattern flags)
  | cache pattern flags => asked (Engine.cache pattern flags)
  | flushCache => Engine.flushCache
  | copy m add remove => asked (Engine.copy m add remove)
  | globalize m => asked (Engine.globalize m)
  | union parts flags conjunction => asked (Engine.union parts flags conjunction)
  | build pattern subpatterns flags => asked (Engine.build pattern subpatterns flags)
  | matchRecursive text left right flags escape unbalanced names =>
    asked (Engine.matchRecursive text left right flags escape unbalanced names)
  | registerToken pattern handler o _ => Engine.registerToken pattern handler o
  | install f => Engine.install f
  | uninstall f => Engine.uninstall f
  | installFeatures text => Engine.installFeatures text
  | uninstallFeatures text => Engine.uninstallFeatures text
  | setReparseLimit limit => Engine.setReparseLimit limit
  | setTraceLimit limit => Engine.setTraceLimit limit
  | enableTrace enabled => Engine.enableTrace enabled
  | takeTrace => asked Engine.takeTrace
  | share m => asked (Engine.share m)
  | setCursor h cursor => Engine.setCursor h cursor

namespace Engine

def step (g : Engine) (r : Request) : Engine := (r.perform.run.run g).2

/-- The engine that requests to a new engine leave. -/
def after (rs : List Request) : Engine := rs.foldl step {}

@[simp] theorem after_nil : after [] = {} := rfl

theorem after_append (rs rs' : List Request) : after (rs ++ rs') = rs'.foldl step (after rs) :=
  List.foldl_append

@[simp] theorem after_concat (rs : List Request) (r : Request) :
    after (rs ++ [r]) = (after rs).step r := by
  rw [after_append, List.foldl_cons, List.foldl_nil]

variable {α β : Type} {x : EngineM α} {f : α → EngineM β} {g : Engine}

theorem run_asked (x : EngineM α) (g : Engine) :
    (asked x).run.run g = ((x.run.run g).1.map fun _ => (), (x.run.run g).2) := by
  rw [asked, run_bind]
  cases x.run.run g with
  | mk a g' => cases a <;> rfl

/-- The engine with more lines in its trace. -/
def written (g : Engine) (lines : List String) : Engine :=
  { g with trace := lines.foldl Trace.write g.trace }

theorem written_append (g : Engine) (lines lines' : List String) :
    g.written (lines ++ lines') = (g.written lines).written lines' := by
  simp [written, List.foldl_append]

/-- The engine with another trace. -/
def withTrace (g : Engine) (trace : Trace) : Engine := { g with trace }

section Writes

/-- Whatever is in the trace, the operation answers the same and writes the same lines; beyond them
it changes nothing. -/
def Writes (x : EngineM α) : Prop :=
  ∀ g : Engine, ∃ a lines, ∀ trace,
    x.run.run (g.withTrace trace) = (a, (g.withTrace trace).written lines)

theorem Writes.exists_lines (hx : Writes x) (g : Engine) :
    ∃ lines, (x.run.run g).2 = g.written lines := by
  obtain ⟨a, lines, hrun⟩ := hx g
  exact ⟨lines, congrArg Prod.snd (hrun g.trace)⟩

theorem Writes.bind (hx : Writes x) (hf : ∀ a, Writes (f a)) : Writes (x >>= f) := by
  intro g
  obtain ⟨a, lines, hrun⟩ := hx g
  cases a with
  | error err => exact ⟨.error err, lines, fun trace => by rw [run_bind, hrun]⟩
  | ok a =>
    obtain ⟨b, lines', hrun'⟩ := hf a g
    refine ⟨b, lines ++ lines', fun trace => ?_⟩
    rw [run_bind, hrun]
    rw [written_append]
    exact hrun' (lines.foldl Trace.write trace)

theorem writes_result (a : Except Error α) : Writes (ExceptT.mk (pure a)) :=
  fun _ => ⟨a, [], fun _ => rfl⟩

theorem writes_pure (a : α) : Writes (pure a) := fun _ => ⟨.ok a, [], fun _ => rfl⟩

theorem writes_note (line : String) : Writes (note line) := fun _ => ⟨.ok (), [line], fun _ => rfl⟩

theorem Writes.asked (hx : Writes x) : Writes (asked x) := hx.bind fun _ => writes_pure ()

theorem writes_compileWith (pattern flags : String) (subpatterns : Option Subpatterns) :
    Writes (compileWith pattern flags subpatterns) := by
  intro g
  obtain ⟨dialect, extensible, compiling, limit, trace, store, cached⟩ := g
  cases compiling with
  | true => exact ⟨.error .nestedCompile, [], fun _ => rfl⟩
  | false =>
    -- In an engine that is not compiling the mark is set and taken back before the answer is known.
    let g : Engine := ⟨dialect, extensible, false, limit, trace, store, cached⟩
    have hrun (trace : Trace) :
        (compileWith pattern flags subpatterns).run.run (g.withTrace trace) =
          (do
            let m ← ExceptT.mk (pure
              (Extended.compile dialect g.surroundings limit pattern flags subpatterns))
            note ("[compile] /" ++ pattern ++ "/" ++ flags ++ " -> /" ++ m.source ++ "/"
              ++ m.flags.toString ++ " groups=" ++ toString m.groupCount)
            return m : EngineM Matcher).run.run (g.withTrace trace) := rfl
    have hwrites := (writes_result
      (Extended.compile dialect g.surroundings limit pattern flags subpatterns)).bind
        fun m => (writes_note ("[compile] /" ++ pattern ++ "/" ++ flags ++ " -> /" ++ m.source
          ++ "/" ++ m.flags.toString ++ " groups=" ++ toString m.groupCount)).bind
            fun _ => writes_pure m
    obtain ⟨a, lines, h⟩ := hwrites g
    exact ⟨a, lines, fun trace => (hrun trace).trans (h trace)⟩

theorem writes_compile (pattern flags : String) : Writes (compile pattern flags) :=
  writes_compileWith pattern flags none

theorem writes_unionParts (prior : Nat) (ps : List Needle) : Writes (unionParts prior ps) := by
  induction ps generalizing prior with
  | nil => exact writes_pure _
  | cons p ps ih =>
    cases p with
    | text t => exact (ih prior).bind fun _ => writes_pure _
    | matcher m =>
      exact (writes_compile m.source "").bind fun _ => (ih _).bind fun _ => writes_pure _

theorem writes_union (ps : List Needle) (flags : String) (conjunction : Conjunction) :
    Writes (union ps flags conjunction) := by
  cases ps with
  | nil => exact fun _ => ⟨.error .noPatterns, [], fun _ => rfl⟩
  | cons p ps =>
    rw [union_eq (List.cons_ne_nil p ps)]
    exact (writes_unionParts 0 _).bind fun _ => writes_compile _ flags

theorem writes_copy (m : Matcher) (add remove : String) : Writes (copy m add remove) := by
  unfold copy
  split
  · exact writes_compile _ _
  · exact writes_result _

theorem writes_escapeMatcher (mark : Char) (left right : Matcher) (flags : String) :
    Writes (escapeMatcher mark left right flags) :=
  (writes_union _ _ _).bind fun _ => writes_result _

theorem writes_matchRecursive (text left right flags : String) (escape : Option Char)
    (unbalanced : Unbalanced) (names : SegmentNames) :
    Writes (matchRecursive text left right flags escape unbalanced names) := by
  refine (writes_compile _ _).bind fun left => (writes_compile _ _).bind fun right => ?_
  refine Writes.bind ?_ fun _ => writes_result _
  cases escape with
  | none => exact writes_pure _
  | some mark => exact (writes_escapeMatcher mark left right flags).bind fun _ => writes_pure _

end Writes

section Changes

variable {pattern flags : String} {h : Handle} {d : Dialect} {lines : List String} {r : Request}

theorem exists_lines_run_compileWith (idle : g.compiling = false) (pattern flags : String)
    (subpatterns : Option Subpatterns) :
    ∃ lines, (compileWith pattern flags subpatterns).run.run g =
      (Extended.compile g.dialect g.surroundings g.reparseLimit pattern flags subpatterns,
        g.written lines) := by
  obtain ⟨trace, hrun⟩ := exists_run_compileWith idle pattern flags subpatterns
  obtain ⟨lines, hlines⟩ := (writes_compileWith pattern flags subpatterns).exists_lines g
  refine ⟨lines, Prod.ext ?_ hlines⟩
  rw [hrun]

theorem compile_of_run {subpatterns : Option Subpatterns} {m : Matcher}
    (idle : g.compiling = false)
    (h : ((compileWith pattern flags subpatterns).run.run g).1 = .ok m) :
    Extended.compile g.dialect g.surroundings g.reparseLimit pattern flags subpatterns = .ok m := by
  obtain ⟨lines, hrun⟩ := exists_lines_run_compileWith idle pattern flags subpatterns
  rwa [hrun] at h

/-- Only an engine that is not compiling can compile. -/
theorem idle_of_compileWith {subpatterns : Option Subpatterns} {m : Matcher}
    (h : ((compileWith pattern flags subpatterns).run.run g).1 = .ok m) : g.compiling = false := by
  obtain ⟨dialect, extensible, compiling, limit, trace, store, cached⟩ := g
  cases compiling with
  | false => rfl
  | true => cases h

theorem idle_of_compile {m : Matcher} (h : ((compile pattern flags).run.run g).1 = .ok m) :
    g.compiling = false := idle_of_compileWith h

/-- The engine in which a matcher was put into the cache. -/
def stored (g : Engine) (pattern flags : String) (m : Matcher) : Engine :=
  { g with
    store := g.store.push m
    cached := (cacheKey pattern flags, ⟨g.store.size⟩) :: g.cached }

theorem run_cache_eq (pattern flags : String) (g : Engine) :
    (cache pattern flags).run.run g =
      (match g.cachedHandle? pattern flags with
        | some h => return h
        | none => do
          let h ← share (← compile pattern flags)
          modify fun e => { e with cached := (cacheKey pattern flags, h) :: e.cached }
          note ("[cache] stored /" ++ pattern ++ "/" ++ flags)
          return h : EngineM Handle).run.run g := rfl

theorem run_cache_hit (hit : g.cachedHandle? pattern flags = some h) :
    (cache pattern flags).run.run g = (.ok h, g) := by
  rw [run_cache_eq, hit]
  rfl

/-- An engine that is compiling stores nothing. -/
theorem run_cache_of_compiling (busy : g.compiling = true) (pattern flags : String) :
    (cache pattern flags).run.run g =
      (match g.cachedHandle? pattern flags with
        | some h => .ok h
        | none => .error .nestedCompile, g) := by
  cases hit : g.cachedHandle? pattern flags with
  | some h => rw [run_cache_hit hit]
  | none =>
    rw [run_cache_eq, hit]
    dsimp only
    rw [run_bind, run_compile_of_compiling busy]
    rfl

/-- What is not in the cache is compiled, and stored if that succeeds. -/
theorem exists_run_cache_miss (idle : g.compiling = false)
    (miss : g.cachedHandle? pattern flags = none) :
    ∃ lines, (cache pattern flags).run.run g =
      match Extended.compile g.dialect g.surroundings g.reparseLimit pattern flags none with
      | .error err => (.error err, g.written lines)
      | .ok m => (.ok ⟨g.store.size⟩, (g.stored pattern flags m).written lines) := by
  obtain ⟨lines, hcompile⟩ := exists_lines_run_compileWith idle pattern flags none
  rw [run_cache_eq, miss]
  dsimp only
  rw [run_bind, compile, hcompile]
  cases Extended.compile g.dialect g.surroundings g.reparseLimit pattern flags none with
  | error err => exact ⟨lines, rfl⟩
  | ok m =>
    refine ⟨lines ++ ["[cache] stored /" ++ pattern ++ "/" ++ flags], Prod.ext rfl ?_⟩
    simp only [written, List.foldl_append]
    rfl

/-- Caching stores what it compiles, or it only writes lines into the trace. -/
theorem exists_run_cache (pattern flags : String) (g : Engine) :
    (∃ answer lines, (cache pattern flags).run.run g = (answer, g.written lines)) ∨
      ∃ m lines, g.cachedHandle? pattern flags = none ∧
        Extended.compile g.dialect g.surroundings g.reparseLimit pattern flags none = .ok m ∧
        (cache pattern flags).run.run g =
          (.ok ⟨g.store.size⟩, (g.stored pattern flags m).written lines) := by
  cases hit : g.cachedHandle? pattern flags with
  | some h => exact .inl ⟨_, [], run_cache_hit hit⟩
  | none =>
    cases idle : g.compiling with
    | true => exact .inl ⟨_, [], run_cache_of_compiling idle pattern flags⟩
    | false =>
      obtain ⟨lines, hrun⟩ := exists_run_cache_miss idle hit
      split at hrun
      · exact .inl ⟨_, lines, hrun⟩
      · next m hm => exact .inr ⟨m, lines, rfl, hm, hrun⟩

theorem exists_run_registerToken (idle : g.compiling = false) (pattern : Matcher)
    (handler : Handler) (o : TokenOptions) :
    (∃ err, (registerToken pattern handler o).run.run g = (.error err, g)) ∨
      ∃ d lines, g.dialect.register pattern handler o = .ok d ∧
        (registerToken pattern handler o).run.run g =
          (.ok (), { g with dialect := d }.written lines) := by
  obtain ⟨dialect, extensible, compiling, limit, trace, store, cached⟩ := g
  obtain rfl : compiling = false := idle
  cases extensible with
  | false => exact .inl ⟨.registrationClosed, rfl⟩
  | true =>
    let g : Engine := ⟨dialect, true, false, limit, trace, store, cached⟩
    have hrun : (registerToken pattern handler o).run.run g =
        (do
          let dialect ← ExceptT.mk (pure (dialect.register pattern handler o))
          modify fun e => { e with dialect }
          note ("[token] registered /" ++ pattern.source ++ "/") : EngineM Unit).run.run g := rfl
    rw [hrun]
    dsimp only
    cases dialect.register pattern handler o with
    | error err => exact .inl ⟨err, rfl⟩
    | ok d => exact .inr ⟨d, ["[token] registered /" ++ pattern.source ++ "/"], rfl, rfl⟩

theorem run_setReparseLimit {limit : Nat} (h : limit ≠ 0) (g : Engine) :
    (setReparseLimit limit).run.run g = (.ok (), { g with reparseLimit := limit }) := by
  rw [setReparseLimit, if_neg h]
  rfl

theorem run_setTraceLimit {limit : Nat} (h : limit ≠ 0) (g : Engine) :
    (setTraceLimit limit).run.run g = (.ok (), { g with trace := g.trace.setLimit limit }) := by
  rw [setTraceLimit, if_neg h]
  rfl

/-- Switching features on or off, one after the other. -/
theorem exists_run_forIn {switch : Feature → EngineM Unit}
    (hswitch : ∀ f (g : Engine), ∃ extensible lines,
      (switch f).run.run g = (.ok (), { g with extensible }.written lines))
    (fs : List Feature) (g : Engine) :
    ∃ extensible lines, (do for f in fs do switch f : EngineM Unit).run.run g =
      (.ok (), { g with extensible }.written lines) := by
  induction fs generalizing g with
  | nil => exact ⟨g.extensible, [], rfl⟩
  | cons f fs ih =>
    obtain ⟨extensible, lines, hf⟩ := hswitch f g
    obtain ⟨extensible', lines', hfs⟩ := ih ({ g with extensible }.written lines)
    refine ⟨extensible', lines ++ lines', ?_⟩
    simp only [List.forIn_cons, run_bind, hf, written, List.foldl_append]
    rw [run_bind] at hfs
    exact hfs

private theorem exists_run_install (f : Feature) (g : Engine) :
    ∃ extensible lines, (install f).run.run g = (.ok (), { g with extensible }.written lines) :=
  ⟨true, ["[feature] install " ++ f.name], rfl⟩

private theorem exists_run_uninstall (f : Feature) (g : Engine) :
    ∃ extensible lines, (uninstall f).run.run g = (.ok (), { g with extensible }.written lines) :=
  ⟨false, ["[feature] uninstall " ++ f.name], rfl⟩

theorem exists_run_features {switch : Feature → EngineM Unit}
    (hswitch : ∀ f (g : Engine), ∃ extensible lines,
      (switch f).run.run g = (.ok (), { g with extensible }.written lines))
    (text : String) (g : Engine) :
    (∃ err, (do for f in ← ExceptT.mk (pure (Feature.parseList text)) do switch f :
        EngineM Unit).run.run g = (.error err, g)) ∨
      ∃ extensible lines, (do for f in ← ExceptT.mk (pure (Feature.parseList text)) do switch f :
        EngineM Unit).run.run g = (.ok (), { g with extensible }.written lines) := by
  cases hparse : Feature.parseList text with
  | error err => exact .inl ⟨err, rfl⟩
  | ok fs => exact .inr (exists_run_forIn hswitch fs g)

/-- What a request that succeeds can change, apart from lines in the trace. -/
inductive Changes (g : Engine) : Request → Engine → Prop
  | stored {pattern flags : String} {m : Matcher} :
    g.cachedHandle? pattern flags = none →
    Extended.compile g.dialect g.surroundings g.reparseLimit pattern flags none = .ok m →
    Changes g (.cache pattern flags) (g.stored pattern flags m)
  | flushed : Changes g .flushCache { g with cached := [] }
  | registered {pattern : Matcher} {handler : Handler} {o : TokenOptions}
    {isFlag : o.flag.all Flags.isFlagChar = true} {d : Dialect} :
    g.dialect.register pattern handler o = .ok d →
    Changes g (.registerToken pattern handler o isFlag) { g with dialect := d }
  | switched (r : Request) (extensible : Bool) : Changes g r { g with extensible }
  | limited (limit : Nat) : Changes g (.setReparseLimit limit) { g with reparseLimit := limit }
  | traced (r : Request) (trace : Trace) : Changes g r { g with trace }
  | shared (m : Matcher) : Changes g (.share m) { g with store := g.store.push m }
  | moved (h : Handle) (cursor : Nat) :
    Changes g (.setCursor h cursor)
      { g with store := g.store.modify h.index (·.withCursor cursor) }

/-- A request writes lines into the trace, and beyond that it makes one change where it succeeds and
none where it fails. -/
theorem exists_perform (g : Engine) (r : Request) :
    (∃ lines, g.step r = g.written lines) ∨
      (r.perform.run.run g).1 = .ok () ∧
        ∃ g' lines, Changes g r g' ∧ g.step r = g'.written lines := by
  have quiet {x : EngineM Unit} (hx : Writes x) :
      (∃ lines, (x.run.run g).2 = g.written lines) := hx.exists_lines g
  cases r with
  | compile pattern flags => exact .inl (quiet (writes_compile _ _).asked)
  | cache pattern flags =>
    rcases exists_run_cache pattern flags g with ⟨a, lines, hrun⟩ | ⟨m, lines, miss, hm, hrun⟩
    · exact .inl ⟨lines, by simp only [step, Request.perform, run_asked, hrun]⟩
    · refine .inr ⟨?_, _, lines, .stored miss hm, ?_⟩
      · rw [Request.perform, run_asked, hrun]
        rfl
      · simp only [step, Request.perform, run_asked, hrun]
  | flushCache => exact .inr ⟨rfl, _, [], .flushed, rfl⟩
  | copy m add remove => exact .inl (quiet (writes_copy _ _ _).asked)
  | globalize m => exact .inl (quiet (writes_copy _ _ _).asked)
  | union parts flags conjunction => exact .inl (quiet (writes_union _ _ _).asked)
  | build pattern subpatterns flags => exact .inl (quiet (writes_compileWith _ _ _).asked)
  | matchRecursive text left right flags escape unbalanced names =>
    exact .inl (quiet (writes_matchRecursive _ _ _ _ _ _ _).asked)
  | registerToken pattern handler o isFlag =>
    cases idle : g.compiling with
    | true =>
      refine .inl ⟨[], ?_⟩
      simp only [step, Request.perform, run_registerToken_of_compiling idle]
      rfl
    | false =>
      rcases exists_run_registerToken idle pattern handler o with
        ⟨err, hrun⟩ | ⟨d, lines, hd, hrun⟩
      · exact .inl ⟨[], by simp only [step, Request.perform, hrun]; rfl⟩
      · exact .inr ⟨by simp only [Request.perform, hrun], _, lines, .registered hd,
          by simp only [step, Request.perform, hrun]⟩
  | install f =>
    obtain ⟨extensible, lines, hrun⟩ := exists_run_install f g
    exact .inr ⟨congrArg Prod.fst hrun, _, lines, .switched _ extensible, congrArg Prod.snd hrun⟩
  | uninstall f =>
    obtain ⟨extensible, lines, hrun⟩ := exists_run_uninstall f g
    exact .inr ⟨congrArg Prod.fst hrun, _, lines, .switched _ extensible, congrArg Prod.snd hrun⟩
  | installFeatures text =>
    rcases exists_run_features exists_run_install text g with ⟨err, hrun⟩ | ⟨ext, lines, hrun⟩
    · exact .inl ⟨[], congrArg Prod.snd hrun⟩
    · exact .inr ⟨congrArg Prod.fst hrun, _, lines, .switched _ ext, congrArg Prod.snd hrun⟩
  | uninstallFeatures text =>
    rcases exists_run_features exists_run_uninstall text g with ⟨err, hrun⟩ | ⟨ext, lines, hrun⟩
    · exact .inl ⟨[], congrArg Prod.snd hrun⟩
    · exact .inr ⟨congrArg Prod.fst hrun, _, lines, .switched _ ext, congrArg Prod.snd hrun⟩
  | setReparseLimit limit =>
    by_cases hzero : limit = 0
    · exact .inl ⟨[], by subst hzero; rfl⟩
    · have hrun := run_setReparseLimit hzero g
      exact .inr ⟨congrArg Prod.fst hrun, _, [], .limited limit, congrArg Prod.snd hrun⟩
  | setTraceLimit limit =>
    by_cases hzero : limit = 0
    · exact .inl ⟨[], by subst hzero; rfl⟩
    · have hrun := run_setTraceLimit hzero g
      exact .inr ⟨congrArg Prod.fst hrun, _, [], .traced _ (g.trace.setLimit limit),
        congrArg Prod.snd hrun⟩
  | enableTrace enabled => exact .inr ⟨rfl, _, [], .traced _ { g.trace with enabled }, rfl⟩
  | takeTrace => exact .inr ⟨rfl, _, [], .traced _ g.trace.clear, rfl⟩
  | share m => exact .inr ⟨rfl, _, [], .shared m, rfl⟩
  | setCursor h cursor => exact .inr ⟨rfl, _, [], .moved h cursor, rfl⟩

theorem Changes.compiling {g' : Engine} (h : Changes g r g') : g'.compiling = g.compiling := by
  cases h <;> rfl

/-- A shared matcher stays under its handle, and its cursor where it is unless the request is to
move it. -/
theorem Changes.stored?_of_ne {g' : Engine} {m : Matcher} (hchanges : Changes g r g')
    (hm : g.stored? h = some m) (unmoved : ∀ cursor, r ≠ .setCursor h cursor) :
    g'.stored? h = some m := by
  change g.store[h.index]? = some m at hm
  have pushed (m' : Matcher) : (g.store.push m')[h.index]? = some m := by
    obtain ⟨hlt, rfl⟩ := Array.getElem?_eq_some_iff.mp hm
    exact Array.getElem?_push_lt hlt
  cases hchanges with
  | stored _ _ => exact pushed _
  | shared _ => exact pushed _
  | moved k cursor =>
    have hne : k.index ≠ h.index := by
      intro heq
      obtain ⟨k⟩ := k
      obtain rfl : k = h.index := heq
      exact unmoved cursor rfl
    change (g.store.modify k.index (·.withCursor cursor))[h.index]? = _
    rw [Array.getElem?_modify, if_neg hne, hm]
  | _ => exact hm

/-- A shared matcher stays under its handle; only its cursor moves. -/
theorem Changes.stored? {g' : Engine} {m : Matcher} (hchanges : Changes g r g')
    (hm : g.stored? h = some m) : ∃ cursor, g'.stored? h = some (m.withCursor cursor) := by
  by_cases hmoved : ∃ cursor, r = .setCursor h cursor
  · obtain ⟨cursor, rfl⟩ := hmoved
    cases hchanges with
    | moved =>
      refine ⟨cursor, ?_⟩
      change (g.store.modify h.index (·.withCursor cursor))[h.index]? = _
      rw [Array.getElem?_modify, if_pos rfl, show g.store[h.index]? = some m from hm]
      rfl
    | _ => exact ⟨m.cursor, hm⟩
  · exact ⟨m.cursor, hchanges.stored?_of_ne hm fun cursor hr => hmoved ⟨cursor, hr⟩⟩

@[simp] theorem compiling_after (rs : List Request) : (after rs).compiling = false := by
  induction rs using List.reverseRecOn with
  | nil => rfl
  | append_singleton rs r idle =>
    rw [after_concat]
    rcases exists_perform _ r with ⟨lines, hstep⟩ | ⟨-, g', lines, hchanges, hstep⟩
    · rw [hstep]
      exact idle
    · rw [hstep]
      exact hchanges.compiling.trans idle

/-- What holds at first, and goes on to hold when a request only writes lines and when it makes a
change, holds after any requests. -/
theorem after_induction {P : List Request → Prop} (start : P [])
    (silent : ∀ rs r lines, P rs → after (rs ++ [r]) = (after rs).written lines → P (rs ++ [r]))
    (changed : ∀ rs r g' lines, P rs → Changes (after rs) r g' →
      after (rs ++ [r]) = g'.written lines → P (rs ++ [r])) (rs : List Request) : P rs := by
  induction rs using List.reverseRecOn with
  | nil => exact start
  | append_singleton rs r ih =>
    rcases exists_perform (after rs) r with ⟨lines, hstep⟩ | ⟨-, g', lines, hg', hstep⟩
    · exact silent rs r lines ih ((after_concat rs r).trans hstep)
    · exact changed rs r g' lines ih hg' ((after_concat rs r).trans hstep)

end Changes

end Engine

end Patterns
