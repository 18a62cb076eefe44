import Patterns.Proofs.Requests

/-!
# Handlers that call the engine

A handler or a trigger may hold the engine that runs it. What it says to this engine is a
`Dialogue`, and `compileAloud` is a compilation in which they hold their dialogues with the engine
itself. The engine is compiling all the while, so no call changes it, and what a handler is told is
what its surroundings say: `compileAloud` and `compile` are the same.
-/
namespace Patterns
open Patterns.Text Patterns.Extended

/-- Calls of an engine, each followed by what its answer leads to. -/
inductive Dialogue (α : Type) where
  | done (a : Except Error α)
  | compile (pattern flags : String) (next : Except Error Matcher → Dialogue α)
  | cache (pattern flags : String) (next : Except Error Matcher → Dialogue α)
  | register (pattern : Matcher) (handler : Handler) (o : TokenOptions)
    (next : Except Error Unit → Dialogue α)

namespace Engine

variable {α : Type} {g : Engine}

section Calls

/-- The answer of an operation, whether it succeeds or fails. -/
def observe (x : EngineM α) : EngineM (Except Error α) := ExceptT.mk (do return .ok (← x.run))

/-- The shared matcher itself; a handle always names one. -/
def cachedMatcher (pattern flags : String) : EngineM Matcher := do
  let h ← cache pattern flags
  match (← get).stored? h with
  | some m => return m
  | none => throw .nestedCompile

theorem run_observe (x : EngineM α) (g : Engine) :
    (observe x).run.run g = (.ok (x.run.run g).1, (x.run.run g).2) := rfl

theorem run_cachedMatcher_of_compiling (busy : g.compiling = true) (pattern flags : String) :
    (cachedMatcher pattern flags).run.run g = (g.surroundings.cache pattern flags, g) := by
  rw [cachedMatcher, run_bind, run_cache_of_compiling busy]
  have hcache : g.surroundings.cache pattern flags =
      (match (g.cachedHandle? pattern flags).bind g.stored? with
        | some m => .ok m
        | none => .error .nestedCompile) := rfl
  rw [hcache]
  cases g.cachedHandle? pattern flags with
  | none => rfl
  | some h =>
    rw [Option.bind_some]
    have hfound : ((do
        match (← get).stored? h with
        | some m => return m
        | none => throw .nestedCompile : EngineM Matcher)).run.run g =
      (match g.stored? h with
        | some m => return m
        | none => throw .nestedCompile : EngineM Matcher).run.run g := rfl
    refine hfound.trans ?_
    cases g.stored? h <;> rfl

end Calls

end Engine

namespace Dialogue

variable {α : Type} {g : Engine}

/-- The calls are made. -/
def run : Dialogue α → EngineM α
  | done a => ExceptT.mk (pure a)
  | compile pattern flags next => do
    let a ← Engine.observe (Engine.compile pattern flags)
    (next a).run
  | cache pattern flags next => do
    let a ← Engine.observe (Engine.cachedMatcher pattern flags)
    (next a).run
  | register pattern handler o next => do
    let a ← Engine.observe (Engine.registerToken pattern handler o)
    (next a).run

/-- The calls are answered by surroundings. -/
def answer (w : Surroundings) : Dialogue α → Except Error α
  | done a => a
  | compile pattern flags next => (next (w.compile pattern flags)).answer w
  | cache pattern flags next => (next (w.cache pattern flags)).answer w
  | register _ _ _ next => (next w.register).answer w

/-- Whatever is said to an engine that is compiling, it stays as it is and goes on compiling. -/
theorem run_eq (busy : g.compiling = true) (d : Dialogue α) :
    d.run.run.run g = (d.answer g.surroundings, g) := by
  induction d with
  | done a => rfl
  | compile pattern flags next ih =>
    rw [run, Engine.run_bind, Engine.run_observe, Engine.run_compile_of_compiling busy]
    exact ih _
  | cache pattern flags next ih =>
    rw [run, Engine.run_bind, Engine.run_observe, Engine.run_cachedMatcher_of_compiling busy]
    exact ih _
  | register pattern handler o next ih =>
    rw [run, Engine.run_bind, Engine.run_observe, Engine.run_registerToken_of_compiling busy]
    exact ih _

end Dialogue

/-- A token whose trigger and handler talk to the engine. -/
structure Speaker where
  token : Token
  ask : Context → Dialogue Bool
  talk : (working : Subject) → Match working → Scope → (c : Context) → Dialogue (String × c.Later)
  trigger_eq : ∀ w c, (ask c).answer w = .ok (token.trigger.all (· c))
  handler_eq : ∀ o c,
    token.handler o c = (talk o.working o.found o.scope c).answer o.surroundings

namespace Extended

theorem Scan.length_rest_pos (s : Scan) (more : s.rest ≠ []) : 0 < s.rest.length :=
  List.length_pos_iff.mpr more

namespace Setting

/-- What a step makes of the piece that it finds. -/
def stepWith (e : Setting) (s : Scan) (more : s.rest ≠ []) : Option Piece → Except Error (Step s)
  | some p =>
    if p.reparse then .ok (.expanded (s.splice p.length p.output p.context))
    else .ok (.moved (s.write (max 1 p.length) p.output s.scope p.context) (by
      have positive := s.length_rest_pos more
      simp
      omega))
  | none =>
    have positive := s.length_rest_pos more
    match copiedLength? s.scope s.rest with
    | some n => .ok (.moved (s.write (max 1 n) (s.rest.take n) s.scope s.context) (by simp; omega))
    | none =>
      if s.scope = .outside ∧ startsWithModifier s.rest then .error (.strayModifier e.pattern)
      else
        let (output, scope) := single s.scope (s.rest.head more)
        .ok (.moved (s.write 1 output scope s.context) (by simp; omega))

theorem step_eq (e : Setting) (s : Scan) (more : s.rest ≠ []) :
    e.step s more = (e.piece? s).bind (e.stepWith s more) := by
  unfold step
  cases e.piece? s with
  | error err => rfl
  | ok found => cases found <;> rfl

end Setting

end Extended

namespace Engine

section Reading

variable {e : Setting} {speakers : List Speaker} {g : Engine} {limit : Nat}

/-- Only where scope and flags admit the token its trigger is asked. -/
def isTriggeredAloud (t : Speaker) (scope : Scope) (c : Context) : EngineM Bool :=
  if t.token.reach.admits scope && t.token.flag.all c.hasFlag then (t.ask c).run else return false

/-- The newest token that is triggered and matches here; trigger and handler talk to the engine. -/
def tokenPieceAloud? (s : Scan) : List Speaker → EngineM (Option Piece)
  | [] => return none
  | t :: ts => do
    if ← isTriggeredAloud t s.scope s.context then
      match ← ExceptT.mk (pure (t.token.pattern.searchAt s.working.get s.place true)) with
      | none => tokenPieceAloud? s ts
      | some ⟨found, _⟩ =>
        let (output, later) ← (t.talk s.working.get found s.scope s.context).run
        return some ⟨found.stop - found.start, output.toList, later.context, t.token.reparse⟩
    else tokenPieceAloud? s ts

def pieceAloud? (e : Setting) (speakers : List Speaker) (s : Scan) : EngineM (Option Piece) := do
  match ← tokenPieceAloud? s speakers with
  | some p => return some p
  | none => ExceptT.mk (pure (e.lexemePiece? s))

def stepAloud (e : Setting) (speakers : List Speaker) (s : Scan) (more : s.rest ≠ []) :
    EngineM (Setting.Step s) := do
  let found ← pieceAloud? e speakers s
  ExceptT.mk (pure (e.stepWith s more found))

/-- Reads to the end with at most `left` of the `limit` expansions. -/
def finishAloud (e : Setting) (speakers : List Speaker) (limit left : Nat) (s : Scan) :
    EngineM Scan :=
  if more : s.rest = [] then return s
  else do
    match ← stepAloud e speakers s more with
    | .moved next _ => finishAloud e speakers limit left next
    | .expanded next =>
      match left with
      | 0 => throw (.tooManyExpansions limit e.pattern)
      | left + 1 => finishAloud e speakers limit left next
  termination_by (left, s.rest.length)

/-- What happens between the marks of a compilation. -/
def translateAloud (e : Engine) (speakers : List Speaker) (pattern flags : String)
    (subpatterns : Option Subpatterns) : EngineM Matcher := do
  ExceptT.mk (pure (Flags.validate e.dialect.flags flags))
  let setting : Setting :=
    { dialect := e.dialect, surroundings := e.surroundings, subpatterns, pattern }
  let s ← finishAloud setting speakers e.reparseLimit e.reparseLimit
    (.start pattern (.ofFlags flags))
  ExceptT.mk (pure (Matcher.ofCompiled (String.ofList s.written) (.ofList s.context.flags)
    s.context.groups pattern flags))

/-- Compiles a pattern; the mark that the engine is compiling is taken back however this ends. -/
def compileAloud (speakers : List Speaker) (pattern flags : String)
    (subpatterns : Option Subpatterns) : EngineM Matcher := do
  let e ← get
  if e.compiling then throw .nestedCompile
  setCompiling true
  let result ← observe (translateAloud e speakers pattern flags subpatterns)
  setCompiling false
  let m ← ExceptT.mk (pure result)
  note ("[compile] /" ++ pattern ++ "/" ++ flags ++ " -> /" ++ m.source ++ "/" ++ m.flags.toString
    ++ " groups=" ++ toString m.groupCount)
  return m

theorem run_result {α : Type} (a : Except Error α) (g : Engine) :
    (ExceptT.mk (pure a) : EngineM α).run.run g = (a, g) := rfl

theorem run_isTriggeredAloud (busy : g.compiling = true) (t : Speaker) (scope : Scope)
    (c : Context) :
    (isTriggeredAloud t scope c).run.run g = (.ok (t.token.isTriggered scope c), g) := by
  unfold isTriggeredAloud Token.isTriggered
  split
  · next admits => rw [Dialogue.run_eq busy, t.trigger_eq, admits, Bool.true_and]
  · next barred => rw [Bool.eq_false_of_not_eq_true barred, Bool.false_and]; rfl

theorem run_tokenPieceAloud? (busy : g.compiling = true) (he : e.surroundings = g.surroundings)
    (s : Scan) (speakers : List Speaker) :
    (tokenPieceAloud? s speakers).run.run g =
      (e.tokenPiece? s (speakers.map Speaker.token), g) := by
  induction speakers with
  | nil => rfl
  | cons t ts ih =>
    rw [tokenPieceAloud?, List.map_cons, Setting.tokenPiece?, run_bind, run_isTriggeredAloud busy]
    dsimp only
    split
    · rw [run_bind, run_result]
      cases t.token.pattern.searchAt s.working.get s.place true with
      | error err => rfl
      | ok hit =>
        cases hit with
        | none => exact ih
        | some hit =>
          obtain ⟨found, hle⟩ := hit
          dsimp only
          have handled : t.token.handler ⟨s.working.get, found, s.scope, e.surroundings⟩ s.context =
              (t.talk s.working.get found s.scope s.context).answer g.surroundings := by
            rw [t.handler_eq, ← he]
          rw [run_bind, Dialogue.run_eq busy]
          simp only [bind, Except.bind, handled]
          cases (t.talk s.working.get found s.scope s.context).answer g.surroundings <;> rfl
    · exact ih

theorem run_pieceAloud? (busy : g.compiling = true) (he : e.surroundings = g.surroundings)
    (speaking : e.dialect.tokens = speakers.map Speaker.token) (s : Scan) :
    (pieceAloud? e speakers s).run.run g = (e.piece? s, g) := by
  rw [pieceAloud?, run_bind, run_tokenPieceAloud? busy he, Setting.piece?, speaking]
  cases e.tokenPiece? s (speakers.map Speaker.token) with
  | error err => rfl
  | ok found => cases found <;> rfl

theorem run_stepAloud (busy : g.compiling = true) (he : e.surroundings = g.surroundings)
    (speaking : e.dialect.tokens = speakers.map Speaker.token) (s : Scan) (more : s.rest ≠ []) :
    (stepAloud e speakers s more).run.run g = (e.step s more, g) := by
  rw [stepAloud, run_bind, run_pieceAloud? busy he speaking, Setting.step_eq]
  cases e.piece? s <;> rfl

/-- Reading goes as if the handlers had only their surroundings, and the engine stays as it is. -/
theorem run_finishAloud (busy : g.compiling = true) (he : e.surroundings = g.surroundings)
    (speaking : e.dialect.tokens = speakers.map Speaker.token) (left : Nat) (s : Scan) :
    (finishAloud e speakers limit left s).run.run g = (e.finish limit left s, g) := by
  fun_induction Setting.finish e limit left s with
  | case1 left s atEnd =>
    rw [finishAloud, dif_pos atEnd]
    rfl
  | case2 left s more err step =>
    rw [finishAloud, dif_neg more, run_bind, run_stepAloud busy he speaking, step]
  | case3 left s more next shorter step ih =>
    rw [finishAloud, dif_neg more, run_bind, run_stepAloud busy he speaking, step]
    exact ih
  | case4 s more next step =>
    rw [finishAloud, dif_neg more, run_bind, run_stepAloud busy he speaking, step]
    rfl
  | case5 s more next step left ih =>
    rw [finishAloud, dif_neg more, run_bind, run_stepAloud busy he speaking, step]
    exact ih

theorem run_translateAloud (busy : g.compiling = true)
    (speaking : g.dialect.tokens = speakers.map Speaker.token) (pattern flags : String)
    (subpatterns : Option Subpatterns) :
    (translateAloud g speakers pattern flags subpatterns).run.run g =
      (Extended.compile g.dialect g.surroundings g.reparseLimit pattern flags subpatterns, g) := by
  rw [translateAloud, run_bind, run_result, Extended.compile]
  cases Flags.validate g.dialect.flags flags with
  | error err => rfl
  | ok u =>
    dsimp only
    rw [run_bind, run_finishAloud busy rfl speaking]
    simp only [bind, Except.bind, Setting.toPlain]
    cases Setting.finish ⟨g.dialect, g.surroundings, subpatterns, pattern⟩ g.reparseLimit
      g.reparseLimit (.start pattern (.ofFlags flags)) <;> rfl

/-- A compilation whose handlers talk to the engine is the compilation. -/
theorem run_compileAloud (speaking : g.dialect.tokens = speakers.map Speaker.token)
    (pattern flags : String) (subpatterns : Option Subpatterns) :
    (compileAloud speakers pattern flags subpatterns).run.run g =
      (compileWith pattern flags subpatterns).run.run g := by
  obtain ⟨dialect, extensible, compiling, limit, trace, store, cached⟩ := g
  cases compiling with
  | true => rfl
  | false =>
    let busy : Engine := ⟨dialect, extensible, true, limit, trace, store, cached⟩
    have hrun : (compileAloud speakers pattern flags subpatterns).run.run
          ⟨dialect, extensible, false, limit, trace, store, cached⟩ =
        (do
          let result ← observe (translateAloud busy speakers pattern flags subpatterns)
          setCompiling false
          let m ← ExceptT.mk (pure result)
          note ("[compile] /" ++ pattern ++ "/" ++ flags ++ " -> /" ++ m.source ++ "/"
            ++ m.flags.toString ++ " groups=" ++ toString m.groupCount)
          return m : EngineM Matcher).run.run busy := rfl
    rw [hrun, run_bind, run_observe, run_translateAloud (g := busy) rfl speaking]
    rfl

end Reading

end Engine

end Patterns
