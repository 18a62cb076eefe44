import Patterns.Extended.Compilation
import Patterns.Feature
import Patterns.Operations.Search
import Patterns.Trace

/-!
# Engines

An engine holds what compilations share: custom tokens, features, limits, the trace, and a cache.
Matchers that are shared stand in a store, where a handle names each; the cache maps a pattern and
its flags to a handle. An operation that fails keeps the changes it made before. An engine that is
compiling refuses to compile and to take tokens; this is what its token handlers are told.
-/
namespace Patterns
open Patterns.Text Patterns.Extended

structure Handle where
  index : Nat
  deriving DecidableEq, Repr

structure Engine where
  dialect : Dialect := {}
  extensible : Bool := false
  compiling : Bool := false
  reparseLimit : Nat := 10000
  trace : Trace := {}
  store : Array Matcher := #[]
  cached : List (String × Handle) := []

abbrev EngineM := ExceptT Error (StateM Engine)

namespace Engine

def note (line : String) : EngineM Unit := modify fun e => { e with trace := e.trace.write line }

/-- Patterns and flags are joined by a slash. -/
def cacheKey (pattern flags : String) : String := pattern ++ "/" ++ flags

def stored? (e : Engine) (h : Handle) : Option Matcher := e.store[h.index]?

def cachedHandle? (e : Engine) (pattern flags : String) : Option Handle :=
  e.cached.lookup (cacheKey pattern flags)

def surroundings (e : Engine) : Surroundings :=
  { extensible := e.extensible
    stored? := fun pattern flags => (e.cachedHandle? pattern flags).bind e.stored? }

def setCompiling (compiling : Bool) : EngineM Unit := modify fun e => { e with compiling }

def compileWith (pattern flags : String) (subpatterns : Option Subpatterns) : EngineM Matcher := do
  let e ← get
  if e.compiling then throw .nestedCompile
  setCompiling true
  let result :=
    Extended.compile e.dialect e.surroundings e.reparseLimit pattern flags subpatterns
  setCompiling false
  let m ← ExceptT.mk (pure result)
  note ("[compile] /" ++ pattern ++ "/" ++ flags ++ " -> /" ++ m.source ++ "/" ++ m.flags.toString
    ++ " groups=" ++ toString m.groupCount)
  return m

def compile (pattern flags : String) : EngineM Matcher := compileWith pattern flags none

/-- Puts a matcher where it can be shared. -/
def share (m : Matcher) : EngineM Handle :=
  modifyGet fun e => (⟨e.store.size⟩, { e with store := e.store.push m })

/-- The matcher of a pattern and its flags, compiled at most once. -/
def cache (pattern flags : String) : EngineM Handle := do
  match (← get).cachedHandle? pattern flags with
  | some h => return h
  | none =>
    let h ← share (← compile pattern flags)
    modify fun e => { e with cached := (cacheKey pattern flags, h) :: e.cached }
    note ("[cache] stored /" ++ pattern ++ "/" ++ flags)
    return h

def flushCache : EngineM Unit := modify fun e => { e with cached := [] }

def setCursor (h : Handle) (cursor : Nat) : EngineM Unit :=
  modify fun e => { e with store := e.store.modify h.index (·.withCursor cursor) }

/-- Stores the cursor that an operation leaves, then answers with its result. -/
def conclude {α : Type} (h : Handle) (o : Outcome α) : EngineM α := do
  setCursor h o.cursor
  ExceptT.mk (pure o.result)

/-- Stores the cursors that the parts of an operation leave, part by part. -/
def concludeEach {α : Type} (parts : List (Option Handle)) (o : Except Error α × List Nat) :
    EngineM α := do
  for (part, cursor) in parts.zip o.2 do
    if let some h := part then setCursor h cursor
  ExceptT.mk (pure o.1)

def install (f : Feature) : EngineM Unit := do
  modify fun e => match f with | .extensibility => { e with extensible := true }
  note ("[feature] install " ++ f.name)

def uninstall (f : Feature) : EngineM Unit := do
  modify fun e => match f with | .extensibility => { e with extensible := false }
  note ("[feature] uninstall " ++ f.name)

def isInstalled (e : Engine) : Feature → Bool
  | .extensibility => e.extensible

def installFeatures (text : String) : EngineM Unit := do
  for f in ← ExceptT.mk (pure (Feature.parseList text)) do install f

def uninstallFeatures (text : String) : EngineM Unit := do
  for f in ← ExceptT.mk (pure (Feature.parseList text)) do uninstall f

/-- Adds syntax; newer tokens win over older ones and over the syntax that is built in. -/
def registerToken (pattern : Matcher) (handler : Handler) (o : TokenOptions) : EngineM Unit := do
  let e ← get
  if !e.extensible then throw .registrationClosed
  if e.compiling then throw .registrationWhileCompiling
  let dialect ← ExceptT.mk (pure (e.dialect.register pattern handler o))
  modify fun e => { e with dialect }
  note ("[token] registered /" ++ pattern.source ++ "/")

def setReparseLimit (limit : Nat) : EngineM Unit := do
  if limit = 0 then throw .zeroReparseLimit
  modify fun e => { e with reparseLimit := limit }

def setTraceLimit (limit : Nat) : EngineM Unit := do
  if limit = 0 then throw .zeroTraceLimit
  modify fun e => { e with trace := e.trace.setLimit limit }

def enableTrace (enabled : Bool) : EngineM Unit :=
  modify fun e => { e with trace := { e.trace with enabled } }

def takeTrace : EngineM (List String) :=
  modifyGet fun e => (e.trace.lines, { e with trace := e.trace.clear })

theorem run_compile_of_compiling {e : Engine} (h : e.compiling = true) (pattern flags : String) :
    (compile pattern flags).run.run e = (e.surroundings.compile pattern flags, e) := by
  cases e
  cases h
  rfl

theorem run_registerToken_of_compiling {e : Engine} (h : e.compiling = true) (pattern : Matcher)
    (handler : Handler) (o : TokenOptions) :
    (registerToken pattern handler o).run.run e = (e.surroundings.register, e) := by
  obtain ⟨dialect, extensible⟩ := e
  cases h
  cases extensible <;> rfl

end Engine

end Patterns
