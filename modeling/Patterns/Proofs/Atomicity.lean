import Patterns.Proofs.Reentrance

/-!
# Requests that fail

A request that fails leaves the engine as it was, but for lines in the trace. No request leaves the
mark that the engine is compiling, and while the mark is set nothing can be compiled, registered or
stored.
-/
namespace Patterns.Engine
open Patterns.Text Patterns.Extended

/-- Nothing that later requests depend on is different. -/
structure Unchanged (g g' : Engine) : Prop where
  tokens : g'.dialect.tokens = g.dialect.tokens
  flags : g'.dialect.flags = g.dialect.flags
  features : g'.extensible = g.extensible
  cached : g'.cached = g.cached
  store : g'.store = g.store
  reparseLimit : g'.reparseLimit = g.reparseLimit
  traceLimit : g'.trace.limit = g.trace.limit

variable {g : Engine}

theorem unchanged_written (g : Engine) (lines : List String) : g.Unchanged (g.written lines) :=
  ⟨rfl, rfl, rfl, rfl, rfl, rfl, g.trace.limit_foldl_write lines⟩

theorem unchanged_of_error {r : Request} {err : Error}
    (h : (r.perform.run.run g).1 = .error err) : g.Unchanged (g.step r) := by
  rcases exists_perform _ r with ⟨lines, hstep⟩ | ⟨hok, -⟩
  · rw [hstep]
    exact unchanged_written g lines
  · rw [hok] at h
    cases h

theorem kind_of_register (w : Surroundings) :
    ∃ err, w.register = .error err ∧ err.kind = .misuse := by
  unfold Surroundings.register
  split
  · exact ⟨_, rfl, rfl⟩
  · exact ⟨_, rfl, rfl⟩

end Patterns.Engine
