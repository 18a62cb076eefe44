import Patterns.Proofs.Requests

/-!
# The newest lines

A trace holds the newest lines, as many as its limit allows. `Trace.Event` lists what can happen to
a trace, and a `Journal` to which the same happens keeps all the lines since they were last taken.
No operation reads the trace (`Engine.Blind`). So what a request writes does not depend on what is
in the trace, and the trace that a run of requests leaves is told by its events (`Engine.Tells`).
-/
namespace Patterns
open Patterns.Text Patterns.Extended

namespace Trace

/-- What happens to a trace. -/
inductive Event where
  | line (text : String)
  | enabled (on : Bool)
  | limited (limit : Nat)
  | taken

/-- What becomes of a trace; a limit of zero is refused. -/
def meet (t : Trace) : Event → Trace
  | .line text => t.write text
  | .enabled on => { t with enabled := on }
  | .limited limit => if limit = 0 then t else t.setLimit limit
  | .taken => t.clear

section Lines

variable {t : Trace}

/-- A line takes the place of the oldest one where the trace is full. -/
theorem lines_write (enabled : t.enabled = true) (positive : 0 < t.limit)
    (bounded : t.lines.length ≤ t.limit) (text : String) :
    (t.write text).lines =
      (if t.lines.length < t.limit then t.lines else t.lines.tail) ++ [text] := by
  obtain ⟨limit, hlimit⟩ := Nat.exists_eq_add_of_lt positive
  rw [Nat.zero_add] at hlimit
  simp only [lines, write, if_pos enabled, hlimit, List.length_reverse, List.take_succ_cons,
    List.reverse_cons] at bounded ⊢
  split
  · rw [List.take_of_length_le (by omega)]
  · rw [List.tail_reverse, List.dropLast_eq_take]
    congr 3
    omega

@[simp] theorem enabled_write (t : Trace) (text : String) : (t.write text).enabled = t.enabled := by
  unfold write
  split <;> rfl

theorem length_write (enabled : t.enabled = true) (positive : 0 < t.limit)
    (bounded : t.lines.length ≤ t.limit) (text : String) :
    (t.write text).lines.length = min t.limit (t.lines.length + 1) := by
  rw [lines_write enabled positive bounded, List.length_append, List.length_singleton]
  split
  · omega
  · rw [List.length_tail]
    omega

theorem lines_setLimit (limit : Nat) :
    (t.setLimit limit).lines = t.lines.drop (t.lines.length - limit) := by
  simp only [lines, setLimit, List.reverse_take, List.length_reverse]

/-- Where there is room for all of them lines are only added. -/
theorem lines_foldl_write (enabled : t.enabled = true) {texts : List String}
    (room : t.lines.length + texts.length ≤ t.limit) :
    (texts.foldl write t).lines = t.lines ++ texts := by
  induction texts generalizing t with
  | nil => simp
  | cons text texts ih =>
    rw [List.length_cons] at room
    have hlines : (t.write text).lines = t.lines ++ [text] := by
      rw [lines_write enabled (by omega) (by omega), if_pos (by omega)]
    have hroom : (t.write text).lines.length + texts.length ≤ (t.write text).limit := by
      rw [hlines, limit_write, List.length_append, List.length_singleton]
      omega
    rw [List.foldl_cons, ih ((enabled_write t text).trans enabled) hroom, hlines, List.append_assoc]
    rfl

end Lines

end Trace

/-- All the lines since they were last taken, and whether the limit has been the same since. -/
structure Journal where
  enabled : Bool := false
  limit : Nat := ({} : Trace).limit
  lines : List String := []
  steady : Bool := true

open Trace in
def Journal.meet (j : Journal) : Event → Journal
  | .line text => if j.enabled then { j with lines := j.lines ++ [text] } else j
  | .enabled on => { j with enabled := on }
  | .limited limit =>
    if limit = 0 then j else { j with limit, steady := j.steady && limit == j.limit }
  | .taken => { j with lines := [], steady := true }

/-- The trace holds the newest lines of the journal. -/
structure Trace.Newest (t : Trace) (j : Journal) : Prop where
  enabled : t.enabled = j.enabled
  limit : t.limit = j.limit
  positive : 0 < t.limit
  bounded : t.lines.length ≤ t.limit
  suffix : t.lines <:+ j.lines
  full : j.steady = true → t.lines.length = min t.limit j.lines.length

namespace Trace

variable {t : Trace} {j : Journal}

theorem newest_initial : Newest {} {} :=
  ⟨rfl, rfl, by decide, by decide, List.suffix_rfl, fun _ => rfl⟩

theorem Newest.write (h : t.Newest j) (text : String) :
    (t.write text).Newest (j.meet (.line text)) := by
  rw [Journal.meet, ← h.enabled]
  cases enabled : t.enabled with
  | false =>
    rw [Trace.write, enabled]
    exact h
  | true =>
    have hlines := lines_write enabled h.positive h.bounded text
    have hlength := length_write enabled h.positive h.bounded text
    have hlimit := limit_write t text
    rw [if_pos rfl]
    refine ⟨(enabled_write t text).trans enabled, hlimit.trans h.limit, ?_, ?_, ?_,
      fun steady => ?_⟩
    · rw [hlimit]
      exact h.positive
    · rw [hlimit]
      omega
    · have hkept : (if t.lines.length < t.limit then t.lines else t.lines.tail) <:+ j.lines := by
        split
        · exact h.suffix
        · exact (List.tail_suffix _).trans h.suffix
      obtain ⟨dropped, hdropped⟩ := hkept
      rw [hlines]
      exact ⟨dropped, by rw [← List.append_assoc, hdropped]⟩
    · have full := h.full steady
      rw [hlimit, hlength, List.length_append, List.length_singleton]
      omega

theorem Newest.setLimit {limit : Nat} (h : t.Newest j) (positive : limit ≠ 0) :
    (t.setLimit limit).Newest (j.meet (.limited limit)) := by
  have hlines := t.lines_setLimit limit
  have bounded := h.bounded
  rw [Journal.meet, if_neg positive]
  refine ⟨h.enabled, rfl, Nat.pos_of_ne_zero positive, ?_, ?_, fun steady => ?_⟩
  · rw [hlines, List.length_drop]
    change _ ≤ limit
    omega
  · rw [hlines]
    exact (List.drop_suffix _ _).trans h.suffix
  · obtain ⟨steady, hlimit⟩ := Bool.and_eq_true_iff.mp steady
    have hlimit : limit = t.limit := (beq_iff_eq.mp hlimit).trans h.limit.symm
    have full := h.full steady
    rw [hlines, List.length_drop]
    change _ = min limit j.lines.length
    omega

/-- What happens to both keeps the newest lines. -/
theorem Newest.meet (h : t.Newest j) (event : Event) : (t.meet event).Newest (j.meet event) := by
  cases event with
  | line text => exact h.write text
  | enabled on => exact ⟨rfl, h.limit, h.positive, h.bounded, h.suffix, h.full⟩
  | limited limit =>
    by_cases hzero : limit = 0
    · rw [Trace.meet, Journal.meet, if_pos hzero, if_pos hzero]
      exact h
    · rw [Trace.meet, if_neg hzero]
      exact h.setLimit hzero
  | taken =>
    exact ⟨h.enabled, h.limit, h.positive, Nat.zero_le _, List.suffix_rfl,
      fun _ => (Nat.min_zero _).symm⟩

/-- In whatever order lines are written, tracing and the limit are changed, and lines are taken, the
trace holds the newest lines. -/
theorem newest_foldl (events : List Event) :
    (events.foldl meet {}).Newest (events.foldl Journal.meet {}) := by
  induction events using List.reverseRecOn with
  | nil => exact newest_initial
  | append_singleton events event ih =>
    rw [List.foldl_concat, List.foldl_concat]
    exact ih.meet event

example : ([.enabled true, .limited 3, .line "a", .line "b", .line "c", .line "d", .limited 2,
    .line "e"].foldl meet {}).lines = ["d", "e"] := by decide

end Trace

namespace Engine

variable {α β : Type} {x : EngineM α} {f : α → EngineM β} {g : Engine}

section Blind

/-- Whatever is in the trace, the operation answers the same, makes the same of the rest of the
engine, and writes these lines. -/
def Emits (x : EngineM α) (g : Engine) (lines : List String) : Prop :=
  ∃ a, ∃ g' : Engine, ∀ trace,
    x.run.run (g.withTrace trace) = (a, (g'.withTrace trace).written lines)

theorem Emits.trace_eq {lines : List String} (h : Emits x g lines) :
    (x.run.run g).2.trace = lines.foldl Trace.write g.trace := by
  obtain ⟨a, g', hrun⟩ := h
  exact congrArg (fun r => r.2.trace) (hrun g.trace)

/-- An operation writes the same lines always. -/
theorem Emits.unique {lines lines' : List String} (h : Emits x g lines) (h' : Emits x g lines') :
    lines = lines' := by
  obtain ⟨a, g', hrun⟩ := h
  obtain ⟨a', g'', hrun'⟩ := h'
  let wide : Trace := ⟨true, lines.length + lines'.length, []⟩
  have hsame : lines.foldl Trace.write wide = lines'.foldl Trace.write wide :=
    congrArg (fun r => r.2.trace) ((hrun wide).symm.trans (hrun' wide))
  have hlines := congrArg Trace.lines hsame
  have hroom : wide.lines.length = 0 := rfl
  rwa [Trace.lines_foldl_write rfl (by simp [hroom, wide]),
    Trace.lines_foldl_write rfl (by simp [hroom, wide])] at hlines

/-- The operation does not read the trace. -/
def Blind (x : EngineM α) : Prop := ∀ g, ∃ lines, Emits x g lines

theorem Writes.blind (hx : Writes x) : Blind x := by
  intro g
  obtain ⟨a, lines, hrun⟩ := hx g
  exact ⟨lines, a, g, hrun⟩

theorem Blind.bind (hx : Blind x) (hf : ∀ a, Blind (f a)) : Blind (x >>= f) := by
  intro g
  obtain ⟨lines, a, g', hrun⟩ := hx g
  cases a with
  | error err => exact ⟨lines, .error err, g', fun trace => by rw [run_bind, hrun]⟩
  | ok a =>
    obtain ⟨lines', b, g'', hrun'⟩ := hf a g'
    refine ⟨lines ++ lines', b, g'', fun trace => ?_⟩
    rw [run_bind, hrun, written_append]
    exact hrun' (lines.foldl Trace.write trace)

theorem blind_modify {change : Engine → Engine}
    (apart : ∀ g trace, change (g.withTrace trace) = (change g).withTrace trace) :
    Blind (modify change : EngineM Unit) :=
  fun g => ⟨[], .ok (), change g, fun trace => congrArg (Prod.mk _) (apart g trace)⟩

theorem Blind.asked (hx : Blind x) : Blind (asked x) := hx.bind fun _ => (writes_pure ()).blind

theorem blind_share (m : Matcher) : Blind (share m) :=
  fun g => ⟨[], .ok ⟨g.store.size⟩, { g with store := g.store.push m }, fun _ => rfl⟩

theorem blind_cache (pattern flags : String) : Blind (cache pattern flags) := by
  intro g
  cases hit : g.cachedHandle? pattern flags with
  | some h => exact ⟨[], .ok h, g, fun trace => run_cache_hit (g := g.withTrace trace) hit⟩
  | none =>
    have hstore : Blind (do
        let h ← share (← compile pattern flags)
        modify fun e => { e with cached := (cacheKey pattern flags, h) :: e.cached }
        note ("[cache] stored /" ++ pattern ++ "/" ++ flags)
        return h) :=
      (writes_compile pattern flags).blind.bind fun m => (blind_share m).bind fun h =>
        (blind_modify fun _ _ => rfl).bind fun _ => (writes_note _).blind.bind fun _ =>
          (writes_pure h).blind
    obtain ⟨lines, a, g', hrun⟩ := hstore g
    refine ⟨lines, a, g', fun trace => ?_⟩
    have miss : (g.withTrace trace).cachedHandle? pattern flags = none := hit
    rw [run_cache_eq, miss]
    exact hrun trace

theorem blind_registerToken (pattern : Matcher) (handler : Handler) (o : TokenOptions) :
    Blind (registerToken pattern handler o) := by
  intro g
  obtain ⟨dialect, extensible, compiling, limit, trace, store, cached⟩ := g
  let g : Engine := ⟨dialect, extensible, compiling, limit, trace, store, cached⟩
  cases extensible with
  | false => exact ⟨[], .error .registrationClosed, g, fun _ => rfl⟩
  | true =>
    cases compiling with
    | true => exact ⟨[], .error .registrationWhileCompiling, g, fun _ => rfl⟩
    | false =>
      have hregister : Blind (do
          let dialect ← ExceptT.mk (pure (dialect.register pattern handler o))
          modify fun e => { e with dialect }
          note ("[token] registered /" ++ pattern.source ++ "/")) :=
        (writes_result _).blind.bind fun d => (blind_modify fun _ _ => rfl).bind fun _ =>
          (writes_note _).blind
      exact hregister g

theorem blind_install (f : Feature) : Blind (install f) := by
  cases f with
  | extensibility => exact (blind_modify fun _ _ => rfl).bind fun _ => (writes_note _).blind

theorem blind_uninstall (f : Feature) : Blind (uninstall f) := by
  cases f with
  | extensibility => exact (blind_modify fun _ _ => rfl).bind fun _ => (writes_note _).blind

theorem blind_features {switch : Feature → EngineM Unit} (hswitch : ∀ f, Blind (switch f))
    (text : String) :
    Blind (do for f in ← ExceptT.mk (pure (Feature.parseList text)) do switch f) := by
  have hloop (fs : List Feature) : Blind (forIn fs PUnit.unit fun f _ => do
      switch f
      pure (ForInStep.yield PUnit.unit)) := by
    induction fs with
    | nil => exact (writes_pure _).blind
    | cons f fs ih =>
      rw [List.forIn_cons]
      refine ((hswitch f).bind fun _ => (writes_pure _).blind).bind fun next => ?_
      cases next with
      | done => exact (writes_pure _).blind
      | yield => exact ih
  exact (writes_result _).blind.bind fun fs => (hloop fs).bind fun _ => (writes_pure _).blind

theorem blind_setReparseLimit (limit : Nat) : Blind (setReparseLimit limit) := by
  by_cases hzero : limit = 0
  · subst hzero
    exact fun g => ⟨[], .error .zeroReparseLimit, g, fun _ => rfl⟩
  · exact fun g => ⟨[], .ok (), { g with reparseLimit := limit },
      fun trace => run_setReparseLimit hzero (g.withTrace trace)⟩

end Blind

end Engine

open Engine in
/-- What a request tells the trace: lines, unless it is about the trace itself. -/
def Request.Tells (g : Engine) : Request → List Trace.Event → Prop
  | .enableTrace on, events => events = [.enabled on]
  | .setTraceLimit limit, events => events = [.limited limit]
  | .takeTrace, events => events = [.taken]
  | r, events => ∃ lines, Emits r.perform g lines ∧ events = lines.map .line

namespace Engine

/-- What a list of requests tells the trace, one after the other. -/
def Tells (g : Engine) : List Request → List Trace.Event → Prop
  | [], events => events = []
  | r :: rs, events =>
    ∃ es es', r.Tells g es ∧ Tells (g.step r) rs es' ∧ events = es ++ es'

section Runs

variable {g : Engine} {r : Request} {rs : List Request} {es es' : List Trace.Event}

theorem exists_tells_request (g : Engine) (r : Request) : ∃ es, r.Tells g es := by
  have told {x : EngineM Unit} (hx : Blind x) :
      ∃ es : List Trace.Event, ∃ lines, Emits x g lines ∧ es = lines.map .line := by
    obtain ⟨lines, hlines⟩ := hx g
    exact ⟨_, lines, hlines, rfl⟩
  cases r with
  | compile pattern flags => exact told (writes_compile _ _).blind.asked
  | cache pattern flags => exact told (blind_cache _ _).asked
  | flushCache => exact told (blind_modify fun _ _ => rfl)
  | copy m add remove => exact told (writes_copy _ _ _).blind.asked
  | globalize m => exact told (writes_copy _ _ _).blind.asked
  | union parts flags conjunction => exact told (writes_union _ _ _).blind.asked
  | build pattern subpatterns flags => exact told (writes_compileWith _ _ _).blind.asked
  | matchRecursive text left right flags escape unbalanced names =>
    exact told (writes_matchRecursive _ _ _ _ _ _ _).blind.asked
  | registerToken pattern handler o isFlag => exact told (blind_registerToken _ _ _)
  | install f => exact told (blind_install f)
  | uninstall f => exact told (blind_uninstall f)
  | installFeatures text => exact told (blind_features blind_install text)
  | uninstallFeatures text => exact told (blind_features blind_uninstall text)
  | setReparseLimit limit => exact told (blind_setReparseLimit limit)
  | setTraceLimit limit => exact ⟨_, rfl⟩
  | enableTrace enabled => exact ⟨_, rfl⟩
  | takeTrace => exact ⟨_, rfl⟩
  | share m => exact told (blind_share m).asked
  | setCursor h cursor => exact told (blind_modify fun _ _ => rfl)

theorem tells_request_unique (h : r.Tells g es) (h' : r.Tells g es') : es = es' := by
  have emitted {x : EngineM Unit} (h : ∃ lines, Emits x g lines ∧ es = lines.map .line)
      (h' : ∃ lines, Emits x g lines ∧ es' = lines.map .line) : es = es' := by
    obtain ⟨lines, hlines, rfl⟩ := h
    obtain ⟨lines', hlines', rfl⟩ := h'
    rw [hlines.unique hlines']
  cases r with
  | setTraceLimit | enableTrace | takeTrace => exact h.trans h'.symm
  | _ => exact emitted h h'

/-- A request makes of the trace what it tells it. -/
theorem trace_step (h : r.Tells g es) : (g.step r).trace = es.foldl Trace.meet g.trace := by
  have emitted (h : ∃ lines, Emits r.perform g lines ∧ es = lines.map .line) :
      (g.step r).trace = es.foldl Trace.meet g.trace := by
    obtain ⟨lines, hlines, rfl⟩ := h
    rw [List.foldl_map]
    exact hlines.trace_eq
  cases r with
  | setTraceLimit limit =>
    obtain rfl : es = [.limited limit] := h
    by_cases hzero : limit = 0
    · subst hzero
      rfl
    · simp only [step, Request.perform, run_setTraceLimit hzero, List.foldl_cons, List.foldl_nil,
        Trace.meet, if_neg hzero]
  | enableTrace enabled =>
    obtain rfl : es = [.enabled enabled] := h
    rfl
  | takeTrace =>
    obtain rfl : es = [.taken] := h
    rfl
  | _ => exact emitted h

theorem exists_tells (g : Engine) (rs : List Request) : ∃ es, Tells g rs es := by
  induction rs generalizing g with
  | nil => exact ⟨[], rfl⟩
  | cons r rs ih =>
    obtain ⟨es, hes⟩ := exists_tells_request g r
    obtain ⟨es', hes'⟩ := ih (g.step r)
    exact ⟨_, es, es', hes, hes', rfl⟩

theorem tells_unique (h : Tells g rs es) (h' : Tells g rs es') : es = es' := by
  induction rs generalizing g es es' with
  | nil => exact h.trans h'.symm
  | cons r rs ih =>
    obtain ⟨a, b, ha, hb, rfl⟩ := h
    obtain ⟨a', b', ha', hb', rfl⟩ := h'
    rw [tells_request_unique ha ha', ih hb hb']

theorem trace_foldl_step (h : Tells g rs es) :
    (rs.foldl step g).trace = es.foldl Trace.meet g.trace := by
  induction rs generalizing g es with
  | nil =>
    obtain rfl : es = [] := h
    rfl
  | cons r rs ih =>
    obtain ⟨a, b, ha, hb, rfl⟩ := h
    rw [List.foldl_cons, List.foldl_append, ih hb, trace_step ha]

end Runs

end Engine

end Patterns
