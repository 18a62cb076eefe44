import Patterns.Proofs.Coverage
import Patterns.Proofs.Stickiness
import Patterns.Proofs.Uses

/-!
# Stepping by the cursor

A global matcher can be taken from match to match by searching again and again at its cursor. All
that one call leaves to the next is the cursor in the engine, a byte offset, where visiting all
matches in one call keeps a position to itself. Both come to the same matches as long as none of
them is empty (`steps_visit`): an empty match would be found again and again.
-/
namespace Patterns
open Patterns.Text Patterns.Plain

namespace Engine

variable {g : Engine} {h : Handle} {m : Matcher}

/-- Of two cursors the last one counts. -/
theorem moved_moved (g : Engine) (h : Handle) (a b : Nat) :
    (g.moved [(h, a)]).moved [(h, b)] = g.moved [(h, b)] := by
  have hstore : (g.moved [(h, a)]).store.modify h.index (·.withCursor b) =
      g.store.modify h.index (·.withCursor b) := by
    refine Array.ext_getElem? fun i => ?_
    change ((g.store.modify h.index (·.withCursor a)).modify h.index (·.withCursor b))[i]? = _
    rw [Array.getElem?_modify, Array.getElem?_modify, Array.getElem?_modify]
    split
    · rw [Option.map_map]
      rfl
    · rfl
  exact congrArg (fun store => { g with store }) hstore

end Engine

namespace Matcher

variable {m : Matcher} {s : Subject}

/-- A search starts before its match, unless the pattern moves the start. -/
theorem goesForward_of_keepsStart (keeps : m.keepsStart = true) : m.GoesForward s false :=
  fun _ _ h => le_start_of_find (keepsStart_body keeps s) h

theorem goesForward_of_sticky (m : Matcher) (s : Subject) : m.GoesForward s true :=
  fun _ _ h => (Extended.start_eq_of_find h).ge

/-- At the start of a character both kinds of searches agree on where they begin. -/
theorem searchFrom_byteOffset {i : Nat} (hi : i ≤ s.size) (sticky : Bool) :
    m.searchFrom s (s.byteOffset i) sticky = m.find s i sticky := by
  have hposition :
      (if sticky then s.position? (s.byteOffset i) else s.ceil? (s.byteOffset i)) = some i := by
    cases sticky with
    | false => exact Subject.ceil?_byteOffset hi
    | true => exact Subject.position?_eq_some_iff.mpr ⟨hi, rfl⟩
  rw [searchFrom, hposition]

theorem exec_of_find_error {i : Nat} {e : Error} (hi : i ≤ s.size)
    (h : m.find s i m.sticky = .error e) :
    m.exec s (s.byteOffset i) false = ⟨.error e, m.cursor⟩ := by
  rw [exec, Bool.false_or, searchFrom_byteOffset hi, h]

theorem exec_of_find {i : Nat} {found : Option (Match s)} (hglobal : m.global = true)
    (hi : i ≤ s.size) (h : m.find s i m.sticky = .ok found) :
    m.exec s (s.byteOffset i) false = ⟨.ok found, (found.map (·.byteStop)).getD 0⟩ := by
  rw [exec, Bool.false_or, searchFrom_byteOffset hi, h]
  exact congrArg (Outcome.mk _) (settled_of_global hglobal _)

end Matcher

namespace Use

variable {g last last' : Engine} {h : Handle} {m : Matcher} {s : Subject} {i : Nat} {f : Match s}
  {fs fs' : List (Match s)} {failure failure' : Option Error}

/-- Searches at the cursor of a shared matcher. -/
def execNext (g : Engine) (h : Handle) (s : Subject) :
    Option (Except Error (Option (Match s)) × Engine) :=
  (g.stored? h).bind fun m => (exec h s m.cursor false).run g

/-- Searching at the cursor until nothing is found: the matches, the error that ends them, if one
does, and the engine afterwards. -/
inductive Steps (h : Handle) (s : Subject) :
    Engine → List (Match s) → Option Error → Engine → Prop
  | failed {g last : Engine} {e : Error} (search : execNext g h s = some (.error e, last)) :
    Steps h s g [] (some e) last
  | nothing {g last : Engine} (search : execNext g h s = some (.ok none, last)) :
    Steps h s g [] none last
  | found {g g' last : Engine} {f : Match s} {fs : List (Match s)} {failure : Option Error}
    (search : execNext g h s = some (.ok (some f), g')) (others : Steps h s g' fs failure last) :
    Steps h s g (f :: fs) failure last

theorem Steps.unique (steps : Steps h s g fs failure last)
    (steps' : Steps h s g fs' failure' last') : fs' = fs ∧ failure' = failure ∧ last' = last := by
  induction steps generalizing fs' failure' last' with
  | failed search => cases steps' <;> simp_all
  | nothing search => cases steps' <;> simp_all
  | found search _ ih =>
    cases steps' with
    | failed search' => simp_all
    | nothing search' => simp_all
    | found search' others' =>
      have heq := Option.some.inj (search'.symm.trans search)
      simp only [Prod.mk.injEq, Except.ok.injEq, Option.some.injEq] at heq
      obtain ⟨rfl, rfl⟩ := heq
      obtain ⟨rfl, rfl, rfl⟩ := ih others'
      exact ⟨rfl, rfl, rfl⟩

/-- The cursor behind these matches: at the front again where nothing more is found, and where it
was left by the last match where a search fails. -/
def cursorBehind (cursor : Nat) (fs : List (Match s)) : Option Error → Nat
  | none => 0
  | some _ => (fs.getLast?.map (·.byteStop)).getD cursor

theorem cursorBehind_cons (cursor : Nat) (f : Match s) (fs : List (Match s)) :
    cursorBehind cursor (f :: fs) failure = cursorBehind f.byteStop fs failure := by
  cases failure with
  | none => rfl
  | some e =>
    rw [cursorBehind, cursorBehind, List.getLast?_cons]
    cases fs.getLast? <;> rfl

theorem execNext_moved {cursor : Nat} {o : Outcome (Option (Match s))}
    (stored : g.stored? h = some m) (hexec : (m.withCursor cursor).exec s cursor false = o) :
    execNext (g.moved [(h, cursor)]) h s = some (o.result, g.moved [(h, o.cursor)]) := by
  have stored' := Engine.stored?_moved_self stored cursor
  rw [execNext, stored', Option.bind_some, run, stored', Option.map_some, Engine.run_conclude,
    Engine.moved_moved, ← hexec]
  rfl

/-- Where visiting goes on from a position, stepping goes on from the cursor in front of it. -/
theorem steps_of_visits (stored : g.stored? h = some m) (hglobal : m.global = true)
    (visits : m.Visits s i fs failure) (long : ∀ f ∈ fs, f.start ≠ f.stop) (hi : i ≤ s.size) :
    Steps h s (g.moved [(h, s.byteOffset i)]) fs failure
      (g.moved [(h, cursorBehind (s.byteOffset i) fs failure)]) := by
  induction visits with
  | @failed i e search =>
    have hexec := Matcher.exec_of_find_error (m := m.withCursor (s.byteOffset i)) hi search
    exact .failed (execNext_moved stored hexec)
  | @nothing i search =>
    have hexec := Matcher.exec_of_find (m := m.withCursor (s.byteOffset i)) hglobal hi search
    exact .nothing (execNext_moved stored hexec)
  | @found i f fs failure search others ih =>
    have hexec := Matcher.exec_of_find (m := m.withCursor (s.byteOffset i)) hglobal hi search
    obtain ⟨hf, hfs⟩ := List.forall_mem_cons.mp long
    -- The match is not empty, so its end is where both go on.
    rw [if_neg hf] at ih
    rw [cursorBehind_cons]
    exact .found (execNext_moved stored hexec) (ih hfs f.stop_le)

end Use

end Patterns
