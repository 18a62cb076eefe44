import Patterns.Operations.Split
import Patterns.Proofs.Iteration
import Patterns.Proofs.Requests

/-!
# Uses of shared matchers

All who hold a shared matcher move one cursor. `Use` lists what is done with shared matchers, and
`Use.run` does it in an engine: a use looks its matchers up, and what it changes are cursors that it
writes into the store in the end (`Engine.moved`). So it is enough to know what each operation
leaves as the cursor of a matcher. A matcher that is not global keeps its own, unless the caller
moves it.
-/
namespace Patterns
open Patterns.Text Patterns.Extended

def Outcome.map {α β : Type} (f : α → β) (o : Outcome α) : Outcome β := ⟨o.result.map f, o.cursor⟩

section Uses

/-- What is looked for: a text, or what a shared matcher finds. -/
inductive Sought where
  | text (t : String)
  | shared (h : Handle)
  deriving DecidableEq

namespace Sought

def handle? : Sought → Option Handle
  | text _ => none
  | shared h => some h

def needle? (g : Engine) : Sought → Option Needle
  | text t => some (.text t)
  | shared h => (g.stored? h).map .matcher

end Sought

structure SharedStep where
  sought : Sought
  replacement : Replacement
  scope : Option ReplaceScope

def SharedStep.step? (g : Engine) (step : SharedStep) : Option ReplaceStep :=
  (step.sought.needle? g).map fun needle => ⟨needle, step.replacement, step.scope⟩

structure SharedStage where
  handle : Handle
  choice : GroupChoice

def SharedStage.stage? (g : Engine) (stage : SharedStage) : Option Stage :=
  (g.stored? stage.handle).map fun m => ⟨m, stage.choice⟩

/-- What can be done with shared matchers, and asked of the engine that holds them. -/
inductive Use where
  | exec (h : Handle) (s : Subject) (byte : Nat) (sticky : Bool)
  | test (h : Handle) (s : Subject) (byte : Nat) (sticky : Bool)
  | matchScoped (h : Handle) (s : Subject) (scope : Option MatchScope)
  | forEach (h : Handle) (s : Subject) (callback : Visit s → Nat)
  | replace (s : Subject) (sought : Sought) (r : Replacement) (scope : Option ReplaceScope)
  | replaceEach (text : String) (steps : List SharedStep)
  | split (s : Subject) (sought : Sought) (limit : Option Nat)
  | matchChain (text : String) (stages : List SharedStage)
  | recursiveTexts (text left right flags : String) (escape : Option Char) (unbalanced : Unbalanced)
  | request (r : Request)

namespace Use

abbrev Answer : Use → Type
  | exec _ s _ _ => Option (Match s)
  | test .. => Bool
  | matchScoped .. => Matched
  | forEach _ s _ => List (Match s)
  | replace .. | replaceEach .. => String
  | split .. => Pieces
  | matchChain .. | recursiveTexts .. => List String
  | request _ => Unit

open Engine in
/-- The answer, and the engine afterwards; nothing where a handle names no matcher. A visit of
matches answers with them. -/
def run (g : Engine) : (u : Use) → Option (Except Error u.Answer × Engine)
  | exec h s byte sticky =>
    (g.stored? h).map fun m => (conclude h (m.exec s byte sticky)).run.run g
  | test h s byte sticky =>
    (g.stored? h).map fun m => (conclude h (m.test s byte sticky)).run.run g
  | matchScoped h s scope =>
    (g.stored? h).map fun m => (conclude h (m.matchScoped s scope)).run.run g
  | forEach h s callback =>
    (g.stored? h).map fun m =>
      (conclude h ((m.forEach s callback).map (·.map (·.found)))).run.run g
  | replace s sought r scope =>
    (sought.needle? g).map fun needle =>
      let o := Patterns.replace s needle r scope
      (concludeEach [sought.handle?] (o.result, [o.cursor])).run.run g
  | replaceEach text steps =>
    (steps.mapM (SharedStep.step? g)).map fun chain =>
      (concludeEach (steps.map (·.sought.handle?)) (Patterns.replaceEach text chain)).run.run g
  | split s sought limit =>
    (sought.needle? g).map fun needle => (Patterns.split s needle limit, g)
  | matchChain text stages =>
    (stages.mapM (SharedStage.stage? g)).map fun chain =>
      (concludeEach (stages.map (some ·.handle)) (Patterns.matchChain text chain)).run.run g
  | recursiveTexts text left right flags escape unbalanced =>
    some ((matchRecursiveTexts text left right flags escape unbalanced).run.run g)
  | request r => some (r.perform.run.run g)

/-- The engine after several uses, whatever they answer. -/
def runAll (g : Engine) : List Use → Option Engine
  | [] => some g
  | u :: us => (u.run g).bind fun (_, g') => runAll g' us

/-- The use is given the handle to search with it, or to move its cursor. -/
def Names (h : Handle) : Use → Prop
  | exec k _ _ _ | test k _ _ _ | matchScoped k _ _ | forEach k _ _ => k = h
  | replace _ sought _ _ | split _ sought _ => sought = .shared h
  | replaceEach _ steps => ∃ step ∈ steps, step.sought = .shared h
  | matchChain _ stages => ∃ stage ∈ stages, stage.handle = h
  | request r => ∃ cursor, r = .setCursor h cursor
  | recursiveTexts .. => False

end Use

/-- The function moves the cursor that it is given. -/
def Replacement.Moves : Replacement → Prop
  | .template _ => False
  | .function f => ∃ (s : Subject) (m : Match s) (cursor : Nat), (f m cursor).2 ≠ cursor

/-- What the function writes depends on the cursor that it is given. -/
def Replacement.Reads : Replacement → Prop
  | .template _ => False
  | .function f =>
    ∃ (s : Subject) (m : Match s) (cursor cursor' : Nat), (f m cursor).1 ≠ (f m cursor').1

namespace Use

/-- The caller moves the cursor: by a request, or in a function that the use calls. -/
def Moves (h : Handle) : Use → Prop
  | forEach k _ callback => k = h ∧ ∃ visit, callback visit ≠ visit.cursor
  | replace _ sought r _ => sought = .shared h ∧ r.Moves
  | replaceEach _ steps => ∃ step ∈ steps, step.sought = .shared h ∧ step.replacement.Moves
  | request r => ∃ cursor, r = .setCursor h cursor
  | _ => False

/-- The caller reads the cursor, in a function that the use calls. -/
def Reads (h : Handle) : Use → Prop
  | replace _ sought r _ => sought = .shared h ∧ r.Reads
  | replaceEach _ steps => ∃ step ∈ steps, step.sought = .shared h ∧ step.replacement.Reads
  | _ => False

/-- No cursor is written. -/
def IsStill : Use → Prop
  | split .. | recursiveTexts .. => True
  | request r => ∀ h cursor, r ≠ .setCursor h cursor
  | _ => False

/-- The use searches with the matchers that it is given. -/
def IsSearch : Use → Prop
  | recursiveTexts .. | request _ => False
  | _ => True

end Use

end Uses

namespace Engine

variable {g g' : Engine} {h : Handle} {m : Matcher} {cursor : Nat} {ws : List (Handle × Nat)}

section Stores

/-- The engine in which cursors were written, one after the other. -/
def moved (g : Engine) (ws : List (Handle × Nat)) : Engine :=
  { g with store := ws.foldl (fun store w => store.modify w.1.index (·.withCursor w.2)) g.store }

private theorem stored?_moved_cons (w : Handle × Nat) (hm : g.stored? h = some m) :
    (g.moved [w]).stored? h = some (if w.1 = h then m.withCursor w.2 else m) := by
  change (g.store.modify w.1.index (·.withCursor w.2))[h.index]? = _
  rw [Array.getElem?_modify, show g.store[h.index]? = some m from hm]
  by_cases heq : w.1 = h
  · rw [if_pos heq, if_pos (by rw [heq])]
    rfl
  · have hne : w.1.index ≠ h.index := fun hindex => heq (by
      obtain ⟨⟨k⟩, c⟩ := w
      exact congrArg Handle.mk hindex)
    rw [if_neg heq, if_neg hne]

/-- What is written to a matcher as its cursor when it is its cursor already changes nothing. -/
theorem stored?_moved (hm : g.stored? h = some m) (hw : ∀ w ∈ ws, w.1 = h → w.2 = m.cursor) :
    (g.moved ws).stored? h = some m := by
  induction ws generalizing g with
  | nil => exact hm
  | cons w ws ih =>
    have hfirst := stored?_moved_cons w hm
    have hsame : (if w.1 = h then m.withCursor w.2 else m) = m := by
      split
      · next heq =>
        rw [hw w List.mem_cons_self heq]
        rfl
      · rfl
    rw [hsame] at hfirst
    exact ih hfirst fun w hmem => hw w (List.mem_cons_of_mem _ hmem)

theorem stored?_moved_of_mem (hm : g.stored? h = some m) (hmem : ∃ w ∈ ws, w.1 = h)
    (hw : ∀ w ∈ ws, w.1 = h → w.2 = cursor) :
    (g.moved ws).stored? h = some (m.withCursor cursor) := by
  induction ws generalizing g m with
  | nil => simp at hmem
  | cons w ws ih =>
    have hrest : ∀ w ∈ ws, w.1 = h → w.2 = cursor :=
      fun w hmem => hw w (List.mem_cons_of_mem _ hmem)
    have hfirst := stored?_moved_cons w hm
    by_cases hh : w.1 = h
    · rw [if_pos hh, hw w List.mem_cons_self hh] at hfirst
      have hlast : ((g.moved [w]).moved ws).stored? h = some (m.withCursor cursor) :=
        stored?_moved hfirst hrest
      exact hlast
    · rw [if_neg hh] at hfirst
      obtain ⟨w', hw', heq⟩ := hmem
      rcases List.mem_cons.mp hw' with rfl | hw'
      · exact absurd heq hh
      · exact ih hfirst ⟨w', hw', heq⟩ hrest

theorem stored?_moved_self (hm : g.stored? h = some m) (cursor : Nat) :
    (g.moved [(h, cursor)]).stored? h = some (m.withCursor cursor) :=
  stored?_moved_of_mem hm ⟨_, List.mem_singleton_self _, rfl⟩ fun w hw _ => by
    rw [List.mem_singleton.mp hw]

/-- The cursors that go to the parts which are shared. -/
def writes (parts : List (Option Handle)) (cursors : List Nat) : List (Handle × Nat) :=
  (parts.zip cursors).filterMap fun p => p.1.map (·, p.2)

theorem mem_writes {parts : List (Option Handle)} {cursors : List Nat} :
    (h, cursor) ∈ writes parts cursors ↔
      ∃ i : Nat, parts[i]? = some (some h) ∧ cursors[i]? = some cursor := by
  simp only [writes, List.mem_filterMap, Option.map_eq_some_iff, Prod.mk.injEq]
  constructor
  · rintro ⟨⟨part, c⟩, hmem, k, hk, rfl, rfl⟩
    obtain ⟨i, hi⟩ := List.mem_iff_getElem?.mp hmem
    obtain ⟨hpart, hc⟩ := List.getElem?_zip_eq_some.mp hi
    exact ⟨i, hpart.trans (congrArg some hk), hc⟩
  · rintro ⟨i, hpart, hc⟩
    refine ⟨(some h, cursor), List.mem_iff_getElem?.mpr ⟨i, ?_⟩, h, rfl, rfl, rfl⟩
    exact List.getElem?_zip_eq_some.mpr ⟨hpart, hc⟩

/-- A matcher keeps its cursor where nothing else goes to its parts. -/
theorem stored?_moved_writes {parts : List (Option Handle)} {cursors : List Nat}
    (hm : g.stored? h = some m) (kept : ∀ i : Nat, parts[i]? = some (some h) →
      ∀ cursor, cursors[i]? = some cursor → cursor = m.cursor) :
    (g.moved (writes parts cursors)).stored? h = some m := by
  refine stored?_moved hm fun w hw heq => ?_
  obtain ⟨k, cursor⟩ := w
  obtain rfl : k = h := heq
  obtain ⟨i, hpart, hcursor⟩ := mem_writes.mp hw
  exact kept i hpart cursor hcursor

theorem stored?_moved_writes_of_isSome {parts : List (Option Handle)} {cursors : List Nat}
    (hm : g.stored? h = some m) {i : Nat} (hpart : parts[i]? = some (some h))
    (hcursor : (cursors[i]?).isSome = true) (hwrites : ∀ i : Nat, parts[i]? = some (some h) →
      ∀ c, cursors[i]? = some c → c = cursor) :
    (g.moved (writes parts cursors)).stored? h = some (m.withCursor cursor) := by
  obtain ⟨c, hc⟩ := Option.isSome_iff_exists.mp hcursor
  refine stored?_moved_of_mem hm ⟨_, mem_writes.mpr ⟨i, hpart, hc⟩, rfl⟩ fun w hw heq => ?_
  obtain ⟨k, c⟩ := w
  obtain rfl : k = h := heq
  obtain ⟨i, hpart, hcursor⟩ := mem_writes.mp hw
  exact hwrites i hpart c hcursor

theorem run_conclude {α : Type} (h : Handle) (o : Outcome α) (g : Engine) :
    (conclude h o).run.run g = (o.result, g.moved [(h, o.cursor)]) := rfl

theorem run_concludeEach {α : Type} (parts : List (Option Handle))
    (o : Except Error α × List Nat) (g : Engine) :
    (concludeEach parts o).run.run g = (o.1, g.moved (writes parts o.2)) := by
  obtain ⟨result, cursors⟩ := o
  induction parts generalizing cursors g with
  | nil => rfl
  | cons part parts ih =>
    cases cursors with
    | nil => rfl
    | cons cursor cursors =>
      rw [concludeEach, List.zip_cons_cons, List.forIn_cons]
      cases part with
      | none => exact ih g cursors
      | some h => exact ih (g.moved [(h, cursor)]) cursors

end Stores

end Engine

namespace Matcher

variable {m : Matcher} {s : Subject} {byte : Nat} {sticky : Bool} {r : Replacement}

section Kept

theorem settled_of_local (hm : m.global = false) (cursor : Nat) : m.settled cursor = m.cursor := by
  rw [settled, hm]
  rfl

theorem settled_of_global (hm : m.global = true) (cursor : Nat) : m.settled cursor = cursor := by
  rw [settled, hm]
  rfl

theorem cursor_exec (hm : m.global = false) : (m.exec s byte sticky).cursor = m.cursor := by
  unfold exec
  split
  · rfl
  · exact settled_of_local hm _

theorem cursor_matchScoped (hm : m.global = false) (scope : Option MatchScope) :
    (m.matchScoped s scope).cursor = m.cursor := by
  unfold matchScoped
  split
  · exact cursor_exec hm
  · dsimp only
    split
    · rfl
    · exact settled_of_local hm _

/-- Only the callback moves the cursor. -/
theorem cursor_forEach (hm : m.global = false) (callback : Visit s → Nat) :
    (m.forEach s callback).cursor = (m.run s).found.zipIdx.foldl
      (fun cursor visited => callback ⟨visited.1, visited.2, cursor⟩) m.cursor := by
  have hvisits (fs : List (Match s)) (ordinal cursor : Nat) :
      (m.visitAll callback fs ordinal cursor).2 = (fs.zipIdx ordinal).foldl
        (fun cursor visited => callback ⟨visited.1, visited.2, cursor⟩) cursor := by
    induction fs generalizing ordinal cursor with
    | nil => rfl
    | cons f fs ih =>
      rw [visitAll, hm, List.zipIdx_cons, List.foldl_cons]
      exact ih (ordinal + 1) _
  rw [← hvisits]
  unfold forEach
  dsimp only
  split
  · rfl
  · exact if_neg (by rw [hm]; simp)

private theorem cursor_replace_eq (hm : m.global = false) (all : Bool) :
    (m.replace s r all).cursor =
      (m.substitute r (if all then m.run s else m.runOnce s).found 0 m.cursor).2 := by
  unfold replace
  dsimp only
  split
  · next h => rw [h]
  · next h =>
    rw [h]
    split
    · rfl
    · exact if_neg (by rw [hm]; simp)

/-- Only the function moves the cursor. -/
theorem cursor_replace_function (hm : m.global = false)
    (r : {s : Subject} → Match s → (cursor : Nat) → String × Nat) (all : Bool) :
    (m.replace s (.function r) all).cursor = (if all then m.run s else m.runOnce s).found.foldl
      (fun cursor f => (r f cursor).2) m.cursor := by
  have hsubstitute (fs : List (Match s)) (last cursor : Nat) :
      (m.substitute (.function r) fs last cursor).2 =
        fs.foldl (fun cursor f => (r f cursor).2) cursor := by
    induction fs generalizing last cursor with
    | nil => rfl
    | cons f fs ih =>
      rw [substitute, hm, List.foldl_cons]
      exact ih f.stop _
  rw [cursor_replace_eq hm, hsubstitute]

theorem cursor_replace_template (hm : m.global = false) (template : String) (all : Bool) :
    (m.replace s (.template template) all).cursor = m.cursor := by
  have hsubstitute (fs : List (Match s)) (last cursor : Nat) :
      (m.substitute (.template template) fs last cursor).2 = cursor := by
    induction fs generalizing last cursor with
    | nil => rfl
    | cons f fs ih =>
      rw [substitute, hm]
      dsimp only [Replacement.write]
      cases Template.expand template f with
      | error err => rfl
      | ok text => exact ih f.stop cursor
  rw [cursor_replace_eq hm, hsubstitute]

theorem cursor_replace (hm : m.global = false) (still : ¬r.Moves) (all : Bool) :
    (m.replace s r all).cursor = m.cursor := by
  cases r with
  | template text => exact cursor_replace_template hm text all
  | function r =>
    have hstill (f : Match s) (cursor : Nat) : (r f cursor).2 = cursor :=
      by_contra fun hne => still ⟨s, f, cursor, hne⟩
    rw [cursor_replace_function hm]
    exact List.foldl_fixed' (hstill · m.cursor) _

end Kept

section Left

theorem result_exec (m : Matcher) (s : Subject) (byte : Nat) (sticky : Bool) :
    (m.exec s byte sticky).result = m.searchFrom s byte (sticky || m.sticky) := by
  unfold exec
  split <;> simp_all

theorem cursor_exec_ok {found : Option (Match s)} (h : (m.exec s byte sticky).result = .ok found) :
    (m.exec s byte sticky).cursor = m.settled ((found.map (·.byteStop)).getD 0) := by
  unfold exec at h ⊢
  split at h
  · cases h
  · next hsearch =>
    obtain rfl := Except.ok.inj h
    rfl

theorem cursor_forEach_ok {callback : Visit s → Nat} {visits : List (Visit s)}
    (hm : m.global = true) (h : (m.forEach s callback).result = .ok visits) :
    (m.forEach s callback).cursor = 0 := by
  unfold forEach at h ⊢
  dsimp only at h ⊢
  split at h
  · cases h
  · exact if_pos hm

theorem cursor_replace_ok {text : String} {all : Bool} (hm : m.global = true)
    (h : (m.replace s r all).result = .ok text) : (m.replace s r all).cursor = 0 := by
  unfold replace at h ⊢
  dsimp only at h ⊢
  split at h
  · cases h
  · split at h
    · cases h
    · exact if_pos hm

theorem cursor_matchScoped_all {a : Matched} {scope : Option MatchScope} (hm : m.global = true)
    (hscope : scope ≠ some .one) (h : (m.matchScoped s scope).result = .ok a) :
    (m.matchScoped s scope).cursor = 0 := by
  have hall : scope.getD (if m.global then .all else .one) = .all := by
    rw [hm]
    cases scope with
    | none => rfl
    | some scope =>
      cases scope with
      | one => exact absurd rfl hscope
      | all => rfl
  unfold matchScoped at h ⊢
  rw [hall] at h ⊢
  dsimp only at h ⊢
  split at h
  · cases h
  · exact settled_of_global hm 0

end Left

end Matcher

section Parts

variable {values : List String} {stages : List Stage} {steps : List ReplaceStep} {i cursor : Nat}

theorem mapM_eq_some_iff {α β : Type} {f : α → Option β} {xs : List α} {ys : List β} :
    xs.mapM f = some ys ↔ xs.map f = ys.map some := by
  induction xs generalizing ys with
  | nil => cases ys <;> simp
  | cons x xs ih =>
    rw [List.mapM_cons, List.map_cons]
    cases ys with
    | nil => cases f x <;> cases xs.mapM f <;> simp
    | cons y ys =>
      rw [List.map_cons, List.cons.injEq, ← ih]
      cases f x <;> cases xs.mapM f <;> simp

theorem matchChain_eq (h : stages ≠ []) (text : String) :
    matchChain text stages = runStages [text] stages := by
  cases stages with
  | nil => exact absurd rfl h
  | cons => rfl

/-- Only stages that ran to their end have a cursor written. -/
theorem exists_stage (h : (runStages values stages).2[i]? = some cursor) :
    ∃ stage, stages[i]? = some stage ∧ cursor = stage.matcher.settled 0 := by
  induction stages generalizing values i with
  | nil => simp [runStages] at h
  | cons stage stages ih =>
    rw [runStages] at h
    split at h
    · simp at h
    · cases i with
      | zero => exact ⟨stage, rfl, (Option.some.inj h).symm⟩
      | succ i => simp at h
    · cases i with
      | zero => exact ⟨stage, rfl, (Option.some.inj h).symm⟩
      | succ i => exact ih h

/-- In a chain that succeeds a stage ran if and only if those before it found something. -/
theorem isSome_cursor_iff {texts : List String} (some : values ≠ [])
    (h : (runStages values stages).1 = .ok texts) (hi : i < stages.length) :
    ((runStages values stages).2[i]?).isSome = true ↔
      ∃ found, (runStages values (stages.take i)).1 = .ok found ∧ found ≠ [] := by
  induction stages generalizing values i with
  | nil => simp at hi
  | cons stage stages ih =>
    rw [runStages] at h ⊢
    cases happly : stage.apply values with
    | error err => simp [happly] at h
    | ok found =>
      cases i with
      | zero =>
        have ran : ∃ found, (runStages values (List.take 0 (stage :: stages))).1 = .ok found ∧
            found ≠ [] := ⟨values, rfl, some⟩
        cases found with
        | nil => exact ⟨fun _ => ran, fun _ => rfl⟩
        | cons => exact ⟨fun _ => ran, fun _ => rfl⟩
      | succ i =>
        rw [List.take_succ_cons, runStages, happly]
        cases found with
        | nil => simp
        | cons text found =>
          rw [happly] at h
          exact ih (by simp) h (by simpa using hi)

theorem exists_replaced {text : String} (h : (replaceEach text steps).2[i]? = some cursor) :
    ∃ step, steps[i]? = some step ∧ ∃ s,
      (replace s step.needle step.replacement step.scope).cursor = cursor ∧
        ∀ t, (replaceEach text steps).1 = .ok t →
          ∃ t', (replace s step.needle step.replacement step.scope).result = .ok t' := by
  induction steps generalizing text i with
  | nil => simp [replaceEach] at h
  | cons step steps ih =>
    rw [replaceEach] at h ⊢
    cases hresult :
        (replace (.ofString text) step.needle step.replacement step.scope).result with
    | error err =>
      simp only [hresult] at h
      cases i with
      | zero => exact ⟨step, rfl, _, Option.some.inj h, fun t ht => by simp at ht⟩
      | succ i => simp at h
    | ok text' =>
      simp only [hresult] at h
      cases i with
      | zero => exact ⟨step, rfl, _, Option.some.inj h, fun _ _ => ⟨text', hresult⟩⟩
      | succ i =>
        obtain ⟨step', hstep', s, hcursor, hok⟩ := ih h
        refine ⟨step', hstep', s, hcursor, fun t ht => hok t ?_⟩
        simpa only [hresult] using ht

theorem length_replaceEach {text t : String} (h : (replaceEach text steps).1 = .ok t) :
    (replaceEach text steps).2.length = steps.length := by
  induction steps generalizing text with
  | nil => rfl
  | cons step steps ih =>
    rw [replaceEach] at h ⊢
    cases hresult :
        (replace (.ofString text) step.needle step.replacement step.scope).result with
    | error err => simp [hresult] at h
    | ok text' =>
      simp only [hresult] at h ⊢
      rw [List.length_cons, List.length_cons, ih h]

end Parts

namespace Use

variable {g g' : Engine} {h k : Handle} {m : Matcher} {u : Use}

section Frame

theorem exists_of_conclude {α : Type} {o : Matcher → Outcome α} {a : Except Error α}
    (hrun : ((g.stored? k).map fun m => (Engine.conclude k (o m)).run.run g) = some (a, g')) :
    ∃ m, g.stored? k = some m ∧ a = (o m).result ∧ g' = g.moved [(k, (o m).cursor)] := by
  obtain ⟨m, hm, hrun⟩ := Option.map_eq_some_iff.mp hrun
  rw [Engine.run_conclude] at hrun
  obtain ⟨rfl, rfl⟩ := Prod.mk.inj hrun
  exact ⟨m, hm, rfl, rfl⟩

private theorem stored?_of_conclude {α : Type} {o : Matcher → Outcome α} {a : Except Error α}
    (hrun : ((g.stored? k).map fun m => (Engine.conclude k (o m)).run.run g) = some (a, g'))
    (hm : g.stored? h = some m) (kept : k = h → (o m).cursor = m.cursor) :
    g'.stored? h = some m := by
  obtain ⟨m', hm', -, rfl⟩ := exists_of_conclude hrun
  refine Engine.stored?_moved hm fun w hw heq => ?_
  obtain rfl := List.mem_singleton.mp hw
  obtain rfl : k = h := heq
  obtain rfl := Option.some.inj (hm'.symm.trans hm)
  exact kept rfl

theorem exists_of_replace {s : Subject} {sought : Sought} {r : Replacement}
    {scope : Option ReplaceScope} {a : Except Error String}
    (hrun : (replace s sought r scope).run g = some (a, g')) :
    ∃ needle, sought.needle? g = some needle ∧
      a = (Patterns.replace s needle r scope).result ∧
      g' = g.moved (Engine.writes [sought.handle?]
        [(Patterns.replace s needle r scope).cursor]) := by
  obtain ⟨needle, hneedle, hrun⟩ := Option.map_eq_some_iff.mp hrun
  rw [Engine.run_concludeEach] at hrun
  obtain ⟨rfl, rfl⟩ := Prod.mk.inj hrun
  exact ⟨needle, hneedle, rfl, rfl⟩

theorem exists_of_replaceEach {text : String} {steps : List SharedStep} {a : Except Error String}
    (hrun : (replaceEach text steps).run g = some (a, g')) :
    ∃ chain, steps.mapM (SharedStep.step? g) = some chain ∧
      a = (Patterns.replaceEach text chain).1 ∧
      g' = g.moved (Engine.writes (steps.map (·.sought.handle?))
        (Patterns.replaceEach text chain).2) := by
  obtain ⟨chain, hchain, hrun⟩ := Option.map_eq_some_iff.mp hrun
  rw [Engine.run_concludeEach] at hrun
  obtain ⟨rfl, rfl⟩ := Prod.mk.inj hrun
  exact ⟨chain, hchain, rfl, rfl⟩

theorem run_matchChain {stages : List SharedStage} {chain : List Stage}
    (hchain : stages.mapM (SharedStage.stage? g) = some chain) (text : String) :
    (matchChain text stages).run g = some ((Patterns.matchChain text chain).1,
      g.moved (Engine.writes (stages.map (some ·.handle)) (Patterns.matchChain text chain).2)) := by
  have hrun : (matchChain text stages).run g =
      (stages.mapM (SharedStage.stage? g)).map fun chain =>
        (Engine.concludeEach (stages.map (some ·.handle))
          (Patterns.matchChain text chain)).run.run g := rfl
  rw [hrun, hchain]
  exact congrArg some (Engine.run_concludeEach _ _ g)

theorem exists_of_matchChain {text : String} {stages : List SharedStage}
    {a : Except Error (List String)} (hrun : (matchChain text stages).run g = some (a, g')) :
    ∃ chain, stages.mapM (SharedStage.stage? g) = some chain ∧
      a = (Patterns.matchChain text chain).1 ∧
      g' = g.moved (Engine.writes (stages.map (some ·.handle))
        (Patterns.matchChain text chain).2) := by
  obtain ⟨chain, hchain, -⟩ := Option.map_eq_some_iff.mp hrun
  rw [run_matchChain hchain text] at hrun
  obtain ⟨rfl, rfl⟩ := Prod.mk.inj (Option.some.inj hrun)
  exact ⟨chain, hchain, rfl, rfl⟩

theorem eq_shared_of_handle? {sought : Sought} (h' : sought.handle? = some h) :
    sought = .shared h := by
  cases sought with
  | text t => cases h'
  | shared k => rw [Option.some.inj h']

theorem needle?_shared (hm : g.stored? h = some m) :
    (Sought.shared h).needle? g = some (.matcher m) := by
  rw [Sought.needle?, hm]
  rfl

/-- The step of a shared matcher replaces with it. -/
theorem getElem?_step {steps : List SharedStep} {chain : List ReplaceStep} {i : Nat}
    (hchain : steps.mapM (SharedStep.step? g) = some chain)
    (hpart : (steps.map (·.sought.handle?))[i]? = some (some h)) (hm : g.stored? h = some m) :
    ∃ step ∈ steps, step.sought = .shared h ∧
      chain[i]? = some ⟨.matcher m, step.replacement, step.scope⟩ := by
  rw [List.getElem?_map, Option.map_eq_some_iff] at hpart
  obtain ⟨step, hstep, hhandle⟩ := hpart
  have hsought := eq_shared_of_handle? hhandle
  refine ⟨step, List.mem_of_getElem? hstep, hsought, ?_⟩
  have hmap := congrArg (·[i]?) (mapM_eq_some_iff.mp hchain)
  simp only [List.getElem?_map, hstep, Option.map_some, SharedStep.step?, hsought,
    needle?_shared hm] at hmap
  obtain ⟨step', hstep', heq⟩ := Option.map_eq_some_iff.mp hmap.symm
  rw [hstep', Option.some.inj heq]

theorem getElem?_stage {stages : List SharedStage} {chain : List Stage} {i : Nat}
    (hchain : stages.mapM (SharedStage.stage? g) = some chain)
    (hpart : (stages.map (some ·.handle))[i]? = some (some h)) (hm : g.stored? h = some m) :
    ∃ stage, stages[i]? = some stage ∧ stage.handle = h ∧
      chain[i]? = some ⟨m, stage.choice⟩ := by
  rw [List.getElem?_map, Option.map_eq_some_iff] at hpart
  obtain ⟨stage, hstage, hhandle⟩ := hpart
  have hhandle := Option.some.inj hhandle
  refine ⟨stage, hstage, hhandle, ?_⟩
  have hmap := congrArg (·[i]?) (mapM_eq_some_iff.mp hchain)
  simp only [List.getElem?_map, hstage, Option.map_some, SharedStage.stage?, hhandle, hm] at hmap
  obtain ⟨stage', hstage', heq⟩ := Option.map_eq_some_iff.mp hmap.symm
  rw [hstage', Option.some.inj heq]

/-- A use leaves the cursor of a matcher alone which it is not given, which is not global and which
the caller does not move, or if no cursor is written at all. -/
theorem stored?_of_run {a : Except Error u.Answer} (hrun : u.run g = some (a, g'))
    (hm : g.stored? h = some m)
    (kept : ¬u.Names h ∨ m.global = false ∧ ¬u.Moves h ∨ u.IsStill) : g'.stored? h = some m := by
  have own (names : u.Names h) (writes : ¬u.IsStill) : m.global = false ∧ ¬u.Moves h := by
    rcases kept with hnames | hlocal | hstill
    · exact absurd names hnames
    · exact hlocal
    · exact absurd hstill writes
  cases u with
  | exec k s byte sticky | test k s byte sticky =>
    exact stored?_of_conclude hrun hm fun names => Matcher.cursor_exec (own names id).1
  | matchScoped k s scope =>
    exact stored?_of_conclude hrun hm fun names => Matcher.cursor_matchScoped (own names id).1 scope
  | forEach k s callback =>
    refine stored?_of_conclude hrun hm fun names => ?_
    obtain ⟨hlocal, hmoves⟩ := own names id
    have hstill (visit : Visit s) : callback visit = visit.cursor :=
      by_contra fun hne => hmoves ⟨names, visit, hne⟩
    refine (Matcher.cursor_forEach hlocal callback).trans ?_
    exact List.foldl_fixed' (fun visited => hstill ⟨visited.1, visited.2, m.cursor⟩) _
  | replace s sought r scope =>
    obtain ⟨needle, hneedle, -, rfl⟩ := exists_of_replace hrun
    refine Engine.stored?_moved_writes hm fun i hpart cursor hcursor => ?_
    cases i with
    | succ i => simp at hpart
    | zero =>
      have names := eq_shared_of_handle? (Option.some.inj hpart)
      obtain ⟨hlocal, hmoves⟩ := own names id
      rw [names, needle?_shared hm] at hneedle
      obtain rfl := Option.some.inj hneedle
      obtain rfl := Option.some.inj hcursor
      exact Matcher.cursor_replace hlocal (fun hr => hmoves ⟨names, hr⟩) _
  | replaceEach text steps =>
    obtain ⟨chain, hchain, -, rfl⟩ := exists_of_replaceEach hrun
    refine Engine.stored?_moved_writes hm fun i hpart cursor hcursor => ?_
    obtain ⟨step, hmem, hsought, hstep⟩ := getElem?_step hchain hpart hm
    obtain ⟨step', hstep', s, rfl, -⟩ := exists_replaced hcursor
    obtain rfl := Option.some.inj (hstep.symm.trans hstep')
    obtain ⟨hlocal, hmoves⟩ := own ⟨step, hmem, hsought⟩ id
    exact Matcher.cursor_replace hlocal (fun hr => hmoves ⟨step, hmem, hsought, hr⟩) _
  | split s sought limit =>
    obtain ⟨needle, -, hrun⟩ := Option.map_eq_some_iff.mp hrun
    obtain rfl : g = g' := congrArg Prod.snd hrun
    exact hm
  | matchChain text stages =>
    obtain ⟨chain, hchain, -, rfl⟩ := exists_of_matchChain hrun
    refine Engine.stored?_moved_writes hm fun i hpart cursor hcursor => ?_
    obtain ⟨stage, hmem, hhandle, hstage⟩ := getElem?_stage hchain hpart hm
    cases chain with
    | nil => simp at hstage
    | cons first rest =>
      obtain ⟨stage', hstage', rfl⟩ := exists_stage hcursor
      obtain rfl := Option.some.inj (hstage.symm.trans hstage')
      exact Matcher.settled_of_local (own ⟨stage, List.mem_of_getElem? hmem, hhandle⟩ id).1 0
  | recursiveTexts text left right flags escape unbalanced =>
    have hwrites : Engine.Writes
        (Engine.matchRecursiveTexts text left right flags escape unbalanced) :=
      (Engine.writes_matchRecursive _ _ _ _ _ _ _).bind fun _ => Engine.writes_pure _
    obtain ⟨lines, hlines⟩ := hwrites.exists_lines g
    obtain rfl : g.written lines = g' :=
      hlines.symm.trans (congrArg Prod.snd (Option.some.inj hrun))
    exact hm
  | request r =>
    obtain rfl : g.step r = g' := congrArg Prod.snd (Option.some.inj hrun)
    have unmoved : ∀ cursor, r ≠ .setCursor h cursor := by
      rintro cursor rfl
      exact (own ⟨cursor, rfl⟩ fun still => still h cursor rfl).2 ⟨cursor, rfl⟩
    rcases Engine.exists_perform g r with ⟨lines, hstep⟩ | ⟨-, g₁, lines, hchanges, hstep⟩
    · rw [hstep]
      exact hm
    · rw [hstep]
      exact hchanges.stored?_of_ne hm unmoved

theorem stored?_of_runAll {us : List Use} (hrun : runAll g us = some g')
    (hm : g.stored? h = some m) (hlocal : m.global = false) (hmoves : ∀ u ∈ us, ¬u.Moves h) :
    g'.stored? h = some m := by
  induction us generalizing g with
  | nil => rwa [← Option.some.inj hrun]
  | cons u us ih =>
    obtain ⟨⟨a, g₁⟩, hfirst, hrest⟩ := Option.bind_eq_some_iff.mp hrun
    have hm₁ := stored?_of_run hfirst hm (.inr (.inl ⟨hlocal, hmoves u List.mem_cons_self⟩))
    exact ih hrest hm₁ fun u' hu' => hmoves u' (List.mem_cons_of_mem u hu')

end Frame

end Use

end Patterns
