import Patterns.Proofs.Uses
import Patterns.Proofs.Turns

/-!
# What cursors say

The cursor of a global matcher tells where an operation stands or that it is done; no search looks
at a cursor.
-/
namespace Patterns
open Patterns.Text Patterns.Extended

namespace Matcher

variable {m : Matcher} {s : Subject} {r : Replacement} (cursor : Nat)

section Callbacks

/-- A callback that visits the matches of a global matcher finds its cursor at the end of the match
at hand, whatever it did with it before. -/
theorem cursor_of_mem_visitAll {callback : Visit s → Nat} {fs : List (Match s)} {ordinal : Nat}
    {visit : Visit s} (hm : m.global = true)
    (h : visit ∈ (m.visitAll callback fs ordinal cursor).1) :
    visit.cursor = visit.found.byteStop := by
  induction fs generalizing ordinal cursor with
  | nil => simp [visitAll] at h
  | cons f fs ih =>
    rw [visitAll, if_pos hm] at h
    rcases List.mem_cons.mp h with rfl | h
    · rfl
    · exact ih _ h

/-- A function that replaces the matches of a global matcher is called with its cursor at the end of
the match at hand. -/
theorem calls_of_global (hm : m.global = true)
    (r : {s : Subject} → Match s → (cursor : Nat) → String × Nat) (fs : List (Match s)) :
    m.calls r fs cursor = fs.map fun f => (f, (r f f.byteStop).1) := by
  induction fs generalizing cursor with
  | nil => rfl
  | cons f fs ih =>
    rw [calls, if_pos hm, List.map_cons]
    exact congrArg _ (ih _)

end Callbacks

section Independence

theorem result_exec_withCursor (byte : Nat) (sticky : Bool) :
    ((m.withCursor cursor).exec s byte sticky).result = (m.exec s byte sticky).result := by
  rw [result_exec, result_exec]
  rfl

theorem result_matchScoped_withCursor (scope : Option MatchScope) :
    ((m.withCursor cursor).matchScoped s scope).result = (m.matchScoped s scope).result := by
  have hglobal : (m.withCursor cursor).global = m.global := rfl
  rw [matchScoped, matchScoped, hglobal, run_withCursor]
  split
  · exact congrArg (Except.map _) (result_exec_withCursor cursor 0 false)
  · dsimp only
    cases (m.run s).failure <;> rfl

/-- Neither the visited matches nor the texts in their place depend on the cursor. -/
theorem result_replace_withCursor (own : m.global = false → ¬r.Reads) (all : Bool) :
    ((m.withCursor cursor).replace s r all).result = (m.replace s r all).result := by
  have hwrite (f : Match s) (c c' : Nat) (unread : ¬r.Reads) :
      (r.write f c).map Prod.fst = (r.write f c').map Prod.fst := by
    cases r with
    | template text =>
      rw [Replacement.write, Replacement.write]
      cases Template.expand text f <;> rfl
    | function r => exact congrArg Except.ok (by_contra fun hne => unread ⟨s, f, c, c', hne⟩)
  have hsubstitute (fs : List (Match s)) (last c c' : Nat) :
      ((m.withCursor cursor).substitute r fs last c).1 = (m.substitute r fs last c').1 := by
    induction fs generalizing last c c' with
    | nil => rfl
    | cons f fs ih =>
      have hglobal : (m.withCursor cursor).global = m.global := rfl
      have hfirst : (r.write f (if m.global then f.byteStop else c)).map Prod.fst =
          (r.write f (if m.global then f.byteStop else c')).map Prod.fst := by
        cases hm : m.global with
        | true => rfl
        | false => exact hwrite f _ _ (own hm)
      rw [substitute, substitute, hglobal]
      cases hw : r.write f (if m.global then f.byteStop else c) with
      | error err =>
        cases hw' : r.write f (if m.global then f.byteStop else c') with
        | error err' =>
          rw [hw, hw'] at hfirst
          simp only [Except.error.inj hfirst]
        | ok => rw [hw, hw'] at hfirst; cases hfirst
      | ok answer =>
        cases hw' : r.write f (if m.global then f.byteStop else c') with
        | error err' => rw [hw, hw'] at hfirst; cases hfirst
        | ok answer' =>
          rw [hw, hw'] at hfirst
          simp only [show answer.1 = answer'.1 from Except.ok.inj hfirst,
            ih f.stop answer.2 answer'.2]
  have hrun : (if all then (m.withCursor cursor).run s else (m.withCursor cursor).runOnce s) =
      if all then m.run s else m.runOnce s := by
    rw [run_withCursor]
    rfl
  rw [result_replace, result_replace, hrun]
  exact congrArg (Except.bind · _) (hsubstitute _ 0 cursor m.cursor)

theorem found_forEach_withCursor (callback : Visit s → Nat) :
    ((m.withCursor cursor).forEach s callback).result.map (·.map (·.found)) =
      (m.forEach s callback).result.map (·.map (·.found)) := by
  rw [result_forEach, result_forEach, run_withCursor]

theorem split_withCursor (limit : Option Nat) :
    (m.withCursor cursor).split s limit = m.split s limit := by
  have hcut (enough : Nat → Bool) (i : Nat) (c : Cut) :
      (m.withCursor cursor).cutFrom s enough i c = m.cutFrom s enough i c := by
    have hsearch (i : Nat) : (m.withCursor cursor).searchAt s i false = m.searchAt s i false := rfl
    fun_induction cutFrom m s enough i c with
    | case1 i c hi err h => rw [cutFrom, dif_pos hi, hsearch, h]
    | case2 i c hi h => rw [cutFrom, dif_pos hi, hsearch, h]
    | case3 i c hi found hle h hlast more henough =>
      rw [cutFrom, dif_pos hi, hsearch, h]
      exact (if_pos hlast).trans (if_pos henough)
    | case4 i c hi found hle h hlast more henough ih =>
      rw [cutFrom, dif_pos hi, hsearch, h]
      exact (if_pos hlast).trans ((if_neg henough).trans ih)
    | case5 i c hi found hle h hlast ih =>
      rw [cutFrom, dif_pos hi, hsearch, h]
      exact (if_neg hlast).trans ih
    | case6 i c hi => rw [cutFrom, dif_neg hi]
  have hlast (c : Cut) : (m.withCursor cursor).lastPiece s c = m.lastPiece s c := rfl
  unfold split
  simp only [hcut, hlast]

end Independence

end Matcher

section Alike

variable {s : Subject} {r : Replacement} {values : List String}

/-- Needles that are the same but for the cursor of a matcher. -/
inductive Needle.Alike : Needle → Needle → Prop
  | text (t : String) : Alike (.text t) (.text t)
  | matcher (m : Matcher) (cursor : Nat) : Alike (.matcher m) (.matcher (m.withCursor cursor))

theorem Needle.Alike.result_replace {needle needle' : Needle} (h : needle.Alike needle')
    (own : ∀ m, needle = .matcher m → m.global = false → ¬r.Reads) (scope : Option ReplaceScope) :
    (replace s needle' r scope).result = (replace s needle r scope).result := by
  cases h with
  | text t => rfl
  | matcher m cursor => exact Matcher.result_replace_withCursor cursor (own m rfl) _

theorem Needle.Alike.split {needle needle' : Needle} (h : needle.Alike needle')
    (limit : Option Nat) : Patterns.split s needle' limit = Patterns.split s needle limit := by
  cases h with
  | text t => rfl
  | matcher m cursor => exact Matcher.split_withCursor cursor limit

/-- Steps that are the same but for the cursor of a matcher, where no function reads it unless the
matcher is global. -/
structure ReplaceStep.Alike (step step' : ReplaceStep) : Prop where
  needle : step.needle.Alike step'.needle
  replacement : step'.replacement = step.replacement
  scope : step'.scope = step.scope
  own : ∀ m, step.needle = .matcher m → m.global = false → ¬step.replacement.Reads

theorem result_replaceEach_alike {steps steps' : List ReplaceStep}
    (h : List.Forall₂ ReplaceStep.Alike steps steps') (text : String) :
    (replaceEach text steps').1 = (replaceEach text steps).1 := by
  induction h generalizing text with
  | nil => rfl
  | @cons step step' steps steps' first rest ih =>
    have hresult := first.needle.result_replace (s := .ofString text) first.own step.scope
    rw [replaceEach, replaceEach, first.replacement, first.scope]
    dsimp only
    rw [hresult]
    cases (replace (.ofString text) step.needle step.replacement step.scope).result with
    | error err => rfl
    | ok text => exact ih text

/-- Stages that are the same but for the cursor of the matcher. -/
def Stage.Alike (stage stage' : Stage) : Prop :=
  ∃ cursor, stage' = { stage with matcher := stage.matcher.withCursor cursor }

theorem Stage.Alike.apply {stage stage' : Stage} (h : stage.Alike stage') (values : List String) :
    stage'.apply values = stage.apply values := by
  obtain ⟨cursor, rfl⟩ := h
  induction values with
  | nil => rfl
  | cons value values ih =>
    have htexts : Stage.texts { stage with matcher := stage.matcher.withCursor cursor } value =
        stage.texts value := by
      unfold Stage.texts
      simp only [Matcher.run_withCursor]
    rw [Stage.apply, Stage.apply, htexts, ih]

theorem result_matchChain_alike {stages stages' : List Stage}
    (h : List.Forall₂ Stage.Alike stages stages') (text : String) :
    (matchChain text stages').1 = (matchChain text stages).1 := by
  have hruns : (runStages [text] stages').1 = (runStages [text] stages).1 := by
    generalize [text] = values
    induction h generalizing values with
    | nil => rfl
    | @cons stage stage' stages stages' first rest ih =>
      rw [runStages, runStages, first.apply]
      cases stage.apply values with
      | error err => rfl
      | ok texts =>
        cases texts with
        | nil => rfl
        | cons text texts => exact ih (text :: texts)
  cases h with
  | nil => rfl
  | cons => exact hruns

end Alike

namespace Delimiters

/-- Delimiters with other cursors. -/
def withCursors (d : Delimiters) (left right escape : Nat) : Delimiters :=
  { d with
    left := d.left.withCursor left, right := d.right.withCursor right
    escape := d.escape.map (·.withCursor escape) }

theorem segments_withCursors (d : Delimiters) (s : Subject) (left right escape : Nat) :
    (d.withCursors left right escape).segments s = d.segments s := by
  have hskip (i : Nat) : (d.withCursors left right escape).skipEscaped s i = d.skipEscaped s i := by
    rw [skipEscaped, skipEscaped, withCursors]
    cases d.escape <;> rfl
  have hturn (p : Pairing s) : (d.withCursors left right escape).turn p = d.turn p := by
    rw [turn, turn, seen, seen, hskip]
    rfl
  have hread (p : Pairing s) : (d.withCursors left right escape).read s p = d.read s p := by
    refine read_induction (motive := fun p =>
      (d.withCursors left right escape).read s p = d.read s p) d (fun p result hends => ?_)
      (fun p p' hgoes ih => ?_) p
    · rw [read_eq, read_eq d, hturn, hends]
    · rw [read_eq, read_eq d, hturn, hgoes]
      exact ih
  rw [segments, segments, hread]
  rfl

end Delimiters

namespace Engine

/-- The engines share the same matchers, maybe with other cursors. -/
def AlikeButCursors (g g' : Engine) : Prop :=
  ∀ h, (g'.stored? h).map (·.withCursor 0) = (g.stored? h).map (·.withCursor 0)

theorem AlikeButCursors.stored? {g g' : Engine} (alike : g.AlikeButCursors g') (h : Handle) :
    Option.Rel (fun m m' => ∃ cursor, m' = m.withCursor cursor) (g.stored? h) (g'.stored? h) := by
  have heq := alike h
  cases hm : g.stored? h with
  | none =>
    rw [hm, Option.map_none, Option.map_eq_none_iff] at heq
    rw [heq]
    exact .none
  | some m =>
    rw [hm, Option.map_some, Option.map_eq_some_iff] at heq
    obtain ⟨m', hm', heq⟩ := heq
    rw [hm']
    -- The two differ in nothing but the cursor, which is taken back.
    exact .some ⟨m'.cursor, (congrArg (·.withCursor m'.cursor) heq : m' = _)⟩

end Engine

namespace Use

variable {g g' : Engine} {h : Handle} {m : Matcher} {u : Use}

section Answers

theorem rel_map {α β : Type} {R : α → α → Prop} {R' : β → β → Prop} {x x' : Option α}
    {f f' : α → β} (h : Option.Rel R x x') (hf : ∀ a a', x = some a → R a a' → R' (f a) (f' a')) :
    Option.Rel R' (x.map f) (x'.map f') := by
  cases h with
  | none => exact .none
  | some hr => exact .some (hf _ _ rfl hr)

theorem rel_mapM {α β : Type} {R : β → β → Prop} {f f' : α → Option β} {xs : List α}
    (h : ∀ x ∈ xs, Option.Rel R (f x) (f' x)) :
    Option.Rel (List.Forall₂ R) (xs.mapM f) (xs.mapM f') := by
  induction xs with
  | nil => exact .some .nil
  | cons x xs ih =>
    have hx := h x List.mem_cons_self
    have hxs := ih fun y hy => h y (List.mem_cons_of_mem x hy)
    rw [List.mapM_cons, List.mapM_cons]
    generalize f x = y, f' x = y', xs.mapM f = ys, xs.mapM f' = ys' at hx hxs ⊢
    cases hx with
    | none => exact .none
    | some hy =>
      cases hxs with
      | none => exact .none
      | some hys => exact .some (.cons hy hys)

theorem rel_needle? (alike : g.AlikeButCursors g') (sought : Sought) :
    Option.Rel Needle.Alike (sought.needle? g) (sought.needle? g') := by
  cases sought with
  | text t => exact .some (.text t)
  | shared h =>
    refine rel_map (alike.stored? h) fun m m' _ hm => ?_
    obtain ⟨cursor, rfl⟩ := hm
    exact .matcher m cursor

theorem exists_of_needle? {sought : Sought} (hm : sought.needle? g = some (.matcher m)) :
    ∃ h, sought = .shared h ∧ g.stored? h = some m := by
  cases sought with
  | text t => cases hm
  | shared h =>
    obtain ⟨m', hm', heq⟩ := Option.map_eq_some_iff.mp hm
    exact ⟨h, rfl, hm'.trans (congrArg some (Needle.matcher.inj heq))⟩

theorem rel_step? (alike : g.AlikeButCursors g') {step : SharedStep}
    (own : ∀ h m, step.sought = .shared h → g.stored? h = some m → m.global = false →
      ¬step.replacement.Reads) :
    Option.Rel ReplaceStep.Alike (step.step? g) (step.step? g') := by
  refine rel_map (rel_needle? alike step.sought) fun needle needle' hneedle hneedles =>
    ⟨hneedles, rfl, rfl, ?_⟩
  rintro m rfl hlocal
  obtain ⟨h, hsought, hm⟩ := exists_of_needle? hneedle
  exact own h m hsought hm hlocal

theorem rel_stage? (alike : g.AlikeButCursors g') (stage : SharedStage) :
    Option.Rel Stage.Alike (stage.stage? g) (stage.stage? g') := by
  refine rel_map (alike.stored? stage.handle) fun m m' _ hm => ?_
  obtain ⟨cursor, rfl⟩ := hm
  exact ⟨cursor, rfl⟩

private theorem rel_answer {α β : Type} {R : α → α → Prop} {x x' : Option α}
    {f f' : α → β × Engine} (h : Option.Rel R x x')
    (same : ∀ a a', x = some a → R a a' → (f' a').1 = (f a).1) :
    (x'.map f').map Prod.fst = (x.map f).map Prod.fst := by
  cases h with
  | none => rfl
  | some hr => exact congrArg some (same _ _ rfl hr)

private theorem answer_of_conclude {α : Type} {o : Matcher → Outcome α}
    (alike : g.AlikeButCursors g')
    (same : ∀ m cursor, (o (Matcher.withCursor m cursor)).result = (o m).result) :
    ((g'.stored? h).map fun m => (Engine.conclude h (o m)).run.run g').map Prod.fst =
      ((g.stored? h).map fun m => (Engine.conclude h (o m)).run.run g).map Prod.fst := by
  refine rel_answer (alike.stored? h) fun m m' _ hm => ?_
  obtain ⟨cursor, rfl⟩ := hm
  exact same m cursor

/-- A search finds the same whatever the cursors are. -/
theorem answer_of_alike (alike : g.AlikeButCursors g') (search : u.IsSearch)
    (own : ∀ h m, g.stored? h = some m → m.global = false → ¬u.Reads h) :
    (u.run g').map Prod.fst = (u.run g).map Prod.fst := by
  cases u with
  | exec h s byte sticky =>
    exact answer_of_conclude alike fun m cursor => m.result_exec_withCursor cursor byte sticky
  | test h s byte sticky =>
    exact answer_of_conclude alike fun m cursor =>
      congrArg (Except.map _) (m.result_exec_withCursor cursor byte sticky)
  | matchScoped h s scope =>
    exact answer_of_conclude alike fun m cursor => m.result_matchScoped_withCursor cursor scope
  | forEach h s callback =>
    exact answer_of_conclude alike fun m cursor => m.found_forEach_withCursor cursor callback
  | replace s sought r scope =>
    refine rel_answer (rel_needle? alike sought) fun needle needle' hneedle hneedles => ?_
    simp only [Engine.run_concludeEach]
    refine hneedles.result_replace (fun m heq hlocal reads => ?_) scope
    subst heq
    obtain ⟨h, hsought, hm⟩ := exists_of_needle? hneedle
    exact own h m hm hlocal ⟨hsought, reads⟩
  | replaceEach text steps =>
    refine rel_answer (rel_mapM fun step hstep => rel_step? alike fun h m hsought hm hlocal reads =>
      own h m hm hlocal ⟨step, hstep, hsought, reads⟩) fun chain chain' _ hchain => ?_
    simp only [Engine.run_concludeEach]
    exact result_replaceEach_alike hchain text
  | split s sought limit =>
    exact rel_answer (rel_needle? alike sought) fun needle needle' _ hneedles =>
      hneedles.split limit
  | matchChain text stages =>
    refine rel_answer (rel_mapM fun stage _ => rel_stage? alike stage)
      fun chain chain' _ hchain => ?_
    simp only [Engine.run_concludeEach]
    exact result_matchChain_alike hchain text
  | recursiveTexts => exact search.elim
  | request r => exact search.elim

end Answers

section Global

variable {s : Subject}

private theorem exists_of_map_eq_ok {α β : Type} {a : Except Error α} {f : α → β} {b : β}
    (h : a.map f = .ok b) : ∃ c, a = .ok c ∧ f c = b := by
  cases a with
  | error err => cases h
  | ok c => exact ⟨c, rfl, Except.ok.inj h⟩

private theorem stored?_of_conclude_ok {α : Type} {o : Matcher → Outcome α} {a : Except Error α}
    (hrun : ((g.stored? h).map fun m => (Engine.conclude h (o m)).run.run g) = some (a, g'))
    (hm : g.stored? h = some m) :
    (o m).result = a ∧ g'.stored? h = some (m.withCursor (o m).cursor) := by
  obtain ⟨m', hm', rfl, rfl⟩ := exists_of_conclude hrun
  obtain rfl := Option.some.inj (hm'.symm.trans hm)
  exact ⟨rfl, Engine.stored?_moved_of_mem hm ⟨_, List.mem_singleton_self _, rfl⟩
    fun w hw _ => by rw [List.mem_singleton.mp hw]⟩

private theorem stored?_of_found {α : Type} {byte : Nat} {sticky : Bool}
    {f : Option (Match s) → α} {a : α}
    (hrun : ((g.stored? h).map fun m =>
      (Engine.conclude h ((m.exec s byte sticky).map f)).run.run g) = some (.ok a, g'))
    (hm : g.stored? h = some m) (hglobal : m.global = true) :
    ∃ found, m.searchFrom s byte (sticky || m.sticky) = .ok found ∧ a = f found ∧
      g'.stored? h = some (m.withCursor ((found.map (·.byteStop)).getD 0)) := by
  obtain ⟨hresult, hstored⟩ := stored?_of_conclude_ok hrun hm
  obtain ⟨found, hfound, rfl⟩ := exists_of_map_eq_ok hresult
  have hcursor : ((m.exec s byte sticky).map f).cursor = (found.map (·.byteStop)).getD 0 :=
    (Matcher.cursor_exec_ok hfound).trans (Matcher.settled_of_global hglobal _)
  rw [hcursor] at hstored
  exact ⟨found, (m.result_exec s byte sticky).symm.trans hfound, rfl, hstored⟩

theorem stored?_of_replaceEach {text t : String} {steps : List SharedStep}
    (hrun : (replaceEach text steps).run g = some (.ok t, g')) (hm : g.stored? h = some m)
    (hglobal : m.global = true) (names : ∃ step ∈ steps, step.sought = .shared h) :
    g'.stored? h = some (m.withCursor 0) := by
  obtain ⟨chain, hchain, hok, rfl⟩ := exists_of_replaceEach hrun
  obtain ⟨step, hstep, hsought⟩ := names
  obtain ⟨i, hi⟩ := List.mem_iff_getElem?.mp hstep
  have hpart : (steps.map (·.sought.handle?))[i]? = some (some h) := by
    rw [List.getElem?_map, hi, Option.map_some, hsought]
    rfl
  refine Engine.stored?_moved_writes_of_isSome hm hpart ?_ fun i hpart cursor hcursor => ?_
  · obtain ⟨_, _, _, hstep'⟩ := getElem?_step hchain hpart hm
    rw [isSome_getElem?, length_replaceEach hok.symm]
    exact (List.getElem?_eq_some_iff.mp hstep').1
  · obtain ⟨step, -, -, hstep⟩ := getElem?_step hchain hpart hm
    obtain ⟨step', hstep', s, rfl, hresult⟩ := exists_replaced hcursor
    obtain rfl := Option.some.inj (hstep.symm.trans hstep')
    obtain ⟨t', ht'⟩ := hresult t hok.symm
    exact Matcher.cursor_replace_ok hglobal ht'

/-- The chain comes to a stage with this handle: the stages before it, if any, found something. -/
def ComesTo (g : Engine) (text : String) (stages : List SharedStage) (h : Handle) : Prop :=
  ∃ i stage, stages[i]? = some stage ∧ stage.handle = h ∧ (i = 0 ∨
    ∃ texts g', (matchChain text (stages.take i)).run g = some (.ok texts, g') ∧ texts ≠ [])

private theorem comesTo_iff {text : String} {stages : List SharedStage} {chain : List Stage}
    {texts : List String} {i : Nat} {stage : SharedStage}
    (hchain : stages.mapM (SharedStage.stage? g) = some chain)
    (hok : (Patterns.matchChain text chain).1 = .ok texts) (hi : stages[i]? = some stage) :
    ((Patterns.matchChain text chain).2[i]?).isSome = true ↔ (i = 0 ∨
      ∃ texts g', (matchChain text (stages.take i)).run g = some (.ok texts, g') ∧ texts ≠ []) := by
  have hmap := mapM_eq_some_iff.mp hchain
  have hlt : i < chain.length := by
    have hlength := congrArg List.length hmap
    rw [List.length_map, List.length_map] at hlength
    rw [← hlength]
    exact (List.getElem?_eq_some_iff.mp hi).1
  have hne : chain ≠ [] := List.length_pos_iff.mp (Nat.zero_lt_of_lt hlt)
  rw [matchChain_eq hne] at hok ⊢
  rw [isSome_cursor_iff (List.cons_ne_nil text []) hok hlt]
  cases i with
  | zero => exact ⟨fun _ => .inl rfl, fun _ => ⟨[text], rfl, List.cons_ne_nil text []⟩⟩
  | succ i =>
    have hfront : (stages.take (i + 1)).mapM (SharedStage.stage? g) =
        some (chain.take (i + 1)) := by
      rw [mapM_eq_some_iff, List.map_take, hmap, List.map_take]
    have hne : chain.take (i + 1) ≠ [] := by
      rw [Ne, List.take_eq_nil_iff]
      rintro (h | h)
      · cases h
      · exact hne h
    have hrun := run_matchChain hfront text
    rw [matchChain_eq hne] at hrun
    rw [hrun]
    constructor
    · rintro ⟨found, hfound, hsome⟩
      exact .inr ⟨found, _, by rw [hfound], hsome⟩
    · rintro (h | ⟨found, g', hsome, hfound⟩)
      · cases h
      · exact ⟨found, congrArg Prod.fst (Option.some.inj hsome), hfound⟩

theorem stored?_of_matchChain {text : String} {texts : List String} {stages : List SharedStage}
    (hrun : (matchChain text stages).run g = some (.ok texts, g')) (hm : g.stored? h = some m) :
    (ComesTo g text stages h → m.global = true → g'.stored? h = some (m.withCursor 0)) ∧
      (¬ComesTo g text stages h → g'.stored? h = some m) := by
  obtain ⟨chain, hchain, hok, rfl⟩ := exists_of_matchChain hrun
  have hwrite {i : Nat} {cursor : Nat} (hpart : (stages.map (some ·.handle))[i]? = some (some h))
      (hcursor : (Patterns.matchChain text chain).2[i]? = some cursor) :
      cursor = m.settled 0 ∧ ComesTo g text stages h := by
    obtain ⟨stage, hi, hhandle, hstage⟩ := getElem?_stage hchain hpart hm
    have hran := (comesTo_iff hchain hok.symm hi).mp (by rw [hcursor]; rfl)
    have hne : chain ≠ [] := by
      rintro rfl
      simp at hstage
    rw [matchChain_eq hne] at hcursor
    obtain ⟨stage', hstage', rfl⟩ := exists_stage hcursor
    obtain rfl := Option.some.inj (hstage.symm.trans hstage')
    exact ⟨rfl, i, stage, hi, hhandle, hran⟩
  constructor
  · rintro ⟨i, stage, hi, rfl, hran⟩ hglobal
    have hpart : (stages.map (some ·.handle))[i]? = some (some stage.handle) := by
      rw [List.getElem?_map, hi]
      rfl
    exact Engine.stored?_moved_writes_of_isSome hm hpart
      ((comesTo_iff hchain hok.symm hi).mpr hran) fun j hpart cursor hcursor =>
        (hwrite hpart hcursor).1.trans (Matcher.settled_of_global hglobal 0)
  · intro hcomes
    exact Engine.stored?_moved_writes hm fun i hpart cursor hcursor =>
      absurd (hwrite hpart hcursor).2 hcomes

end Global

/-- Whether they succeed or fail, uses leave alone the cursors of the matchers that they are not
given, and of those that are not global: only a callback or a function of the caller moves such a
cursor, and it stays where the last call left it. Splitting, compiling and reading delimiters leave
all cursors alone. A use that succeeds leaves the cursor of a global matcher at the end of what it
found or at 0, and a chain leaves 0 with the matchers of the stages that it came to. While the
matches of a global matcher are visited or replaced, its cursor stands at the end of the match at
hand. What is found depends on no cursor. -/
theorem cursor_discipline (g : Engine) :
    (∀ us g', runAll g us = some g' → ∀ h m, g.stored? h = some m → m.global = false →
      (∀ u ∈ us, ¬u.Moves h) → g'.stored? h = some m) ∧
    (∀ m : Matcher, m.global = false →
      (∀ (s : Subject) (callback : Visit s → Nat),
        (m.forEach s callback).cursor = (m.run s).found.zipIdx.foldl
          (fun cursor visited => callback ⟨visited.1, visited.2, cursor⟩) m.cursor) ∧
      ∀ (s : Subject) (r : {s : Subject} → Match s → (cursor : Nat) → String × Nat) (all : Bool),
        (m.replace s (.function r) all).cursor = (if all then m.run s else m.runOnce s).found.foldl
          (fun cursor f => (r f cursor).2) m.cursor) ∧
    (∀ (u : Use) (a : Except Error u.Answer) g', u.run g = some (a, g') →
      ∀ h m, g.stored? h = some m → u.IsStill ∨ ¬u.Names h → g'.stored? h = some m) ∧
    (∀ h m, g.stored? h = some m → m.global = true →
      (∀ s byte sticky (found : Option (Match s)) g',
        (exec h s byte sticky).run g = some (.ok found, g') →
        g'.stored? h = some (m.withCursor ((found.map (·.byteStop)).getD 0))) ∧
      (∀ s byte sticky (b : Bool) g', (test h s byte sticky).run g = some (.ok b, g') →
        ∃ found, m.searchFrom s byte (sticky || m.sticky) = .ok found ∧ b = found.isSome ∧
          g'.stored? h = some (m.withCursor ((found.map (·.byteStop)).getD 0))) ∧
      (∀ s (a : Matched) g', (matchScoped h s (some .one)).run g = some (.ok a, g') →
        ∃ found, m.searchFrom s 0 m.sticky = .ok found ∧ a = .one (found.map (·.text)) ∧
          g'.stored? h = some (m.withCursor ((found.map (·.byteStop)).getD 0))) ∧
      (∀ s scope (a : Matched) g', (matchScoped h s scope).run g = some (.ok a, g') →
        scope ≠ some .one → g'.stored? h = some (m.withCursor 0)) ∧
      (∀ s callback (found : List (Match s)) g',
        (forEach h s callback).run g = some (.ok found, g') →
        g'.stored? h = some (m.withCursor 0)) ∧
      (∀ s r scope (t : String) g', (replace s (.shared h) r scope).run g = some (.ok t, g') →
        g'.stored? h = some (m.withCursor 0)) ∧
      (∀ text steps (t : String) g', (replaceEach text steps).run g = some (.ok t, g') →
        (∃ step ∈ steps, step.sought = .shared h) → g'.stored? h = some (m.withCursor 0))) ∧
    (∀ text stages (texts : List String) g',
      (matchChain text stages).run g = some (.ok texts, g') → ∀ h m, g.stored? h = some m →
        (ComesTo g text stages h → m.global = true → g'.stored? h = some (m.withCursor 0)) ∧
        (¬ComesTo g text stages h → g'.stored? h = some m)) ∧
    (∀ m : Matcher, m.global = true →
      (∀ (s : Subject) (callback : Visit s → Nat) (fs : List (Match s)) (ordinal cursor : Nat),
        ∀ visit ∈ (m.visitAll callback fs ordinal cursor).1, visit.cursor = visit.found.byteStop) ∧
      ∀ (s : Subject) (r : {s : Subject} → Match s → (cursor : Nat) → String × Nat) (all : Bool),
        let run := if all then m.run s else m.runOnce s
        (m.replace s (.function r) all).result = run.answer (Matcher.rewriteFrom s 0
          (run.found.map fun f => (f, (r f f.byteStop).1)))) ∧
    (∀ g' (u : Use), g.AlikeButCursors g' → u.IsSearch →
      (∀ h m, g.stored? h = some m → m.global = false → ¬u.Reads h) →
      (u.run g').map Prod.fst = (u.run g).map Prod.fst) ∧
    ∀ (d : Delimiters) s left right escape,
      (d.withCursors left right escape).segments s = d.segments s := by
  refine ⟨fun us g' hrun h m hm hlocal hmoves => stored?_of_runAll hrun hm hlocal hmoves,
    fun m hlocal => ⟨fun s => Matcher.cursor_forEach hlocal,
      fun s r => Matcher.cursor_replace_function hlocal r⟩,
    fun u a g' hrun h m hm kept => stored?_of_run hrun hm (kept.elim (.inr ∘ .inr) .inl),
    fun h m hm hglobal => ⟨?_, ?_, ?_, ?_, ?_, ?_, ?_⟩,
    fun text stages texts g' hrun h m hm => stored?_of_matchChain hrun hm,
    fun m hglobal => ⟨fun s callback fs ordinal cursor visit hvisit =>
      Matcher.cursor_of_mem_visitAll cursor hglobal hvisit, fun s r all => ?_⟩,
    fun g' u alike search own => answer_of_alike alike search own,
    fun d s left right escape => d.segments_withCursors s left right escape⟩
  · intro s byte sticky found g' hrun
    obtain ⟨hresult, hstored⟩ := stored?_of_conclude_ok hrun hm
    rw [hstored, Matcher.cursor_exec_ok hresult, Matcher.settled_of_global hglobal]
  · exact fun s byte sticky b g' hrun => stored?_of_found hrun hm hglobal
  · exact fun s a g' hrun => stored?_of_found hrun hm hglobal
  · intro s scope a g' hrun hscope
    obtain ⟨hresult, hstored⟩ := stored?_of_conclude_ok hrun hm
    rw [hstored, Matcher.cursor_matchScoped_all hglobal hscope hresult]
  · intro s callback found g' hrun
    obtain ⟨hresult, hstored⟩ := stored?_of_conclude_ok hrun hm
    obtain ⟨visits, hvisits, -⟩ := exists_of_map_eq_ok hresult
    rw [hstored]
    exact congrArg (fun cursor => some (m.withCursor cursor))
      (Matcher.cursor_forEach_ok hglobal hvisits)
  · intro s r scope t g' hrun
    obtain ⟨needle, hneedle, hresult, rfl⟩ := exists_of_replace hrun
    rw [needle?_shared hm] at hneedle
    obtain rfl := Option.some.inj hneedle
    exact Engine.stored?_moved_of_mem hm ⟨_, List.mem_singleton_self _, rfl⟩ fun w hw _ => by
      rw [List.mem_singleton.mp hw]
      exact Matcher.cursor_replace_ok hglobal hresult.symm
  · intro text steps t g' hrun names
    exact stored?_of_replaceEach hrun hm hglobal names
  · intro run
    rw [Matcher.result_replace_function r all, Matcher.calls_of_global _ hglobal]

/-- What the matcher of the text `a` finds in it, and another matcher does not. -/
private theorem exists_letters :
    ∃ a b : Matcher, Matcher.plain "a" "g" = .ok a ∧ Matcher.plain "b" "" = .ok b ∧
      a.global = true ∧ b.global = false ∧
      Stage.apply ⟨a.withCursor 5, .whole⟩ ["a"] = .ok ["a"] ∧
      Stage.apply ⟨b.withCursor 7, .whole⟩ ["a"] = .ok [] ∧
      ∃ f, a.searchFrom (.ofString "éa") 0 a.sticky = .ok (some f) ∧ f.byteStop = 3 := by
  obtain ⟨a, ha, hsource, hflags⟩ :=
    Matcher.exists_plain "a" "g" ⟨true, false, false, false⟩ rfl (by decide +kernel)
  obtain ⟨b, hb, hsource', hflags'⟩ := Matcher.exists_plain "b" "" {} rfl (by decide +kernel)
  have hsticky : a.sticky = false := by rw [Matcher.sticky, hflags]
  have hsticky' : b.sticky = false := by rw [Matcher.sticky, hflags']
  obtain ⟨f, hf, hstart, hstop⟩ : ∃ f, a.find (.ofString "a") 0 false = .ok (some f) ∧
      f.start = 0 ∧ f.stop = 1 :=
    Matcher.exists_find_of_search (by rw [hsource, hflags]; decide +kernel)
  obtain ⟨f', hf', hstart', hstop'⟩ : ∃ f, a.find (.ofString "éa") 0 false = .ok (some f) ∧
      f.start = 1 ∧ f.stop = 2 :=
    Matcher.exists_find_of_search (by rw [hsource, hflags]; decide +kernel)
  have finds : a.FindsFirst (.ofString "a") (a.anchoring _) :=
    Matcher.findsFirst_of_search (by rw [hsource, hflags]; decide +kernel)
  have finds' : b.FindsFirst (.ofString "a") (b.anchoring _) :=
    Matcher.findsFirst_of_search (by rw [hsource', hflags']; decide +kernel)
  have hend : a.find (.ofString "a") 1 false = .ok none := by
    rw [finds.find_eq, Anchoring.first_of_none (Matcher.anchoring_eq_none_of_search
      (by rw [hsource, hflags]; decide +kernel)), Anchoring.first_of_size_lt (by decide)]
  have hnone : b.find (.ofString "a") 0 false = .ok none := by
    rw [finds'.find_eq, Anchoring.first_of_none (Matcher.anchoring_eq_none_of_search
      (by rw [hsource', hflags']; decide +kernel)), Anchoring.first_of_none
      (Matcher.anchoring_eq_none_of_search (by rw [hsource', hflags']; decide +kernel)),
      Anchoring.first_of_size_lt (by decide)]
  have hrun : a.run (.ofString "a") = ⟨[f], none⟩ := by
    rw [Matcher.run, Matcher.runFrom_of_some (by rw [hsticky, hf]) (Nat.zero_le _),
      Matcher.resume_eq, hstart, hstop, Matcher.runFrom_of_none (by rw [hsticky]; exact hend)]
    rfl
  have hrun' : b.run (.ofString "a") = ⟨[], none⟩ :=
    Matcher.runFrom_of_none (by rw [hsticky', hnone])
  have htext : f.text = "a" := by
    rw [Match.text, hstart, hstop]
    decide
  refine ⟨a, b, ha, hb, by rw [Matcher.global, hflags], by rw [Matcher.global, hflags'], ?_, ?_,
    f', ?_, ?_⟩
  · rw [Stage.apply, Stage.texts, Matcher.run_withCursor, hrun]
    exact congrArg (fun text => Except.ok [text]) htext
  · rw [Stage.apply, Stage.texts, Matcher.run_withCursor, hrun']
    rfl
  · have hceil : (Subject.ofString "éa").ceil? 0 = some 0 := by cbv
    rw [hsticky, Matcher.searchFrom, if_neg (by decide), hceil]
    exact hf'
  · rw [Match.byteStop, hstop']
    decide

/-- A chain that comes to a shared matcher twice and finds nothing in the end, and then a search
whose match ends at the third byte. -/
theorem cursor_discipline_shared :
    ∃ (a b : Matcher) (g g' g'' : Engine) (found : Option (Match (.ofString "éa"))),
      Matcher.plain "a" "g" = .ok a ∧ Matcher.plain "b" "" = .ok b ∧
      g.stored? ⟨0⟩ = some (a.withCursor 5) ∧ g.stored? ⟨1⟩ = some (b.withCursor 7) ∧
      (matchChain "a" [⟨⟨0⟩, .whole⟩, ⟨⟨0⟩, .whole⟩, ⟨⟨1⟩, .whole⟩]).run g = some (.ok [], g') ∧
      g'.stored? ⟨0⟩ = some (a.withCursor 0) ∧ g'.stored? ⟨1⟩ = some (b.withCursor 7) ∧
      (exec ⟨0⟩ (.ofString "éa") 0 false).run g' = some (.ok found, g'') ∧
      g''.stored? ⟨0⟩ = some (a.withCursor 3) := by
  obtain ⟨a, b, ha, hb, hglobal, hlocal, happly, happly', f, hf, hstop⟩ := exists_letters
  let g : Engine := { store := #[a.withCursor 5, b.withCursor 7] }
  let stages : List SharedStage := [⟨⟨0⟩, .whole⟩, ⟨⟨0⟩, .whole⟩, ⟨⟨1⟩, .whole⟩]
  obtain ⟨g', hchain⟩ : ∃ g', (matchChain "a" stages).run g = some (.ok [], g') := by
    have hstages : stages.mapM (SharedStage.stage? g) = some
        [⟨a.withCursor 5, .whole⟩, ⟨a.withCursor 5, .whole⟩, ⟨b.withCursor 7, .whole⟩] := rfl
    refine ⟨_, (run_matchChain hstages "a").trans (congrArg some (Prod.ext ?_ rfl))⟩
    simp only [Patterns.matchChain, runStages, happly, happly']
  obtain ⟨hkept, -, -, -, hchains, -⟩ := cursor_discipline g
  have hg' : g'.stored? ⟨0⟩ = some (a.withCursor 0) :=
    (hchains "a" stages [] g' hchain ⟨0⟩ (a.withCursor 5) rfl).1 ⟨0, _, rfl, rfl, .inl rfl⟩ hglobal
  have hb' : g'.stored? ⟨1⟩ = some (b.withCursor 7) :=
    hkept [matchChain "a" stages] g' (by rw [runAll, hchain]; rfl) ⟨1⟩ (b.withCursor 7) rfl hlocal
      (by simp [Moves])
  obtain ⟨g'', hexec⟩ : ∃ g'', (exec ⟨0⟩ (.ofString "éa") 0 false).run g' =
      some (.ok (some f), g'') := by
    have hrun : (exec ⟨0⟩ (.ofString "éa") 0 false).run g' = (g'.stored? ⟨0⟩).map fun m =>
        (Engine.conclude ⟨0⟩ (m.exec (.ofString "éa") 0 false)).run.run g' := rfl
    rw [hrun, hg']
    exact ⟨_, congrArg some (Prod.ext ((Matcher.result_exec _ _ _ _).trans hf) rfl)⟩
  have hleft := ((cursor_discipline g').2.2.2.1 ⟨0⟩ (a.withCursor 0) hg' hglobal).1
    (.ofString "éa") 0 false (some f) g'' hexec
  rw [Option.map_some, Option.getD_some, hstop] at hleft
  exact ⟨a, b, g, g', g'', some f, ha, hb, rfl, rfl, hchain, hg', hb', hexec, hleft⟩

end Use

end Patterns
