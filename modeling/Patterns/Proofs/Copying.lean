import Patterns.Proofs.Caching
import Patterns.Proofs.Recompilation

/-!
# Copying matchers

A copy is compiled again from the recorded pattern and flags. These say all that the first
compilation used, but for the subpatterns of `build`: a copy of a matcher whose pattern refers to
one is another matcher.
-/
namespace Patterns
open Patterns.Text Patterns.Extended

section Flags

theorem parsePlain_toString (f : PlainFlags) :
    Flags.parsePlain (Flags.adjust f.toString "" "") = .ok f := by
  obtain ⟨g, i, m, y⟩ := f
  cases g <;> cases i <;> cases m <;> cases y <;> rfl

theorem parsePlain_toString_global (f : PlainFlags) :
    Flags.parsePlain (Flags.adjust f.toString "g" "") = .ok { f with global := true } := by
  obtain ⟨g, i, m, y⟩ := f
  cases g <;> cases i <;> cases m <;> cases y <;> rfl

theorem Flags.adjust_global {f : String} (h : f.toList.Nodup) :
    Flags.adjust f "g" "" = if 'g' ∈ f.toList then f else f ++ "g" := by
  have hadjust := Flags.toList_adjust_add h 'g'
  split
  · next hg => exact String.ext (by rw [← hadjust.trans (if_pos hg)]; rfl)
  · next hg =>
    refine String.ext ?_
    rw [String.toList_append]
    exact hadjust.trans (if_neg hg)

end Flags

section Compilation

variable {d : Dialect} {w w' : Surroundings} {limit : Nat} {p f : String}
  {subpatterns : Option Subpatterns} {m : Matcher}

/-- What the origin of a matcher becomes when it gets the global flag. -/
def Origin.globalized : Origin → Origin
  | .plain => .plain
  | .extended p f => .extended p (if 'g' ∈ f.toList then f else f ++ "g")

/-- The copy has a new cursor and the global flag; the flag is recorded too. Everything else is as
before. -/
structure Matcher.Globalizes (m m' : Matcher) : Prop where
  source : m'.source = m.source
  flags : m'.flags = { m.flags with global := true }
  names : m'.names = m.names
  origin : m'.origin = m.origin.globalized
  cursor : m'.cursor = 0

/-- Which flags an error names does not matter where there is none. -/
theorem Matcher.build_shown {source shown : String} (shown' : String) {flags : PlainFlags}
    {origin : Origin} {names : Plain.Regex → Except Error Groups}
    (h : build source shown flags origin names = .ok m) :
    build source shown' flags origin names = .ok m := by
  unfold build at h ⊢
  split at h
  · cases h
  · exact h

theorem Matcher.plain_eq_ok_iff {source flags : String} :
    plain source flags = .ok m ↔ ∃ fl, Flags.parsePlain flags = .ok fl ∧
      build source flags fl .plain (fun body => .ok body.names) = .ok m := by
  unfold plain
  cases Flags.parsePlain flags with
  | error err => simp [bind, Except.bind]
  | ok fl => simp [bind, Except.bind]

/-- The global flag does not change what the host makes of a pattern. -/
theorem Matcher.exists_build_global {source shown : String} (shown' : String) {flags : PlainFlags}
    {origin : Origin} (origin' : Origin) {names : Plain.Regex → Except Error Groups}
    (h : build source shown flags origin names = .ok m) :
    ∃ m', build source shown' { flags with global := true } origin' names = .ok m' ∧
      m'.source = source ∧ m'.flags = { flags with global := true } ∧ m'.names = m.names ∧
      m'.origin = origin' ∧ m'.cursor = 0 := by
  obtain ⟨hsource, hflags, -, -, hnames⟩ := eq_of_build h
  have hbody : compilePlain? source { flags with global := true } = some m.body := by
    rw [← hsource, ← hflags]
    exact m.body_eq
  obtain ⟨m', hm', -, -, hbody'⟩ : ∃ m', build source shown' { flags with global := true } origin'
      names = .ok m' ∧ _ := exists_build shown' hbody hnames
  obtain ⟨hsource', hflags', horigin', hcursor', hnames'⟩ := eq_of_build hm'
  rw [hbody', hnames] at hnames'
  exact ⟨m', hm', hsource', hflags', (Except.ok.inj hnames').symm, horigin', hcursor'⟩

theorem Matcher.plain_again {source flags : String} (h : plain source flags = .ok m) :
    m.origin = .plain ∧ m.cursor = 0 ∧
      plain m.source (Flags.adjust m.flags.toString "" "") = .ok m ∧
      ∃ m', plain m.source (Flags.adjust m.flags.toString "g" "") = .ok m' ∧ m.Globalizes m' := by
  obtain ⟨fl, -, hbuild⟩ := plain_eq_ok_iff.mp h
  obtain ⟨hsource, hflags, horigin, hcursor, -⟩ := eq_of_build hbuild
  rw [hsource, hflags]
  refine ⟨horigin, hcursor, plain_eq_ok_iff.mpr ⟨fl, parsePlain_toString fl, build_shown _ hbuild⟩,
    ?_⟩
  obtain ⟨m', hm', hsource', hflags', hnames', horigin', hcursor'⟩ :=
    exists_build_global (Flags.adjust fl.toString "g" "") .plain hbuild
  exact ⟨m', plain_eq_ok_iff.mpr ⟨_, parsePlain_toString_global fl, hm'⟩,
    hsource'.trans hsource.symm, by rw [hflags', hflags], hnames', by rw [horigin', horigin]; rfl,
    hcursor'⟩

/-- The flags of a context with the global one. -/
theorem ofList_of_globalized {c c' : Context} (h : c.Globalized c') :
    PlainFlags.ofList c'.flags = { PlainFlags.ofList c.flags with global := true } := by
  have hflag : ∀ flag, c'.flags.contains flag = (c.flags.contains flag || flag == 'g') := h.hasFlag
  simp only [PlainFlags.ofList, hflag]
  simp

theorem globalized_ofFlags (hf : f.toList.Nodup) :
    (Context.ofFlags f).Globalized (.ofFlags (Flags.adjust f "g" "")) := by
  refine ⟨rfl, fun flag => ?_⟩
  rw [Flags.adjust_global hf]
  split
  · next hg =>
    by_cases h : flag = 'g'
    · simp [h, Context.hasFlag, Context.ofFlags, hg]
    · simp [h]
  · simp [Context.hasFlag, Context.ofFlags, beq_eq_decide]

/-- What was compiled without a reference to a subpattern is compiled again to the same. -/
theorem compile_again (h : Extended.compile d w limit p f subpatterns = .ok m)
    (follows : d.Follows w w' Eq)
    (bare : ¬(⟨d, w, subpatterns, p⟩ : Setting).ReadsReference (.ofFlags f)) :
    Extended.compile d w' limit p (Flags.adjust f "" "") none = .ok m := by
  obtain ⟨hv, out, c, hplain, hm⟩ := compile_eq_ok_iff.mp h
  obtain ⟨_, hagain, rfl⟩ := toPlain_again Context.isCongruence_eq follows rfl bare hplain
  rw [Flags.adjust_self (Flags.validate_eq_ok_iff.mp hv).1]
  exact compile_eq_ok_iff.mpr ⟨hv, out, c, hagain, hm⟩

theorem validate_global {custom : List Char} (h : Flags.validate custom f = .ok ()) :
    Flags.validate custom (Flags.adjust f "g" "") = .ok () := by
  obtain ⟨hnodup, hknown⟩ := Flags.validate_eq_ok_iff.mp h
  rw [Flags.adjust_global hnodup]
  split
  · exact h
  · next hg =>
    refine Flags.validate_eq_ok_iff.mpr ⟨?_, fun c hc => ?_⟩
    · simpa [List.nodup_append, hnodup] using fun c hc (h : c = 'g') => hg (h ▸ hc)
    · rcases List.mem_append.mp (String.toList_append ▸ hc) with hc | hc
      · exact hknown c hc
      · obtain rfl : c = 'g' := by simpa using hc
        rfl

theorem compile_global (h : Extended.compile d w limit p f subpatterns = .ok m)
    (follows : d.Follows w w' Context.Globalized)
    (bare : ¬(⟨d, w, subpatterns, p⟩ : Setting).ReadsReference (.ofFlags f)) :
    ∃ m', Extended.compile d w' limit p (Flags.adjust f "g" "") none = .ok m' ∧
      m.Globalizes m' := by
  obtain ⟨hv, out, c, hplain, hm⟩ := compile_eq_ok_iff.mp h
  have hnodup := (Flags.validate_eq_ok_iff.mp hv).1
  obtain ⟨c', hagain, hc'⟩ := toPlain_again Context.isCongruence_globalized follows
    (globalized_ofFlags hnodup) bare hplain
  obtain ⟨hsource, hflags, horigin, -, -⟩ := Matcher.eq_of_build hm
  obtain ⟨m', hm', hsource', hflags', hnames', horigin', hcursor'⟩ :=
    Matcher.exists_build_global (Flags.adjust f "g" "")
      (.extended p (Flags.adjust f "g" "")) hm
  refine ⟨m', compile_eq_ok_iff.mpr ⟨validate_global hv, out, c', hagain, ?_⟩,
    hsource'.trans hsource.symm, by rw [hflags', hflags], hnames', ?_, hcursor'⟩
  · rw [Matcher.ofCompiled, ofList_of_globalized hc', hc'.groups]
    exact hm'
  · rw [horigin', horigin, Flags.adjust_global hnodup]
    rfl

end Compilation

namespace Engine

variable {g g₀ : Engine} {rs : List Request} {p f : String} {m : Matcher}
  {subpatterns : Option Subpatterns}

section Origins

/-- A matcher that was made without an engine, or that the engine compiles. -/
inductive Makes (g : Engine) : Option Subpatterns → Matcher → Prop
  | plain {source flags : String} {m : Matcher} (made : Matcher.plain source flags = .ok m) :
    Makes g none m
  | compiled {p f : String} {subpatterns : Option Subpatterns} {m : Matcher}
    (made : Extended.compile g.dialect g.surroundings g.reparseLimit p f subpatterns = .ok m) :
    Makes g subpatterns m

/-- `Obtained rs g subpatterns m`: after the requests `rs` a caller can have the matcher `m`, which
the engine `g` made when the caller asked for it. What the cache gave later is the matcher that it
gave first. -/
inductive Obtained : List Request → Engine → Option Subpatterns → Matcher → Prop
  | plain {rs : List Request} {source flags : String} {m : Matcher}
    (made : Matcher.plain source flags = .ok m) : Obtained rs (after rs) none m
  | compiled {rs : List Request} {p f : String} {m : Matcher}
    (made : ((compile p f).run.run (after rs)).1 = .ok m) : Obtained rs (after rs) none m
  | cached {rs : List Request} {p f : String} {h : Handle} {m : Matcher}
    (miss : (after rs).cachedHandle? p f = none)
    (made : ((cache p f).run.run (after rs)).1 = .ok h)
    (found : (after (rs ++ [.cache p f])).stored? h = some m) :
    Obtained (rs ++ [.cache p f]) (after rs) none m
  | joined {rs : List Request} {parts : List Needle} {f : String} {conjunction : Conjunction}
    {m : Matcher} (made : ((union parts f conjunction).run.run (after rs)).1 = .ok m) :
    Obtained rs (after rs) none m
  | built {rs : List Request} {p f : String} {subpatterns : List (String × Needle)} {m : Matcher}
    (made : ((build p subpatterns f).run.run (after rs)).1 = .ok m) :
    Obtained rs (after rs)
      (some (subpatterns.map fun (name, sub) => (name, subpatternText sub)).reverse) m
  | copied {rs : List Request} {add remove : String} {m₀ m : Matcher}
    (made : ((copy m₀ add remove).run.run (after rs)).1 = .ok m) : Obtained rs (after rs) none m
  | globalized {rs : List Request} {m₀ m : Matcher}
    (made : ((globalize m₀).run.run (after rs)).1 = .ok m) : Obtained rs (after rs) none m
  | later {rs : List Request} {g : Engine} {subpatterns : Option Subpatterns} {m : Matcher}
    (more : List Request) (cursor : Nat) (obtained : Obtained rs g subpatterns m) :
    Obtained (rs ++ more) g subpatterns (m.withCursor cursor)

theorem makes_of_union (idle : g.compiling = false) {parts : List Needle}
    {conjunction : Conjunction} (h : ((union parts f conjunction).run.run g).1 = .ok m) :
    g.Makes none m := by
  cases parts with
  | nil => cases h
  | cons part parts =>
    obtain ⟨lines, hlines⟩ := (writes_unionParts 0 (part :: parts)).exists_lines g
    rw [union_eq (List.cons_ne_nil part parts), run_bind] at h
    cases hrun : (unionParts 0 (part :: parts)).run.run g with
    | mk texts g' =>
      rw [hrun] at h hlines
      obtain rfl : g' = g.written lines := hlines
      cases texts with
      | error err => cases h
      | ok texts => exact .compiled (compile_of_run (g := g.written lines) idle h)

theorem makes_of_copy (idle : g.compiling = false) {m₀ : Matcher} {add remove : String}
    (h : ((copy m₀ add remove).run.run g).1 = .ok m) : g.Makes none m := by
  unfold copy at h
  split at h
  · exact .compiled (compile_of_run idle h)
  · exact .plain h

theorem Obtained.exists_makes (obtained : Obtained rs g subpatterns m) :
    ∃ m₀ cursor, g.Makes subpatterns m₀ ∧ m = m₀.withCursor cursor := by
  induction obtained with
  | plain made => exact ⟨_, _, .plain made, rfl⟩
  | compiled made => exact ⟨_, _, .compiled (compile_of_run (compiling_after _) made), rfl⟩
  | @cached rs p f h m miss made found =>
    obtain ⟨lines, hmiss⟩ := exists_run_cache_miss (compiling_after rs) miss
    rw [after_concat, step, Request.perform, run_asked, hmiss] at found
    rw [hmiss] at made
    split at made
    · cases made
    · next m' hm' =>
      obtain rfl := Except.ok.inj made
      have hstored : some m' = some m := by
        rw [← found]
        simp [stored?, written, stored, hm']
      exact ⟨m', m'.cursor, .compiled hm', (Option.some.inj hstored).symm⟩
  | joined made => exact ⟨_, _, makes_of_union (compiling_after _) made, rfl⟩
  | built made => exact ⟨_, _, .compiled (compile_of_run (compiling_after _) made), rfl⟩
  | copied made => exact ⟨_, _, makes_of_copy (compiling_after _) made, rfl⟩
  | globalized made => exact ⟨_, _, makes_of_copy (compiling_after _) made, rfl⟩
  | later more cursor _ ih =>
    obtain ⟨m₀, _, made, rfl⟩ := ih
    exact ⟨m₀, cursor, made, rfl⟩

private theorem exists_obtained_of_mem (rs : List Request) :
    ∀ e ∈ (after rs).cached, ∃ m g, (after rs).stored? e.2 = some m ∧ Obtained rs g none m := by
  refine after_induction (P := fun rs => ∀ e ∈ (after rs).cached,
      ∃ m g, (after rs).stored? e.2 = some m ∧ Obtained rs g none m)
    (by simp) (fun rs r lines ih hafter => ?_) (fun rs r g' lines ih hchanges hafter => ?_) rs
  · rw [hafter]
    intro e he
    obtain ⟨m, g, hm, obtained⟩ := ih e he
    exact ⟨m, g, hm, obtained.later [r] m.cursor⟩
  · have older : ∀ e ∈ (after rs).cached,
        ∃ m g, g'.stored? e.2 = some m ∧ Obtained (rs ++ [r]) g none m := by
      intro e he
      obtain ⟨m, g, hm, obtained⟩ := ih e he
      obtain ⟨cursor, hm'⟩ := hchanges.stored? hm
      exact ⟨_, g, hm', obtained.later [r] cursor⟩
    rw [hafter]
    cases hchanges with
    | @stored p f m miss hm =>
      have hstored : ((after rs).stored p f m).stored? ⟨(after rs).store.size⟩ = some m := by
        simp [stored?, stored]
      refine List.forall_mem_cons.mpr ⟨⟨m, after rs, hstored, ?_⟩, older⟩
      obtain ⟨lines', hmiss⟩ := exists_run_cache_miss (compiling_after rs) miss
      rw [hm] at hmiss
      exact .cached miss (congrArg Prod.fst hmiss) (by rw [hafter]; exact hstored)
    | flushed => exact fun e he => absurd he List.not_mem_nil
    | _ => exact older

/-- What the cache gives was obtained when it was stored. -/
theorem exists_obtained_of_cache {h : Handle}
    (hrun : ((cache p f).run.run (after rs)).1 = .ok h) :
    ∃ m g, (after (rs ++ [.cache p f])).stored? h = some m ∧
      Obtained (rs ++ [.cache p f]) g none m := by
  have hit := cachedHandle?_of_run_cache (compiling_after rs) hrun
  rw [← after_concat] at hit
  exact exists_obtained_of_mem _ _ (mem_of_cachedHandle? hit)

end Origins

section Copies

/-- The reading of the recorded pattern comes to the name of a subpattern. -/
def Refers (g : Engine) (subpatterns : Option Subpatterns) (m : Matcher) : Prop :=
  ∃ p f, m.origin = .extended p f ∧
    Setting.ReadsReference ⟨g.dialect, g.surroundings, subpatterns, p⟩ (.ofFlags f)

theorem copy_plain (h : m.origin = .plain) (add remove : String) :
    copy m add remove =
      ExceptT.mk (pure (Matcher.plain m.source (Flags.adjust m.flags.toString add remove))) := by
  unfold copy
  rw [h]

theorem copy_extended (h : m.origin = .extended p f) (add remove : String) :
    copy m add remove = compile p (Flags.adjust f add remove) := by
  unfold copy
  rw [h]

theorem Makes.cursor_eq (made : g₀.Makes subpatterns m) : m.cursor = 0 := by
  cases made with
  | plain made => exact (Matcher.plain_again made).2.1
  | compiled made =>
    obtain ⟨-, _, _, -, hbuild⟩ := compile_eq_ok_iff.mp made
    exact (Matcher.eq_of_build hbuild).2.2.2.1

section Again

variable (made : g₀.Makes subpatterns m) (idle : g.compiling = false)
  (dialect : g.dialect = g₀.dialect) (limit : g.reparseLimit = g₀.reparseLimit)
  (bare : ¬g₀.Refers subpatterns m) (cursor : Nat)

include made idle dialect limit

include bare in
theorem exists_run_copy (follows : g.dialect.Follows g₀.surroundings g.surroundings Eq) :
    ∃ lines, (copy (m.withCursor cursor) "" "").run.run g = (.ok m, g.written lines) := by
  cases made with
  | plain made =>
    obtain ⟨horigin, -, hagain, -⟩ := Matcher.plain_again made
    rw [copy_plain (m := m.withCursor cursor) horigin]
    exact ⟨[], Prod.ext hagain rfl⟩
  | @compiled p f _ _ made =>
    have horigin := origin_of_compile made
    obtain ⟨lines, hrun⟩ := exists_lines_run_compileWith idle p (Flags.adjust f "" "") none
    rw [dialect] at follows
    refine ⟨lines, ?_⟩
    rw [copy_extended (m := m.withCursor cursor) horigin, compile, hrun, dialect, limit,
      compile_again made follows fun refers => bare ⟨p, f, horigin, refers⟩]

include bare in
theorem exists_run_globalize
    (follows : g.dialect.Follows g₀.surroundings g.surroundings Context.Globalized) :
    ∃ m' lines, (globalize (m.withCursor cursor)).run.run g = (.ok m', g.written lines) ∧
      m.Globalizes m' := by
  cases made with
  | plain made =>
    obtain ⟨horigin, -, -, m', hagain, hm'⟩ := Matcher.plain_again made
    rw [globalize, copy_plain (m := m.withCursor cursor) horigin]
    exact ⟨m', [], Prod.ext hagain rfl, hm'⟩
  | @compiled p f _ _ made =>
    have horigin := origin_of_compile made
    obtain ⟨lines, hrun⟩ := exists_lines_run_compileWith idle p (Flags.adjust f "g" "") none
    rw [dialect] at follows
    obtain ⟨m', hagain, hm'⟩ :=
      compile_global made follows fun refers => bare ⟨p, f, horigin, refers⟩
    refine ⟨m', lines, ?_, hm'⟩
    rw [globalize, copy_extended (m := m.withCursor cursor) horigin, compile, hrun, dialect,
      limit, hagain]

omit limit in
/-- Without tokens no copy of a matcher that refers to a subpattern has its source. -/
theorem source_ne_of_copy (tokens : g.dialect.tokens = []) (refers : g₀.Refers subpatterns m)
    {m' : Matcher} (h : ((copy (m.withCursor cursor) "" "").run.run g).1 = .ok m') :
    m'.source ≠ m.source := by
  obtain ⟨p, f, horigin, refers⟩ := refers
  rw [copy_extended (m := m.withCursor cursor) horigin] at h
  have hcopy := compile_of_run idle h
  cases made with
  | plain made =>
    rw [(Matcher.plain_again made).1] at horigin
    cases horigin
  | compiled made =>
    obtain ⟨rfl, rfl⟩ := Origin.extended.inj ((origin_of_compile made).symm.trans horigin)
    obtain ⟨hv, out, c, hplain, hm⟩ := compile_eq_ok_iff.mp made
    rw [Flags.adjust_self (Flags.validate_eq_ok_iff.mp hv).1, dialect] at hcopy
    obtain ⟨-, out', c', hplain', hm'⟩ := compile_eq_ok_iff.mp hcopy
    rw [(Matcher.eq_of_build hm).1, (Matcher.eq_of_build hm').1]
    rw [dialect] at tokens
    intro hout
    exact toPlain_again_ne Context.isCongruence_eq tokens rfl refers hplain hplain'
      (String.ofList_injective hout)

end Again

theorem not_refers (g : Engine) (m : Matcher) : ¬g.Refers none m := by
  rintro ⟨p, f, -, refers⟩
  exact Setting.not_readsReference rfl _ refers

/-- Every matcher that the cache gives is one that was obtained. Let a matcher be obtained from an
engine whose tokens and limit of expansions are still the same. If the reading of its pattern came
to no name of a subpattern, as is always so except for `build`, and the tokens answer now as they
did then, a copy succeeds and is the same matcher with a new cursor, and the engine has only more
lines in its trace; if the tokens answer the same under the global flag, the global copy has this
flag in addition. If the reading did come to the name of a subpattern and there are no tokens, every
copy has another source. -/
theorem copy_obtained (rs : List Request) :
    let g := after rs
    (∀ (p f : String) (h : Handle), ((cache p f).run.run g).1 = .ok h →
      ∃ m g₀, (after (rs ++ [.cache p f])).stored? h = some m ∧
        Obtained (rs ++ [.cache p f]) g₀ none m) ∧
    ∀ (g₀ : Engine) (subpatterns : Option Subpatterns) (m : Matcher),
      Obtained rs g₀ subpatterns m →
      g.dialect = g₀.dialect → g.reparseLimit = g₀.reparseLimit →
      (subpatterns = none → ¬g₀.Refers subpatterns m) ∧
      (¬g₀.Refers subpatterns m →
        (g.dialect.Follows g₀.surroundings g.surroundings Eq →
          ∃ lines, (copy m "" "").run.run g = (.ok (m.withCursor 0), g.written lines)) ∧
        (g.dialect.Follows g₀.surroundings g.surroundings Context.Globalized →
          ∃ m' lines, (globalize m).run.run g = (.ok m', g.written lines) ∧ m.Globalizes m')) ∧
      (g.dialect.tokens = [] → g₀.Refers subpatterns m →
        ∀ m', ((copy m "" "").run.run g).1 = .ok m' → m'.source ≠ m.source) := by
  refine ⟨fun p f h => exists_obtained_of_cache, ?_⟩
  intro g₀ subpatterns m obtained dialect limit
  obtain ⟨m, cursor, made, rfl⟩ := obtained.exists_makes
  have idle := compiling_after rs
  refine ⟨?_, fun bare => ⟨fun follows => ?_, fun follows => ?_⟩, fun tokens refers m' => ?_⟩
  · rintro rfl
    exact not_refers g₀ _
  · obtain ⟨lines, hrun⟩ := exists_run_copy made idle dialect limit bare cursor follows
    have hm : (m.withCursor cursor).withCursor 0 = m := by
      change m.withCursor 0 = m
      rw [← made.cursor_eq]
      rfl
    exact ⟨lines, by rw [hrun, hm]⟩
  · obtain ⟨m', lines, hrun, hm'⟩ :=
      exists_run_globalize made idle dialect limit bare cursor follows
    exact ⟨m', lines, hrun, hm'.source, hm'.flags, hm'.names, hm'.origin, hm'.cursor⟩
  · exact source_ne_of_copy made idle dialect cursor tokens refers

/-- A matcher whose cursor was moved. -/
theorem copy_obtained_letter :
    ∃ (m m' : Matcher) (lines lines' : List String),
      ((compile "(a)" "").run.run (after [])).1 = .ok m ∧
      (copy (m.withCursor 3) "" "").run.run (after []) =
        (.ok ((m.withCursor 3).withCursor 0), (after []).written lines) ∧
      (globalize (m.withCursor 3)).run.run (after []) = (.ok m', (after []).written lines') ∧
      m'.origin = .extended "(a)" "g" := by
  obtain ⟨m, hm⟩ : ∃ m, Extended.compile {} (after []).surroundings 10000 "(a)" "" none = .ok m :=
    exists_compile (by decide) (by cbv) (by decide +kernel)
  obtain ⟨lines, hrun⟩ := exists_lines_run_compileWith (compiling_after []) "(a)" "" none
  have hcompile : ((compile "(a)" "").run.run (after [])).1 = .ok m :=
    (congrArg Prod.fst hrun).trans hm
  obtain ⟨hnone, hcopies, -⟩ := (copy_obtained []).2 (after []) none (m.withCursor 3)
    ((Obtained.compiled hcompile).later [] 3) rfl rfl
  obtain ⟨hcopy, hglobalize⟩ := hcopies (hnone rfl)
  obtain ⟨lines, hcopy⟩ := hcopy (Dialect.follows_self _ _)
  obtain ⟨m', lines', hglobal, hm'⟩ := hglobalize (Dialect.follows_of_nil rfl _ _ _)
  refine ⟨m, m', lines, lines', hcompile, hcopy, hglobal, ?_⟩
  have horigin : (m.withCursor 3).origin = .extended "(a)" "" :=
    (show m.origin = _ from origin_of_compile hm)
  rw [hm'.origin, horigin]
  decide

/-- A copy does not know what a name in braces stood for. -/
theorem copy_subpattern :
    ∃ m m' : Matcher,
      ((build "\x7b\x7ba\x7d\x7d" [("a", .text "x")] "").run.run (after [])).1 = .ok m ∧
      m.source = "(?:x)" ∧
      ((copy m "" "").run.run
        (after [.build "\x7b\x7ba\x7d\x7d" [("a", .text "x")] ""])).1 = .ok m' ∧
      m'.source = "\\\x7b\\\x7ba\\\x7d\\\x7d" := by
  let p := "\x7b\x7ba\x7d\x7d"
  obtain ⟨m, lines, hbuild, hsource, -, horigin⟩ : ∃ m lines,
      (build p [("a", .text "x")] "").run.run (after []) = (.ok m, (after []).written lines) ∧
        m.source = "(?:x)" ∧ m.flags = .ofList (Context.ofFlags "").flags ∧
        m.origin = .extended p "" :=
    exists_run_compileWith_source "(?:x)".toList (.ofFlags "") rfl (by decide) (by cbv)
      (by decide +kernel)
  have hafter : after [.build p [("a", .text "x")] ""] = (after []).written lines := by
    change ((asked (build p [("a", .text "x")] "")).run.run (after [])).2 = _
    rw [run_asked, hbuild]
  obtain ⟨m', lines', hcopy, hsource', -⟩ : ∃ m' lines',
      (compile p "").run.run ((after []).written lines) =
        (.ok m', ((after []).written lines).written lines') ∧
        m'.source = "\\\x7b\\\x7ba\\\x7d\\\x7d" ∧
        m'.flags = .ofList (Context.ofFlags "").flags ∧ m'.origin = .extended p "" :=
    exists_run_compileWith_source "\\\x7b\\\x7ba\\\x7d\\\x7d".toList (.ofFlags "") rfl rfl
      (by cbv) (by decide +kernel)
  refine ⟨m, m', congrArg Prod.fst hbuild, hsource, ?_, hsource'⟩
  rw [hafter, copy_extended horigin]
  exact congrArg Prod.fst hcopy

end Copies

end Engine

end Patterns
