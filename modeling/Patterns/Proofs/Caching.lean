import Patterns.Proofs.Requests

/-!
# The cache

An entry stands under its pattern and its flags joined by a slash. The flags of a stored matcher
have no slash, since no flag is one, so an entry tells what it was compiled from. A request is
looked up before its flags are checked: one whose flags have a slash is answered by the entry of
another pattern where that stands under the same key, and fails otherwise.
-/
namespace Patterns
open Patterns.Text Patterns.Extended

section Compilation

variable {d : Dialect} {w : Surroundings} {limit : Nat} {pattern flags shown : String}
  {subpatterns : Option Subpatterns} {m : Matcher}

theorem compile_eq_ok_iff :
    Extended.compile d w limit pattern flags subpatterns = .ok m ↔
      Flags.validate d.flags flags = .ok () ∧
        ∃ out c, Setting.toPlain ⟨d, w, subpatterns, pattern⟩ limit (.ofFlags flags) =
            .ok (out, c) ∧
          Matcher.ofCompiled (String.ofList out) (.ofList c.flags) c.groups pattern flags =
            .ok m := by
  unfold Extended.compile
  cases Flags.validate d.flags flags with
  | error err => simp [bind, Except.bind]
  | ok u =>
    cases u
    cases htoPlain : Setting.toPlain ⟨d, w, subpatterns, pattern⟩ limit (.ofFlags flags) with
    | error err => simp [bind, Except.bind, htoPlain]
    | ok a => simp [bind, Except.bind, htoPlain, Prod.ext_iff]

theorem exists_compile {out : List Char} {c : Context}
    (hv : Flags.validate d.flags flags = .ok ())
    (hplain : Setting.toPlain ⟨d, w, subpatterns, pattern⟩ limit (.ofFlags flags) = .ok (out, c))
    (hhost : (compilePlain? (String.ofList out) (.ofList c.flags)).any
      (·.groups == c.groups.length) = true) :
    ∃ m, Extended.compile d w limit pattern flags subpatterns = .ok m :=
  (Matcher.exists_ofCompiled pattern flags hhost).imp
    fun _ hm => compile_eq_ok_iff.mpr ⟨hv, out, c, hplain, hm⟩

theorem Matcher.eq_of_build {source shown : String} {flags : PlainFlags}
    {origin : Origin} {names : Plain.Regex → Except Error Groups}
    (h : build source shown flags origin names = .ok m) :
    m.source = source ∧ m.flags = flags ∧ m.origin = origin ∧ m.cursor = 0 ∧
      names m.body = .ok m.names := by
  unfold build at h
  split at h
  · cases h
  · next body _ =>
    cases hnames : names body with
    | error err => simp [hnames, bind, Except.bind] at h
    | ok groups =>
      simp only [hnames, bind, Except.bind, pure, Except.pure, Except.ok.injEq] at h
      subst h
      exact ⟨rfl, rfl, rfl, rfl, hnames⟩

theorem origin_of_compile (h : Extended.compile d w limit pattern flags subpatterns = .ok m) :
    m.origin = .extended pattern flags := by
  obtain ⟨-, out, c, -, hm⟩ := compile_eq_ok_iff.mp h
  exact (Matcher.eq_of_build hm).2.2.1

end Compilation

namespace Engine

variable {g : Engine} {p f p' f' : String} {h h' : Handle} {m : Matcher}

/-- A pattern with a translation that the host takes is compiled to it. -/
theorem exists_run_compileWith_source {subpatterns : Option Subpatterns} (out : List Char)
    (c : Context) (idle : g.compiling = false) (hv : Flags.validate g.dialect.flags f = .ok ())
    (hplain : Setting.toPlain ⟨g.dialect, g.surroundings, subpatterns, p⟩ g.reparseLimit
      (.ofFlags f) = .ok (out, c))
    (hhost : (compilePlain? (String.ofList out) (.ofList c.flags)).any
      (·.groups == c.groups.length) = true) :
    ∃ m lines, (compileWith p f subpatterns).run.run g = (.ok m, g.written lines) ∧
      m.source = String.ofList out ∧ m.flags = .ofList c.flags ∧ m.origin = .extended p f := by
  obtain ⟨m, hm⟩ := Matcher.exists_ofCompiled p f hhost
  obtain ⟨lines, hrun⟩ := exists_lines_run_compileWith idle p f subpatterns
  rw [compile_eq_ok_iff.mpr ⟨hv, out, c, hplain, hm⟩] at hrun
  obtain ⟨hsource, hflags, horigin, -⟩ := Matcher.eq_of_build hm
  exact ⟨m, lines, hrun, hsource, hflags, horigin⟩

section Keys

private theorem eq_of_append_eq {α : Type} {x : α} {s t s' t' : List α}
    (h : s ++ x :: t = s' ++ x :: t') (ht : x ∉ t) (ht' : x ∉ t') : s = s' ∧ t = t' := by
  induction s generalizing s' with
  | nil =>
    cases s' with
    | nil => exact ⟨rfl, (List.cons.inj h).2⟩
    | cons y s' => exact absurd (by rw [(List.cons.inj h).2]; simp) ht
  | cons y s ih =>
    cases s' with
    | nil => exact absurd (by rw [← (List.cons.inj h).2]; simp) ht'
    | cons y' s' =>
      obtain ⟨hy, hrest⟩ := List.cons.inj h
      obtain ⟨hs, ht⟩ := ih hrest
      exact ⟨by rw [hy, hs], ht⟩

/-- Among flags without a slash the key tells pattern and flags. -/
theorem cacheKey_inj (hf : '/' ∉ f.toList) (hf' : '/' ∉ f'.toList) :
    cacheKey p f = cacheKey p' f' ↔ p = p' ∧ f = f' := by
  constructor
  · intro h
    have hlist := congrArg String.toList h
    simp only [cacheKey, String.toList_append, List.append_assoc] at hlist
    obtain ⟨hp, hf⟩ := eq_of_append_eq (x := '/') hlist hf hf'
    exact ⟨String.ext hp, String.ext hf⟩
  · rintro ⟨rfl, rfl⟩
    rfl

theorem not_mem_of_validate {custom : List Char} (hcustom : custom.all Flags.isFlagChar = true)
    (h : Flags.validate custom f = .ok ()) : '/' ∉ f.toList := by
  intro hslash
  have hknown := (Flags.validate_eq_ok_iff.mp h).2 _ hslash
  have hmem : '/' ∈ custom := by
    simpa [Flags.isKnown, PlainFlags.letters, Flags.extended] using hknown
  exact absurd (List.all_eq_true.mp hcustom _ hmem) (by decide)

end Keys

section Entries

variable {g' : Engine} {r : Request} {key : String} {d d' : Dialect}

/-- The handle names a matcher that was compiled from the pattern and the flags of the key. -/
def IsEntry (g : Engine) (key : String) (h : Handle) : Prop :=
  ∃ m p f, g.stored? h = some m ∧ m.origin = .extended p f ∧ key = cacheKey p f ∧ '/' ∉ f.toList

theorem IsEntry.of_changes (entry : g.IsEntry key h) (hchanges : Changes g r g') :
    g'.IsEntry key h := by
  obtain ⟨m, p, f, hm, horigin, hkey, hf⟩ := entry
  obtain ⟨cursor, hm'⟩ := hchanges.stored? hm
  exact ⟨_, p, f, hm', horigin, hkey, hf⟩

theorem IsEntry.index_lt (entry : g.IsEntry key h) : h.index < g.store.size := by
  obtain ⟨m, -, -, hm, -⟩ := entry
  exact (Array.getElem?_eq_some_iff.mp hm).1

/-- What a cache keeps: its flags come from tokens, an entry is found under what it was compiled
from, and no two entries share a handle. -/
structure Sound (g : Engine) : Prop where
  flags : g.dialect.flags.all Flags.isFlagChar = true
  entries : ∀ e ∈ g.cached, g.IsEntry e.1 e.2
  distinct : (g.cached.map Prod.snd).Nodup

theorem isFlagChar_of_check {o : TokenOptions} (h : o.check = .ok ()) :
    ∀ c ∈ o.optionalFlags, Flags.isFlagChar c = true := by
  unfold TokenOptions.check at h
  cases hfind : o.optionalFlags.find? (!Flags.isFlagChar ·) with
  | none => simpa using List.find?_eq_none.mp hfind
  | some c =>
    rw [hfind] at h
    cases hinvalid : o.invalidFlag <;> rw [hinvalid] at h <;> cases h

theorem all_isFlagChar_of_register {pattern : Matcher} {handler : Handler} {o : TokenOptions}
    (hd : d.flags.all Flags.isFlagChar = true) (isFlag : o.flag.all Flags.isFlagChar = true)
    (h : d.register pattern handler o = .ok d') : d'.flags.all Flags.isFlagChar = true := by
  have hadd (cs : List Char) (hcs : ∀ c ∈ cs, Flags.isFlagChar c = true) (d : Dialect)
      (hd : d.flags.all Flags.isFlagChar = true) :
      (cs.foldl Dialect.addFlag d).flags.all Flags.isFlagChar = true := by
    induction cs generalizing d with
    | nil => exact hd
    | cons c cs ih =>
      refine ih (fun c hc => hcs c (List.mem_cons_of_mem _ hc)) _ ?_
      unfold Dialect.addFlag
      split
      · exact hd
      · simp [hd, hcs c List.mem_cons_self]
  unfold Dialect.register at h
  cases hcheck : o.check with
  | error err => simp [hcheck, bind, Except.bind] at h
  | ok u =>
    simp only [hcheck, bind, Except.bind, pure, Except.pure, Except.ok.injEq] at h
    rw [← h]
    refine hadd _ (fun c hc => ?_) d hd
    rcases List.mem_append.mp hc with hc | hc
    · rw [Option.mem_toList] at hc
      rw [hc] at isFlag
      exact isFlag
    · exact isFlagChar_of_check hcheck c hc

theorem Sound.of_changes (sound : g.Sound) (hchanges : Changes g r g') : g'.Sound := by
  have entries : ∀ e ∈ g.cached, g'.IsEntry e.1 e.2 :=
    fun e he => (sound.entries e he).of_changes hchanges
  cases hchanges with
  | @stored p f m miss hm =>
    have hf : '/' ∉ f.toList := not_mem_of_validate sound.flags (compile_eq_ok_iff.mp hm).1
    refine ⟨sound.flags, List.forall_mem_cons.mpr ⟨⟨m, p, f, ?_, origin_of_compile hm, rfl, hf⟩,
      entries⟩, List.nodup_cons.mpr ⟨fun hmem => ?_, sound.distinct⟩⟩
    · simp [stored?, stored]
    · obtain ⟨e, he, hh⟩ := List.mem_map.mp hmem
      have hlt := (sound.entries e he).index_lt
      rw [hh] at hlt
      exact Nat.lt_irrefl _ hlt
  | flushed => exact ⟨sound.flags, by simp, by simp⟩
  | @registered pattern handler o isFlag d hd =>
    exact ⟨all_isFlagChar_of_register sound.flags isFlag hd, entries, sound.distinct⟩
  | _ => exact ⟨sound.flags, entries, sound.distinct⟩

theorem sound_after (rs : List Request) : (after rs).Sound := by
  refine after_induction (P := fun rs => (after rs).Sound) ⟨rfl, by simp, by simp⟩
    (fun rs r lines sound hafter => ?_) (fun rs r g' lines sound hchanges hafter => ?_) rs
  · rw [hafter]
    exact ⟨sound.flags, sound.entries, sound.distinct⟩
  · rw [hafter]
    have sound' := sound.of_changes hchanges
    exact ⟨sound'.flags, sound'.entries, sound'.distinct⟩

end Entries

section Lookups

variable {g' : Engine} {r : Request}

theorem mem_of_cachedHandle? (hit : g.cachedHandle? p f = some h) :
    (cacheKey p f, h) ∈ g.cached := by
  obtain ⟨front, back, hcached, -⟩ := List.lookup_eq_some_iff.mp hit
  simp [hcached]

theorem Sound.handle_eq_iff (sound : g.Sound) (hit : g.cachedHandle? p f = some h)
    (hit' : g.cachedHandle? p' f' = some h') : h = h' ↔ cacheKey p f = cacheKey p' f' := by
  constructor
  · rintro rfl
    have hinj := List.inj_on_of_nodup_map sound.distinct (mem_of_cachedHandle? hit)
      (mem_of_cachedHandle? hit') rfl
    exact congrArg Prod.fst hinj
  · intro hkey
    rw [cachedHandle?, hkey] at hit
    exact Option.some.inj (hit.symm.trans hit')

/-- An entry stays until the cache is flushed. -/
theorem Changes.cachedHandle? (hchanges : Changes g r g') (kept : r ≠ .flushCache)
    (hit : g.cachedHandle? p f = some h) : g'.cachedHandle? p f = some h := by
  cases hchanges with
  | @stored p' f' m miss hm =>
    have hkey : (cacheKey p f == cacheKey p' f') = false := by
      refine beq_eq_false_iff_ne.mpr fun hkey => ?_
      rw [Engine.cachedHandle?, hkey] at hit
      exact absurd (hit.symm.trans miss) (by simp)
    simpa [Engine.cachedHandle?, Engine.stored, List.lookup_cons, hkey] using hit
  | flushed => exact absurd rfl kept
  | _ => exact hit

theorem cachedHandle?_foldl (rs : List Request) (kept : .flushCache ∉ rs)
    (hit : g.cachedHandle? p f = some h) :
    (rs.foldl step g).cachedHandle? p f = some h := by
  induction rs generalizing g with
  | nil => exact hit
  | cons r rs ih =>
    have hr : r ≠ .flushCache := fun h => kept (by simp [h])
    have hrs : .flushCache ∉ rs := fun h => kept (by simp [h])
    rw [List.foldl_cons]
    rcases exists_perform _ r with ⟨lines, hstep⟩ | ⟨-, g', lines, hchanges, hstep⟩
    · rw [hstep]
      exact ih hrs hit
    · rw [hstep]
      exact ih hrs (hchanges.cachedHandle? hr hit)

theorem cachedHandle?_stored {lines : List String} (hkey : cacheKey p f = cacheKey p' f') :
    ((g.stored p' f' m).written lines).cachedHandle? p f = some ⟨g.store.size⟩ := by
  simp [Engine.cachedHandle?, written, stored, hkey]

theorem cachedHandle?_of_run_cache (idle : g.compiling = false)
    (hrun : ((cache p f).run.run g).1 = .ok h) :
    (g.step (.cache p f)).cachedHandle? p f = some h := by
  simp only [step, Request.perform, run_asked]
  cases hit : g.cachedHandle? p f with
  | some k =>
    rw [run_cache_hit hit] at hrun ⊢
    obtain rfl := Except.ok.inj hrun
    exact hit
  | none =>
    obtain ⟨lines, hmiss⟩ := exists_run_cache_miss idle hit
    rw [hmiss] at hrun ⊢
    split at hrun
    · cases hrun
    · obtain rfl := Except.ok.inj hrun
      exact cachedHandle?_stored rfl

theorem run_cache_error {err : Error}
    (hrun : ((cache p f).run.run g).1 = .error err) :
    ∃ lines, g.step (.cache p f) = g.written lines := by
  refine (exists_perform g (.cache p f)).resolve_right fun h => ?_
  have hok := h.1
  rw [Request.perform, run_asked, hrun] at hok
  cases hok

end Lookups

section Answers

/-- The matcher was compiled from a pattern and flags with the same key. -/
def KeyedBy (m : Matcher) (p f : String) : Prop :=
  ∃ p₀ f₀, m.origin = .extended p₀ f₀ ∧ cacheKey p₀ f₀ = cacheKey p f ∧ '/' ∉ f₀.toList

theorem KeyedBy.origin_eq_iff (keyed : KeyedBy m p f) :
    m.origin = .extended p f ↔ '/' ∉ f.toList := by
  obtain ⟨p₀, f₀, horigin, hkey, hf₀⟩ := keyed
  rw [horigin]
  constructor
  · rintro h
    obtain ⟨-, rfl⟩ := Origin.extended.inj h
    exact hf₀
  · intro hf
    obtain ⟨rfl, rfl⟩ := (cacheKey_inj hf₀ hf).mp hkey
    rfl

theorem Sound.exists_keyedBy (sound : g.Sound) (hit : g.cachedHandle? p f = some h) :
    ∃ m, g.stored? h = some m ∧ KeyedBy m p f := by
  obtain ⟨m, p₀, f₀, hm, horigin, hkey, hf₀⟩ := sound.entries _ (mem_of_cachedHandle? hit)
  exact ⟨m, hm, p₀, f₀, horigin, hkey.symm, hf₀⟩

/-- No flags with a slash are compiled, so only an entry can answer a request for them. -/
theorem Sound.run_cache_slash (sound : g.Sound) (idle : g.compiling = false)
    (hslash : '/' ∈ f.toList) :
    (∃ h, ((cache p f).run.run g).1 = .ok h) ↔ ∃ h, g.cachedHandle? p f = some h := by
  constructor
  · rintro ⟨h, hanswer⟩
    cases hit : g.cachedHandle? p f with
    | some k => exact ⟨k, rfl⟩
    | none =>
      obtain ⟨lines, hmiss⟩ := exists_run_cache_miss idle hit
      rw [hmiss] at hanswer
      split at hanswer
      · cases hanswer
      · next m hm =>
        exact absurd hslash (not_mem_of_validate sound.flags (compile_eq_ok_iff.mp hm).1)
  · rintro ⟨h, hit⟩
    exact ⟨h, by rw [run_cache_hit hit]⟩

/-- What a handler gets from the cache. -/
theorem Sound.keyedBy_of_surroundings (sound : g.Sound)
    (h : g.surroundings.cache p f = .ok m) : KeyedBy m p f := by
  have hstored : g.surroundings.stored? p f = some m := by
    unfold Surroundings.cache at h
    split at h
    · next hsome => rw [hsome, Except.ok.inj h]
    · cases h
  obtain ⟨k, hit, hm⟩ := Option.bind_eq_some_iff.mp hstored
  obtain ⟨m', hm', keyed⟩ := sound.exists_keyedBy hit
  obtain rfl : m' = m := Option.some.inj (hm'.symm.trans hm)
  exact keyed

/-- A matcher from the cache was compiled from a pattern and flags with the key that was asked for,
and these are the ones that were asked for exactly if the flags that were asked for have no slash.
While the cache is not flushed two answers are one matcher exactly if the keys are equal. A request
that fails stores nothing; one whose flags have a slash succeeds only if its key is there. -/
theorem cache_after (rs : List Request) (p f : String) :
    let g := after rs
    let answer := ((cache p f).run.run g).1
    let g' := g.step (.cache p f)
    (∀ err, answer = .error err → g'.cached = g.cached ∧ g'.store = g.store) ∧
    ('/' ∈ f.toList → ((∃ h, answer = .ok h) ↔ ∃ h, g.cachedHandle? p f = some h)) ∧
    (∀ m, g.surroundings.cache p f = .ok m →
      KeyedBy m p f ∧ (m.origin = .extended p f ↔ '/' ∉ f.toList)) ∧
    ∀ h, answer = .ok h →
      (∃ m, g'.stored? h = some m ∧ KeyedBy m p f ∧
        (m.origin = .extended p f ↔ '/' ∉ f.toList)) ∧
      ∀ (between : List Request) (p' f' : String) (h' : Handle), .flushCache ∉ between →
        ((cache p' f').run.run (between.foldl step g')).1 = .ok h' →
        (h = h' ↔ p ++ "/" ++ f = p' ++ "/" ++ f') ∧
        ('/' ∉ f.toList → '/' ∉ f'.toList → (h = h' ↔ p = p' ∧ f = f')) := by
  dsimp only
  have idle := compiling_after rs
  have sound := sound_after rs
  refine ⟨fun err herr => ?_, fun hslash => sound.run_cache_slash idle hslash, fun m hm => ?_,
    fun h hanswer => ⟨?_, ?_⟩⟩
  · obtain ⟨lines, hstep⟩ := run_cache_error herr
    simp [hstep, written]
  · have keyed := sound.keyedBy_of_surroundings hm
    exact ⟨keyed, keyed.origin_eq_iff⟩
  · have hit := cachedHandle?_of_run_cache idle hanswer
    rw [← after_concat] at hit ⊢
    obtain ⟨m, hm, keyed⟩ := (sound_after _).exists_keyedBy hit
    exact ⟨m, hm, keyed, keyed.origin_eq_iff⟩
  · intro between p' f' h' kept hanswer'
    have hit := cachedHandle?_of_run_cache idle hanswer
    rw [← after_concat] at hit hanswer'
    -- Behind the second call both keys are in one cache.
    have hlater := cachedHandle?_foldl between kept hit
    rw [← after_append] at hlater hanswer'
    have hit' := cachedHandle?_of_run_cache (compiling_after _) hanswer'
    have hlater' := cachedHandle?_foldl [.cache p' f'] (by simp) hlater
    rw [← after_append] at hlater'
    rw [← after_concat] at hit'
    have hiff := (sound_after _).handle_eq_iff hlater' hit'
    exact ⟨hiff, fun hf hf' => hiff.trans (cacheKey_inj hf hf')⟩

/-- The first request of a new engine, where the host takes the pattern. -/
private theorem run_cache_first {m : Matcher}
    (hm : Extended.compile {} ({} : Engine).surroundings 10000 p f none = .ok m) :
    ((cache p f).run.run {}).1 = .ok ⟨0⟩ ∧
      ∃ lines, after [.cache p f] = (({} : Engine).stored p f m).written lines := by
  have miss : ({} : Engine).cachedHandle? p f = none := rfl
  obtain ⟨lines, hmiss⟩ := exists_run_cache_miss rfl miss
  have hrun : (cache p f).run.run {} = (.ok ⟨0⟩, (({} : Engine).stored p f m).written lines) :=
    hmiss.trans (by rw [hm]; rfl)
  refine ⟨congrArg Prod.fst hrun, lines, ?_⟩
  change ((asked (cache p f)).run.run {}).2 = _
  rw [run_asked, hrun]

theorem cache_after_letter :
    ∃ (h h' : Handle) (m : Matcher), ((cache "a" "").run.run (after [])).1 = .ok h ∧
      ((cache "a" "").run.run (after [.cache "a" ""])).1 = .ok h' ∧ h = h' ∧
      (after [.cache "a" ""]).stored? h = some m ∧ m.origin = .extended "a" "" := by
  obtain ⟨m, hm⟩ : ∃ m, Extended.compile {} ({} : Engine).surroundings 10000 "a" "" none = .ok m :=
    exists_compile (by decide) (by cbv) (by decide +kernel)
  obtain ⟨hfirst, lines, hafter⟩ := run_cache_first hm
  have hit : (after [.cache "a" ""]).cachedHandle? "a" "" = some ⟨0⟩ := by
    rw [hafter]
    exact cachedHandle?_stored rfl
  have hsecond : ((cache "a" "").run.run (after [.cache "a" ""])).1 = .ok ⟨0⟩ := by
    rw [run_cache_hit hit]
  obtain ⟨-, -, -, hanswer⟩ := cache_after [] "a" ""
  obtain ⟨⟨m, hm, -, horigin⟩, hagain⟩ := hanswer ⟨0⟩ hfirst
  obtain ⟨-, hsame⟩ := hagain [] "a" "" ⟨0⟩ (by simp) hsecond
  exact ⟨⟨0⟩, ⟨0⟩, m, hfirst, hsecond, (hsame (by decide) (by decide)).mpr ⟨rfl, rfl⟩, hm,
    horigin.mpr (by decide)⟩

/-- The flags `/` are not known, but behind a request for `a/` without flags they get its
matcher. -/
theorem cache_slash :
    ((cache "a" "/").run.run (after [])).1 = .error (.unknownFlag '/' "/") ∧
    ∃ (h : Handle) (m : Matcher), ((cache "a/" "").run.run (after [])).1 = .ok h ∧
      ((cache "a" "/").run.run (after [.cache "a/" ""])).1 = .ok h ∧
      (after [.cache "a/" "", .cache "a" "/"]).stored? h = some m ∧
      m.origin = .extended "a/" "" := by
  refine ⟨by rfl, ?_⟩
  obtain ⟨m, hm⟩ : ∃ m, Extended.compile {} ({} : Engine).surroundings 10000 "a/" "" none = .ok m :=
    exists_compile (by decide) (by cbv) (by decide +kernel)
  obtain ⟨hfirst, lines, hafter⟩ := run_cache_first hm
  have hit : (after [.cache "a/" ""]).cachedHandle? "a" "/" = some ⟨0⟩ := by
    rw [hafter]
    exact cachedHandle?_stored rfl
  have hsecond : (cache "a" "/").run.run (after [.cache "a/" ""]) =
      (.ok ⟨0⟩, after [.cache "a/" ""]) := run_cache_hit hit
  refine ⟨⟨0⟩, m, hfirst, congrArg Prod.fst hsecond, ?_, origin_of_compile hm⟩
  have hlast : after [.cache "a/" "", .cache "a" "/"] = after [.cache "a/" ""] := by
    change ((asked (cache "a" "/")).run.run (after [.cache "a/" ""])).2 = _
    rw [run_asked, hsecond]
  rw [hlast, hafter]
  rfl

end Answers

end Engine

end Patterns
