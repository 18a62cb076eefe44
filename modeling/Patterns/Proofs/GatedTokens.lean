import Patterns.Proofs.Recompilation
import Patterns.Proofs.Caching

/-!
# Tokens with a flag of their own

A token may come with a flag that nothing knew before. No pattern that was accepted could carry this
flag, and where no handler sets it, no modifier could either: while the pattern is read the token
stays silent, at every position and in every text that is read again. What is new is only that
flags are known which were not, so every answer stays, but for the refusals of such flags.
-/
namespace Patterns

/-- The refusal of a flag that is not known. -/
def Error.IsUnknownFlag (err : Error) : Prop :=
  ∃ flag shown, err = .unknownFlag flag shown ∨ err = .unknownModifierFlag flag shown

/-- The answer is not the refusal of a flag that is not known. -/
def KnowsFlags {α : Type} (a : Except Error α) : Prop := ∀ err, a = .error err → ¬err.IsUnknownFlag

theorem knowsFlags_ok {α : Type} (a : α) : KnowsFlags (.ok a) := fun _ h => by cases h

theorem knowsFlags_error_iff {α : Type} {err : Error} :
    KnowsFlags (.error err : Except Error α) ↔ ¬err.IsUnknownFlag :=
  ⟨fun h => h err rfl, fun h _ herr => Except.error.inj herr ▸ h⟩

theorem KnowsFlags.of_bind {α β : Type} {a : Except Error α} {f : α → Except Error β}
    (h : KnowsFlags (a >>= f)) : KnowsFlags a := by
  intro err herr
  rw [herr] at h
  exact h err rfl

theorem KnowsFlags.of_map {α β : Type} {a : Except Error α} {f : α → β}
    (h : KnowsFlags (a.map f)) : KnowsFlags a := by
  intro err herr
  rw [herr] at h
  exact h err rfl

namespace Extended

variable {custom custom' : List Char} {flag : Char} {c c' : Context}

section Flags

theorem check_of_known {known known' : Char → Bool} (more : ∀ f, known f = true → known' f = true)
    {flags shown : String} {seen rest : List Char}
    (h : KnowsFlags (Flags.check known (.duplicateFlag · flags) (.unknownFlag · shown) seen rest)) :
    Flags.check known' (.duplicateFlag · flags) (.unknownFlag · shown) seen rest =
      Flags.check known (.duplicateFlag · flags) (.unknownFlag · shown) seen rest := by
  induction rest generalizing seen with
  | nil => rfl
  | cons f rest ih =>
    rw [Flags.check] at h
    rw [Flags.check, Flags.check]
    split at h
    · next hseen => rw [if_pos hseen, if_pos hseen]
    · next hseen =>
      rw [if_neg hseen, if_neg hseen]
      cases hf : known f with
      | false =>
        rw [if_pos (by rw [hf]; rfl)] at h
        exact absurd ⟨f, shown, .inl rfl⟩ (h _ rfl)
      | true =>
        rw [if_neg (by rw [hf]; simp)] at h
        rw [if_neg (by rw [more f hf]; simp), if_neg (by simp)]
        exact ih h

theorem setModifierFlags_of_known
    (more : ∀ f, Flags.isKnown custom f = true → Flags.isKnown custom' f = true)
    {written : String} {flags : List Char}
    (h : KnowsFlags (setModifierFlags custom written flags c)) :
    setModifierFlags custom' written flags c = setModifierFlags custom written flags c := by
  induction flags generalizing c with
  | nil => rfl
  | cons f flags ih =>
    rw [setModifierFlags] at h
    rw [setModifierFlags, setModifierFlags]
    split at h
    · next hiteration => rw [if_pos hiteration, if_pos hiteration]
    · next hiteration =>
      rw [if_neg hiteration, if_neg hiteration]
      cases hf : Flags.isKnown custom f with
      | false =>
        rw [if_pos (by rw [hf]; rfl)] at h
        exact absurd ⟨f, written, .inr rfl⟩ (h _ rfl)
      | true =>
        rw [if_neg (by rw [hf]; simp)] at h
        rw [if_neg (by rw [more f hf]; simp), if_neg (by simp)]
        exact ih h

/-- A modifier sets only flags that are known. -/
theorem hasFlag_setModifierFlags (unknown : Flags.isKnown custom flag = false) {written : String}
    {flags : List Char} (h : setModifierFlags custom written flags c = .ok c') :
    c'.hasFlag flag = c.hasFlag flag := by
  induction flags generalizing c with
  | nil => rw [Except.ok.inj h]
  | cons f flags ih =>
    rw [setModifierFlags] at h
    split at h
    · cases h
    · split at h
      · cases h
      · next hknown =>
        have hne : (flag == f) = false := by
          refine beq_eq_false_iff_ne.mpr ?_
          rintro rfl
          exact hknown (by rw [unknown]; rfl)
        rw [ih h, Context.hasFlag_setFlag, hne, Bool.or_false]

theorem Context.flags_addGroup {name : Option String} (h : c.addGroup name = .ok c') :
    c'.flags = c.flags := by
  rw [(addGroup_eq_ok_iff.mp h).2]
  rfl

theorem Lexeme.Emits.hasFlag {lexeme : Lexeme} {scope : Scope} {written : String}
    {after out : List Char} {subpatterns : Option Subpatterns}
    (unknown : Flags.isKnown custom flag = false)
    (h : lexeme.Emits scope written after custom subpatterns c out c') :
    c'.hasFlag flag = c.hasFlag flag := by
  cases h with
  | modifier set => exact hasFlag_setModifierFlags unknown set
  | namedGroup added | group _ added => rw [Context.hasFlag, Context.flags_addGroup added]; rfl
  | _ => rfl

theorem Lexeme.emit_of_known
    (more : ∀ f, Flags.isKnown custom f = true → Flags.isKnown custom' f = true)
    {lexeme : Lexeme} {scope : Scope} {written : String} {after : List Char}
    {subpatterns : Option Subpatterns}
    (h : KnowsFlags (lexeme.emit scope written after custom subpatterns c)) :
    lexeme.emit scope written after custom' subpatterns c =
      lexeme.emit scope written after custom subpatterns c := by
  cases lexeme with
  | modifier flags =>
    have hset := setModifierFlags_of_known more
      (KnowsFlags.of_bind (a := setModifierFlags custom written flags c) h)
    simp only [emit, hset]
  | _ => rfl

end Flags

/-- The handler does not set the flag. -/
def Token.Spares (t : Token) (flag : Char) : Prop :=
  ∀ (o : Occurrence) (c : Context) (text : String) (later : c.Later),
    t.handler o c = .ok (text, later) → c.hasFlag flag = false → later.context.hasFlag flag = false

/-- `d'` is `d` with a token that only a pattern with the flag triggers, and maybe with more
flags. -/
structure Dialect.Gains (d : Dialect) (flag : Char) (d' : Dialect) : Prop where
  tokens : ∃ t : Token, t.flag = some flag ∧ d'.tokens = t :: d.tokens
  known : ∀ f, Flags.isKnown d.flags f = true → Flags.isKnown d'.flags f = true

theorem Dialect.gains_of_register {d d' : Dialect} {pattern : Matcher} {handler : Handler}
    {o : TokenOptions} (gated : o.flag = some flag)
    (h : d.register pattern handler o = .ok d') : d.Gains flag d' := by
  have grows (d : Dialect) (f g : Char) (hf : Flags.isKnown d.flags f = true) :
      Flags.isKnown (d.addFlag g).flags f = true := by
    unfold addFlag
    split
    · exact hf
    · simp only [Flags.isKnown, List.contains_cons, Bool.or_eq_true] at hf ⊢
      exact hf.imp_right .inr
  have grow (fs : List Char) (d : Dialect) :
      (fs.foldl addFlag d).tokens = d.tokens ∧ ∀ f, Flags.isKnown d.flags f = true →
        Flags.isKnown (fs.foldl addFlag d).flags f = true := by
    induction fs generalizing d with
    | nil => exact ⟨rfl, fun _ hf => hf⟩
    | cons g fs ih =>
      obtain ⟨htokens, hknown⟩ := ih (d.addFlag g)
      refine ⟨htokens.trans ?_, fun f hf => hknown f (grows d f g hf)⟩
      unfold addFlag
      split <;> rfl
  unfold register at h
  cases hcheck : o.check with
  | error err => simp [hcheck, bind, Except.bind] at h
  | ok u =>
    simp only [hcheck, bind, Except.bind, pure, Except.pure, Except.ok.injEq] at h
    obtain ⟨htokens, hknown⟩ := grow (o.flag.toList ++ o.optionalFlags) d
    rw [← h]
    exact ⟨⟨_, gated, congrArg _ htokens⟩, hknown⟩

section Reading

variable {e : Setting} {s next : Scan} {d' : Dialect} {limit left : Nat}

/-- The setting with another dialect. -/
def Setting.under (e : Setting) (d' : Dialect) : Setting := { e with dialect := d' }

@[simp] theorem Setting.tokenPiece?_under (e : Setting) (d' : Dialect) (s : Scan)
    (ts : List Token) : (e.under d').tokenPiece? s ts = e.tokenPiece? s ts := by
  induction ts with
  | nil => rfl
  | cons t ts ih =>
    rw [tokenPiece?, tokenPiece?, ih]
    rfl

/-- A token stays silent where its flag is not set. -/
theorem Setting.tokenPiece?_of_hasFlag {t : Token} (gated : t.flag = some flag)
    (unset : s.context.hasFlag flag = false) (ts : List Token) :
    e.tokenPiece? s (t :: ts) = e.tokenPiece? s ts := by
  have silent : t.isTriggered s.scope s.context = false := by
    simp [Token.isTriggered, gated, unset]
  rw [tokenPiece?, if_neg (by rw [silent]; simp)]

theorem lexemePiece?_under (gains : e.dialect.Gains flag d') (h : KnowsFlags (e.lexemePiece? s)) :
    (e.under d').lexemePiece? s = e.lexemePiece? s := by
  have hscan : Lexeme.scan? ((e.under d').lexemeSettings s.spot) s.scope s.rest =
      Lexeme.scan? (e.lexemeSettings s.spot) s.scope s.rest := rfl
  rw [lexemePiece?_eq] at h
  rw [lexemePiece?_eq, lexemePiece?_eq, hscan]
  cases hfound : Lexeme.scan? (e.lexemeSettings s.spot) s.scope s.rest with
  | none => rfl
  | some found =>
    rw [hfound] at h
    exact congrArg (Except.map _) (Lexeme.emit_of_known gains.known h.of_map)

theorem piece?_under (gains : e.dialect.Gains flag d') (unset : s.context.hasFlag flag = false)
    (h : KnowsFlags (e.piece? s)) : (e.under d').piece? s = e.piece? s := by
  obtain ⟨t, gated, htokens⟩ := gains.tokens
  have htoken : (e.under d').tokenPiece? s (e.under d').dialect.tokens =
      e.tokenPiece? s e.dialect.tokens := by
    rw [Setting.tokenPiece?_under, show (e.under d').dialect.tokens = _ from htokens,
      Setting.tokenPiece?_of_hasFlag gated unset]
  unfold Setting.piece? at h ⊢
  rw [htoken]
  cases hanswer : e.tokenPiece? s e.dialect.tokens with
  | error err => rfl
  | ok found =>
    rw [hanswer] at h
    cases found with
    | some p => rfl
    | none => exact lexemePiece?_under gains h

/-- No piece sets the flag. -/
theorem hasFlag_of_piece? (unknown : Flags.isKnown e.dialect.flags flag = false)
    (spared : ∀ t ∈ e.dialect.tokens, t.Spares flag) (unset : s.context.hasFlag flag = false)
    (p : Piece) (h : e.piece? s = .ok (some p)) : p.context.hasFlag flag = false := by
  rcases hits_or_emits_of_piece? h with ⟨t, hmem, hits⟩ | ⟨settings, lexeme, -, emits⟩
  · cases hits with
    | intro _ _ handled => exact spared t hmem _ _ _ _ handled unset
  · exact (emits.hasFlag unknown).trans unset

theorem Splices.hasFlag (unknown : Flags.isKnown e.dialect.flags flag = false)
    (spared : ∀ t ∈ e.dialect.tokens, t.Spares flag) (unset : s.context.hasFlag flag = false)
    (h : Splices e s next) : next.context.hasFlag flag = false :=
  h.keeps (P := (·.hasFlag flag = false)) (hasFlag_of_piece? unknown spared unset)

theorem Advances.hasFlag (unknown : Flags.isKnown e.dialect.flags flag = false)
    (spared : ∀ t ∈ e.dialect.tokens, t.Spares flag) (unset : s.context.hasFlag flag = false)
    (h : Advances e s next) : next.context.hasFlag flag = false :=
  h.keeps (P := (·.hasFlag flag = false)) (hasFlag_of_piece? unknown spared unset) unset

theorem step_under (gains : e.dialect.Gains flag d') (unset : s.context.hasFlag flag = false)
    {more : s.rest ≠ []} (h : KnowsFlags (e.step s more)) :
    (e.under d').step s more = e.step s more := by
  have hpiece : KnowsFlags (e.piece? s) := by
    intro err herr
    refine h err ?_
    simp only [Setting.step, herr]
  simp only [Setting.step, piece?_under gains unset hpiece]
  rfl

theorem finish_under (gains : e.dialect.Gains flag d')
    (unknown : Flags.isKnown e.dialect.flags flag = false)
    (spared : ∀ t ∈ e.dialect.tokens, t.Spares flag) (unset : s.context.hasFlag flag = false)
    (h : KnowsFlags (e.finish limit left s)) :
    (e.under d').finish limit left s = e.finish limit left s := by
  fun_induction Setting.finish e limit left s with
  | case1 left s atEnd => rw [Setting.finish, dif_pos atEnd]
  | case2 left s more err step =>
    rw [Setting.finish, dif_neg more,
      step_under gains unset (by rw [step]; exact knowsFlags_error_iff.mpr (h err rfl)), step]
  | case3 left s more next shorter step ih =>
    rw [Setting.finish, dif_neg more, step_under gains unset (by rw [step]; exact knowsFlags_ok _),
      step]
    exact ih ((advances_iff.mpr ⟨more, shorter, step⟩).hasFlag unknown spared unset) h
  | case4 s more next step =>
    rw [Setting.finish, dif_neg more, step_under gains unset (by rw [step]; exact knowsFlags_ok _),
      step]
    rfl
  | case5 s more next step left ih =>
    rw [Setting.finish, dif_neg more, step_under gains unset (by rw [step]; exact knowsFlags_ok _),
      step]
    exact ih ((splices_iff.mpr ⟨more, step⟩).hasFlag unknown spared unset) h

theorem toPlain_under (gains : e.dialect.Gains flag d')
    (unknown : Flags.isKnown e.dialect.flags flag = false)
    (spared : ∀ t ∈ e.dialect.tokens, t.Spares flag) (unset : c.hasFlag flag = false)
    (h : KnowsFlags (e.toPlain limit c)) : (e.under d').toPlain limit c = e.toPlain limit c := by
  unfold Setting.toPlain at h ⊢
  rw [← finish_under (s := .start e.pattern c) gains unknown spared unset h.of_bind]
  rfl

end Reading

theorem compile_of_gains {d d' : Dialect} {w : Surroundings} {limit : Nat}
    {pattern flags : String} {subpatterns : Option Subpatterns} (gains : d.Gains flag d')
    (unknown : Flags.isKnown d.flags flag = false) (spared : ∀ t ∈ d.tokens, t.Spares flag)
    (h : KnowsFlags (compile d w limit pattern flags subpatterns)) :
    compile d' w limit pattern flags subpatterns = compile d w limit pattern flags subpatterns := by
  have hvalidate : Flags.validate d'.flags flags = Flags.validate d.flags flags :=
    check_of_known gains.known (KnowsFlags.of_bind (a := Flags.validate d.flags flags) h)
  cases hv : Flags.validate d.flags flags with
  | error err =>
    rw [hv] at hvalidate
    rw [compile, compile, hv, hvalidate]
    rfl
  | ok u =>
    rw [hv] at hvalidate
    let e : Setting := ⟨d, w, subpatterns, pattern⟩
    have unset : (Context.ofFlags flags).hasFlag flag = false := by
      refine Bool.eq_false_iff.mpr fun hmem => ?_
      have hknown := (Flags.validate_eq_ok_iff.mp hv).2 flag (List.contains_iff_mem.mp hmem)
      rw [unknown] at hknown
      cases hknown
    have same (hplain : KnowsFlags (e.toPlain limit (.ofFlags flags))) :
        (e.under d').toPlain limit (.ofFlags flags) = e.toPlain limit (.ofFlags flags) :=
      toPlain_under gains unknown spared unset hplain
    cases hplain : e.toPlain limit (.ofFlags flags) with
    | error err =>
      rw [compile_of_toPlain_error hv hplain, knowsFlags_error_iff] at h
      rw [hplain, knowsFlags_error_iff] at same
      rw [compile_of_toPlain_error hv hplain, compile_of_toPlain_error hvalidate (same h)]
    | ok answer =>
      rw [hplain] at same
      rw [compile_of_toPlain hv hplain, compile_of_toPlain hvalidate (same (knowsFlags_ok _))]

end Extended

namespace Engine
open Extended

/-- A token that comes with a flag of its own, which nothing knew and no handler sets, changes
nothing that could be compiled: the same pattern, flags and subpatterns give the same matcher. What
could not be compiled is refused with the same error, but for flags that were not known. -/
theorem compileWith_gated {g g' : Engine} {pattern : Matcher} {handler : Handler} {o : TokenOptions}
    {flag : Char} (registered : (registerToken pattern handler o).run.run g = (.ok (), g'))
    (gated : o.flag = some flag) (fresh : Flags.isKnown g.dialect.flags flag = false)
    (spared : ∀ t ∈ g.dialect.tokens, t.Spares flag) (p f : String)
    (subpatterns : Option Subpatterns) :
    (∀ m, ((compileWith p f subpatterns).run.run g).1 = .ok m →
      ((compileWith p f subpatterns).run.run g').1 = .ok m) ∧
    ∀ err, ((compileWith p f subpatterns).run.run g).1 = .error err → ¬err.IsUnknownFlag →
      ((compileWith p f subpatterns).run.run g').1 = .error err := by
  have idle : g.compiling = false := by
    refine Bool.eq_false_iff.mpr fun busy => ?_
    rw [run_registerToken_of_compiling busy] at registered
    cases congrArg Prod.fst registered
  have same (h : KnowsFlags ((compileWith p f subpatterns).run.run g).1) :
      ((compileWith p f subpatterns).run.run g').1 =
        ((compileWith p f subpatterns).run.run g).1 := by
    rcases exists_run_registerToken idle pattern handler o with ⟨err, hrun⟩ | ⟨d, lines, hd, hrun⟩
    · cases congrArg Prod.fst (hrun.symm.trans registered)
    · obtain rfl : _ = g' := congrArg Prod.snd (hrun.symm.trans registered)
      let later : Engine := { g with dialect := d }.written lines
      obtain ⟨_, hbefore⟩ := exists_lines_run_compileWith idle p f subpatterns
      obtain ⟨_, hafter⟩ :=
        exists_lines_run_compileWith (show later.compiling = false from idle) p f subpatterns
      rw [hbefore] at h
      rw [hbefore, hafter]
      exact compile_of_gains (Dialect.gains_of_register gated hd) fresh spared h
  refine ⟨fun m hm => ?_, fun err herr known => ?_⟩
  · rw [same (by rw [hm]; exact knowsFlags_ok m), hm]
  · rw [same (by rw [herr]; exact knowsFlags_error_iff.mpr known), herr]

/-- A token for the text `a`, and a pattern with this text. -/
theorem compileWith_gated_letter :
    ∃ (a m : Matcher) (g : Engine),
      (registerToken a (fun _ c => .ok ("b", .here c)) { flag := some 'q' }).run.run
        { extensible := true } = (.ok (), g) ∧
      ((compileWith "a" "" none).run.run g).1 = .ok m ∧ m.source = "a" := by
  obtain ⟨a, -⟩ : ∃ a, Matcher.ofCompiled "a" {} [] "a" "" = .ok a :=
    Matcher.exists_ofCompiled "a" "" (by decide +kernel)
  let handler : Handler := fun _ c => .ok ("b", .here c)
  obtain ⟨g, registered⟩ : ∃ g, (registerToken a handler { flag := some 'q' }).run.run
      { extensible := true } = (.ok (), g) := ⟨_, rfl⟩
  obtain ⟨m, lines, hrun, hsource, -⟩ : ∃ m lines,
      (compileWith "a" "" none).run.run { extensible := true } =
        (.ok m, Engine.written { extensible := true } lines) ∧ m.source = "a" ∧
        m.flags = .ofList (Context.ofFlags "").flags ∧ m.origin = .extended "a" "" :=
    exists_run_compileWith_source "a".toList (.ofFlags "") rfl rfl (by cbv) (by decide +kernel)
  exact ⟨a, m, g, registered, (compileWith_gated registered rfl (by decide) (by simp) "a" "" none).1
    m (congrArg Prod.fst hrun), hsource⟩

end Engine

end Patterns
