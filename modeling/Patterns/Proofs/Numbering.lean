import Patterns.Plain.Reader
import Patterns.Proofs.Parts

/-!
# Numbers of groups

The reader of plain patterns numbers the groups that it opens from one on, and an expression has no
groups but those that were opened before its end (`Reader.opensAll`).
-/
namespace Patterns.Plain
open Patterns.Text

namespace Expr

theorem numbered_branches {n : Nat} {e : Expr} (h : e.Numbered n) :
    (Reader.branches e).1.Numbered n ∧ (Reader.branches e).2.Numbered n := by
  unfold Reader.branches
  split
  · have hes := tame_alt.mp h
    exact ⟨hes _ (by simp), hes _ (by simp)⟩
  · next yes others _ =>
    have hes := tame_alt.mp h
    exact ⟨hes _ (by simp), tame_alt.mpr fun e he => hes e (by simp [he])⟩
  · exact ⟨h, rfl⟩

end Expr

namespace Reader

variable {α β : Type} {r r₁ : Reader} {x : Read α} {f : α → Read β} {P : Nat → α → Prop}
  {Q : Nat → β → Prop} {a : α}

/-- What `x` reads from `r` on opens groups and closes none, and `P` holds of it and of the number
of groups that are open then. -/
def Opens (r : Reader) (x : Read α) (P : Nat → α → Prop) : Prop :=
  ∀ ⦃a r'⦄, x.run r = some (a, r') → r.opened ≤ r'.opened ∧ P r'.opened a

/-- As `Opens`, where nothing is said of what is read. -/
abbrev Goes (r : Reader) (x : Read α) : Prop := Opens r x fun _ _ => True

/-- The groups of what `x` reads are among those that are open then. -/
abbrev Numbers (r : Reader) (x : Read Expr) : Prop := Opens r x fun n e => e.Numbered n

section Primitives

theorem opens_pure (h : P r.opened a) : Opens r (pure a) P := by
  rintro _ _ ⟨⟩
  exact ⟨Nat.le_refl _, h⟩

theorem opens_failure : Opens r (failure : Read α) P := by
  rintro _ _ ⟨⟩

theorem opens_failure_bind : Opens r ((failure : Read α) >>= f) Q := by
  rintro _ _ ⟨⟩

theorem Opens.bind (h : Opens r x P)
    (hf : ∀ a r', r.opened ≤ r'.opened → P r'.opened a → Opens r' (f a) Q) :
    Opens r (x >>= f) Q := by
  intro b r' hrun
  rw [StateT.run_bind, Option.bind_eq_bind, Option.bind_eq_some_iff] at hrun
  obtain ⟨⟨a, r₁⟩, hx, hrun⟩ := hrun
  obtain ⟨hle, ha⟩ := h hx
  obtain ⟨hle', hb⟩ := hf a _ hle ha hrun
  exact ⟨Nat.le_trans hle hle', hb⟩

theorem opens_get {f : Reader → Read β} (h : Opens r (f r) Q) : Opens r (get >>= f) Q := h

theorem opens_peek {f : List Char → Read β} (h : Opens r (f r.rest) Q) :
    Opens r (peek >>= f) Q := h

theorem opens_set {f : Unit → Read β} (hle : r.opened ≤ r₁.opened) (h : Opens r₁ (f ()) Q) :
    Opens r (set r₁ >>= f) Q := by
  intro b r' hrun
  obtain ⟨hle', hb⟩ := h hrun
  exact ⟨Nat.le_trans hle hle', hb⟩

theorem opens_modify {g : Reader → Reader} {f : Unit → Read β} (hle : r.opened ≤ (g r).opened)
    (h : Opens (g r) (f ()) Q) : Opens r (modify g >>= f) Q :=
  opens_set hle h

theorem opens_setRest {rest : List Char} {f : Unit → Read β} (h : Opens { r with rest } (f ()) Q) :
    Opens r (setRest rest >>= f) Q := h

theorem opens_lift {o : Option α} (h : ∀ a, o = some a → Opens r (f a) Q) :
    Opens r (liftM o >>= f) Q := by
  cases o with
  | none => rintro _ _ ⟨⟩
  | some a => exact h a rfl

end Primitives

section Leaves

theorem goes_set (h : r.opened ≤ r₁.opened) : Goes r (set r₁) := by
  rintro _ _ ⟨⟩
  exact ⟨h, trivial⟩

theorem goes_setRest (rest : List Char) : Goes r (setRest rest) := by
  rintro _ _ ⟨⟩
  exact ⟨Nat.le_refl _, trivial⟩

theorem goes_blanks : Goes r blanks :=
  opens_get (opens_lift fun _ _ => goes_set (Nat.le_refl _))

theorem goes_ignoresCase : Goes r ignoresCase :=
  opens_get (opens_pure trivial)

theorem goes_expect (c : Char) : Goes r (expect c) := by
  refine opens_peek ?_
  split
  · split
    · exact goes_setRest _
    · exact opens_failure
  · exact opens_failure

theorem goes_closeGroup : Goes r closeGroup :=
  goes_blanks.bind fun _ _ _ _ => goes_expect ')'

theorem goes_closed (index : Nat) (e : Expr) : Goes r (closed index e) := by
  rintro _ _ ⟨⟩
  exact ⟨Nat.le_refl _, trivial⟩

theorem numbers_reference (index : Nat) : Numbers r (reference index) :=
  opens_get (opens_set (Nat.le_refl _) (opens_pure rfl))

theorem goes_lift (o : Option α) : Goes r (liftM o) := by
  cases o with
  | none => rintro _ _ ⟨⟩
  | some a => exact opens_pure trivial

theorem goes_targetGroup (close : Char) : Goes r (targetGroup close) :=
  opens_get (opens_lift fun _ _ => opens_set (Nat.le_refl _) (goes_lift _))

theorem goes_number : Goes r number := by
  refine opens_get (opens_lift fun ⟨n, rest⟩ _ => ?_)
  dsimp only
  split
  · exact opens_set (Nat.le_refl _) (opens_pure trivial)
  · exact opens_failure

theorem numbers_numberedReference : Numbers r numberedReference := by
  refine goes_number.bind fun n r _ _ => ?_
  exact opens_modify (Nat.le_refl _) (numbers_reference n)

theorem goes_markedTarget : Goes r markedTarget := by
  refine opens_peek ?_
  split
  · exact opens_setRest (goes_targetGroup _)
  · exact opens_setRest (goes_targetGroup _)
  · exact opens_failure

theorem goes_property (negated : Bool) : Goes r (property negated) := by
  refine goes_ignoresCase.bind fun anyCase r _ _ => opens_peek ?_
  split
  · dsimp only
    split
    · exact opens_setRest (opens_lift fun _ _ => opens_pure trivial)
    · exact opens_failure
  · exact opens_setRest (opens_lift fun _ _ => opens_pure trivial)
  · exact opens_failure

theorem goes_hex (width : Nat) : Goes r (commonEscape.hex width) :=
  opens_peek (opens_lift fun _ _ => opens_setRest (opens_pure trivial))

theorem goes_commonEscape (c : Char) : Goes r (commonEscape c) := by
  unfold commonEscape
  split
  all_goals first
    | exact opens_pure trivial
    | exact goes_hex _
    | exact (goes_property _).bind fun _ _ _ _ => opens_pure trivial
    | skip
  split
  · exact opens_failure
  · exact opens_pure trivial

theorem numbers_literal (c : Char) : Numbers r (literal c) :=
  goes_ignoresCase.bind fun _ _ _ _ => opens_pure rfl

theorem numbers_atStart (multiline : Bool) : Numbers r (atStart multiline) :=
  opens_get (opens_pure rfl)

theorem numbers_atEnd (multiline : Bool) : Numbers r (atEnd multiline) :=
  opens_get (opens_pure rfl)

theorem numbers_atLastLines : Numbers r atLastLines :=
  opens_get ((numbers_atEnd false).bind fun _ _ _ h => opens_pure (Expr.tame_look.mpr
    (Expr.tame_concat.mpr (List.forall_mem_cons.mpr ⟨rfl, List.forall_mem_singleton.mpr h⟩))))

theorem numbers_escape : Numbers r escape := by
  refine opens_peek ?_
  split
  · next c rest _ =>
    split
    · exact numbers_numberedReference
    · refine opens_setRest ?_
      split
      · exact goes_markedTarget.bind fun _ _ _ _ => numbers_reference _
      · exact numbers_atStart _
      · exact numbers_atEnd _
      · exact numbers_atLastLines
      · split
        · exact opens_failure
        · exact opens_pure rfl
      · exact opens_pure rfl
      · exact opens_pure rfl
      · exact opens_pure rfl
      · exact opens_pure rfl
      · exact opens_pure rfl
      · exact opens_pure rfl
      · refine (goes_commonEscape c).bind fun e r _ _ => ?_
        split
        · exact numbers_literal _
        · exact opens_get (opens_pure rfl)
        · exact opens_pure rfl
        · exact opens_pure rfl
  · exact opens_failure

theorem goes_classTokens (fuel depth : Nat) (found : List ClassToken) :
    Goes r (classTokens fuel depth found) := by
  induction fuel generalizing depth found r with
  | zero => exact opens_failure
  | succ fuel ih =>
    refine opens_peek ?_
    split
    · next c rest _ =>
      refine opens_setRest ?_
      split
      · refine opens_peek ?_
        split
        · next d rest _ =>
          refine opens_setRest ?_
          split
          · exact ih _ _
          · refine (goes_commonEscape d).bind fun e r _ _ => ?_
            split
            · split
              · exact opens_failure
              · exact ih _ _
            · split
              · exact opens_failure
              · exact ih _ _
            · exact ih _ _
            · exact ih _ _
        · exact opens_failure
      · exact ih _ _
      · split
        · exact opens_pure trivial
        · exact ih _ _
      · exact ih _ _
    · exact opens_failure

theorem numbers_bracketed : Numbers r bracketed := by
  have hclass (r : Reader) (found : List ClassToken) : Numbers r (do
      let r ← get
      let ts ← classTokens (r.rest.length + 1) 1 found
      let s ← ClassText.set? (← ignoresCase) ts
      return Expr.set s) :=
    opens_get ((goes_classTokens _ _ _).bind fun _ _ _ _ => goes_ignoresCase.bind fun _ _ _ _ =>
      opens_lift fun _ _ => opens_pure rfl)
  refine opens_peek ?_
  dsimp only
  split
  · refine opens_setRest (opens_peek ?_)
    split
    · exact opens_setRest (hclass _ _)
    · exact hclass _ _
  · refine opens_peek ?_
    split
    · exact opens_setRest (hclass _ _)
    · exact hclass _ _

theorem numbers_quantified {e : Expr} (h : e.Numbered r.opened) : Numbers r (quantified e) := by
  refine goes_blanks.bind fun _ r' hr _ => opens_get ?_
  split
  · exact opens_pure (h.mono hr)
  · dsimp only
    split
    · exact opens_failure_bind
    · refine opens_setRest (goes_blanks.bind fun _ r'' hr' _ => opens_peek ?_)
      have hloop (least : Nat) (most : Option Nat) (greedy : Bool) :
          (Expr.loop e least most greedy).Numbered r''.opened :=
        Expr.tame_loop.mpr (h.mono (Nat.le_trans hr hr'))
      split
      · refine opens_setRest (opens_peek ?_)
        split
        · exact opens_setRest (opens_pure (Expr.tame_atomic.mpr (hloop _ _ _)))
        · exact opens_pure (hloop _ _ _)
      · refine opens_peek ?_
        split
        · exact opens_setRest (opens_pure (Expr.tame_atomic.mpr (hloop _ _ _)))
        · exact opens_pure (hloop _ _ _)

theorem goes_modeLetters (fuel count : Nat) (negated hyphen : Bool) :
    Goes r (modeLetters fuel count negated hyphen) := by
  induction fuel generalizing count negated hyphen r with
  | zero => exact opens_failure
  | succ fuel ih =>
    refine goes_blanks.bind fun _ r _ _ => opens_peek ?_
    split
    · refine opens_setRest ?_
      split
      · split
        · exact opens_failure
        · exact opens_pure trivial
      · split
        · exact opens_failure
        · exact opens_pure trivial
      · split
        · exact opens_failure
        · exact ih _ _ _
      · exact opens_get (opens_lift fun _ _ => opens_set (Nat.le_refl _) (ih _ _ _))
    · exact opens_failure

/-- A group that is opened is the last one. -/
theorem opens_newGroup (name : Option String) :
    Opens r (newGroup name) fun n index => 1 ≤ index ∧ index ≤ n := by
  refine opens_get (opens_set (Nat.le_succ _) (opens_pure ?_))
  exact ⟨Nat.le_add_left _ _, Nat.le_refl _⟩

end Leaves

section Readings

/-- What is read with a fuel has groups that are open. -/
structure OpensAll (fuel : Nat) : Prop where
  alternatives : ∀ r depth, Numbers r (alternatives fuel depth)
  moreAlternatives : ∀ r depth,
    Opens r (moreAlternatives fuel depth) fun n es => ∀ e ∈ es, e.Numbered n
  sequence : ∀ (r : Reader) depth found, (∀ e ∈ found, e.Numbered r.opened) →
    Numbers r (sequence fuel depth found)
  piece : ∀ r depth, Numbers r (piece fuel depth)
  group : ∀ r depth, Numbers r (group fuel depth)
  conditional : ∀ r depth, Numbers r (conditional fuel depth)

variable {fuel : Nat} (all : OpensAll fuel) (depth : Nat)
include all

theorem numbers_alternatives : Numbers r (alternatives (fuel + 1) depth) := by
  rw [Reader.alternatives]
  refine (all.sequence r depth [] (by simp)).bind fun first r hr hfirst => ?_
  refine goes_blanks.bind fun _ r' hr' _ => opens_peek ?_
  split
  · refine (all.moreAlternatives r' depth).bind fun others r'' hr'' hothers => opens_pure ?_
    exact Expr.tame_alt.mpr (List.forall_mem_cons.mpr
      ⟨hfirst.mono (Nat.le_trans hr' hr''), hothers⟩)
  · refine opens_get ?_
    split
    · exact opens_failure
    · exact opens_pure (hfirst.mono hr')

theorem opens_moreAlternatives : Opens r (moreAlternatives (fuel + 1) depth)
    fun n es => ∀ e ∈ es, e.Numbered n := by
  rw [Reader.moreAlternatives]
  refine opens_peek ?_
  split
  · refine opens_setRest ((all.sequence _ depth [] (by simp)).bind fun e r hr he => ?_)
    refine goes_blanks.bind fun _ r' hr' _ => ?_
    refine (all.moreAlternatives r' depth).bind fun others r'' hr'' hothers => opens_pure ?_
    exact List.forall_mem_cons.mpr ⟨he.mono (Nat.le_trans hr' hr''), hothers⟩
  · exact opens_pure (by simp)

theorem numbers_sequence (found : List Expr) (hfound : ∀ e ∈ found, e.Numbered r.opened) :
    Numbers r (sequence (fuel + 1) depth found) := by
  rw [Reader.sequence]
  refine opens_peek ?_
  split
  · exact opens_pure (Expr.tame_ofList (by simpa using hfound))
  · refine (all.piece r depth).bind fun e r' hr' he => opens_peek ?_
    have hfound' : ∀ e ∈ found, e.Numbered r'.opened := fun e he => (hfound e he).mono hr'
    split
    · exact opens_pure (Expr.tame_ofList (by simpa using hfound'))
    · refine all.sequence _ _ _ ?_
      split
      · exact hfound'
      · exact List.forall_mem_cons.mpr ⟨he, hfound'⟩

theorem numbers_piece : Numbers r (piece (fuel + 1) depth) := by
  have hread {r : Reader} {x : Read Expr} (h : Numbers r x) : Numbers r (x >>= quantified) :=
    h.bind fun e r' _ he => numbers_quantified he
  rw [Reader.piece]
  refine goes_blanks.bind fun _ r hr _ => opens_peek ?_
  split
  · exact numbers_quantified rfl
  · dsimp only
    split
    · exact opens_setRest (opens_get (numbers_quantified rfl))
    · exact opens_setRest (opens_get (hread (numbers_atStart _)))
    · exact opens_setRest (opens_get (hread (numbers_atEnd _)))
    · exact opens_setRest (hread (all.group _ _))
    · exact opens_setRest (hread numbers_escape)
    · exact opens_setRest (hread numbers_bracketed)
    · exact numbers_quantified rfl
    · exact numbers_quantified rfl
    · exact numbers_quantified rfl
    · exact numbers_quantified rfl
    · exact numbers_quantified rfl
    · exact opens_setRest (hread (numbers_literal _))

theorem opens_enclosed {P : Nat → Expr → Prop} {make : Expr → Expr} (rest : List Char)
    (h : ∀ n e, e.Numbered n → r.opened ≤ n → P n (make e)) :
    Opens r (do
      setRest rest
      let e ← alternatives fuel depth
      closeGroup
      return make e) P :=
  opens_setRest ((all.alternatives _ depth).bind fun _ _ hr he =>
    goes_closeGroup.bind fun _ _ hr' _ =>
      opens_pure (h _ _ (he.mono hr') (Nat.le_trans hr hr')))

/-- A group is numbered before those inside of it. -/
theorem numbers_captured (name : Option String) (rest : List Char) :
    Numbers r (do
      let index ← newGroup name
      let e ← (do
        setRest rest
        let e ← alternatives fuel depth
        closeGroup
        return id e)
      closed index e
      return Expr.group index e) := by
  refine (opens_newGroup name).bind fun index r₁ _ hindex => ?_
  refine (opens_enclosed (P := fun n e => e.Numbered n ∧ r₁.opened ≤ n) all depth rest
    fun n e he hr => ⟨he, hr⟩).bind fun e r₂ _ he => ?_
  refine (goes_closed index e).bind fun _ r₃ hr _ => opens_pure ?_
  exact Expr.tame_group.mpr
    ⟨⟨hindex.1, Nat.le_trans hindex.2 (Nat.le_trans he.2 hr)⟩, he.1.mono hr⟩

theorem numbers_group : Numbers r (group (fuel + 1) depth) := by
  rw [Reader.group]
  split
  · exact opens_failure_bind
  · refine goes_blanks.bind fun _ r hr _ => opens_peek ?_
    split
    · exact opens_enclosed all depth _ fun n e he _ => Expr.tame_look.mpr he
    · exact opens_enclosed all depth _ fun n e he _ => Expr.tame_look.mpr he
    · exact opens_enclosed all depth _ fun n e he _ => Expr.tame_look.mpr he
    · exact opens_enclosed all depth _ fun n e he _ => Expr.tame_look.mpr he
    · exact opens_lift fun _ _ => numbers_captured all depth _ _
    · exact opens_lift fun _ _ => numbers_captured all depth _ _
    · exact opens_lift fun _ _ => numbers_captured all depth _ _
    · exact opens_lift fun _ _ => opens_setRest (opens_get (opens_lift fun _ _ =>
        numbers_reference _))
    · exact opens_enclosed all depth _ fun n e he _ => Expr.tame_atomic.mpr he
    · exact opens_setRest (all.conditional _ _)
    · refine opens_get (opens_setRest ((goes_modeLetters _ _ _ _).bind fun own r₁ _ _ => ?_))
      split
      · refine (all.alternatives r₁ depth).bind fun e r₂ hr' he => ?_
        refine (goes_expect ')').bind fun _ r₃ hr'' _ => ?_
        exact opens_modify (Nat.le_refl _) (opens_pure (he.mono hr''))
      · exact opens_pure rfl
    · exact numbers_captured all depth _ _

/-- The test of a conditional is a reference, or an expression. -/
theorem opens_test {jp : Expr → Read β} (c : Char)
    (h : ∀ test r', r.opened ≤ r'.opened → test.Numbered r'.opened → Opens r' (jp test) Q) :
    Opens r (if c.isDigit = true then numberedReference >>= jp
      else if (c == '\'' || c == '<') = true then
        markedTarget >>= fun n => reference n >>= jp
      else alternatives fuel depth >>= jp) Q := by
  split
  · exact numbers_numberedReference.bind h
  · split
    · refine goes_markedTarget.bind fun n r₁ hr _ => ?_
      exact (numbers_reference n).bind fun test r₂ hr' => h test r₂ (Nat.le_trans hr hr')
    · exact (all.alternatives _ _).bind h

theorem numbers_conditional : Numbers r (conditional (fuel + 1) depth) := by
  rw [Reader.conditional]
  refine opens_peek ?_
  split
  · refine opens_test all depth _ fun test r hr htest => ?_
    refine goes_closeGroup.bind fun _ r₁ hr₁ _ => opens_peek ?_
    refine (all.alternatives r₁ depth).bind fun e r₂ hr₂ he => opens_peek ?_
    refine goes_closeGroup.bind fun _ r₃ hr₃ _ => ?_
    replace htest := htest.mono (Nat.le_trans hr₁ (Nat.le_trans hr₂ hr₃))
    obtain ⟨hyes, hno⟩ := Expr.numbered_branches (he.mono hr₃)
    dsimp only
    split
    · split
      · exact opens_pure rfl
      · exact opens_failure
    · split
      · refine opens_pure ?_
        split
        · rfl
        · exact htest
      · next hbranches =>
        rw [hbranches] at hyes hno
        refine opens_pure (Expr.tame_cond.mpr ⟨?_, hyes, hno⟩)
        split
        · rfl
        · exact htest
  · exact opens_failure

omit all in
theorem opensAll (fuel : Nat) : OpensAll fuel := by
  induction fuel with
  | zero =>
    have hzero {α : Type} {x : Read α} {P : Nat → α → Prop} (r : Reader) (h : x = failure) :
        Opens r x P := h ▸ opens_failure
    exact ⟨fun r _ => hzero r (by rw [Reader.alternatives]),
      fun r _ => hzero r (by rw [Reader.moreAlternatives]),
      fun r _ _ _ => hzero r (by rw [Reader.sequence]),
      fun r _ => hzero r (by rw [Reader.piece]), fun r _ => hzero r (by rw [Reader.group]),
      fun r _ => hzero r (by rw [Reader.conditional])⟩
  | succ fuel all =>
    exact ⟨fun _ => numbers_alternatives all, fun _ => opens_moreAlternatives all,
      fun _ => numbers_sequence all, fun _ => numbers_piece all, fun _ => numbers_group all,
      fun _ => numbers_conditional all⟩

end Readings

end Reader

/-- The groups of a pattern are numbered from one on; only the whole match, where it stands in front
of a look ahead, is group 0. -/
theorem startsOnce_of_readPattern {source : String} {anyCase multiline : Bool}
    {throughout : Throughout} {text : PatternText}
    (h : readPattern source anyCase multiline throughout = some text) :
    text.expr.StartsOnce text.opened true := by
  rw [readPattern, Option.bind_eq_bind, Option.bind_eq_some_iff] at h
  obtain ⟨⟨e, r⟩, hrun, h⟩ := h
  have hnumbered := ((Reader.opensAll _).alternatives _ 0 hrun).2
  dsimp only at h
  split at h
  · cases h
  · split at h
    · cases h
    · cases h
      exact Expr.startsOnce_exposeLast hnumbered

end Patterns.Plain
