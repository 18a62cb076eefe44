import Patterns.Proofs.Expansion
import Patterns.Proofs.Progress

/-!
# Reading a pattern again

A pattern that is read again, without the subpatterns that it was built with, in other surroundings
and maybe with another context, is read in the same steps as long as its tokens answer alike
(`Follows`) and it does not come to the name of a subpattern (`RefersAt`).
-/
namespace Patterns.Extended
open Patterns.Text

variable {R : Context → Context → Prop} {c c' c₁ : Context}

section Contexts

namespace Context

@[simp] theorem hasFlag_setFlag (c : Context) (f flag : Char) :
    (c.setFlag f).hasFlag flag = (c.hasFlag flag || flag == f) := by
  unfold setFlag
  split
  · next hf =>
    by_cases h : flag = f
    · simp [h, hf]
    · simp [h]
  · rw [hasFlag, List.contains_append]
    simp [hasFlag, beq_eq_decide]

@[simp] theorem groups_setFlag (c : Context) (f : Char) : (c.setFlag f).groups = c.groups := by
  unfold setFlag
  split <;> rfl

/-- Contexts that the compiler treats alike. -/
structure IsCongruence (R : Context → Context → Prop) : Prop where
  groups : ∀ {c c'}, R c c' → c'.groups = c.groups
  hasFlag : ∀ {c c'}, R c c' → ∀ flag ∈ Flags.extended, c'.hasFlag flag = c.hasFlag flag
  setFlag : ∀ {c c'} (flag : Char), R c c' → R (c.setFlag flag) (c'.setFlag flag)
  record : ∀ {c c'} (name : Option String), R c c' → R (c.record name) (c'.record name)

theorem isCongruence_eq : IsCongruence Eq where
  groups h := by rw [h]
  hasFlag h _ _ := by rw [h]
  setFlag _ h := by rw [h]
  record _ h := by rw [h]

/-- The second context is the first one with the global flag. -/
structure Globalized (c c' : Context) : Prop where
  groups : c'.groups = c.groups
  hasFlag : ∀ flag, c'.hasFlag flag = (c.hasFlag flag || flag == 'g')

theorem isCongruence_globalized : IsCongruence Globalized where
  groups h := h.groups
  hasFlag h flag hflag := by
    have hne : flag ≠ 'g' := by
      rintro rfl
      exact absurd hflag (by decide)
    simp [h.hasFlag, hne]
  setFlag flag h := ⟨by simp [h.groups], fun f => by
    simp [h.hasFlag, Bool.or_assoc, Bool.or_comm (f == 'g')]⟩
  record name h := ⟨by simp [record, h.groups], h.hasFlag⟩

end Context

theorem setModifierFlags_congr (hR : Context.IsCongruence R) {custom flags : List Char}
    {written : String} (hc : R c c') (h : setModifierFlags custom written flags c = .ok c₁) :
    ∃ c₁', setModifierFlags custom written flags c' = .ok c₁' ∧ R c₁ c₁' := by
  induction flags generalizing c c' with
  | nil => exact ⟨c', rfl, by cases h; exact hc⟩
  | cons flag flags ih =>
    unfold setModifierFlags at h ⊢
    split at h
    · cases h
    · next hiteration =>
      rw [if_neg hiteration]
      split at h
      · cases h
      · next hknown =>
        rw [if_neg hknown]
        exact ih (hR.setFlag flag hc) h

theorem Context.addGroup_congr (hR : Context.IsCongruence R) {name : Option String} (hc : R c c')
    (h : c.addGroup name = .ok c₁) : ∃ c₁', c'.addGroup name = .ok c₁' ∧ R c₁ c₁' := by
  obtain ⟨hname, rfl⟩ := addGroup_eq_ok_iff.mp h
  refine ⟨_, addGroup_eq_ok_iff.mpr ⟨fun n hn => ?_, rfl⟩, hR.record name hc⟩
  rw [checkName_eq_ok_iff, hR.groups hc, ← checkName_eq_ok_iff]
  exact hname n hn

end Contexts

section Pieces

variable {e : Setting} {s : Scan} {w : Surroundings}

/-- What the tokens answered in the surroundings `w` they answer in `w'` too, in related
contexts. -/
def Dialect.Follows (d : Dialect) (w w' : Surroundings) (R : Context → Context → Prop) : Prop :=
  ∀ t ∈ d.tokens, ∀ c c', R c c' →
    (∀ scope, t.isTriggered scope c' = t.isTriggered scope c) ∧
    ∀ (working : Subject) (found : Match working) (scope : Scope) (text : String) (l : c.Later),
      t.handler ⟨working, found, scope, w⟩ c = .ok (text, l) →
      ∃ l' : c'.Later, t.handler ⟨working, found, scope, w'⟩ c' = .ok (text, l') ∧
        R l.context l'.context

theorem Dialect.follows_self (d : Dialect) (w : Surroundings) : d.Follows w w Eq := by
  rintro t - c c' rfl
  exact ⟨fun _ => rfl, fun _ _ _ _ l h => ⟨l, h, rfl⟩⟩

theorem Dialect.follows_of_nil {d : Dialect} (hd : d.tokens = []) (w w' : Surroundings)
    (R : Context → Context → Prop) : d.Follows w w' R := by
  intro t ht
  rw [hd] at ht
  cases ht

def Scan.withContext (s : Scan) (context : Context) : Scan := { s with context }

namespace Setting

/-- The setting in which a pattern is read again: without subpatterns, in other surroundings. -/
def again (e : Setting) (w : Surroundings) : Setting :=
  { e with surroundings := w, subpatterns := none }

/-- The scan stands before the name of a subpattern, which no token takes. -/
def RefersAt (e : Setting) (s : Scan) : Prop :=
  e.tokenPiece? s e.dialect.tokens = .ok none ∧
    ∃ name n, Lexeme.scan? (e.lexemeSettings s.spot) s.scope s.rest = some (.subpattern name, n)

end Setting

/-- Pieces that write the same and leave related contexts. -/
structure Piece.Alike (R : Context → Context → Prop) (p p' : Piece) : Prop where
  length : p'.length = p.length
  output : p'.output = p.output
  reparse : p'.reparse = p.reparse
  context : R p.context p'.context

theorem exists_tokenPiece? (follows : e.dialect.Follows e.surroundings w R) (hc : R s.context c')
    {ts : List Token} (hts : ts ⊆ e.dialect.tokens) {found : Option Piece}
    (h : e.tokenPiece? s ts = .ok found) :
    ∃ found', (e.again w).tokenPiece? (s.withContext c') ts = .ok found' ∧
      Option.Rel (Piece.Alike R) found found' := by
  induction ts with
  | nil =>
    obtain rfl := Except.ok.inj h
    exact ⟨none, rfl, .none⟩
  | cons t ts ih =>
    obtain ⟨htrigger, hhandler⟩ := follows t (hts List.mem_cons_self) _ _ hc
    have older := ih fun _ ht => hts (List.mem_cons_of_mem t ht)
    have htrigger : t.isTriggered (s.withContext c').scope (s.withContext c').context =
        t.isTriggered s.scope s.context := htrigger s.scope
    rw [Setting.tokenPiece?, htrigger]
    rw [Setting.tokenPiece?] at h
    split at h
    · next htriggered =>
      rw [if_pos htriggered]
      cases hsearch : t.pattern.searchAt s.working.get s.place true with
      | error err => simp [hsearch, bind, Except.bind] at h
      | ok hit =>
        have hsearch' : t.pattern.searchAt (s.withContext c').working.get (s.withContext c').place
            true = .ok hit := hsearch
        simp only [hsearch, hsearch', bind, Except.bind] at h ⊢
        cases hit with
        | none => exact older h
        | some hit =>
          obtain ⟨found, hle⟩ := hit
          dsimp only at h ⊢
          cases hanswer : t.handler ⟨s.working.get, found, s.scope, e.surroundings⟩ s.context with
          | error err => simp [hanswer] at h
          | ok answer =>
            obtain ⟨text, later⟩ := answer
            obtain ⟨later', hanswer', hlater⟩ := hhandler _ _ _ _ _ hanswer
            simp only [hanswer] at h
            obtain rfl := Except.ok.inj h
            have hanswer' : t.handler ⟨(s.withContext c').working.get, found,
                (s.withContext c').scope, (e.again w).surroundings⟩ (s.withContext c').context =
                  .ok (text, later') := hanswer'
            rw [hanswer']
            exact ⟨_, rfl, .some ⟨rfl, rfl, rfl, hlater⟩⟩
    · next htriggered =>
      rw [if_neg htriggered]
      exact older h

/-- Subpatterns change what is read only at their names. -/
theorem scan?_apart {settings : Lexeme.Settings} {scope : Scope} {cs : List Char}
    (other : ∀ name n, Lexeme.scan? settings scope cs ≠ some (.subpattern name, n)) :
    Lexeme.scan? settings.apart scope cs = Lexeme.scan? settings scope cs := by
  cases h : Lexeme.scan? settings scope cs with
  | none =>
    cases cs with
    | nil => cases scope <;> simp [Lexeme.scan?, Lexeme.spacingLength]
    | cons a r => exact (Alike.refl r).scan?_eq_none h fun _ _ _ _ => rfl
  | some found =>
    obtain ⟨lexeme, n⟩ := found
    obtain ⟨t, r, rfl, rfl, hs⟩ := Lexeme.spelled_of_scan? h
    have kept : lexeme.isReparsed = false := by
      cases lexeme with
      | subpattern name => exact absurd h (other name _)
      | _ => rfl
    exact ((Alike.refl r).spelled kept hs).scan?

theorem Lexeme.Emits.congr (hR : Context.IsCongruence R) {lexeme : Lexeme} {scope : Scope}
    {written : String} {after custom out : List Char} {subpatterns : Option Subpatterns}
    (hc : R c c') (other : ∀ name, lexeme ≠ .subpattern name)
    (h : lexeme.Emits scope written after custom subpatterns c out c₁) :
    ∃ c₁', lexeme.Emits scope written after custom none c' out c₁' ∧ R c₁ c₁' := by
  have hn : c'.hasFlag 'n' = c.hasFlag 'n' := hR.hasFlag hc _ (by decide)
  cases h with
  | emptyClass => exact ⟨c', .emptyClass, hc⟩
  | fullClass => exact ⟨c', .fullClass, hc⟩
  | comment => exact ⟨c', .comment, hc⟩
  | spacing => exact ⟨c', .spacing, hc⟩
  | modifier set =>
    obtain ⟨c₁', hset, hc₁⟩ := setModifierFlags_congr hR hc set
    exact ⟨c₁', .modifier hset, hc₁⟩
  | namedReference found =>
    rw [Context.groupIndex?, ← hR.groups hc] at found
    exact ⟨c', .namedReference found, hc⟩
  | zero => exact ⟨c', .zero, hc⟩
  | numberedReference positive outside known =>
    rw [Context.groupCount, ← hR.groups hc] at known
    exact ⟨c', .numberedReference positive outside known, hc⟩
  | dot => exact ⟨c', .dot, hc⟩
  | namedGroup added =>
    obtain ⟨c₁', hadded, hc₁⟩ := Context.addGroup_congr hR hc added
    exact ⟨c₁', .namedGroup hadded, hc₁⟩
  | gathering flag => exact ⟨c', .gathering (hn.trans flag), hc⟩
  | group flag added =>
    obtain ⟨c₁', hadded, hc₁⟩ := Context.addGroup_congr hR hc added
    exact ⟨c₁', .group (hn.trans flag) hadded, hc₁⟩
  | subpattern found => exact absurd rfl (other _)

theorem lexemePiece?_eq (e : Setting) (s : Scan) : e.lexemePiece? s =
    match Lexeme.scan? (e.lexemeSettings s.spot) s.scope s.rest with
    | none => .ok none
    | some (lexeme, n) =>
      (lexeme.emit s.scope (String.ofList (s.rest.take n)) (s.rest.drop n) e.dialect.flags
        e.subpatterns s.context).map fun a => some ⟨n, a.1, a.2, lexeme.isReparsed⟩ := by
  unfold Setting.lexemePiece?
  change (match Lexeme.scan? (e.lexemeSettings s.spot) s.scope s.rest with
    | none => _ | some (lexeme, n) => _) = _
  cases Lexeme.scan? (e.lexemeSettings s.spot) s.scope s.rest with
  | none => rfl
  | some found =>
    obtain ⟨lexeme, n⟩ := found
    dsimp only
    cases lexeme.emit s.scope (String.ofList (s.rest.take n)) (s.rest.drop n) e.dialect.flags
      e.subpatterns s.context <;> rfl

theorem exists_lexemePiece? (hR : Context.IsCongruence R) (hc : R s.context c')
    (other : ∀ name n, Lexeme.scan? (e.lexemeSettings s.spot) s.scope s.rest ≠
      some (.subpattern name, n))
    {found : Option Piece} (h : e.lexemePiece? s = .ok found) :
    ∃ found', (e.again w).lexemePiece? (s.withContext c') = .ok found' ∧
      Option.Rel (Piece.Alike R) found found' := by
  have hsettings : (e.again w).lexemeSettings (s.withContext c').spot =
      (e.lexemeSettings s.spot).apart := by
    simp only [Setting.lexemeSettings, Lexeme.Settings.apart, Scan.spot, Scan.withContext,
      hR.hasFlag hc 'x' (by decide), hR.hasFlag hc 's' (by decide)]
    rfl
  have hscan : Lexeme.scan? ((e.again w).lexemeSettings (s.withContext c').spot)
      (s.withContext c').scope (s.withContext c').rest =
        Lexeme.scan? (e.lexemeSettings s.spot) s.scope s.rest := by
    rw [hsettings]
    exact scan?_apart other
  rw [lexemePiece?_eq] at h ⊢
  rw [hscan]
  split at h
  · obtain rfl := Except.ok.inj h
    exact ⟨none, rfl, .none⟩
  · next lexeme n hlexeme =>
    cases hemit : lexeme.emit s.scope (String.ofList (s.rest.take n)) (s.rest.drop n)
        e.dialect.flags e.subpatterns s.context with
    | error err => simp [hemit, Except.map] at h
    | ok answer =>
      obtain ⟨out, c₁⟩ := answer
      rw [hemit] at h
      obtain rfl := Except.ok.inj h
      obtain ⟨c₁', hemits, hc₁⟩ := (Lexeme.emits_of_emit hemit).congr hR hc
        fun name hname => other name n (hname ▸ hlexeme)
      refine ⟨some ⟨n, out, c₁', lexeme.isReparsed⟩, ?_, .some ⟨rfl, rfl, rfl, hc₁⟩⟩
      exact congrArg (Except.map _) hemits.emit

theorem exists_piece? (hR : Context.IsCongruence R)
    (follows : e.dialect.Follows e.surroundings w R) (hc : R s.context c') (bare : ¬e.RefersAt s)
    {found : Option Piece} (h : e.piece? s = .ok found) :
    ∃ found', (e.again w).piece? (s.withContext c') = .ok found' ∧
      Option.Rel (Piece.Alike R) found found' := by
  unfold Setting.piece? at h ⊢
  cases htoken : e.tokenPiece? s e.dialect.tokens with
  | error err => simp [htoken, bind, Except.bind] at h
  | ok answer =>
    obtain ⟨answer', htoken', hanswer⟩ := exists_tokenPiece? follows hc (List.Subset.refl _) htoken
    have htokens : (e.again w).tokenPiece? (s.withContext c') (e.again w).dialect.tokens =
        .ok answer' := htoken'
    simp only [htoken, htokens, bind, Except.bind] at h ⊢
    cases hanswer with
    | none =>
      have other (name : List Char) (n : Nat) :
          Lexeme.scan? (e.lexemeSettings s.spot) s.scope s.rest ≠ some (.subpattern name, n) :=
        fun hscan => bare ⟨htoken, name, n, hscan⟩
      exact exists_lexemePiece? hR hc other h
    | some hp =>
      obtain rfl := Except.ok.inj h
      exact ⟨_, rfl, .some hp⟩

end Pieces

section Runs

variable {e : Setting} {s next t s₁ : Scan} {w : Surroundings} {n k : Nat}

theorem Splices.again (hR : Context.IsCongruence R)
    (follows : e.dialect.Follows e.surroundings w R) (hc : R s.context c') (bare : ¬e.RefersAt s)
    (h : Splices e s next) :
    ∃ c₁, R next.context c₁ ∧ Splices (e.again w) (s.withContext c') (next.withContext c₁) := by
  cases h with
  | @intro p more hit again inside =>
    obtain ⟨_, hit', hp⟩ := exists_piece? hR follows hc bare hit
    cases hp with
    | @some _ p' alike =>
      obtain ⟨length, output, c₁, reparse⟩ := p'
      obtain ⟨rfl, rfl, rfl, hcontext⟩ := alike
      have step : Splices (e.again w) (s.withContext c')
          ((s.withContext c').splice p.length p.output c₁) :=
        .intro (s := s.withContext c') more hit' again inside
      exact ⟨c₁, hcontext, step⟩

theorem Advances.again (hR : Context.IsCongruence R)
    (follows : e.dialect.Follows e.surroundings w R) (hc : R s.context c') (bare : ¬e.RefersAt s)
    (h : Advances e s next) :
    ∃ c₁, R next.context c₁ ∧ Advances (e.again w) (s.withContext c') (next.withContext c₁) := by
  cases h with
  | @piece p hit kept nonempty inside =>
    obtain ⟨_, hit', hp⟩ := exists_piece? hR follows hc bare hit
    cases hp with
    | @some _ p' alike =>
      obtain ⟨length, output, c₁, reparse⟩ := p'
      obtain ⟨rfl, rfl, rfl, hcontext⟩ := alike
      have step : Advances (e.again w) (s.withContext c')
          ((s.withContext c').write p.length p.output s.scope c₁) :=
        .piece (s := s.withContext c') hit' kept nonempty inside
      exact ⟨c₁, hcontext, step⟩
  | @emptyPiece p hit kept empty inside =>
    obtain ⟨_, hit', hp⟩ := exists_piece? hR follows hc bare hit
    cases hp with
    | @some _ p' alike =>
      obtain ⟨length, output, c₁, reparse⟩ := p'
      obtain ⟨rfl, rfl, rfl, hcontext⟩ := alike
      have step : Advances (e.again w) (s.withContext c')
          ((s.withContext c').write 1 p.output s.scope c₁) :=
        .emptyPiece (s := s.withContext c') hit' kept empty inside
      exact ⟨c₁, hcontext, step⟩
  | copied none copied nonempty inside =>
    obtain ⟨_, none', hp⟩ := exists_piece? hR follows hc bare none
    cases hp
    exact ⟨c', hc, .copied none' copied nonempty inside⟩
  | single none rest own settled inside =>
    obtain ⟨_, none', hp⟩ := exists_piece? hR follows hc bare none
    cases hp
    exact ⟨c', hc, .single none' rest own settled inside⟩

/-- A run that comes to no name of a subpattern is made again. -/
theorem Run.again (hR : Context.IsCongruence R) (follows : e.dialect.Follows e.surroundings w R)
    (hc : R s.context c') (h : Run e s n t) (bare : ∀ k s₁, Run e s k s₁ → ¬e.RefersAt s₁) :
    ∃ c₁, R t.context c₁ ∧ Run (e.again w) (s.withContext c') n (t.withContext c₁) := by
  induction h generalizing c' with
  | done s => exact ⟨c', hc, .done _⟩
  | splice step tail ih =>
    obtain ⟨c₁, hc₁, step'⟩ := step.again hR follows hc (bare 0 _ (.done _))
    obtain ⟨c₂, hc₂, tail'⟩ := ih hc₁ fun k s₁ hrun => bare (k + 1) s₁ (.splice step hrun)
    exact ⟨c₂, hc₂, .splice step' tail'⟩
  | advance step tail ih =>
    obtain ⟨c₁, hc₁, step'⟩ := step.again hR follows hc (bare 0 _ (.done _))
    obtain ⟨c₂, hc₂, tail'⟩ := ih hc₁ fun k s₁ hrun => bare k s₁ (.advance step hrun)
    exact ⟨c₂, hc₂, .advance step' tail'⟩

/-- A run that comes to the name of a subpattern is made again up to the first one. -/
theorem Run.exists_first (hR : Context.IsCongruence R)
    (follows : e.dialect.Follows e.surroundings w R) (hc : R s.context c') (h : Run e s n t)
    (refers : e.RefersAt t) :
    ∃ k s₁ c₁, Run e s k s₁ ∧ e.RefersAt s₁ ∧
      Run (e.again w) (s.withContext c') k (s₁.withContext c₁) := by
  induction h generalizing c' with
  | done s => exact ⟨0, s, c', .done s, refers, .done _⟩
  | @splice s next t n step tail ih =>
    by_cases here : e.RefersAt s
    · exact ⟨0, s, c', .done s, here, .done _⟩
    · obtain ⟨c₁, hc₁, step'⟩ := step.again hR follows hc here
      obtain ⟨k, s₁, c₂, hrun, hfirst, hrun'⟩ := ih hc₁ refers
      exact ⟨k + 1, s₁, c₂, .splice step hrun, hfirst, .splice step' hrun'⟩
  | @advance s next t n step tail ih =>
    by_cases here : e.RefersAt s
    · exact ⟨0, s, c', .done s, here, .done _⟩
    · obtain ⟨c₁, hc₁, step'⟩ := step.again hR follows hc here
      obtain ⟨k, s₁, c₂, hrun, hfirst, hrun'⟩ := ih hc₁ refers
      exact ⟨k, s₁, c₂, .advance step hrun, hfirst, .advance step' hrun'⟩

end Runs

section References

variable {e : Setting} {s t t' : Scan} {w : Surroundings} {n k : Nat} {a : Char} {r : List Char}

theorem piece?_of_nil (tokens : e.dialect.tokens = []) (s : Scan) :
    e.piece? s = e.lexemePiece? s := by
  rw [Setting.piece?, tokens]
  rfl

/-- What is written where no piece is found. -/
theorem Run.exists_written_bare (h : Run e s n t) (atEnd : t.rest = []) (rest : s.rest = a :: r)
    (bare : e.piece? s = .ok none) :
    ∃ x v, t.written = s.written ++ (x ++ v) ∧
      ((∃ k, copiedLength? s.scope s.rest = some k ∧ 0 < k ∧ x = s.rest.take k) ∨
        copiedLength? s.scope s.rest = none ∧ x = (Setting.single s.scope a).1) := by
  cases h with
  | done => simp [rest] at atEnd
  | splice step =>
    cases step with
    | intro _ hit => simp [bare] at hit
  | advance step tail =>
    obtain ⟨v, hv⟩ := tail.exists_written
    cases step with
    | piece hit | emptyPiece hit => simp [bare] at hit
    | @copied k _ copied nonempty =>
      refine ⟨_, v, ?_, .inl ⟨k, copied, nonempty, rfl⟩⟩
      rw [hv, Scan.written_write, List.append_assoc]
    | single _ rest' own =>
      obtain rfl := (List.cons.inj (rest.symm.trans rest')).1
      refine ⟨_, v, ?_, .inr ⟨own, rfl⟩⟩
      rw [hv, Scan.written_write, List.append_assoc]

private theorem scan?_parenthesis {settings : Lexeme.Settings} {scope : Scope} :
    Lexeme.scan? settings scope ('(' :: '?' :: ':' :: r) = none := by
  have hcolon : Flags.isFlagChar ':' = false := by decide
  cases scope <;> simp [Lexeme.scan?, Lexeme.nameUpTo?, hcolon]

/-- The name of a subpattern is replaced by its text. -/
private theorem Run.exists_splice (tokens : e.dialect.tokens = []) (h : Run e s n t)
    (atEnd : t.rest = []) (refers : e.RefersAt s) :
    ∃ (k k' : Nat) (text : List Char),
      Run e (s.splice k ('(' :: '?' :: ':' :: text) s.context) k' t := by
  obtain ⟨-, name, k, hscan⟩ := refers
  have more : s.rest ≠ [] := by
    intro hnil
    obtain ⟨x, y, hxy, -, spelled⟩ := Lexeme.spelled_of_scan? hscan
    rw [hnil] at hxy
    exact spelled.ne_nil (List.nil_eq_append_iff.mp hxy).1
  obtain ⟨found, hfound⟩ := h.exists_piece? more atEnd
  have hpiece := lexemePiece?_eq e s
  rw [hscan, ← piece?_of_nil tokens, hfound] at hpiece
  dsimp only at hpiece
  cases hemit : (Lexeme.subpattern name).emit s.scope (String.ofList (s.rest.take k))
      (s.rest.drop k) e.dialect.flags e.subpatterns s.context with
  | error err => simp [hemit, Except.map] at hpiece
  | ok answer =>
    rw [hemit] at hpiece
    obtain rfl := Except.ok.inj hpiece
    obtain ⟨out, c₁⟩ := answer
    cases Lexeme.emits_of_emit hemit with
    | @subpattern _ text found =>
      cases h with
      | done => exact absurd atEnd more
      | splice step tail =>
        cases step with
        | intro _ hit =>
          rw [hfound] at hit
          obtain rfl := Option.some.inj (Except.ok.inj hit)
          exact ⟨k, _, text.toList ++ [')'], tail⟩
      | advance step =>
        cases step with
        | piece hit kept | emptyPiece hit kept =>
          rw [hfound] at hit
          obtain rfl := Option.some.inj (Except.ok.inj hit)
          simp [Lexeme.isReparsed] at kept
        | copied bare | single bare => simp [hfound] at bare

/-- The text of a subpattern is written behind a parenthesis. -/
theorem Run.exists_written_reference (tokens : e.dialect.tokens = []) (h : Run e s n t)
    (atEnd : t.rest = []) (refers : e.RefersAt s) : ∃ v, t.written = s.written ++ '(' :: v := by
  obtain ⟨k, k', text, tail⟩ := h.exists_splice tokens atEnd refers
  have hrest : (s.splice k ('(' :: '?' :: ':' :: text) s.context).rest =
      '(' :: '?' :: ':' :: (text ++ s.rest.drop k) := rfl
  have bare : e.piece? (s.splice k ('(' :: '?' :: ':' :: text) s.context) = .ok none := by
    rw [piece?_of_nil tokens, lexemePiece?_eq, hrest, scan?_parenthesis]
  obtain ⟨x, v, hwritten, ⟨m, -, hm, rfl⟩ | ⟨-, rfl⟩⟩ := tail.exists_written_bare atEnd hrest bare
  · obtain ⟨m, rfl⟩ := Nat.exists_eq_succ_of_ne_zero hm.ne'
    exact ⟨_, hwritten⟩
  · refine ⟨v, hwritten.trans ?_⟩
    cases (s.splice k ('(' :: '?' :: ':' :: text) s.context).scope <;> rfl

/-- Read again, the name of a subpattern is a text in braces. -/
theorem Run.exists_written_braces (tokens : e.dialect.tokens = []) (refers : e.RefersAt s)
    {c₁ : Context} (h : Run (e.again w) (s.withContext c₁) n t) (atEnd : t.rest = []) :
    ∃ a v, a ≠ '(' ∧ t.written = s.written ++ a :: v := by
  obtain ⟨-, name, k, hscan⟩ := refers
  obtain ⟨x, y, rest, -, spelled⟩ := Lexeme.spelled_of_scan? hscan
  generalize s.scope = scope at spelled
  cases spelled with
  | subpattern =>
    have hrest : (s.withContext c₁).rest =
        '\x7b' :: '\x7b' :: (name ++ ['\x7d', '\x7d'] ++ y) := rest
    have hnone : Lexeme.scan? ((e.again w).lexemeSettings (s.withContext c₁).spot)
        (s.withContext c₁).scope (s.withContext c₁).rest = none := by
      rw [hrest]
      cases (s.withContext c₁).scope <;> simp [Lexeme.scan?, Setting.lexemeSettings, Setting.again]
    have bare : (e.again w).piece? (s.withContext c₁) = .ok none := by
      rw [piece?_of_nil (e := e.again w) tokens, lexemePiece?_eq, hnone]
    have own : copiedLength? (s.withContext c₁).scope (s.withContext c₁).rest = none := by
      rw [hrest]
      cases (s.withContext c₁).scope <;> simp [copiedLength?, quantifierLength?]
    obtain ⟨x, v, hwritten, ⟨k, hcopied, -⟩ | ⟨-, rfl⟩⟩ := h.exists_written_bare atEnd hrest bare
    · simp [own] at hcopied
    · cases hscope : (s.withContext c₁).scope with
      | outside => exact ⟨'\\', '\x7b' :: v, by decide, by rw [hwritten, hscope]; rfl⟩
      | inClass => exact ⟨'\x7b', v, by decide, by rw [hwritten, hscope]; rfl⟩

end References

section Texts

variable {e : Setting} {w : Surroundings} {limit limit' : Nat} {out out' : List Char}

/-- Somewhere the reading comes to the name of a subpattern. -/
def Setting.ReadsReference (e : Setting) (c : Context) : Prop :=
  ∃ n s, Run e (.start e.pattern c) n s ∧ e.RefersAt s

theorem Setting.not_readsReference (he : e.subpatterns = none) (c : Context) :
    ¬e.ReadsReference c := by
  rintro ⟨n, s, -, -, name, k, hscan⟩
  obtain ⟨x, y, -, -, spelled⟩ := Lexeme.spelled_of_scan? hscan
  generalize s.scope = scope at spelled
  cases spelled with
  | subpattern building => simp [Setting.lexemeSettings, he] at building

theorem toPlain_again (hR : Context.IsCongruence R)
    (follows : e.dialect.Follows e.surroundings w R) (hc : R c c') (bare : ¬e.ReadsReference c)
    (h : e.toPlain limit c = .ok (out, c₁)) :
    ∃ c₁', (e.again w).toPlain limit c' = .ok (out, c₁') ∧ R c₁ c₁' := by
  obtain ⟨n, s, hrun, hn, atEnd, hout, -⟩ := exists_run_of_toPlain h
  obtain ⟨c₁', hcontext, hrun'⟩ :=
    hrun.again hR follows hc fun k s₁ hs₁ refers => bare ⟨k, s₁, hs₁, refers⟩
  obtain ⟨rfl, rfl⟩ := Prod.mk.inj (Except.ok.inj ((hrun.toPlain hn atEnd).symm.trans h))
  exact ⟨c₁', Run.toPlain (e := e.again w) hrun' hn atEnd, hcontext⟩

/-- Without tokens a pattern that refers to a subpattern is never written the same again. -/
theorem toPlain_again_ne (hR : Context.IsCongruence R) (tokens : e.dialect.tokens = [])
    (hc : R c c') (refers : e.ReadsReference c) (h : e.toPlain limit c = .ok (out, c₁))
    {c₁' : Context} (h' : (e.again w).toPlain limit' c' = .ok (out', c₁')) : out' ≠ out := by
  obtain ⟨n, s, hs, refers⟩ := refers
  obtain ⟨k, s₁, c₂, hfirst, refers, hfirst'⟩ :=
    hs.exists_first hR (Dialect.follows_of_nil tokens _ w R) hc refers
  obtain ⟨m, t, hrun, -, atEnd, hout, -⟩ := exists_run_of_toPlain h
  obtain ⟨m', t', hrun', -, atEnd', hout', -⟩ := exists_run_of_toPlain h'
  obtain ⟨_, htail⟩ := hfirst.split hrun atEnd
  obtain ⟨_, htail'⟩ := Run.split (e := e.again w) hfirst' hrun' atEnd'
  obtain ⟨v, hv⟩ := htail.exists_written_reference tokens atEnd refers
  obtain ⟨a, v', ha, hv'⟩ := Run.exists_written_braces tokens refers htail' atEnd'
  rw [← hout, ← hout', hv, hv']
  intro heq
  exact ha (List.cons.inj (List.append_cancel_left heq)).1

end Texts

end Patterns.Extended
