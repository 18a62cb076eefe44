import Patterns.Proofs.Copies
import Patterns.Proofs.Emission
import Patterns.Proofs.Offsets

/-!
# Progress of a scan

Whatever the tokens of a dialect are, a step of a scan either puts text in the place of text that
stands before it, or moves on. Both stay within the bounds of the text and between its characters,
so a scan ends: at the end of the text, at an error, or where one more expansion is needed than
the limit allows.
-/
namespace Patterns.Extended
open Patterns.Text

variable {e : Setting} {s next : Scan} {p : Piece} {err : Error}

section Pieces

variable {m : Matcher} {text : Subject} {i : Nat} {f : Match text}

/-- A sticky search finds a match where it starts, or nothing. -/
theorem start_eq_of_find (h : m.find text i true = .ok (some f)) : f.start = i := by
  simp only [Matcher.find, if_true, Bool.true_and] at h
  split at h
  · simp at h
  · simp at h
  · split at h
    · simp at h
    · next hstart =>
      obtain rfl := Option.some.inj (Except.ok.inj h)
      simpa using hstart

theorem start_eq_of_searchAt {hit : Matcher.Hit text i}
    (h : m.searchAt text i true = .ok (some hit)) : hit.1.start = i := by
  unfold Matcher.searchAt at h
  split at h
  · simp at h
  · simp at h
  · next found hfind =>
    split at h
    · obtain rfl := Option.some.inj (Except.ok.inj h)
      exact start_eq_of_find hfind
    · simp at h

theorem error_of_searchAt {sticky : Bool} (h : m.searchAt text i sticky = .error err) :
    err = .searchLimit := by
  unfold Matcher.searchAt at h
  split at h
  · next err' hfind =>
    obtain rfl := Except.error.inj h
    unfold Matcher.find at hfind
    dsimp only at hfind
    split at hfind
    · exact (Except.error.inj hfind).symm
    · cases hfind
    · split at hfind <;> cases hfind
  · simp at h
  · split at h <;> simp at h

/-- `Hits e s t p`: the token `t` is triggered, matches from the place of the scan on, and its
handler writes the piece `p`. -/
inductive Hits (e : Setting) (s : Scan) (t : Token) : Piece → Prop
  | intro {found : Match s.working.get} {output : String} {later : s.context.Later}
    (triggered : t.isTriggered s.scope s.context = true) (here : found.start = s.place)
    (handled : t.handler ⟨s.working.get, found, s.scope, e.surroundings⟩ s.context =
      .ok (output, later)) :
    Hits e s t ⟨found.stop - found.start, output.toList, later.context, t.reparse⟩

/-- A token that is triggered and matches where the scan stands is taken before all older ones. -/
theorem tokenPiece?_cons {t : Token} {ts : List Token}
    {hit : Matcher.Hit s.working.get s.place} {output : String} {later : s.context.Later}
    (triggered : t.isTriggered s.scope s.context = true)
    (found : t.pattern.searchAt s.working.get s.place true = .ok (some hit))
    (handled : t.handler ⟨s.working.get, hit.1, s.scope, e.surroundings⟩ s.context =
      .ok (output, later)) :
    e.tokenPiece? s (t :: ts) =
      .ok (some ⟨hit.1.stop - hit.1.start, output.toList, later.context, t.reparse⟩) := by
  simp [Setting.tokenPiece?, triggered, found, handled, bind, Except.bind, pure, Except.pure]

theorem exists_hits_of_tokenPiece? {ts : List Token} (h : e.tokenPiece? s ts = .ok (some p)) :
    ∃ t ∈ ts, Hits e s t p := by
  induction ts with
  | nil => simp [Setting.tokenPiece?] at h
  | cons t ts ih =>
    have skip (h : e.tokenPiece? s ts = .ok (some p)) : ∃ t' ∈ t :: ts, Hits e s t' p := by
      obtain ⟨t', hmem, hits⟩ := ih h
      exact ⟨t', List.mem_cons_of_mem t hmem, hits⟩
    rw [Setting.tokenPiece?] at h
    split at h
    · next htriggered =>
      cases hsearch : t.pattern.searchAt s.working.get s.place true with
      | error err => simp [hsearch, bind, Except.bind] at h
      | ok hit =>
        simp only [hsearch, bind, Except.bind] at h
        cases hit with
        | none => exact skip h
        | some hit =>
          have hstart := start_eq_of_searchAt hsearch
          obtain ⟨found, hle⟩ := hit
          dsimp only at h hstart
          cases hhandler : t.handler ⟨s.working.get, found, s.scope, e.surroundings⟩ s.context with
          | error err => simp [hhandler] at h
          | ok answer =>
            simp only [hhandler] at h
            obtain rfl := Option.some.inj (Except.ok.inj h)
            exact ⟨t, List.mem_cons_self, .intro htriggered hstart hhandler⟩
    · exact skip h

theorem Hits.length_le {t : Token} (h : Hits e s t p) : p.length ≤ s.rest.length := by
  have hplace := s.place_add_length
  cases h with
  | @intro found _ _ _ here _ =>
    have hstop := found.stop_le
    change found.stop - found.start ≤ s.rest.length
    omega

theorem length_le_of_scan? {settings : Lexeme.Settings} {scope : Scope} {cs : List Char}
    {lexeme : Lexeme} {n : Nat} (h : Lexeme.scan? settings scope cs = some (lexeme, n)) :
    0 < n ∧ n ≤ cs.length := by
  obtain ⟨t, r, rfl, rfl, spelled⟩ := Lexeme.spelled_of_scan? h
  exact ⟨List.length_pos_iff.mpr spelled.ne_nil, by simp⟩

theorem length_le_of_copiedLength? {scope : Scope} {cs : List Char} {n : Nat}
    (h : copiedLength? scope cs = some n) : 0 < n ∧ n ≤ cs.length := by
  obtain ⟨t, r, rfl, rfl, copied⟩ := copied_of_copiedLength? h
  exact ⟨List.length_pos_iff.mpr copied.ne_nil, by simp⟩

/-- A piece comes from a token, or else from a lexeme. -/
theorem hits_or_emits_of_piece? (h : e.piece? s = .ok (some p)) :
    (∃ t ∈ e.dialect.tokens, Hits e s t p) ∨
      ∃ settings lexeme, Lexeme.scan? settings s.scope s.rest = some (lexeme, p.length) ∧
        lexeme.Emits s.scope (String.ofList (s.rest.take p.length)) (s.rest.drop p.length)
          e.dialect.flags e.subpatterns s.context p.output p.context := by
  unfold Setting.piece? at h
  cases htoken : e.tokenPiece? s e.dialect.tokens with
  | error err => simp [htoken, bind, Except.bind] at h
  | ok found =>
    simp only [htoken, bind, Except.bind] at h
    cases found with
    | some q =>
      obtain rfl := Option.some.inj (Except.ok.inj h)
      exact .inl (exists_hits_of_tokenPiece? htoken)
    | none =>
      simp only [Setting.lexemePiece?] at h
      split at h
      · cases h
      · next lexeme n hscan =>
        cases hemit : lexeme.emit s.scope (String.ofList (s.rest.take n)) (s.rest.drop n)
            e.dialect.flags e.subpatterns s.context with
        | error err => simp [hemit, bind, Except.bind] at h
        | ok answer =>
          simp only [hemit, bind, Except.bind] at h
          obtain rfl := Option.some.inj (Except.ok.inj h)
          exact .inr ⟨_, lexeme, hscan, Lexeme.emits_of_emit hemit⟩

/-- No piece goes beyond the end of the text. -/
theorem length_le_of_piece? (h : e.piece? s = .ok (some p)) : p.length ≤ s.rest.length := by
  rcases hits_or_emits_of_piece? h with ⟨t, -, hits⟩ | ⟨settings, lexeme, hscan, -⟩
  · exact hits.length_le
  · exact (length_le_of_scan? hscan).2

end Pieces

section Errors

variable {limit : Nat} {pattern : String}

/-- A handler of a token that matches from the place of the scan on fails with this error. -/
def Raises (e : Setting) (s : Scan) (err : Error) : Prop :=
  ∃ t ∈ e.dialect.tokens, ∃ found : Match s.working.get, found.start = s.place ∧
    t.handler ⟨s.working.get, found, s.scope, e.surroundings⟩ s.context = .error err

private theorem error_of_tokenPiece? {ts : List Token} (hsub : ts ⊆ e.dialect.tokens)
    (h : e.tokenPiece? s ts = .error err) : err = .searchLimit ∨ Raises e s err := by
  induction ts with
  | nil => simp [Setting.tokenPiece?] at h
  | cons t ts ih =>
    have hts : ts ⊆ e.dialect.tokens := fun t' ht' => hsub (List.mem_cons_of_mem t ht')
    rw [Setting.tokenPiece?] at h
    split at h
    · cases hsearch : t.pattern.searchAt s.working.get s.place true with
      | error err' =>
        simp only [hsearch, bind, Except.bind, Except.error.injEq] at h
        subst h
        exact .inl (error_of_searchAt hsearch)
      | ok hit =>
        simp only [hsearch, bind, Except.bind] at h
        cases hit with
        | none => exact ih hts h
        | some hit =>
          have hstart := start_eq_of_searchAt hsearch
          obtain ⟨found, hle⟩ := hit
          dsimp only at h hstart
          cases hhandler : t.handler ⟨s.working.get, found, s.scope, e.surroundings⟩ s.context with
          | error err' =>
            simp only [hhandler, Except.error.injEq] at h
            subst h
            exact .inr ⟨t, hsub List.mem_cons_self, found, hstart, hhandler⟩
          | ok answer => simp [hhandler, pure, Except.pure] at h
    · exact ih hts h

private theorem setModifierFlags_ne {custom flags : List Char} {written : String} {c : Context} :
    setModifierFlags custom written flags c ≠ .error (.tooManyExpansions limit pattern) := by
  induction flags generalizing c with
  | nil => simp [setModifierFlags]
  | cons flag flags ih =>
    rw [setModifierFlags]
    split
    · simp
    · split
      · simp
      · exact ih

private theorem addGroup_ne {c : Context} {name : Option String} :
    c.addGroup name ≠ .error (.tooManyExpansions limit pattern) := by
  cases name with
  | none => simp [Context.addGroup]
  | some name =>
    simp only [Context.addGroup, Context.checkName]
    split
    · simp [bind, Except.bind]
    · split
      · simp [bind, Except.bind]
      · split <;> simp [bind, Except.bind, pure, Except.pure]

private theorem ne_of_bind {a : Except Error Context} {v : List Char}
    (h : a ≠ .error err) :
    (do return (v, ← a) : Except Error (List Char × Context)) ≠ .error err := by
  cases a with
  | error err' => simpa [bind, Except.bind] using h
  | ok c => simp [bind, Except.bind, pure, Except.pure]

private theorem emit_ne {lexeme : Lexeme} {scope : Scope} {written : String}
    {after custom : List Char} {subpatterns : Option Subpatterns} {c : Context} :
    lexeme.emit scope written after custom subpatterns c ≠
      .error (.tooManyExpansions limit pattern) := by
  cases lexeme with
  | emptyClass => simp [Lexeme.emit]
  | comment => simp [Lexeme.emit]
  | spacing => simp [Lexeme.emit]
  | dot => simp [Lexeme.emit]
  | modifier flags => exact ne_of_bind setModifierFlags_ne
  | namedGroup name => exact ne_of_bind addGroup_ne
  | namedReference name =>
    simp only [Lexeme.emit]
    split <;> simp
  | numberedReference digits =>
    simp only [Lexeme.emit]
    repeat' split
    all_goals simp
  | group =>
    simp only [Lexeme.emit]
    split
    · simp
    · exact ne_of_bind addGroup_ne
  | subpattern name =>
    simp only [Lexeme.emit]
    split <;> simp

/-- Of all that can go wrong in a step only a handler can report that there were too many
expansions. -/
theorem raises_of_step {more : s.rest ≠ []}
    (h : e.step s more = .error (.tooManyExpansions limit pattern)) :
    Raises e s (.tooManyExpansions limit pattern) := by
  simp only [Setting.step] at h
  split at h
  · next err hpiece =>
    obtain rfl := Except.error.inj h
    unfold Setting.piece? at hpiece
    cases htoken : e.tokenPiece? s e.dialect.tokens with
    | error err' =>
      simp only [htoken, bind, Except.bind, Except.error.injEq] at hpiece
      subst hpiece
      exact (error_of_tokenPiece? (fun _ h => h) htoken).resolve_left (by simp)
    | ok found =>
      simp only [htoken, bind, Except.bind] at hpiece
      cases found with
      | some q => simp [pure, Except.pure] at hpiece
      | none =>
        simp only [Setting.lexemePiece?] at hpiece
        split at hpiece
        · simp at hpiece
        · next lexeme n _ =>
          cases hemit : lexeme.emit s.scope (String.ofList (s.rest.take n)) (s.rest.drop n)
            e.dialect.flags e.subpatterns s.context with
          | error err' =>
            simp only [hemit, bind, Except.bind, Except.error.injEq] at hpiece
            subst hpiece
            exact absurd hemit emit_ne
          | ok answer => simp [hemit, bind, Except.bind, pure, Except.pure] at hpiece
  · split at h <;> simp at h
  · split at h
    · simp at h
    · split at h <;> simp at h

end Errors

section Steps

/-- A token or a name in braces asks that its text is read again. -/
inductive Splices (e : Setting) (s : Scan) : Scan → Prop
  | intro {p : Piece} (more : s.rest ≠ []) (hit : e.piece? s = .ok (some p))
    (again : p.reparse = true) (inside : s.place + p.length ≤ s.working.get.size) :
    Splices e s (s.splice p.length p.output p.context)

/-- The ways to move on: past what a token or a lexeme takes, past a character where a token took
none, past a piece that is copied, and past a single character. -/
inductive Advances (e : Setting) (s : Scan) : Scan → Prop
  | piece {p : Piece} (hit : e.piece? s = .ok (some p)) (kept : p.reparse = false)
    (nonempty : 0 < p.length) (inside : s.place + p.length ≤ s.working.get.size) :
    Advances e s (s.write p.length p.output s.scope p.context)
  | emptyPiece {p : Piece} (hit : e.piece? s = .ok (some p)) (kept : p.reparse = false)
    (empty : p.length = 0) (inside : s.place + 1 ≤ s.working.get.size) :
    Advances e s (s.write 1 p.output s.scope p.context)
  | copied {n : Nat} (bare : e.piece? s = .ok none) (copied : copiedLength? s.scope s.rest = some n)
    (nonempty : 0 < n) (inside : s.place + n ≤ s.working.get.size) :
    Advances e s (s.write n (s.rest.take n) s.scope s.context)
  | single {c : Char} {r : List Char} (bare : e.piece? s = .ok none) (rest : s.rest = c :: r)
    (own : copiedLength? s.scope s.rest = none)
    (settled : ¬(s.scope = .outside ∧ startsWithModifier s.rest = true))
    (inside : s.place + 1 ≤ s.working.get.size) :
    Advances e s (s.write 1 (Setting.single s.scope c).1 (Setting.single s.scope c).2 s.context)

theorem splices_iff :
    Splices e s next ↔ ∃ more : s.rest ≠ [], e.step s more = .ok (.expanded next) := by
  constructor
  · rintro ⟨more, hit, again, inside⟩
    exact ⟨more, by simp [Setting.step, hit, again]⟩
  · rintro ⟨more, h⟩
    simp only [Setting.step] at h
    split at h
    · simp at h
    · next p hit =>
      split at h
      · next again =>
        obtain rfl := Setting.Step.expanded.inj (Except.ok.inj h)
        have hle := length_le_of_piece? hit
        have hplace := s.place_add_length
        exact .intro more hit again (by omega)
      · simp at h
    · split at h
      · simp at h
      · split at h <;> simp at h

private theorem advances_of_move {n : Nat} {output : List Char} {scope : Scope} {context : Context}
    {shorter : next.rest.length < s.rest.length} {shorter'}
    (h : (.ok (.moved (s.write (max 1 n) output scope context) shorter') :
      Except Error (Setting.Step s)) = .ok (.moved next shorter)) :
    next = s.write (max 1 n) output scope context :=
  (Setting.Step.moved.inj (Except.ok.inj h)).symm

theorem Advances.exists_step (h : Advances e s next) :
    ∃ (more : s.rest ≠ []) (shorter : _), e.step s more = .ok (.moved next shorter) := by
  have hplace := s.place_add_length
  cases h with
  | @piece p hit kept nonempty inside =>
    have more : s.rest ≠ [] := List.length_pos_iff.mp (by omega)
    have hmax : max 1 p.length = p.length := by omega
    refine ⟨more, by simp; omega, ?_⟩
    simp [Setting.step, hit, kept, hmax]
  | @emptyPiece p hit kept empty inside =>
    have more : s.rest ≠ [] := List.length_pos_iff.mp (by omega)
    have hmax : max 1 p.length = 1 := by omega
    refine ⟨more, by simp; omega, ?_⟩
    simp [Setting.step, hit, kept, hmax]
  | @copied n bare copied nonempty inside =>
    have more : s.rest ≠ [] := List.length_pos_iff.mp (by omega)
    have hmax : max 1 n = n := by omega
    refine ⟨more, by simp; omega, ?_⟩
    simp [Setting.step, bare, copied, hmax]
  | @single c r bare rest own settled inside =>
    have more : s.rest ≠ [] := by simp [rest]
    have hhead : s.rest.head more = c := by simp [rest]
    refine ⟨more, by simp [rest], ?_⟩
    simp only [Setting.step, bare, own, if_neg settled, hhead]
    rfl

theorem advances_of_step {more : s.rest ≠ []} {shorter : _}
    (h : e.step s more = .ok (.moved next shorter)) : Advances e s next := by
  have hplace := s.place_add_length
  have hpos : 0 < s.rest.length := List.length_pos_iff.mpr more
  simp only [Setting.step] at h
  split at h
  · simp at h
  · next p hit =>
    have hle := length_le_of_piece? hit
    split at h
    · simp at h
    · next kept =>
      have kept : p.reparse = false := by simpa using kept
      rw [advances_of_move h]
      rcases Nat.eq_zero_or_pos p.length with hz | hp
      · have hmax : max 1 p.length = 1 := by omega
        rw [hmax]
        exact .emptyPiece hit kept hz (by omega)
      · have hmax : max 1 p.length = p.length := by omega
        rw [hmax]
        exact .piece hit kept hp (by omega)
  · next bare =>
    split at h
    · next n copied =>
      obtain ⟨hp, hle⟩ := length_le_of_copiedLength? copied
      have hmax : max 1 n = n := by omega
      rw [advances_of_move h, hmax]
      exact .copied bare copied hp (by omega)
    · next own =>
      split at h
      · simp at h
      · next settled =>
        obtain ⟨c, r, rest⟩ := List.exists_cons_of_ne_nil more
        have hhead : s.rest.head more = c := by simp [rest]
        rw [advances_of_move h, hhead]
        exact .single bare rest own settled (by omega)

theorem advances_iff :
    Advances e s next ↔
      ∃ (more : s.rest ≠ []) (shorter : _), e.step s more = .ok (.moved next shorter) :=
  ⟨Advances.exists_step, fun ⟨_, _, h⟩ => advances_of_step h⟩

/-- What a piece keeps of the context a step keeps. -/
theorem Splices.keeps {P : Context → Prop} (piece : ∀ p, e.piece? s = .ok (some p) → P p.context)
    (h : Splices e s next) : P next.context := by
  cases h with
  | intro _ hit => exact piece _ hit

theorem Advances.keeps {P : Context → Prop} (piece : ∀ p, e.piece? s = .ok (some p) → P p.context)
    (here : P s.context) (h : Advances e s next) : P next.context := by
  cases h with
  | piece hit | emptyPiece hit => exact piece _ hit
  | copied | single => exact here

/-- Where a scan stands, in bytes. -/
def Scan.byte (s : Scan) : Nat := s.working.get.byteOffset s.place

theorem Scan.byte_eq (s : Scan) : s.byte = utf8Size (s.working.get.toList.take s.place) :=
  Subject.byteOffset_eq s.place_le

theorem Scan.isBound_byte (s : Scan) : s.working.get.IsBound s.byte :=
  Subject.isBound_byteOffset s.place_le

theorem Scan.byte_le (s : Scan) : s.byte ≤ utf8Size s.working.get.toList := by
  have h := utf8Size_append (s.working.get.toList.take s.place) s.rest
  rw [s.rest_eq, List.take_append_drop] at h
  rw [s.byte_eq]
  omega

/-- `Passes s next t`: the scan moves on past the text `t`, in bytes too. -/
def Passes (s next : Scan) (t : List Char) : Prop :=
  next.working = s.working ∧ s.rest = t ++ next.rest ∧ next.byte = s.byte + utf8Size t

private theorem passes_write {n : Nat} (inside : s.place + n ≤ s.working.get.size) (w : List Char)
    (scope : Scope) (c : Context) : Passes s (s.write n w scope c) (s.rest.take n) := by
  have hplace := s.place_add_length
  have hn : (s.rest.take n).length = n := by
    rw [List.length_take]
    omega
  have hbyte : (s.write n w scope c).byte = s.working.get.byteOffset (s.place + n) := by
    change s.working.get.byteOffset (s.place + (s.rest.take n).length) = _
    rw [hn]
  refine ⟨rfl, (List.take_append_drop n s.rest).symm, ?_⟩
  rw [hbyte, Subject.byteOffset_add inside, ← s.rest_eq]
  rfl

private theorem take_ne_nil {n : Nat} (hn : 0 < n) (inside : s.place + n ≤ s.working.get.size) :
    s.rest.take n ≠ [] := by
  have hplace := s.place_add_length
  intro h
  have hl := congrArg List.length h
  rw [List.length_take, List.length_nil] at hl
  omega

theorem Advances.passes (h : Advances e s next) : ∃ t ≠ [], Passes s next t := by
  cases h with
  | piece _ _ nonempty inside => exact ⟨_, take_ne_nil nonempty inside, passes_write inside _ _ _⟩
  | emptyPiece _ _ _ inside => exact ⟨_, take_ne_nil Nat.one_pos inside, passes_write inside _ _ _⟩
  | copied _ _ nonempty inside =>
    exact ⟨_, take_ne_nil nonempty inside, passes_write inside _ _ _⟩
  | single _ _ _ _ inside => exact ⟨_, take_ne_nil Nat.one_pos inside, passes_write inside _ _ _⟩

/-- `Replaces s next t w`: the scan stays where it is, and `w` comes in the place of the text `t`
that it stands before. -/
def Replaces (s next : Scan) (t w : List Char) : Prop :=
  ∃ before after, s.working.get.toList = before ++ (t ++ after) ∧
    next.working.get.toList = before ++ (w ++ after) ∧ s.byte = utf8Size before ∧
    next.byte = s.byte ∧ next.rest = w ++ after

theorem Splices.replaces (h : Splices e s next) : ∃ t w, Replaces s next t w := by
  cases h with
  | @intro p more hit again inside =>
    let old := s.working.get.toList
    have hold : old = old.take s.place ++ (s.rest.take p.length ++ s.rest.drop p.length) := by
      rw [List.take_append_drop, s.rest_eq, List.take_append_drop]
    have hnew : (s.splice p.length p.output p.context).working.get.toList =
        old.take s.place ++ (p.output ++ s.rest.drop p.length) := by
      change (s.working.get.splice s.place p.length p.output).toList = _
      rw [Subject.toList_splice, s.rest_eq, List.drop_drop]
    have hlen : (old.take s.place).length = s.place := by
      rw [List.length_take, Subject.length_toList]
      have := s.place_le
      omega
    refine ⟨s.rest.take p.length, p.output, old.take s.place, s.rest.drop p.length, hold, hnew,
      s.byte_eq, ?_, rfl⟩
    rw [Scan.byte_eq, Scan.byte_eq, hnew]
    change utf8Size (List.take s.place _) = utf8Size (old.take s.place)
    nth_rewrite 1 [← hlen]
    rw [List.take_left]

end Steps

section Runs

variable {n k limit : Nat} {s' t : Scan} {c : Context}

/-- `Run e s n t`: from `s` the scan comes to `t` with `n` expansions. -/
inductive Run (e : Setting) : Scan → Nat → Scan → Prop
  | done (s : Scan) : Run e s 0 s
  | splice {s next t : Scan} {n : Nat} (step : Splices e s next) (tail : Run e next n t) :
    Run e s (n + 1) t
  | advance {s next t : Scan} {n : Nat} (step : Advances e s next) (tail : Run e next n t) :
    Run e s n t

theorem Run.trans (h : Run e s n s') (h' : Run e s' k t) : Run e s (n + k) t := by
  induction h with
  | done => rwa [Nat.zero_add]
  | splice step _ ih =>
    rw [Nat.add_right_comm]
    exact .splice step (ih h')
  | advance step _ ih => exact .advance step (ih h')

theorem Run.keeps {P : Context → Prop}
    (piece : ∀ q p, P q.context → e.piece? q = .ok (some p) → P p.context) (h : Run e s n t)
    (here : P s.context) : P t.context := by
  induction h with
  | done => exact here
  | splice step _ ih => exact ih (step.keeps fun p => piece _ p here)
  | advance step _ ih => exact ih (step.keeps (fun p => piece _ p here) here)

/-- A run to the end comes past every place that it stands at. -/
theorem Run.exists_piece? (h : Run e s n t) (more : s.rest ≠ []) (atEnd : t.rest = []) :
    ∃ found, e.piece? s = .ok found := by
  cases h with
  | done => exact absurd atEnd more
  | splice step =>
    cases step with
    | intro _ hit => exact ⟨_, hit⟩
  | advance step =>
    cases step with
    | piece hit | emptyPiece hit => exact ⟨_, hit⟩
    | copied bare | single bare => exact ⟨_, bare⟩

/-- What was written stays. -/
theorem Run.exists_written (h : Run e s n t) : ∃ w, t.written = s.written ++ w := by
  induction h with
  | done => exact ⟨[], (List.append_nil _).symm⟩
  | splice step _ ih =>
    obtain ⟨w, hw⟩ := ih
    cases step with
    | intro => exact ⟨w, hw⟩
  | advance step _ ih =>
    obtain ⟨w, hw⟩ := ih
    cases step <;> exact ⟨_, by rw [hw, Scan.written_write, List.append_assoc]⟩

/-- A run to the end goes on from wherever another one from the same place has come to. -/
theorem Run.split (h : Run e s n t) (h' : Run e s k s') (atEnd : s'.rest = []) :
    ∃ m, Run e t m s' := by
  induction h generalizing k with
  | done => exact ⟨k, h'⟩
  | splice step _ ih =>
    obtain ⟨more, hstep⟩ := splices_iff.mp step
    cases h' with
    | done => exact absurd atEnd more
    | splice step' tail =>
      obtain ⟨_, hstep'⟩ := splices_iff.mp step'
      obtain rfl := Setting.Step.expanded.inj (Except.ok.inj (hstep.symm.trans hstep'))
      exact ih tail
    | advance step' =>
      obtain ⟨_, _, hstep'⟩ := advances_iff.mp step'
      simp [hstep] at hstep'
  | advance step _ ih =>
    obtain ⟨more, _, hstep⟩ := advances_iff.mp step
    cases h' with
    | done => exact absurd atEnd more
    | splice step' =>
      obtain ⟨_, hstep'⟩ := splices_iff.mp step'
      simp [hstep] at hstep'
    | advance step' tail =>
      obtain ⟨_, _, hstep'⟩ := advances_iff.mp step'
      obtain rfl := Setting.Step.moved.inj (Except.ok.inj (hstep.symm.trans hstep'))
      exact ih tail

/-- How a scan that made `n` expansions up to `s` can end. -/
inductive Ends (e : Setting) (limit n : Nat) (s : Scan) : Except Error Scan → Prop
  | finished (atEnd : s.rest = []) : Ends e limit n s (.ok s)
  | failed {err : Error} {more : s.rest ≠ []} (step : e.step s more = .error err) :
    Ends e limit n s (.error err)
  | exceeded {next : Scan} (all : n = limit) (step : Splices e s next) :
    Ends e limit n s (.error (.tooManyExpansions limit e.pattern))

/-- A run takes its expansions from those that are left. -/
theorem Run.finish_eq (h : Run e s n t) (left : Nat) :
    e.finish limit (left + n) s = e.finish limit left t := by
  induction h with
  | done => rfl
  | @splice s next t n step tail ih =>
    obtain ⟨more, hstep⟩ := splices_iff.mp step
    rw [Setting.finish, dif_neg more, hstep, ← ih]
    rfl
  | @advance s next t n step tail ih =>
    obtain ⟨more, shorter, hstep⟩ := advances_iff.mp step
    rw [Setting.finish, dif_neg more, hstep, ← ih]

theorem Ends.finish_eq {result : Except Error Scan} (h : Ends e limit n s result) :
    e.finish limit (limit - n) s = result := by
  cases h with
  | finished atEnd => rw [Setting.finish, dif_pos atEnd]
  | @failed err more step => rw [Setting.finish, dif_neg more, step]
  | exceeded all step =>
    obtain ⟨more, hstep⟩ := splices_iff.mp step
    have hleft : limit - n = 0 := by omega
    rw [hleft, Setting.finish, dif_neg more, hstep]

/-- Every scan comes to an end. -/
theorem exists_ends (hn : n ≤ limit) (s : Scan) :
    ∃ k t, Run e s k t ∧ n + k ≤ limit ∧
      Ends e limit (n + k) t (e.finish limit (limit - n) s) := by
  generalize hleft : limit - n = left
  fun_induction Setting.finish e limit left s generalizing n with
  | case1 left s atEnd => exact ⟨0, s, .done s, hn, .finished atEnd⟩
  | case2 left s more err step => exact ⟨0, s, .done s, hn, .failed step⟩
  | case3 left s more next shorter step ih =>
    obtain ⟨k, t, hrun, hk, hends⟩ := ih hn hleft
    exact ⟨k, t, .advance (advances_iff.mpr ⟨more, shorter, step⟩) hrun, hk, hends⟩
  | case4 s more next step =>
    exact ⟨0, s, .done s, hn, .exceeded (by omega) (splices_iff.mpr ⟨more, step⟩)⟩
  | case5 s more next step left ih =>
    obtain ⟨k, t, hrun, hk, hends⟩ := ih (n := n + 1) (by omega) (by omega)
    have hadd : n + (k + 1) = n + 1 + k := by omega
    refine ⟨k + 1, t, .splice (splices_iff.mpr ⟨more, step⟩) hrun, by omega, ?_⟩
    rwa [hadd]

private theorem toPlain_eq (e : Setting) (limit : Nat) (c : Context) :
    e.toPlain limit c =
      (e.finish limit limit (.start e.pattern c)).map fun s => (s.written, s.context) := by
  unfold Setting.toPlain
  cases e.finish limit limit (.start e.pattern c) <;> rfl

theorem exists_run_of_toPlain {out : List Char} {c' : Context}
    (h : e.toPlain limit c = .ok (out, c')) :
    ∃ n s, Run e (.start e.pattern c) n s ∧ n ≤ limit ∧ s.rest = [] ∧ s.written = out ∧
      s.context = c' := by
  obtain ⟨n, s, hrun, hn, hends⟩ := exists_ends (e := e) limit.zero_le (.start e.pattern c)
  rw [toPlain_eq] at h
  rw [Nat.sub_zero] at hends
  cases hfinish : e.finish limit limit (.start e.pattern c) with
  | error err => simp [hfinish, Except.map] at h
  | ok s' =>
    rw [hfinish] at hends h
    cases hends with
    | finished atEnd => exact ⟨n, s, hrun, by omega, atEnd, Prod.mk.inj (Except.ok.inj h)⟩

private theorem toPlain_eq_error_iff :
    e.toPlain limit c = .error err ↔ e.finish limit limit (.start e.pattern c) = .error err := by
  rw [toPlain_eq]
  cases e.finish limit limit (.start e.pattern c) <;> simp [Except.map]

private theorem finish_eq_of_ends {result : Except Error Scan}
    (h : Run e (.start e.pattern c) n s) (hn : n ≤ limit) (hends : Ends e limit n s result) :
    e.finish limit limit (.start e.pattern c) = result := by
  have hrun : e.finish limit (limit - n + n) (.start e.pattern c) = e.finish limit (limit - n) s :=
    h.finish_eq (limit - n)
  rw [Nat.sub_add_cancel hn] at hrun
  rw [hrun, hends.finish_eq]

/-- What a run to the end wrote is the plain text. -/
theorem Run.toPlain (h : Run e (.start e.pattern c) n s) (hn : n ≤ limit) (atEnd : s.rest = []) :
    e.toPlain limit c = .ok (s.written, s.context) := by
  rw [toPlain_eq, finish_eq_of_ends h hn (.finished atEnd)]
  rfl

/-- There were too many expansions exactly where one is asked for when none is left, but for a
handler that says so by itself. -/
private theorem tooManyExpansions_iff :
    e.toPlain limit c = .error (.tooManyExpansions limit e.pattern) ↔
      (∃ s next, Run e (.start e.pattern c) limit s ∧ Splices e s next) ∨
        ∃ n s, Run e (.start e.pattern c) n s ∧ n ≤ limit ∧
          (∃ more, e.step s more = .error (.tooManyExpansions limit e.pattern)) ∧
          Raises e s (.tooManyExpansions limit e.pattern) := by
  rw [toPlain_eq_error_iff]
  constructor
  · intro h
    obtain ⟨n, s, hrun, hn, hends⟩ := exists_ends (e := e) limit.zero_le (.start e.pattern c)
    rw [Nat.sub_zero, h, Nat.zero_add] at hends
    rw [Nat.zero_add] at hn
    generalize hresult : (Except.error (.tooManyExpansions limit e.pattern) : Except Error Scan) =
      result at hends
    cases hends with
    | finished => simp at hresult
    | failed step =>
      obtain rfl := Except.error.inj hresult
      exact .inr ⟨n, s, hrun, hn, ⟨_, step⟩, raises_of_step step⟩
    | exceeded all step =>
      subst all
      exact .inl ⟨s, _, hrun, step⟩
  · rintro (⟨s, next, hrun, step⟩ | ⟨n, s, hrun, hn, ⟨more, step⟩, -⟩)
    · exact finish_eq_of_ends hrun le_rfl (.exceeded rfl step)
    · exact finish_eq_of_ends hrun hn (.failed step)

end Runs

end Patterns.Extended
