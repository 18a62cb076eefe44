import Patterns.Proofs.Progress
import Patterns.Proofs.Searches
import Patterns.Proofs.Union
import Patterns.Recipe

/-!
# Literal parts under tokens

A union reads the escaped text of a literal part like everything else, so registered tokens may take
characters of it. Where none does the compiler copies the text as it stands, whatever the flags are
and whatever comes behind it.
-/
namespace Patterns
open Patterns.Text Patterns.Extended

namespace Extended

variable {e : Setting} {s : Scan} {c : Char} {r : List Char}

section Characters

/-- An escaped character is one escape, or a character that means nothing else. -/
theorem escapeChar_cases (c : Char) :
    (∃ u : Escape, Literal.escapeChar c = '\\' :: u.letter :: u.tail) ∨
      Literal.escapeChar c = [c] ∧ isBlank c = false ∧ c ∉ Literal.metacharacters := by
  have hplain := Fragment.plain_literal (c := c)
  unfold Fragment.literal at hplain
  split at hplain
  · exact .inl ⟨_, hplain.symm⟩
  · next hblank =>
    split at hplain
    · exact .inl ⟨_, hplain.symm⟩
    · next hc =>
      refine .inr ⟨hplain.symm, ?_, hc⟩
      by_cases hspace : c = ' '
      · exact absurd (by rw [hspace]; decide) hc
      · simpa [hspace] using hblank

theorem escapeChar_ne_nil (c : Char) : Literal.escapeChar c ≠ [] := by
  rcases escapeChar_cases c with ⟨u, hu⟩ | ⟨hc, -⟩ <;> simp [*]

private theorem not_mem_of_not_mem {cs : List Char} (hcs : ∀ d ∈ cs, d ∈ Literal.metacharacters)
    (hc : c ∉ Literal.metacharacters) : c ∉ cs := fun h => hc (hcs c h)

/-- No lexeme stands before an escaped character. -/
theorem scan?_escapeChar (settings : Lexeme.Settings) :
    Lexeme.scan? settings .outside (Literal.escapeChar c ++ r) = none := by
  rcases escapeChar_cases c with ⟨u, hu⟩ | ⟨hu, hblank, hc⟩
  · rw [hu]
    exact scan?_letter u.letter_isDigit u.letter_ne
  · have hstart : c ∉ Lexeme.starters := not_mem_of_not_mem (by simp [Lexeme.starters,
      Literal.metacharacters]) hc
    have hhash : c ≠ '#' := by
      rintro rfl
      exact hc (by decide)
    rw [hu, List.singleton_append, Lexeme.scan?_of_not_mem_starters hstart,
      Lexeme.spacingLength_eq_zero (by simp [hblank, hhash])]
    simp

/-- The scan behind an escaped character. -/
def Scan.pastChar (s : Scan) (c : Char) : Scan :=
  s.write (Literal.escapeChar c).length (Literal.escapeChar c) s.scope s.context

/-- Where no token is found the compiler copies an escaped character. -/
theorem advances_pastChar (outside : s.scope = .outside)
    (rest : s.rest = Literal.escapeChar c ++ r)
    (silent : e.tokenPiece? s e.dialect.tokens = .ok none) : Advances e s (s.pastChar c) := by
  have bare : e.piece? s = .ok none := by
    have hscan := fun settings => scan?_escapeChar (c := c) (r := r) settings
    simp [Setting.piece?, silent, Setting.lexemePiece?, outside, rest, hscan, bind, Except.bind]
  have inside : s.place + (Literal.escapeChar c).length ≤ s.working.get.size := by
    have hplace := s.place_add_length
    rw [rest, List.length_append] at hplace
    omega
  rcases escapeChar_cases c with ⟨u, hu⟩ | ⟨hu, -, hc⟩
  · have copied : Copied .outside (Literal.escapeChar c) r := by
      rw [hu]
      exact .escape (u.escapeLength_eq r)
    have hlength := copied.copiedLength?
    rw [← rest, ← outside] at hlength
    have hmove :=
      Advances.copied bare hlength (List.length_pos_iff.mpr (escapeChar_ne_nil c)) inside
    rw [rest, List.take_left] at hmove
    exact hmove
  · have hplain : c ∉ ['\\', '(', '\x7b', '?', '*', '+', '[', '\x7d', ']'] :=
      not_mem_of_not_mem (by simp [Literal.metacharacters]) hc
    simp only [List.mem_cons, List.not_mem_nil, or_false, not_or] at hplain
    have hsingle : Setting.single s.scope c = ([c], s.scope) := by
      rw [outside]
      unfold Setting.single
      split <;> simp_all
    rw [hu, List.singleton_append] at rest
    have own : copiedLength? s.scope s.rest = none := by
      rw [outside, rest]
      exact copiedLength?_eq_none hplain.1 hplain.2.1 hplain.2.2.1 (.inl (by simp [hplain]))
    have settled : ¬(s.scope = .outside ∧ startsWithModifier s.rest = true) := by
      rw [rest]
      exact fun h => not_startsWithModifier hplain.2.1 h.2
    have hmove := Advances.single bare rest own settled (by simpa [hu] using inside)
    rw [hsingle] at hmove
    rwa [Scan.pastChar, hu]

end Characters

section Texts

variable {t : List Char}

/-- The scan behind an escaped text. -/
def Scan.past (s : Scan) (t : List Char) : Scan := t.foldl Scan.pastChar s

@[simp] theorem Scan.past_nil (s : Scan) : s.past [] = s := rfl

@[simp] theorem Scan.past_cons (s : Scan) (c : Char) (t : List Char) :
    s.past (c :: t) = (s.pastChar c).past t := rfl

theorem Scan.rest_pastChar (h : s.rest = Literal.escapeChar c ++ r) : (s.pastChar c).rest = r := by
  rw [pastChar, Scan.rest_write, h, List.drop_left]

theorem Scan.rest_past (h : s.rest = Literal.escapeList t ++ r) : (s.past t).rest = r := by
  induction t generalizing s with
  | nil => exact h
  | cons c t ih =>
    rw [Literal.escapeList, List.flatMap_cons, List.append_assoc] at h
    exact ih (Scan.rest_pastChar h)

theorem Scan.written_past (s : Scan) (t : List Char) :
    (s.past t).written = s.written ++ Literal.escapeList t := by
  induction t generalizing s with
  | nil => simp [Literal.escapeList]
  | cons c t ih =>
    rw [past_cons, ih, pastChar, Scan.written_write, List.append_assoc]
    rfl

/-- At no character of the text that the scan stands before a token is found. -/
def Setting.IsSilent (e : Setting) (s : Scan) (t : List Char) : Prop :=
  ∀ u c v, t = u ++ c :: v → e.tokenPiece? (s.past u) e.dialect.tokens = .ok none

theorem Setting.IsSilent.of_nil (ht : e.dialect.tokens = []) : e.IsSilent s t :=
  fun _ _ _ _ => by rw [ht]; rfl

theorem Setting.IsSilent.cons (silent : e.tokenPiece? s e.dialect.tokens = .ok none)
    (h : e.IsSilent (s.pastChar c) t) : e.IsSilent s (c :: t) := by
  intro u c' v heq
  cases u with
  | nil => exact silent
  | cons d u =>
    obtain ⟨rfl, rfl⟩ := List.cons.inj heq
    exact h u c' v rfl

/-- An escaped text is copied up to the first character where a token is found. -/
theorem exists_run_past (outside : s.scope = .outside) (rest : s.rest = Literal.escapeList t ++ r) :
    ∃ u v, t = u ++ v ∧ e.IsSilent s u ∧ Run e s 0 (s.past u) ∧
      (v = [] ∨ e.tokenPiece? (s.past u) e.dialect.tokens ≠ .ok none) := by
  induction t generalizing s with
  | nil => exact ⟨[], [], rfl, by simp [Setting.IsSilent], .done s, .inl rfl⟩
  | cons c t ih =>
    rw [Literal.escapeList, List.flatMap_cons, List.append_assoc] at rest
    by_cases silent : e.tokenPiece? s e.dialect.tokens = .ok none
    · obtain ⟨u, v, rfl, hu, hrun, hstop⟩ :=
        ih (s := s.pastChar c) outside (Scan.rest_pastChar rest)
      exact ⟨c :: u, v, rfl, .cons silent hu,
        .advance (advances_pastChar outside rest silent) hrun, hstop⟩
    · exact ⟨[], c :: t, rfl, by simp [Setting.IsSilent], .done s, .inr silent⟩

theorem run_past (outside : s.scope = .outside) (rest : s.rest = Literal.escapeList t ++ r)
    (silent : e.IsSilent s t) : Run e s 0 (s.past t) := by
  obtain ⟨u, v, rfl, -, hrun, hstop⟩ := exists_run_past (e := e) outside rest
  cases v with
  | nil => rwa [List.append_nil]
  | cons c v => exact absurd (silent u c v rfl) (hstop.resolve_left (by simp))

end Texts

section Reaching

variable {n : Nat} {next t : Scan} {p : Piece} {x taken : List Char}

/-- Where a run goes on the tokens gave no error. -/
theorem Run.exists_tokenPiece (h : Run e s n t) (more : s.rest ≠ []) (atEnd : t.rest = [])
    (heard : e.tokenPiece? s e.dialect.tokens ≠ .ok none) :
    ∃ p, e.tokenPiece? s e.dialect.tokens = .ok (some p) ∧ e.piece? s = .ok (some p) := by
  obtain ⟨found, hfound⟩ := h.exists_piece? more atEnd
  cases htoken : e.tokenPiece? s e.dialect.tokens with
  | error err => simp [Setting.piece?, htoken, bind, Except.bind] at hfound
  | ok answer =>
    cases answer with
    | none => exact absurd htoken heard
    | some p =>
      exact ⟨p, rfl, by simp [Setting.piece?, htoken, bind, Except.bind, pure, Except.pure]⟩

/-- A piece that is not read again is written. -/
theorem Run.exists_written_piece (h : Run e s n t) (more : s.rest ≠ []) (atEnd : t.rest = [])
    (hit : e.piece? s = .ok (some p)) (kept : p.reparse = false) :
    ∃ w, t.written = s.written ++ (p.output ++ w) := by
  cases h with
  | done => exact absurd atEnd more
  | splice step =>
    cases step with
    | intro _ hit' again =>
      rw [hit] at hit'
      obtain rfl := Option.some.inj (Except.ok.inj hit')
      simp [kept] at again
  | advance step tail =>
    obtain ⟨w, hw⟩ := tail.exists_written
    refine ⟨w, ?_⟩
    cases step with
    | piece hit' | emptyPiece hit' =>
      rw [hit] at hit'
      obtain rfl := Option.some.inj (Except.ok.inj hit')
      rw [hw, Scan.written_write, List.append_assoc]
    | copied bare | single bare => simp [hit] at bare

/-- `Takes e s taken next`: the step from `s` to `next` takes the text `taken`. -/
inductive Takes (e : Setting) (s : Scan) : List Char → Scan → Prop
  | advance {next : Scan} {taken : List Char} (step : Advances e s next)
    (rest : s.rest = taken ++ next.rest) : Takes e s taken next
  | splice {p : Piece} (hit : e.piece? s = .ok (some p))
    (step : Splices e s (s.splice p.length p.output p.context)) :
    Takes e s (s.rest.take p.length) (s.splice p.length p.output p.context)

/-- A step either stays in front of the text `r` or takes some of it. -/
theorem exists_takes (h : Advances e s next ∨ Splices e s next) (rest : s.rest = x ++ r) :
    (∃ y, next.rest = y ++ r) ∨ ∃ taken, Takes e s taken next ∧ x.length < taken.length := by
  rcases h with step | step
  · obtain ⟨taken, -, -, htaken, -⟩ := step.passes
    rcases Nat.lt_or_ge x.length taken.length with hlt | hle
    · exact .inr ⟨taken, .advance step htaken, hlt⟩
    · obtain ⟨y, rfl⟩ :=
        List.prefix_of_prefix_length_le ⟨_, htaken.symm⟩ ⟨_, rest.symm⟩ hle
      rw [rest, List.append_assoc, List.append_cancel_left_eq] at htaken
      exact .inl ⟨y, htaken.symm⟩
  · cases step with
    | @intro p more hit again inside =>
      rcases Nat.lt_or_ge x.length p.length with hlt | hle
      · refine .inr ⟨_, .splice hit (.intro more hit again inside), ?_⟩
        have hplace := s.place_add_length
        rw [List.length_take]
        omega
      · refine .inl ⟨p.output ++ x.drop p.length, ?_⟩
        change p.output ++ s.rest.drop p.length = _
        rw [rest, List.drop_append_of_le_length hle, List.append_assoc]

/-- A run to the end comes to the text `r`, unless a step that begins before it takes some of it. -/
theorem Run.exists_before (h : Run e s n t) (atEnd : t.rest = []) (rest : s.rest = x ++ r) :
    ∃ k s' y, Run e s k s' ∧ s'.rest = y ++ r ∧
      (y = [] ∨ ∃ taken next, Takes e s' taken next ∧ y.length < taken.length) := by
  induction h generalizing x with
  | done s =>
    obtain ⟨rfl, -⟩ := List.append_eq_nil_iff.mp (rest.symm.trans atEnd)
    exact ⟨0, s, [], .done s, rest, .inl rfl⟩
  | @splice s next t n step tail ih =>
    rcases exists_takes (.inr step) rest with ⟨y, hy⟩ | ⟨taken, htakes, hlt⟩
    · obtain ⟨k, s', y', hrun, hrest, hend⟩ := ih atEnd hy
      exact ⟨k + 1, s', y', .splice step hrun, hrest, hend⟩
    · exact ⟨0, s, x, .done s, rest, .inr ⟨taken, next, htakes, hlt⟩⟩
  | @advance s next t n step tail ih =>
    rcases exists_takes (.inl step) rest with ⟨y, hy⟩ | ⟨taken, htakes, hlt⟩
    · obtain ⟨k, s', y', hrun, hrest, hend⟩ := ih atEnd hy
      exact ⟨k, s', y', .advance step hrun, hrest, hend⟩
    · exact ⟨0, s, x, .done s, rest, .inr ⟨taken, next, htakes, hlt⟩⟩

end Reaching

end Extended

section Compilation

variable {d : Dialect} {w : Surroundings} {limit : Nat} {pattern flags : String} {m : Matcher}

theorem exists_toPlain_of_compile (h : Extended.compile d w limit pattern flags none = .ok m) :
    ∃ out c, Setting.toPlain ⟨d, w, none, pattern⟩ limit (.ofFlags flags) = .ok (out, c) ∧
      m.source = String.ofList out := by
  have hv := validate_of_compile h
  cases hplain : Setting.toPlain ⟨d, w, none, pattern⟩ limit (.ofFlags flags) with
  | error err =>
    rw [compile_of_toPlain_error hv hplain] at h
    simp at h
  | ok answer =>
    obtain ⟨out, c⟩ := answer
    rw [compile_of_toPlain hv hplain] at h
    exact ⟨out, c, rfl, (Matcher.eq_of_ofCompiled h).1⟩

end Compilation

section Joining

variable {α β : Type}

private theorem intercalate_cons (mark x : List α) (l : List (List α)) :
    mark.intercalate (x :: l) = x ++ l.flatMap (mark ++ ·) := by
  induction l generalizing x with
  | nil => simp
  | cons y l ih =>
    rw [List.intercalate_cons_cons, ih]
    simp

private theorem intercalate_append_cons (mark x : List α) (l l' : List (List α)) :
    mark.intercalate (l ++ x :: l') =
      l.flatMap (· ++ mark) ++ (x ++ l'.flatMap (mark ++ ·)) := by
  induction l with
  | nil => exact intercalate_cons mark x l'
  | cons y l ih =>
    obtain ⟨z, rest, hz⟩ := List.exists_cons_of_ne_nil (List.append_ne_nil_of_right_ne_nil l
      (List.cons_ne_nil x l'))
    rw [List.cons_append, hz, List.intercalate_cons_cons, ← hz, ih]
    simp

private theorem exists_of_forall₂_append_cons {R : α → β → Prop} {a : α}
    {l l' : List α} {ys : List β} (h : List.Forall₂ R (l ++ a :: l') ys) :
    ∃ front b back, ys = front ++ b :: back ∧ List.Forall₂ R l front ∧ R a b ∧
      List.Forall₂ R l' back := by
  have hflip := h.flip
  obtain ⟨b, back, hab, hback, hdrop⟩ :=
    List.forall₂_cons_right_iff.mp (List.forall₂_drop_append _ _ _ hflip)
  refine ⟨ys.take l.length, b, back, ?_, (List.forall₂_take_append _ _ _ hflip).flip, hab,
    hback.flip⟩
  rw [← hdrop, List.take_append_drop]

end Joining

namespace Engine

variable {g : Engine} {ps qs : List Needle} {flags t : String} {conjunction : Conjunction}
  {m : Matcher}

/-- A literal part is written escaped. -/
def IsWritten (p : Needle) (text : List Char) : Prop :=
  ∀ t, p = .text t → text = Literal.escapeList t.toList

/-- Whatever state the engine is in, a compilation changes nothing but the trace. -/
theorem exists_run_compile (g : Engine) (pattern flags : String) :
    ∃ trace result, (compile pattern flags).run.run g = (result, { g with trace }) ∧
      ∀ m, result = .ok m →
        Extended.compile g.dialect g.surroundings g.reparseLimit pattern flags none = .ok m := by
  rcases Bool.eq_false_or_eq_true g.compiling with hc | hc
  · exact ⟨g.trace, .error .nestedCompile, run_compile_of_compiling hc pattern flags, by simp⟩
  · obtain ⟨trace, hrun⟩ := exists_run_compileWith hc pattern flags none
    exact ⟨trace, _, hrun, fun m h => h⟩

theorem exists_texts (g : Engine) (prior : Nat) (ps : List Needle) :
    ∃ trace result, (unionParts prior ps).run.run g = (result, { g with trace }) ∧
      ∀ texts, result = .ok texts → List.Forall₂ IsWritten ps (texts.map String.toList) := by
  induction ps generalizing g prior with
  | nil => exact ⟨g.trace, .ok [], rfl, fun texts h => by
      obtain rfl := Except.ok.inj h
      exact .nil⟩
  | cons p ps ih =>
    cases p with
    | text t =>
      obtain ⟨trace, result, hrun, hwritten⟩ := ih g prior
      rw [unionParts, run_bind, hrun]
      cases result with
      | error err => exact ⟨trace, .error err, rfl, by simp⟩
      | ok texts =>
        refine ⟨trace, .ok (Literal.escape t :: texts), rfl, fun texts' h => ?_⟩
        obtain rfl := Except.ok.inj h
        refine .cons (fun t' h => ?_) (hwritten texts rfl)
        obtain rfl := Needle.text.inj h
        exact String.toList_ofList
    | matcher m =>
      obtain ⟨trace, result, hrun, -⟩ := exists_run_compile g m.source ""
      rw [unionParts, run_bind, hrun]
      cases result with
      | error err => exact ⟨trace, .error err, rfl, by simp⟩
      | ok again =>
        obtain ⟨trace', result, hrun', hwritten⟩ := ih { g with trace }
          (prior + (mergeNames m.names again.names).length)
        simp only [run_bind, hrun']
        cases result with
        | error err => exact ⟨trace', .error err, rfl, by simp⟩
        | ok texts =>
          refine ⟨trace', .ok (_ :: texts), rfl, fun texts' h => ?_⟩
          obtain rfl := Except.ok.inj h
          exact .cons (fun t' h => by simp at h) (hwritten texts rfl)

/-- The pattern of a union holds the escaped text of each literal part in its place. -/
theorem exists_pattern
    (h : ((union (ps ++ .text t :: qs) flags conjunction).run.run g).1 = .ok m) :
    ∃ (pattern : String) (front back : List (List Char)),
      List.Forall₂ IsWritten ps front ∧ List.Forall₂ IsWritten qs back ∧
      pattern.toList = front.flatMap (· ++ Fragments.text conjunction.mark) ++
        (Literal.escapeList t.toList ++ back.flatMap (Fragments.text conjunction.mark ++ ·)) ∧
      Extended.compile g.dialect g.surroundings g.reparseLimit pattern flags none = .ok m := by
  obtain ⟨trace, result, hrun, hwritten⟩ := exists_texts g 0 (ps ++ .text t :: qs)
  rw [union_eq (by simp), run_bind, hrun] at h
  cases result with
  | error err => simp at h
  | ok texts =>
    obtain ⟨front, text, back, htexts, hfront, htext, hback⟩ :=
      exists_of_forall₂_append_cons (hwritten texts rfl)
    obtain ⟨trace', result, hrun', hcompile⟩ := exists_run_compile { g with trace }
      ((String.ofList (Fragments.text conjunction.mark)).intercalate texts) flags
    refine ⟨_, front, back, hfront, hback, ?_,
      hcompile m ((congrArg Prod.fst hrun').symm.trans h)⟩
    rw [String.toList_intercalate, htexts, htext t rfl, intercalate_append_cons,
      String.toList_ofList]

/-- The matcher of the text `a` finds it. -/
private theorem exists_letter : ∃ a : Matcher, Matcher.literal "a" = .ok a ∧
    ∃ hit, a.searchAt (.ofString "a") 0 true = .ok (some hit) ∧ hit.1.start = 0 ∧
      hit.1.stop = 1 := by
  have hescape : Literal.escape "a" = "a" := by decide
  obtain ⟨a, ha, hsource, hflags⟩ := Matcher.exists_plain "a" "" {} rfl (by decide +kernel)
  have hanchor : (a.anchoring (.ofString "a") 0).map (fun f => (f.val.stop, f.val.groups)) =
      some (1, []) := Matcher.anchoring_of_search (by rw [hsource, hflags]; decide +kernel)
  obtain ⟨f, hf, hend⟩ := Option.map_eq_some_iff.mp hanchor
  refine ⟨a, by rw [Matcher.literal, hescape, ha], ⟨f.val, Nat.zero_le _⟩,
    Matcher.searchAt_of_some (Matcher.find_of_anchoring hf) _, f.property, ?_⟩
  exact congrArg Prod.fst hend

/-- Wherever the reading of a union comes to a literal part, and not to a class that was left open,
the part is copied as its escaped text if no token is found in it. Otherwise the text up to the
first character where one is found is copied, and then stands what the token writes. -/
theorem union_literal
    (h : ((union (ps ++ .text t :: qs) flags conjunction).run.run g).1 = .ok m) :
    ∃ (pattern : String) (front back : List (List Char)),
      List.Forall₂ IsWritten ps front ∧ List.Forall₂ IsWritten qs back ∧
      let e : Setting := ⟨g.dialect, g.surroundings, none, pattern⟩
      let rest := Literal.escapeList t.toList ++ back.flatMap (Fragments.text conjunction.mark ++ ·)
      pattern.toList = front.flatMap (· ++ Fragments.text conjunction.mark) ++ rest ∧
      (∃ k s x, Run e (.start pattern (.ofFlags flags)) k s ∧ s.rest = x ++ rest ∧
        (x = [] ∨ ∃ taken next, Takes e s taken next ∧ x.length < taken.length)) ∧
      ∀ k s, Run e (.start pattern (.ofFlags flags)) k s → s.rest = rest → s.scope = .outside →
        (e.IsSilent s t.toList →
          ∃ w, m.source.toList = s.written ++ (Literal.escapeList t.toList ++ w)) ∧
        (¬e.IsSilent s t.toList →
          ∃ u c v token p, t.toList = u ++ c :: v ∧ e.IsSilent s u ∧ token ∈ g.dialect.tokens ∧
            Hits e (s.past u) token p ∧
            (p.reparse = false →
              ∃ w, m.source.toList = s.written ++ (Literal.escapeList u ++ (p.output ++ w)))) := by
  obtain ⟨pattern, front, back, hfront, hback, hpattern, hcompile⟩ := exists_pattern h
  obtain ⟨out, c, hplain, hsource⟩ := exists_toPlain_of_compile hcompile
  obtain ⟨n, stop, hrun, -, atEnd, hout, -⟩ := exists_run_of_toPlain hplain
  have hwritten : m.source.toList = stop.written := by
    rw [hsource, String.toList_ofList, hout]
  refine ⟨pattern, front, back, hfront, hback, hpattern, hrun.exists_before atEnd hpattern,
    fun k s hs rest outside => ⟨fun silent => ?_, fun heard => ?_⟩⟩
  · obtain ⟨_, htail⟩ := (hs.trans (run_past outside rest silent)).split hrun atEnd
    obtain ⟨w, hw⟩ := htail.exists_written
    exact ⟨w, by rw [hwritten, hw, Scan.written_past, List.append_assoc]⟩
  · obtain ⟨u, v, huv, hu, hpast, hstop⟩ := exists_run_past
      (e := ⟨g.dialect, g.surroundings, none, pattern⟩) outside rest
    cases v with
    | nil => exact absurd (by rwa [huv, List.append_nil]) heard
    | cons c v =>
      obtain ⟨_, htail⟩ := (hs.trans hpast).split hrun atEnd
      rw [huv, Literal.escapeList_append, List.append_assoc] at rest
      have more : (s.past u).rest ≠ [] := by
        rw [Scan.rest_past rest]
        simp [Literal.escapeList, escapeChar_ne_nil]
      obtain ⟨p, htoken, hpiece⟩ :=
        htail.exists_tokenPiece more atEnd (hstop.resolve_left (by simp))
      obtain ⟨token, hmem, hits⟩ := exists_hits_of_tokenPiece? htoken
      refine ⟨u, c, v, token, p, huv, hu, hmem, hits, fun kept => ?_⟩
      obtain ⟨w, hw⟩ := htail.exists_written_piece more atEnd hpiece kept
      exact ⟨w, by rw [hwritten, hw, Scan.written_past, List.append_assoc]⟩

theorem union_literal_first :
    ∃ (m : Matcher) (w : List Char),
      ((union [.text "a.", .text "b"] "im" .or).run.run {}).1 = .ok m ∧
      m.source.toList = Literal.escapeList "a.".toList ++ w := by
  have hfalls : List.Forall₂ Needle.FallsInto [.text "a.", .text "b"]
      [Fragments.literal "a.".toList, Fragments.literal "b".toList] :=
    .cons (.text "a.") (.cons (.text "b") .nil)
  obtain ⟨pattern, -, hrun⟩ := exists_run_union_of_fit (g := {}) "im" .or rfl rfl (by simp) hfalls
    (Fragments.fit_bars (Needle.fit_of_forall₂ hfalls) 0) (by decide) (by simp [PlainFlags.letters])
    (by decide)
  obtain ⟨m, hm⟩ : ∃ m, Matcher.ofCompiled "a\\.|b" (.ofList ['i', 'm']) [] pattern "im" = .ok m :=
    Matcher.exists_ofCompiled pattern "im" (by decide +kernel)
  have hm' : ((union [.text "a.", .text "b"] "im" .or).run.run {}).1 = .ok m := by
    rw [hrun]
    exact hm
  obtain ⟨pattern', front, back, hfront, -, hpattern, -, hread⟩ :=
    @union_literal {} [] [.text "b"] "im" "a." .or m hm'
  obtain rfl := List.forall₂_nil_left_iff.mp hfront
  have hstart : (Scan.start pattern' (.ofFlags "im")).rest = Literal.escapeList "a.".toList ++
      back.flatMap (Fragments.text Conjunction.or.mark ++ ·) := hpattern
  obtain ⟨w, hw⟩ := (hread 0 _ (.done _) hstart rfl).1 (Setting.IsSilent.of_nil rfl)
  exact ⟨m, w, hm', hw⟩

/-- A token that matches `a` and writes `b` does so in a literal part too. -/
theorem union_literal_replaced :
    ∃ (a m : Matcher) (g : Engine), Matcher.literal "a" = .ok a ∧
      (registerToken a (handlerRecipe [.view (.text "b")]) {}).run.run { extensible := true } =
        (.ok (), g) ∧
      ((union [.text "a"] "" .or).run.run g).1 = .ok m ∧ m.source = "b" ∧
      ¬Literal.escapeList "a".toList <:+: m.source.toList := by
  obtain ⟨a, ha, hit, hhit, hstart, hstop⟩ := exists_letter
  let handler : Handler := handlerRecipe [.view (.text "b")]
  have handled (o : Occurrence) (c : Context) : handler o c = .ok ("b", .here c) := by
    simp [handler, handlerRecipe, HandlerPart.writeAll, HandlerPart.write, MatchPart.write, bind,
      Except.bind, pure, Except.pure]
  let token : Token := ⟨a, handler, .outside, none, none, false⟩
  obtain ⟨g, hg, idle, hregister⟩ : ∃ g : Engine, g.dialect = { tokens := [token] } ∧
      g.compiling = false ∧
      (registerToken a handler {}).run.run { extensible := true } = (.ok (), g) :=
    ⟨_, rfl, rfl, rfl⟩
  let e : Setting := ⟨g.dialect, g.surroundings, none, "a"⟩
  have hpiece : e.piece? (.start "a" (.ofFlags "")) =
      .ok (some ⟨1, ['b'], .ofFlags "", false⟩) := by
    have htoken : e.tokenPiece? (.start "a" (.ofFlags "")) [token] = _ :=
      tokenPiece?_cons rfl hhit (handled _ _)
    rw [hstart, hstop] at htoken
    rw [Setting.piece?, show e.dialect.tokens = [token] from congrArg Dialect.tokens hg, htoken]
    rfl
  have hplain : e.toPlain g.reparseLimit (.ofFlags "") = .ok (['b'], .ofFlags "") :=
    (Run.advance (.piece hpiece rfl (by decide) (by decide)) (.done _)).toPlain (Nat.zero_le _) rfl
  obtain ⟨m, hm⟩ : ∃ m, Matcher.ofCompiled "b" {} [] "a" "" = .ok m :=
    Matcher.exists_ofCompiled "a" "" (by decide +kernel)
  have hsource := (Matcher.eq_of_ofCompiled hm).1
  refine ⟨a, m, g, ha, hregister, ?_, hsource, by rw [hsource]; decide⟩
  obtain ⟨trace, hcompile⟩ := exists_run_compileWith idle "a" "" none
  have hpattern : (String.ofList (Fragments.text Conjunction.or.mark)).intercalate
      [Literal.escape "a"] = "a" := by decide
  have hunion : (union [.text "a"] "" .or).run.run g = (compile "a" "").run.run g := by
    rw [← hpattern, union_eq (by simp), run_bind]
    rfl
  rw [hunion, compile, hcompile,
    compile_of_toPlain (validate_of_letters (by simp) (by simp) _) hplain]
  exact hm

end Engine

end Patterns
