import Patterns.Proofs.Copies
import Patterns.Proofs.Emission

/-!
# Readings

Where a dialect has no tokens of its own, a step depends on the text that is left, the scope, the
context, and whether it is the first; `Spot` holds these. `Setting.move?` is the step between
spots, `Moves` says what it can be, and a `Reading` is a run of moves. A pattern has a plain text
exactly when a reading goes from its start to its end within the limit of expansions.
-/
namespace Patterns.Extended
open Patterns.Text

structure Spot where
  atStart : Bool
  rest : List Char
  scope : Scope
  context : Context

namespace Spot

def start (pattern : List Char) (c : Context) : Spot := ⟨true, pattern, .outside, c⟩

def withRest (p : Spot) (rest : List Char) : Spot := { p with rest }

end Spot

/-- Where a scan stands. -/
def Scan.spot (s : Scan) : Spot := ⟨s.place = 0, s.rest, s.scope, s.context⟩

@[simp] theorem Scan.spot_rest (s : Scan) : s.spot.rest = s.rest := rfl

@[simp] theorem Scan.spot_scope (s : Scan) : s.spot.scope = s.scope := rfl

@[simp] theorem Scan.spot_context (s : Scan) : s.spot.context = s.context := rfl

inductive Move where
  | read (text output : List Char) (next : Spot)
  | expand (next : Spot)

namespace Move

def next : Move → Spot
  | .read _ _ next | .expand next => next

def text : Move → List Char
  | .read text _ _ => text
  | .expand _ => []

def output : Move → List Char
  | .read _ output _ => output
  | .expand _ => []

def isExpansion : Move → Bool
  | .read .. => false
  | .expand _ => true

end Move

namespace Setting

def lexemeSettings (e : Setting) (p : Spot) : Lexeme.Settings :=
  { atStart := p.atStart, spaced := p.context.hasFlag 'x', dotAll := p.context.hasFlag 's',
    building := e.subpatterns.isSome }

/-- The move from a spot; there is none from the end. -/
def move? (e : Setting) (p : Spot) : Except Error (Option Move) :=
  match Lexeme.scan? (e.lexemeSettings p) p.scope p.rest with
  | some (lexeme, n) =>
    match lexeme.emit p.scope (String.ofList (p.rest.take n)) (p.rest.drop n) e.dialect.flags
      e.subpatterns p.context with
    | .error err => .error err
    | .ok (output, context) =>
      if lexeme.isReparsed then
        .ok (some (.expand ⟨p.atStart, output ++ p.rest.drop n, p.scope, context⟩))
      else .ok (some (.read (p.rest.take n) output ⟨false, p.rest.drop n, p.scope, context⟩))
  | none =>
    match copiedLength? p.scope p.rest with
    | some n =>
      .ok (some (.read (p.rest.take n) (p.rest.take n) ⟨false, p.rest.drop n, p.scope, p.context⟩))
    | none =>
      if p.scope = .outside ∧ startsWithModifier p.rest then .error (.strayModifier e.pattern)
      else
        match p.rest with
        | [] => .ok none
        | c :: rest =>
          .ok (some (.read [c] (single p.scope c).1 ⟨false, rest, (single p.scope c).2, p.context⟩))

end Setting

variable {e : Setting} {p q : Spot} {m : Move}

/-- What a move can be. -/
inductive Moves (e : Setting) (p : Spot) : Move → Prop
  | lexeme {lexeme : Lexeme} {t r w : List Char} {c : Context} (rest : p.rest = t ++ r)
    (spelled : lexeme.Spelled (e.lexemeSettings p) p.scope t r) (kept : lexeme.isReparsed = false)
    (emitted : lexeme.Emits p.scope (String.ofList t) r e.dialect.flags e.subpatterns p.context w
      c) :
    Moves e p (.read t w ⟨false, r, p.scope, c⟩)
  | subpattern {name r : List Char} {text : String}
    (rest : p.rest = '\x7b' :: '\x7b' :: (name ++ ['\x7d', '\x7d']) ++ r)
    (isName : IsName name) (building : e.subpatterns.isSome = true)
    (found : (e.subpatterns.getD []).lookup (String.ofList name) = some text) :
    Moves e p (.expand (p.withRest (['(', '?', ':'] ++ text.toList ++ [')'] ++ r)))
  | copied {t r : List Char} (rest : p.rest = t ++ r)
    (bare : Lexeme.scan? (e.lexemeSettings p) p.scope p.rest = none)
    (copied : Copied p.scope t r) :
    Moves e p (.read t t ⟨false, r, p.scope, p.context⟩)
  | single {c : Char} {r : List Char} (rest : p.rest = c :: r)
    (bare : Lexeme.scan? (e.lexemeSettings p) p.scope p.rest = none)
    (own : copiedLength? p.scope p.rest = none)
    (settled : ¬(p.scope = .outside ∧ startsWithModifier p.rest = true)) :
    Moves e p (.read [c] (Setting.single p.scope c).1
      ⟨false, r, (Setting.single p.scope c).2, p.context⟩)

private theorem moves_of_reparsed {lexeme : Lexeme} {t r w : List Char} {c : Context}
    (rest : p.rest = t ++ r) (spelled : lexeme.Spelled (e.lexemeSettings p) p.scope t r)
    (reparsed : lexeme.isReparsed = true)
    (emitted : lexeme.Emits p.scope (String.ofList t) r e.dialect.flags e.subpatterns p.context w
      c) : Moves e p (.expand ⟨p.atStart, w ++ r, p.scope, c⟩) := by
  cases emitted with
  | subpattern found =>
    obtain ⟨_, _, scope, _⟩ := p
    cases spelled with
    | subpattern building isName => exact .subpattern rest isName building found
  | _ => simp [Lexeme.isReparsed] at reparsed

theorem moves_of_move? (h : e.move? p = .ok (some m)) : Moves e p m := by
  unfold Setting.move? at h
  split at h
  · next lexeme n hs =>
    obtain ⟨t, r, hr, rfl, spelled⟩ := Lexeme.spelled_of_scan? hs
    rw [hr, List.take_left, List.drop_left] at h
    split at h
    · simp at h
    · next w c he =>
      split at h
      · next hx =>
        obtain rfl := Option.some.inj (Except.ok.inj h)
        exact moves_of_reparsed hr spelled hx (Lexeme.emits_of_emit he)
      · next hx =>
        obtain rfl := Option.some.inj (Except.ok.inj h)
        exact .lexeme hr spelled (by simpa using hx) (Lexeme.emits_of_emit he)
  · next hs =>
    split at h
    · next n hc =>
      obtain ⟨t, r, hr, rfl, copied⟩ := copied_of_copiedLength? hc
      rw [hr, List.take_left, List.drop_left] at h
      obtain rfl := Option.some.inj (Except.ok.inj h)
      exact .copied hr hs copied
    · next hc =>
      split at h
      · simp at h
      · next hm =>
        split at h
        · simp at h
        · next c r hr =>
          obtain rfl := Option.some.inj (Except.ok.inj h)
          exact .single hr hs hc hm

theorem Moves.move? (h : Moves e p m) : e.move? p = .ok (some m) := by
  cases h with
  | lexeme rest spelled kept emitted =>
    have hs := spelled.scan?
    rw [← rest] at hs
    simp only [Setting.move?, hs]
    rw [rest, List.take_left, List.drop_left, emitted.emit]
    simp [kept]
  | @subpattern name r text rest isName building found =>
    have spelled : (Lexeme.subpattern name).Spelled (e.lexemeSettings p) p.scope _ r :=
      .subpattern building isName
    have hs := spelled.scan?
    rw [← rest] at hs
    simp only [Setting.move?, hs]
    rw [rest, List.drop_left]
    simp [Lexeme.emit, found, Lexeme.isReparsed, Spot.withRest]
  | copied rest bare copied =>
    have hc := copied.copiedLength?
    rw [← rest] at hc
    simp only [Setting.move?, bare, hc]
    rw [rest, List.take_left, List.drop_left]
  | single rest bare own settled =>
    simp only [Setting.move?, bare, own, if_neg settled]
    rw [rest]

/-- Past the start a move that reads leaves less text. -/
theorem Moves.text_ne_nil {t w : List Char} (h : Moves e p (.read t w q)) :
    t ≠ [] ∧ p.rest = t ++ q.rest ∧ q.atStart = false := by
  cases h with
  | lexeme rest spelled => exact ⟨spelled.ne_nil, rest, rfl⟩
  | copied rest _ copied => exact ⟨copied.ne_nil, rest, rfl⟩
  | single rest => exact ⟨by simp, rest, rfl⟩

/-- There is no move from the end, and a move or an error from any other spot. -/
theorem move?_eq_none_iff : e.move? p = .ok none ↔ p.rest = [] := by
  constructor
  · intro h
    unfold Setting.move? at h
    split at h
    · split at h
      · simp at h
      · split at h <;> simp at h
    · split at h
      · simp at h
      · split at h
        · simp at h
        · split at h
          · assumption
          · simp at h
  · intro h
    obtain ⟨_, _, scope, _⟩ := p
    obtain rfl : _ = [] := h
    cases scope <;> simp [Setting.move?, Lexeme.scan?, Lexeme.spacingLength, copiedLength?,
      quantifierLength?, startsWithModifier]

abbrev History := List (Spot × Move)

/-- `Reading e p ms q`: from `p` the moves `ms`, each with the spot that it is made from, lead
to `q`. -/
inductive Reading (e : Setting) : Spot → History → Spot → Prop
  | done (p : Spot) : Reading e p [] p
  | step {p q : Spot} {m : Move} {ms : History} (move : e.move? p = .ok (some m))
    (tail : Reading e m.next ms q) : Reading e p ((p, m) :: ms) q

/-- What a reading writes. -/
def written (ms : History) : List Char := ms.flatMap (·.2.output)

/-- What a reading reads, with the subpatterns that it expands in their places. -/
def textRead (ms : History) : List Char := ms.flatMap (·.2.text)

def expansions (ms : History) : Nat := ms.countP (·.2.isExpansion)

section History

variable {ms ms' : History} {r : Spot}

@[simp] theorem written_nil : written [] = [] := rfl

@[simp] theorem written_cons (p : Spot) (m : Move) (ms : History) :
    written ((p, m) :: ms) = m.output ++ written ms := rfl

@[simp] theorem written_append (ms ms' : History) :
    written (ms ++ ms') = written ms ++ written ms' := by simp [written]

@[simp] theorem textRead_nil : textRead [] = [] := rfl

@[simp] theorem textRead_cons (p : Spot) (m : Move) (ms : History) :
    textRead ((p, m) :: ms) = m.text ++ textRead ms := rfl

@[simp] theorem expansions_nil : expansions [] = 0 := rfl

@[simp] theorem expansions_cons (p : Spot) (m : Move) (ms : History) :
    expansions ((p, m) :: ms) = expansions ms + if m.isExpansion then 1 else 0 := by
  simp [expansions, List.countP_cons]

@[simp] theorem expansions_append (ms ms' : History) :
    expansions (ms ++ ms') = expansions ms + expansions ms' := by simp [expansions]

theorem Reading.trans (h : Reading e p ms q) (h' : Reading e q ms' r) :
    Reading e p (ms ++ ms') r := by
  induction h with
  | done => exact h'
  | step move _ ih => exact .step move (ih h')

/-- Where nothing is expanded the text that is read stands in front of the rest. -/
theorem Reading.rest_eq (h : Reading e p ms q) (hx : expansions ms = 0) :
    p.rest = textRead ms ++ q.rest := by
  induction h with
  | done => rfl
  | @step p q m ms move tail ih =>
    have hm := moves_of_move? move
    cases m with
    | read t w p' =>
      obtain ⟨-, hrest, -⟩ := hm.text_ne_nil
      rw [hrest, textRead_cons, List.append_assoc, ← ih (by simpa [Move.isExpansion] using hx)]
      rfl
    | expand p' => simp [Move.isExpansion] at hx

theorem Reading.moves_of_mem (h : Reading e p ms q) (hm : (r, m) ∈ ms) : Moves e r m := by
  induction h with
  | done => simp at hm
  | step move _ ih =>
    rcases List.mem_cons.mp hm with he | hm
    · obtain ⟨rfl, rfl⟩ := Prod.mk.inj he
      exact moves_of_move? move
    · exact ih hm

/-- A reading to the end goes on from wherever another one of the same text has come to. -/
theorem Reading.split (h : Reading e p ms q) (h' : Reading e p ms' r) (hr : r.rest = []) :
    ∃ ms'', ms' = ms ++ ms'' ∧ Reading e q ms'' r := by
  induction h generalizing ms' with
  | done => exact ⟨ms', rfl, h'⟩
  | @step p q m ms move tail ih =>
    cases h' with
    | done => simp [move?_eq_none_iff.mpr hr] at move
    | @step _ _ m' ms' move' tail' =>
      obtain rfl : m' = m := by simpa [move] using move'.symm
      obtain ⟨ms'', rfl, h⟩ := ih tail'
      exact ⟨ms'', rfl, h⟩

theorem Reading.unique (h : Reading e p ms q) (hq : q.rest = []) (h' : Reading e p ms' r)
    (hr : r.rest = []) : ms' = ms ∧ r = q := by
  obtain ⟨rest, rfl, hrest⟩ := h.split h' hr
  cases hrest with
  | done => exact ⟨List.append_nil _, rfl⟩
  | step move => simp [move?_eq_none_iff.mpr hq] at move

end History

section Scans

variable {s : Scan} {err : Error} {t w : List Char}

private theorem piece?_eq (ht : e.dialect.tokens = []) : e.piece? s =
    match Lexeme.scan? (e.lexemeSettings s.spot) s.scope s.rest with
    | none => .ok none
    | some (lexeme, n) =>
      match lexeme.emit s.scope (String.ofList (s.rest.take n)) (s.rest.drop n) e.dialect.flags
        e.subpatterns s.context with
      | .error err => .error err
      | .ok (w, c) => .ok (some ⟨n, w, c, lexeme.isReparsed⟩) := by
  simp only [Setting.piece?, ht, Setting.tokenPiece?, Setting.lexemePiece?, Setting.lexemeSettings,
    Scan.spot]
  change (match Lexeme.scan? _ _ _ with | none => _ | some (lexeme, n) => _) = _
  split
  · rfl
  · next lexeme n _ =>
    cases lexeme.emit s.scope (String.ofList (s.rest.take n)) (s.rest.drop n) e.dialect.flags
      e.subpatterns s.context <;> rfl

/-- Where a move fails the step of the scan fails in the same way. -/
theorem step_of_error (ht : e.dialect.tokens = []) (more : s.rest ≠ [])
    (h : e.move? s.spot = .error err) : e.step s more = .error err := by
  have hp := piece?_eq (s := s) ht
  unfold Setting.step
  unfold Setting.move? at h
  split at h
  · next lexeme n hs =>
    split at h
    · next he =>
      obtain rfl := Except.error.inj h
      simp only [Scan.spot_rest, Scan.spot_scope, Scan.spot_context] at hs he
      rw [hs] at hp
      simp only [he] at hp
      rw [hp]
    · split at h <;> simp at h
  · next hs =>
    simp only [Scan.spot_rest, Scan.spot_scope] at hs
    rw [hs] at hp
    split at h
    · simp at h
    · next hc =>
      simp only [Scan.spot_rest, Scan.spot_scope] at hc
      split at h
      · next hm =>
        obtain rfl := Except.error.inj h
        simp only [Scan.spot_rest, Scan.spot_scope] at hm
        simp only [hp, hc, if_pos hm]
      · split at h <;> simp at h

private theorem spot_write {r : List Char} (hne : t ≠ []) (hr : s.rest = t ++ r) (w : List Char)
    (scope : Scope) (c : Context) :
    (s.write (max 1 t.length) w scope c).spot = ⟨false, r, scope, c⟩ := by
  have hpos : 0 < t.length := List.length_pos_iff.mpr hne
  have hmax : max 1 t.length = t.length := by omega
  simp only [Scan.spot, Scan.write, hmax, hr, List.take_left, List.drop_left, Spot.mk.injEq,
    decide_eq_false_iff_not, and_true]
  omega

/-- Where a move reads the scan moves on and writes the same. -/
theorem step_of_read (ht : e.dialect.tokens = []) (more : s.rest ≠ [])
    (h : e.move? s.spot = .ok (some (.read t w q))) :
    ∃ next shorter, e.step s more = .ok (.moved next shorter) ∧ next.spot = q ∧
      next.written = s.written ++ w := by
  have hp := piece?_eq (s := s) ht
  unfold Setting.step
  generalize hm : Move.read t w q = m at h
  cases moves_of_move? h with
  | @lexeme lexeme _ r _ c rest spelled kept emitted =>
    simp only [Move.read.injEq] at hm
    obtain ⟨rfl, rfl, rfl⟩ := hm
    have hs := spelled.scan?
    have hemit := emitted.emit
    rw [← rest] at hs
    simp only [Scan.spot_rest, Scan.spot_scope, Scan.spot_context] at rest hs hemit
    rw [hs, rest] at hp
    simp only [List.take_left, List.drop_left, hemit, kept] at hp
    rw [hp]
    exact ⟨_, _, rfl, spot_write spelled.ne_nil rest _ _ _, Scan.written_write _ _ _ _ _⟩
  | subpattern => simp at hm
  | @copied _ r rest bare copied =>
    simp only [Move.read.injEq] at hm
    obtain ⟨rfl, rfl, rfl⟩ := hm
    have hc := copied.copiedLength?
    rw [← rest] at hc
    simp only [Scan.spot_rest, Scan.spot_scope] at rest hc bare
    rw [bare] at hp
    have htake : s.rest.take w.length = w := by rw [rest, List.take_left]
    rw [hp, hc]
    exact ⟨_, _, rfl, spot_write copied.ne_nil rest _ _ _, by rw [Scan.written_write, htake]⟩
  | @single c r rest bare own settled =>
    simp only [Move.read.injEq] at hm
    obtain ⟨rfl, rfl, rfl⟩ := hm
    simp only [Scan.spot_rest, Scan.spot_scope] at rest own bare settled
    rw [bare] at hp
    have hhead : s.rest.head more = c := by simp [rest]
    rw [hp]
    dsimp only
    rw [own]
    dsimp only
    rw [if_neg settled]
    subst hhead
    exact ⟨_, _, rfl, spot_write (t := [_]) (by simp) rest _ _ _, Scan.written_write _ _ _ _ _⟩

/-- Where a move expands a subpattern the scan puts it in the place of its name. -/
theorem step_of_expand (ht : e.dialect.tokens = []) (more : s.rest ≠ [])
    (h : e.move? s.spot = .ok (some (.expand q))) :
    ∃ next, e.step s more = .ok (.expanded next) ∧ next.spot = q ∧ next.written = s.written := by
  have hp := piece?_eq (s := s) ht
  unfold Setting.step
  generalize hm : Move.expand q = m at h
  cases moves_of_move? h with
  | @subpattern name r text rest isName building found =>
    obtain rfl := Move.expand.inj hm
    have spelled : (Lexeme.subpattern name).Spelled (e.lexemeSettings s.spot) s.scope _ r :=
      .subpattern building isName
    have hs := spelled.scan?
    simp only [Scan.spot_rest] at rest
    rw [← rest] at hs
    rw [hs, rest] at hp
    simp only [Lexeme.emit, found] at hp
    rw [hp]
    refine ⟨_, rfl, ?_, rfl⟩
    simp [Scan.spot, Scan.splice, Spot.withRest, rest]
  | _ => simp at hm

private theorem exists_move_of_step {step : Setting.Step s} (ht : e.dialect.tokens = [])
    (more : s.rest ≠ []) (h : e.step s more = .ok step) :
    ∃ m, e.move? s.spot = .ok (some m) := by
  cases hm : e.move? s.spot with
  | error err => simp [step_of_error ht more hm] at h
  | ok m =>
    cases m with
    | none => exact absurd (move?_eq_none_iff.mp hm) more
    | some m => exact ⟨m, rfl⟩

/-- What a scan writes up to its end is what a reading of the rest writes. -/
theorem exists_reading_of_finish {limit left : Nat} {s' : Scan} (ht : e.dialect.tokens = [])
    (h : e.finish limit left s = .ok s') :
    ∃ ms, Reading e s.spot ms s'.spot ∧ s'.rest = [] ∧ expansions ms ≤ left ∧
      s'.written = s.written ++ written ms := by
  fun_induction Setting.finish e limit left s with
  | case1 left s hend =>
    obtain rfl := Except.ok.inj h
    exact ⟨[], .done _, hend, by simp, by simp⟩
  | case2 => simp at h
  | case3 left s more next shorter hstep ih =>
    obtain ⟨ms, hms, hend, hle, hw⟩ := ih h
    obtain ⟨m, hm⟩ := exists_move_of_step ht more hstep
    cases m with
    | read t w q =>
      obtain ⟨next', _, hstep', rfl, hw'⟩ := step_of_read ht more hm
      obtain rfl : next' = next := by simpa using hstep'.symm.trans hstep
      exact ⟨_, .step hm hms, hend, by simpa [Move.isExpansion] using hle,
        by simp [hw, hw', Move.output]⟩
    | expand q =>
      obtain ⟨next', hstep', -⟩ := step_of_expand ht more hm
      simp [hstep'] at hstep
  | case4 => simp at h
  | case5 s more next hstep left ih =>
    obtain ⟨ms, hms, hend, hle, hw⟩ := ih h
    obtain ⟨m, hm⟩ := exists_move_of_step ht more hstep
    cases m with
    | read t w q =>
      obtain ⟨next', _, hstep', -⟩ := step_of_read ht more hm
      simp [hstep'] at hstep
    | expand q =>
      obtain ⟨next', hstep', rfl, hw'⟩ := step_of_expand ht more hm
      obtain rfl : next' = next := by simpa using hstep'.symm.trans hstep
      exact ⟨_, .step hm hms, hend, by simpa [Move.isExpansion] using hle,
        by simp [hw, hw', Move.output]⟩

theorem exists_finish_of_reading {limit left : Nat} {ms : History} (ht : e.dialect.tokens = [])
    (h : Reading e s.spot ms q) (hend : q.rest = []) (hle : expansions ms ≤ left) :
    ∃ s', e.finish limit left s = .ok s' ∧ s'.spot = q ∧ s'.written = s.written ++ written ms := by
  generalize hp : s.spot = p at h
  induction h generalizing s left with
  | done p =>
    obtain rfl := hp
    have hs : s.rest = [] := hend
    exact ⟨s, by rw [Setting.finish, dif_pos hs], rfl, by simp⟩
  | @step p q m ms move tail ih =>
    obtain rfl := hp
    have more : s.rest ≠ [] := by
      intro hs
      simp [move?_eq_none_iff.mpr (show s.spot.rest = [] from hs)] at move
    rw [Setting.finish, dif_neg more]
    cases m with
    | read t w p' =>
      obtain ⟨next, shorter, hstep, rfl, hw⟩ := step_of_read ht more move
      obtain ⟨s', hs', hq, hw'⟩ := ih hend (by simpa [Move.isExpansion] using hle) rfl
      refine ⟨s', ?_, hq, by simp [hw, hw', Move.output]⟩
      rw [hstep]
      exact hs'
    | expand p' =>
      obtain ⟨next, hstep, rfl, hw⟩ := step_of_expand ht more move
      simp only [expansions_cons, Move.isExpansion, if_true] at hle
      obtain ⟨left, rfl⟩ : ∃ n, left = n + 1 := ⟨left - 1, by omega⟩
      have hle' : expansions ms ≤ left := by omega
      obtain ⟨s', hs', hq, hw'⟩ := ih hend hle' rfl
      refine ⟨s', ?_, hq, by simp [hw, hw', Move.output]⟩
      rw [hstep]
      exact hs'

end Scans

/-- A pattern has a plain text where a reading within the limit of expansions writes it. -/
theorem toPlain_eq_ok_iff {limit : Nat} {c c' : Context} {out : List Char}
    (ht : e.dialect.tokens = []) :
    e.toPlain limit c = .ok (out, c') ↔
      ∃ ms q, Reading e (.start e.pattern.toList c) ms q ∧ q.rest = [] ∧ expansions ms ≤ limit ∧
        written ms = out ∧ q.context = c' := by
  constructor
  · intro h
    unfold Setting.toPlain at h
    cases hf : e.finish limit limit (.start e.pattern c) with
    | error err => simp [hf, bind, Except.bind] at h
    | ok s =>
      simp only [hf, bind, Except.bind, pure, Except.pure, Except.ok.injEq, Prod.mk.injEq] at h
      obtain ⟨ms, hms, hend, hle, hw⟩ := exists_reading_of_finish ht hf
      exact ⟨ms, s.spot, hms, hend, hle, hw.symm.trans h.1, h.2⟩
  · rintro ⟨ms, q, hms, hend, hle, rfl, rfl⟩
    obtain ⟨s, hs, rfl, hw⟩ := exists_finish_of_reading (s := .start e.pattern c) ht hms hend hle
    rw [Setting.toPlain, hs]
    exact congrArg (fun w => Except.ok (w, s.context)) hw

end Patterns.Extended
