import Patterns.Proofs.Tally

/-!
# Where reading resumes

A left delimiter that is never closed is dropped, and the text behind it is read again. What reading
keeps of the dropped delimiter has no say in what it comes to from there (`Alike`), so it comes to
what a scan that starts there comes to (`Pairing.rescan`). Where that is depends on the delimiter
that was read last: if it starts at the place to resume from, reading resumes a position further.
-/
namespace Patterns
open Patterns.Text

/-- A scan from position `k` on that knows of the pairs behind it, and of nothing else. -/
def Pairing.rescan {s : Subject} (p : Pairing s) (k : Nat) : Pairing s :=
  { stop := k, floor := k, lastEnd := p.lastEnd, segments := p.segments }

namespace Delimiters

variable {d : Delimiters} {s : Subject} {p p' q : Pairing s}

section Turns

/-- What a turn that goes on has seen, and the state that it leaves. -/
inductive Goes (d : Delimiters) (p p' : Pairing s) : Prop
  | drop (j : { j : Nat // p.outerStart < j }) (seen : d.seen s p.stop = .ok .none)
    (opened : p.depth ≠ 0) (depth : p'.depth = 0) (stop : p'.stop = j.val)
    (floor : p'.floor = j.val)
  | left (f : Matcher.Hit s p.stop) (seen : d.seen s p.stop = .ok (.left f))
    (depth : p'.depth = p.depth + 1) (start : p'.start = f.val.start)
    (stop : p'.stop = f.val.resume) (floor : p'.floor = p.floor)
    (outerStart : p'.outerStart = if p.depth = 0 then f.val.start else p.outerStart)
    (innerStart : p'.innerStart = if p.depth = 0 then f.val.stop else p.innerStart)
  | right (f : Matcher.Hit s p.stop) (seen : d.seen s p.stop = .ok (.right f))
    (depth : p'.depth = p.depth - 1) (start : p'.start = f.val.start)
    (stop : p'.stop = f.val.resume) (floor : p'.floor = p.floor)
    (outerStart : p'.outerStart = p.outerStart) (innerStart : p'.innerStart = p.innerStart)

theorem goes_of_turn (h : d.turn p = .goesOn p') : d.Goes p p' := by
  rw [turn] at h
  cases hseen : d.seen s p.stop with
  | error e => simp [hseen] at h
  | ok m =>
    rw [hseen] at h
    cases m with
    | none =>
      simp only [after, afterNone] at h
      split at h
      · cases h
      · next opened =>
        split at h
        · cases h
        · split at h
          · cases h
          · next j hj _ =>
            cases h
            exact .drop ⟨j, hj⟩ hseen opened rfl rfl rfl
    | left f =>
      simp only [after, afterLeft] at h
      split at h
      · cases h
      · cases h
        exact .left f hseen rfl rfl rfl rfl rfl rfl
    | right f =>
      simp only [after, afterRight] at h
      split at h
      · cases h
      · split at h
        · cases h
        · split at h
          · cases h
          · cases h
            exact .right f hseen rfl rfl rfl rfl rfl rfl

/-- What reading has left to do gets less: the place where it started moves on, or the one where it
stands. -/
theorem Goes.decreases (h : d.Goes p p') :
    Prod.Lex (· < ·) (· < ·) (s.size + 2 - p'.floor, s.size + 2 - p'.stop)
      (s.size + 2 - p.floor, s.size + 2 - p.stop) := by
  cases h with
  | drop j seen opened depth stop floor =>
    have hbounds := p.outer_bounds opened
    have hj := j.property
    apply Prod.Lex.left
    omega
  | left f seen depth start stop floor | right f seen depth start stop floor =>
    have hstart := f.property
    have hresume := f.val.start_lt_resume
    have hstop := f.val.start_le
    have hsize := f.val.stop_le
    rw [floor]
    apply Prod.Lex.right
    omega

/-- The next delimiter from `i` on, if there is one. -/
def sight (d : Delimiters) (s : Subject) (i : Nat) : List (Side × Match s) :=
  match d.seen s i with
  | .ok m => m.found?.toList
  | .error _ => []

/-- The delimiters that are seen from `p` on, those behind a dropped one once more. -/
def sighted (d : Delimiters) (p : Pairing s) : List (Side × Match s) :=
  match _h : d.turn p with
  | .ends _ => d.sight s p.stop
  | .goesOn p' => d.sight s p.stop ++ d.sighted p'
  termination_by (s.size + 2 - p.floor, s.size + 2 - p.stop)
  decreasing_by exact (goes_of_turn _h).decreases

theorem sighted_of_ends {result : Except Error (Pairing s)} (h : d.turn p = .ends result) :
    d.sighted p = d.sight s p.stop := by
  rw [sighted]
  split <;> simp_all

theorem sighted_of_goesOn (h : d.turn p = .goesOn p') :
    d.sighted p = d.sight s p.stop ++ d.sighted p' := by
  rw [sighted]
  split <;> simp_all

/-- The segments that reading from `p` on ends with. -/
def outcome (d : Delimiters) (p : Pairing s) : Except Error (List Segment) :=
  (d.read s p).map d.finish

theorem outcome_of_ends {result : Except Error (Pairing s)} (h : d.turn p = .ends result) :
    d.outcome p = result.map d.finish := by
  rw [outcome, read_eq, h]

theorem outcome_of_goesOn (h : d.turn p = .goesOn p') : d.outcome p = d.outcome p' := by
  rw [outcome, read_eq, h, outcome]

end Turns

section Alike

/-- Two states between which reading makes no difference. Where nothing is open it does not matter
which delimiter was read last, nor where an outermost pair was opened. -/
structure Alike (p q : Pairing s) : Prop where
  depth : q.depth = p.depth
  stop : q.stop = p.stop
  lastEnd : q.lastEnd = p.lastEnd
  segments : q.segments = p.segments
  opened : p.depth ≠ 0 →
    q.start = p.start ∧ q.outerStart = p.outerStart ∧ q.innerStart = p.innerStart

theorem Alike.finish_eq (h : Alike p q) : d.finish q = d.finish p := by
  rw [finish, finish, h.segments, h.lastEnd]

/-- Where reading resumes when the left delimiter at `o` is never closed and nothing stands in the
way: behind what it takes there, or a character after `o`. -/
def resumption (d : Delimiters) (s : Subject) (o : Nat) : Except Error Nat :=
  match d.unbalanced with
  | .skip => (d.left.find s o true).map fun found =>
      o + max 1 ((found.map fun f => f.stop - f.start).getD 0)
  | _ => .ok (o + 1)

/-- Where reading resumes behind `p`. -/
def resumed (p : Pairing s) (k : Nat) : Nat := if p.start = k then k + 1 else k

theorem restart_eq_resumption (d : Delimiters) (p : Pairing s) :
    (d.restart s p).map (·.val) = (d.resumption s p.outerStart).map (resumed p) := by
  rw [← restart_eq, Tally.restart, resumption]
  cases d.unbalanced with
  | refuse | skipLazy => rfl
  | skip =>
    dsimp only [Pairing.tally]
    cases d.left.find s p.outerStart true with
    | error e => rfl
    | ok found =>
      generalize hwidth : (found.map fun f => f.stop - f.start).getD 0 = width
      have hplace : (if width = 0 then p.outerStart + 1 else p.outerStart + width) =
          p.outerStart + max 1 width := by
        split <;> omega
      simp only [Except.map, bind, Except.bind, pure, Except.pure, hwidth, hplace, resumed]

/-- A state where the delimiters end before the pair at hand is closed. -/
structure Unclosed (d : Delimiters) (p : Pairing s) : Prop where
  opened : p.depth ≠ 0
  ended : d.seen s p.stop = .ok .none
  skips : d.unbalanced ≠ .refuse

instance (d : Delimiters) (p : Pairing s) : Decidable (d.Unclosed p) :=
  match hseen : d.seen s p.stop with
  | .ok .none =>
    decidable_of_iff (p.depth ≠ 0 ∧ d.unbalanced ≠ .refuse)
      ⟨fun h => ⟨h.1, hseen, h.2⟩, fun h => ⟨h.opened, h.skips⟩⟩
  | .ok (.left _) | .ok (.right _) | .error _ =>
    isFalse fun h => by simpa using hseen.symm.trans h.ended

namespace Unclosed

variable (unclosed : d.Unclosed p)
include unclosed

theorem turn_of_error {e : Error} (h : d.resumption s p.outerStart = .error e) :
    d.turn p = .ends (.error e) := by
  have hrestart := restart_eq_resumption d p
  rw [h] at hrestart
  simp only [turn, unclosed.ended, after, afterNone, if_neg unclosed.opened,
    if_neg unclosed.skips]
  cases hj : d.restart s p with
  | error e' =>
    obtain rfl : e' = e := by simpa [hj, Except.map] using hrestart
    rfl
  | ok j => simp [hj, Except.map] at hrestart

theorem exists_turn {k : Nat} (h : d.resumption s p.outerStart = .ok k) :
    ∃ p', d.turn p = .goesOn p' ∧ Alike p' (p.rescan (resumed p k)) := by
  have hrestart := restart_eq_resumption d p
  rw [h] at hrestart
  simp only [turn, unclosed.ended, after, afterNone, if_neg unclosed.opened,
    if_neg unclosed.skips]
  cases hj : d.restart s p with
  | error e' => simp [hj, Except.map] at hrestart
  | ok j =>
    obtain ⟨j, hlt⟩ := j
    obtain rfl : j = resumed p k := by simpa [hj, Except.map] using hrestart
    exact ⟨_, rfl, rfl, rfl, rfl, rfl, fun h => absurd rfl h⟩

end Unclosed

/-- What comes of two states that are alike. -/
inductive TurnsAlike (d : Delimiters) : Turn (Pairing s) → Turn (Pairing s) → Prop
  | ends {x y : Except Error (Pairing s)} (same : y.map d.finish = x.map d.finish) :
    TurnsAlike d (.ends x) (.ends y)
  | goesOn {p q : Pairing s} (alike : Alike p q) : TurnsAlike d (.goesOn p) (.goesOn q)

/-- An outermost left delimiter is dropped for both. -/
theorem Alike.turn_of_unclosed (h : Alike p q) (unclosed : d.Unclosed p) :
    d.TurnsAlike (d.turn p) (d.turn q) := by
  obtain ⟨hstart, houter, -⟩ := h.opened unclosed.opened
  have unclosed' : d.Unclosed q :=
    ⟨h.depth ▸ unclosed.opened, h.stop.symm ▸ unclosed.ended, unclosed.skips⟩
  cases hk : d.resumption s p.outerStart with
  | error e =>
    rw [unclosed.turn_of_error hk, unclosed'.turn_of_error (by rwa [houter])]
    exact .ends rfl
  | ok k =>
    obtain ⟨p', hp, alike⟩ := unclosed.exists_turn hk
    obtain ⟨q', hq, alike'⟩ := unclosed'.exists_turn (k := k) (by rwa [houter])
    have hrescan : q.rescan (resumed q k) = p.rescan (resumed p k) := by
      simp only [Pairing.rescan, resumed, hstart, h.lastEnd, h.segments]
    rw [hrescan] at alike'
    rw [hp, hq]
    refine .goesOn ⟨?_, ?_, ?_, ?_, fun hopen => absurd alike.depth.symm hopen⟩
    · exact alike'.depth.symm.trans alike.depth
    · exact alike'.stop.symm.trans alike.stop
    · exact alike'.lastEnd.symm.trans alike.lastEnd
    · exact alike'.segments.symm.trans alike.segments

theorem Alike.turn (h : Alike p q) : d.TurnsAlike (d.turn p) (d.turn q) := by
  by_cases unclosed : d.Unclosed p
  · exact h.turn_of_unclosed unclosed
  have hfinish := h.finish_eq (d := d)
  obtain ⟨_, start, _, floor, outerStart, innerStart, _, _, hp, hb⟩ := p
  obtain ⟨depth, start', stop, floor', outerStart', innerStart', lastEnd, segments, hq, hc⟩ := q
  obtain ⟨rfl, rfl, rfl, rfl, opened⟩ := h
  dsimp only at opened
  rw [Delimiters.turn, Delimiters.turn]
  cases hseen : d.seen s stop with
  | error e => exact .ends rfl
  | ok m =>
    cases m with
    | none =>
      simp only [after, afterNone]
      split
      · exact .ends (congrArg Except.ok hfinish)
      · next hdepth =>
        split
        · obtain ⟨rfl, rfl, rfl⟩ := opened hdepth
          exact .ends rfl
        · next skips => exact absurd ⟨hdepth, hseen, skips⟩ unclosed
    | left f =>
      simp only [after, afterLeft]
      split
      · exact .ends (congrArg Except.ok hfinish)
      · refine .goesOn ⟨rfl, rfl, rfl, rfl, fun _ => ⟨rfl, ?_, ?_⟩⟩
        · dsimp only
          split
          · rfl
          · next hdepth => exact (opened hdepth).2.1
        · dsimp only
          split
          · rfl
          · next hdepth => exact (opened hdepth).2.2
    | right f =>
      have hsegments : (if depth = 1 then d.pairSegments
            ⟨depth, start', stop, floor', outerStart', innerStart', lastEnd, segments, hq, hc⟩ f.val
            ++ segments else segments) =
          if depth = 1 then d.pairSegments
            ⟨depth, start, stop, floor, outerStart, innerStart, lastEnd, segments, hp, hb⟩ f.val
            ++ segments else segments := by
        split
        · next hdepth =>
          obtain ⟨rfl, rfl, rfl⟩ := opened (by omega)
          rfl
        · rfl
      have hopened (hdepth : depth - 1 ≠ 0) :
          f.val.start = f.val.start ∧ outerStart' = outerStart ∧ innerStart' = innerStart :=
        ⟨rfl, (opened (by omega)).2⟩
      simp only [after, afterRight]
      split
      · exact .ends (congrArg Except.ok hfinish)
      · split
        · exact .ends rfl
        · split
          · exact .ends (congrArg Except.ok (finish_eq ⟨rfl, rfl, rfl, hsegments, hopened⟩))
          · exact .goesOn ⟨rfl, rfl, rfl, hsegments, hopened⟩

/-- Reading sees and comes to the same from both states. -/
def ReadsAlike (d : Delimiters) (p q : Pairing s) : Prop :=
  d.sighted p = d.sighted q ∧ d.outcome p = d.outcome q

theorem Alike.reads (h : Alike p q) : d.ReadsAlike p q := by
  have hsight {p q : Pairing s} (h : Alike p q) : d.sight s p.stop = d.sight s q.stop := by
    rw [h.stop]
  induction p using read_induction d generalizing q with
  | ends p result hp =>
    have hturn := h.turn (d := d)
    rw [hp] at hturn
    cases hq : d.turn q with
    | goesOn q' => rw [hq] at hturn; cases hturn
    | ends result' =>
      rw [hq] at hturn
      cases hturn with
      | ends same =>
        refine ⟨?_, ?_⟩
        · rw [sighted_of_ends hp, sighted_of_ends hq, hsight h]
        · rw [outcome_of_ends hp, outcome_of_ends hq, same]
  | goesOn p p' hp ih =>
    have hturn := h.turn (d := d)
    rw [hp] at hturn
    cases hq : d.turn q with
    | ends result' => rw [hq] at hturn; cases hturn
    | goesOn q' =>
      rw [hq] at hturn
      cases hturn with
      | goesOn alike =>
        obtain ⟨hsighted, houtcome⟩ := ih alike
        refine ⟨?_, ?_⟩
        · rw [sighted_of_goesOn hp, sighted_of_goesOn hq, hsight h, hsighted]
        · rw [outcome_of_goesOn hp, outcome_of_goesOn hq, houtcome]

theorem sight_of_none {i : Nat} (h : d.seen s i = .ok .none) : d.sight s i = [] := by
  rw [sight, h]
  rfl

theorem Unclosed.fails (unclosed : d.Unclosed p) {e : Error}
    (h : d.resumption s p.outerStart = .error e) : d.sighted p = [] ∧ d.outcome p = .error e := by
  have hturn := unclosed.turn_of_error h
  rw [sighted_of_ends hturn, outcome_of_ends hturn, sight_of_none unclosed.ended]
  exact ⟨rfl, rfl⟩

/-- Behind a dropped delimiter reading is a scan from the place where it resumes. -/
theorem Unclosed.reads (unclosed : d.Unclosed p) {k : Nat}
    (h : d.resumption s p.outerStart = .ok k) : d.ReadsAlike p (p.rescan (resumed p k)) := by
  obtain ⟨p', hturn, alike⟩ := unclosed.exists_turn h
  obtain ⟨hsighted, houtcome⟩ := alike.reads (d := d)
  refine ⟨?_, ?_⟩
  · rw [sighted_of_goesOn hturn, sight_of_none unclosed.ended, hsighted, List.nil_append]
  · rw [outcome_of_goesOn hturn, houtcome]

end Alike

section Opened

/-- Reading comes to `p`. -/
def Reaches (d : Delimiters) (p : Pairing s) : Prop :=
  Relation.ReflTransGen (fun p p' => d.turn p = .goesOn p') (.initial s) p

/-- Which delimiter was read last, when `outer` is the outermost one that is open: that one, the
next one behind it, which opens another pair, or one that starts further on. -/
inductive Latest (d : Delimiters) (p : Pairing s) (outer : Match s) : Prop
  | outermost (depth : p.depth = 1) (start : p.start = outer.start) (stop : p.stop = outer.resume)
  | second (f : Match s) (sees : d.sight s outer.resume = [(.left, f)]) (start : p.start = f.start)
    (stop : p.stop = f.resume)
  | later (start : outer.resume < p.start) (stop : outer.resume < p.stop)

/-- A state where `outer` is the outermost delimiter that is open. -/
structure Opened (d : Delimiters) (p : Pairing s) (outer : Match s) : Prop where
  found : ∃ i, d.left.find s i false = .ok (some outer)
  outerStart : p.outerStart = outer.start
  innerStart : p.innerStart = outer.stop
  latest : d.Latest p outer

theorem le_of_mem_sight {i : Nat} {f : Side × Match s} (h : f ∈ d.sight s i) : i ≤ f.2.start := by
  rw [sight] at h
  cases hseen : d.seen s i with
  | error e => simp [hseen] at h
  | ok m =>
    rw [hseen] at h
    exact Delimiter.le_start (Option.mem_toList.mp h)

theorem sight_of_left {i : Nat} {f : Matcher.Hit s i} (h : d.seen s i = .ok (.left f)) :
    d.sight s i = [(.left, f.val)] := by
  rw [sight, h]
  rfl

theorem exists_seen_of_sight {i : Nat} {f : Match s} (h : d.sight s i = [(.left, f)]) :
    ∃ hi : i ≤ f.start, d.seen s i = .ok (.left ⟨f, hi⟩) := by
  have hmem : (Side.left, f) ∈ d.sight s i := by
    rw [h]
    exact List.mem_singleton_self _
  refine ⟨le_of_mem_sight hmem, ?_⟩
  rw [sight] at h
  cases hseen : d.seen s i with
  | error e => simp [hseen] at h
  | ok m =>
    rw [hseen] at h
    refine congrArg Except.ok (Delimiter.found?_injective ?_)
    exact Option.toList_eq_singleton_iff.mp h

/-- A left delimiter that is seen is found by a search for left ones. -/
theorem find_of_seen (plain : d.escape = none) {i : Nat} {f : Matcher.Hit s i}
    (h : d.seen s i = .ok (.left f)) : d.left.find s i false = .ok (some f.val) := by
  have hplain : { d with escape := none } = d := by rw [← plain]
  have hnext : d.next s i = .ok (.left f) := by rw [← seen_withoutEscape, hplain, h]
  rw [next] at hnext
  cases hleft : d.left.searchAt s i false with
  | error e => simp [hleft, bind, Except.bind] at hnext
  | ok l =>
    cases hright : d.right.searchAt s i false with
    | error e => cases l <;> simp [hleft, hright, bind, Except.bind] at hnext
    | ok r =>
      cases l with
      | none => cases r <;> simp [hleft, hright, bind, Except.bind, pure, Except.pure] at hnext
      | some l =>
        obtain rfl : l = f := by
          cases r with
          | none => simpa [hleft, hright, bind, Except.bind, pure, Except.pure] using hnext
          | some r =>
            simp only [hleft, hright, bind, Except.bind, pure, Except.pure] at hnext
            split at hnext
            · simpa using hnext
            · simp at hnext
        exact Matcher.find_of_searchAt hleft

theorem Goes.latest {outer : Match s} (h : d.Goes p p') (latest : d.Latest p outer)
    (opened : p'.depth ≠ 0) : d.Latest p' outer := by
  -- What starts behind the second delimiter starts behind the place where that one was looked for.
  have hlater {f : Match s} {g : Match s} (sees : d.sight s outer.resume = [(.left, g)])
      (hf : g.resume ≤ f.start) (start : p'.start = f.start) (stop : p'.stop = f.resume) :
      d.Latest p' outer := by
    obtain ⟨hg, -⟩ := exists_seen_of_sight sees
    have hgresume := g.start_lt_resume
    have hfresume := f.start_lt_resume
    exact .later (by omega) (by omega)
  cases h with
  | drop j seen opened' depth => exact absurd depth opened
  | left f seen depth start stop =>
    have hf := f.property
    have hresume := f.val.start_lt_resume
    cases latest with
    | outermost hdepth hstart hstop => exact .second f.val (hstop ▸ sight_of_left seen) start stop
    | second g sees hstart hstop => exact hlater sees (hstop ▸ hf) start stop
    | later hstart hstop => exact .later (by omega) (by omega)
  | right f seen depth start stop =>
    have hf := f.property
    have hresume := f.val.start_lt_resume
    cases latest with
    | outermost hdepth hstart hstop => omega
    | second g sees hstart hstop => exact hlater sees (hstop ▸ hf) start stop
    | later hstart hstop => exact .later (by omega) (by omega)

theorem Reaches.exists_opened (plain : d.escape = none) (h : d.Reaches p) (opened : p.depth ≠ 0) :
    ∃ outer, d.Opened p outer := by
  induction h with
  | refl => exact absurd rfl opened
  | @tail q p _ hturn ih =>
    have hgoes := goes_of_turn hturn
    by_cases hq : q.depth = 0
    · cases hgoes with
      | drop j seen opened' depth => exact absurd depth opened
      | right f seen depth => exact absurd (by omega) opened
      | left f seen depth start stop floor outerStart innerStart =>
        rw [if_pos hq] at outerStart innerStart
        exact ⟨f.val, ⟨_, find_of_seen plain seen⟩, outerStart, innerStart,
          .outermost (by omega) start stop⟩
    · obtain ⟨outer, hopened⟩ := ih hq
      have hlatest := hgoes.latest hopened.latest opened
      have hsame : p.outerStart = q.outerStart ∧ p.innerStart = q.innerStart := by
        cases hgoes with
        | drop j seen opened' depth => exact absurd depth opened
        | right f seen depth start stop floor outerStart innerStart =>
          exact ⟨outerStart, innerStart⟩
        | left f seen depth start stop floor outerStart innerStart =>
          rw [if_neg hq] at outerStart innerStart
          exact ⟨outerStart, innerStart⟩
      exact ⟨outer, hopened.found, hsame.1.trans hopened.outerStart,
        hsame.2.trans hopened.innerStart, hlatest⟩

theorem Reaches.ordered (h : d.Reaches p) : Ordered p := by
  induction h with
  | refl => exact ordered_start
  | @tail q p _ hturn ih =>
    have hcomes := comes_turn (d := d) ih
    rw [hturn] at hcomes
    cases hcomes with
    | goesOn hleads => exact hleads.ordered ih

/-- If the delimiter read last starts at the place to resume from, it is the second one, and it
stands right behind the outermost one. -/
theorem Opened.exists_second {outer : Match s} (opened : d.Opened p outer) {k : Nat}
    (past : outer.start < k) (le : k ≤ outer.stop) (start : p.start = k) :
    k = outer.stop ∧ ∃ f, d.sight s k = [(.left, f)] ∧ f.start = k ∧ p.stop = f.resume := by
  have hresume : outer.resume = outer.stop := Match.resume_of_lt (Nat.lt_of_lt_of_le past le)
  rcases opened.latest with ⟨-, hstart, -⟩ | ⟨f, sees, hstart, hstop⟩ | ⟨hstart, -⟩
  · omega
  · obtain ⟨hf, -⟩ := exists_seen_of_sight sees
    obtain rfl : k = outer.stop := by omega
    rw [hresume] at sees
    exact ⟨rfl, f, sees, by omega, hstop⟩
  · omega

end Opened

section Rescans

theorem lt_of_resumption {o k : Nat} (h : d.resumption s o = .ok k) : o < k := by
  rw [resumption] at h
  cases hmode : d.unbalanced with
  | refuse | skipLazy =>
    rw [hmode] at h
    obtain rfl := Except.ok.inj h
    exact Nat.lt_succ_self o
  | skip =>
    rw [hmode] at h
    cases hfind : d.left.find s o true with
    | error e => simp [hfind, Except.map] at h
    | ok found =>
      rw [hfind] at h
      obtain rfl := Except.ok.inj h
      dsimp only
      omega

/-- What a scan that starts at a left delimiter does, if no delimiter stands behind that one. -/
theorem rescan_unclosed (skips : d.unbalanced ≠ .refuse) (loose : d.sticky = false) {k : Nat}
    {f : Match s} (sees : d.sight s k = [(.left, f)]) (start : f.start = k)
    (ended : d.seen s f.resume = .ok .none) :
    (∀ e, d.resumption s k = .error e →
      d.sighted (p.rescan k) = [(.left, f)] ∧ d.outcome (p.rescan k) = .error e) ∧
    ∀ j, d.resumption s k = .ok j →
      d.sighted (p.rescan k) = (.left, f) :: d.sighted (p.rescan j) ∧
        d.outcome (p.rescan k) = d.outcome (p.rescan j) := by
  obtain ⟨hk, hseen⟩ := exists_seen_of_sight sees
  obtain ⟨p', hturn, hdepth, hstart, hstop, houter, hrescan⟩ :
      ∃ p', d.turn (p.rescan k) = .goesOn p' ∧ p'.depth = 1 ∧ p'.start = k ∧ p'.stop = f.resume ∧
        p'.outerStart = k ∧ ∀ j, p'.rescan j = p.rescan j := by
    have hseen' : d.seen s (p.rescan k).stop = .ok (.left ⟨f, hk⟩) := hseen
    simp only [turn, hseen', after, afterLeft, loose]
    exact ⟨_, rfl, rfl, start, rfl, start, fun j => rfl⟩
  have unclosed : d.Unclosed p' := ⟨by omega, hstop ▸ ended, skips⟩
  have hsighted : d.sighted (p.rescan k) = (.left, f) :: d.sighted p' := by
    rw [sighted_of_goesOn hturn]
    exact congrArg (· ++ d.sighted p') sees
  refine ⟨fun e he => ?_, fun j hj => ?_⟩
  · obtain ⟨hnone, houtcome⟩ := unclosed.fails (houter.symm ▸ he)
    rw [hsighted, hnone, outcome_of_goesOn hturn]
    exact ⟨rfl, houtcome⟩
  · have hlt := lt_of_resumption hj
    obtain ⟨hrest, houtcome⟩ := unclosed.reads (houter.symm ▸ hj)
    have hresumed : resumed p' j = j := if_neg (by omega)
    rw [hresumed, hrescan] at hrest houtcome
    rw [hsighted, hrest, outcome_of_goesOn hturn]
    exact ⟨rfl, houtcome⟩

/-- With the sticky flag a scan that starts behind the last pair ends where it starts. -/
theorem rescan_sticky (sticky : d.sticky = true) {k : Nat} (gap : p.lastEnd < k) :
    d.sighted (p.rescan k) = d.sight s k ∧
      d.outcome (p.rescan k) = (d.seen s k).map fun _ => d.finish p := by
  obtain ⟨result, hturn, hresult⟩ : ∃ result, d.turn (p.rescan k) = .ends result ∧
      result.map d.finish = (d.seen s k).map fun _ => d.finish p := by
    have hgap {f : Match s} (hk : k ≤ f.start) : p.lastEnd < f.start := Nat.lt_of_lt_of_le gap hk
    cases hseen : d.seen s k with
    | error e =>
      have hseen' : d.seen s (p.rescan k).stop = .error e := hseen
      simp only [turn, hseen']
      exact ⟨_, rfl, rfl⟩
    | ok m =>
      have hseen' : d.seen s (p.rescan k).stop = .ok m := hseen
      simp only [turn, hseen']
      cases m with
      | none => exact ⟨_, rfl, rfl⟩
      | left f | right f =>
        refine ⟨.ok (p.rescan k), if_pos ?_, rfl⟩
        rw [Bool.and_eq_true, Bool.and_eq_true]
        exact ⟨⟨sticky, rfl⟩, decide_eq_true (hgap f.property)⟩
  rw [sighted_of_ends hturn, outcome_of_ends hturn, hresult]
  exact ⟨rfl, rfl⟩

/-- Where a sticky search takes the delimiter again, the place to resume from is behind it. -/
theorem resumption_of_find {o : Nat} {f : Match s} (skip : d.unbalanced = .skip)
    (h : d.left.find s o true = .ok (some f)) (long : o < f.stop) :
    d.resumption s o = .ok f.stop := by
  have hstart := Extended.start_eq_of_find h
  rw [resumption, skip]
  simp only [h, Except.map, Option.map_some, Option.getD_some, hstart]
  apply congrArg Except.ok
  omega

end Rescans

section Documented

/-- Where reading is documented to resume: behind the dropped delimiter, or a character after that
began. -/
def documented (d : Delimiters) (p : Pairing s) : Nat :=
  if d.unbalanced = .skip then p.innerStart else p.outerStart + 1

theorem documented_bounds (d : Delimiters) (long : p.outerStart < p.innerStart) :
    p.outerStart < d.documented p ∧ d.documented p ≤ p.innerStart := by
  rw [documented]
  split <;> omega

theorem resumption_lazy (lazy : d.unbalanced = .skipLazy) (s : Subject) (o : Nat) :
    d.resumption s o = .ok (o + 1) := by
  rw [resumption, lazy]

variable (unclosed : d.Unclosed p) (long : p.outerStart < p.innerStart)
include unclosed long

/-- In lazy mode, or where a sticky search takes the same text again, nothing stands in the way. -/
theorem resumption_documented (h : d.unbalanced = .skipLazy ∨
    ∃ f, d.left.find s p.outerStart true = .ok (some f) ∧ f.stop = p.innerStart) :
    d.resumption s p.outerStart = .ok (d.documented p) := by
  cases hmode : d.unbalanced with
  | refuse => exact absurd hmode unclosed.skips
  | skipLazy => rw [resumption_lazy hmode, documented, if_neg (by simp [hmode])]
  | skip =>
    obtain ⟨f, hfind, hf⟩ := h.resolve_left (by simp [hmode])
    rw [resumption_of_find hmode hfind (by omega), documented, if_pos hmode, hf]

/-- Where the delimiter read last starts at the place to resume from nothing is seen behind it. -/
theorem Opened.exists_last {outer : Match s} (opened : d.Opened p outer)
    (last : p.start = d.documented p) :
    ∃ f, d.sight s (d.documented p) = [(.left, f)] ∧ f.start = d.documented p ∧
      d.seen s f.resume = .ok .none := by
  obtain ⟨past, le⟩ := documented_bounds d long
  rw [opened.outerStart] at past
  rw [opened.innerStart] at le
  obtain ⟨-, f, sees, hf, hended⟩ := opened.exists_second past le last
  exact ⟨f, sees, hf, hended ▸ unclosed.ended⟩

/-- The further character that is passed makes no difference where a scan would pass no more. -/
theorem Opened.outcome_documented {outer : Match s} (opened : d.Opened p outer)
    (loose : d.sticky = false) (h : d.resumption s p.outerStart = .ok (d.documented p))
    (short : p.start = d.documented p → d.unbalanced = .skipLazy ∨
      d.resumption s (d.documented p) = .ok (d.documented p + 1)) :
    d.outcome p = d.outcome (p.rescan (d.documented p)) := by
  have hreads := (unclosed.reads h).2
  by_cases last : p.start = d.documented p
  · obtain ⟨f, sees, hf, hended⟩ := opened.exists_last unclosed long last
    have hnext := (short last).elim (resumption_lazy · s _) id
    have hrescan := (rescan_unclosed (p := p) unclosed.skips loose sees hf hended).2 _ hnext
    rw [hreads, resumed, if_pos last, hrescan.2]
  · rw [hreads, resumed, if_neg last]

end Documented

section Evaluation

/-- The state after `n` turns, if reading goes on that long. -/
def stateAfter (d : Delimiters) : (n : Nat) → Pairing s → Option (Pairing s)
  | 0, p => some p
  | n + 1, p =>
    match d.turn p with
    | .ends _ => none
    | .goesOn p' => d.stateAfter n p'

theorem path_of_stateAfter {n : Nat} (h : d.stateAfter n q = some p) :
    Relation.ReflTransGen (fun p p' => d.turn p = .goesOn p') q p := by
  induction n generalizing q with
  | zero =>
    obtain rfl := Option.some.inj h
    exact .refl
  | succ n ih =>
    rw [stateAfter] at h
    cases hturn : d.turn q with
    | ends result => simp [hturn] at h
    | goesOn q' => exact .head hturn (ih (by simpa [hturn] using h))

theorem outcome_of_turns {n : Nat} {out : Except Error (List Segment)}
    (h : (d.turns n p).map (·.map d.finish) = some out) : d.outcome p = out := by
  obtain ⟨result, hresult, rfl⟩ := Option.map_eq_some_iff.mp h
  rw [outcome, read_of_turns hresult]

end Evaluation

end Delimiters

namespace Engine

open Delimiters Extended

variable {g : Engine} {left right flags : String} {mode : Unbalanced} {names : SegmentNames}

theorem escape_of_prepare {d : Delimiters}
    (h : ((prepare left right flags none mode).run.run g).1 = .ok d) : d.escape = none := by
  have idle := idle_of_prepare h
  obtain ⟨trace, hrun⟩ := exists_run_prepare idle left right flags mode
  rw [hrun] at h
  exact escape_of_unescaped h

/-- What a call makes without an escape character can be evaluated. -/
theorem exists_prepare_of_check {l r : Except Error Matcher} {c : Delimiters → Bool}
    (idle : g.compiling = false)
    (hl : Extended.compile g.dialect g.surroundings g.reparseLimit left (basicFlags flags) none = l)
    (hr : Extended.compile g.dialect g.surroundings g.reparseLimit right (basicFlags flags) none =
      r)
    (h : (unescaped l r flags mode).toOption.any c = true) :
    ∃ made, ((prepare left right flags none mode).run.run g).1 = .ok made ∧ c made = true := by
  obtain ⟨trace, hprepare⟩ := exists_run_prepare idle left right flags mode
  dsimp only at hprepare
  rw [hprepare, hl, hr]
  cases hmade : unescaped l r flags mode with
  | error e => simp [hmade, Except.toOption] at h
  | ok made => exact ⟨made, rfl, by simpa [hmade, Except.toOption] using h⟩

end Engine

end Patterns
