import Patterns.Proofs.Joining
import Patterns.Proofs.LiteralReading

/-!
# Occurrences of a literal text

A search for a literal text finds the text, one position after the other. So what is split at, and
what is replaced, are the leftmost occurrences that do not overlap.
-/
namespace Patterns
open Patterns.Text Patterns.Plain

variable {s : Subject} {t : List Char} {i k q : Nat}

/-- The subject has the text at position `q`. -/
def Occurs (t : List Char) (s : Subject) (q : Nat) : Prop := q ≤ s.size ∧ t <+: s.toList.drop q

instance : Decidable (Occurs t s q) := inferInstanceAs (Decidable (_ ∧ _))

namespace Occurs

theorem add_length_le (h : Occurs t s q) : q + t.length ≤ s.size := by
  have hq := h.1
  have hlength := h.2.length_le
  rw [List.length_drop, Subject.length_toList] at hlength
  omega

theorem slice_eq (h : Occurs t s q) : s.slice q (q + t.length) = String.ofList t := by
  refine String.toList_inj.mp ?_
  rw [Subject.toList_slice, Nat.add_sub_cancel_left, String.toList_ofList]
  exact (List.prefix_iff_eq_take.mp h.2).symm

/-- A text that stands between two positions occurs there. -/
theorem exists_of_infix {j : Nat} (hij : i ≤ j) (hj : j ≤ s.size)
    (h : t <:+: (s.slice i j).toList) : ∃ k, i ≤ k ∧ k + t.length ≤ j ∧ Occurs t s k := by
  obtain ⟨front, back, hslice⟩ := h
  rw [Subject.toList_slice] at hslice
  have hlength := congrArg List.length hslice
  simp only [List.length_append, List.length_take, List.length_drop, Subject.length_toList]
    at hlength
  refine ⟨i + front.length, by omega, by omega, by omega, ?_⟩
  have hfront : ((s.toList.drop i).take (j - i)).drop front.length <+:
      s.toList.drop (i + front.length) := by
    rw [← List.drop_drop]
    exact (List.take_prefix _ _).drop _
  refine List.IsPrefix.trans ⟨back, ?_⟩ hfront
  rw [← hslice, List.append_assoc, List.drop_left]

end Occurs

theorem hasTextAt_iff : Regex.hasTextAt s t i = true ↔ t <+: s.toList.drop i := by
  induction t generalizing i with
  | nil => simp [Regex.hasTextAt]
  | cons c t ih =>
    rw [Regex.hasTextAt, Bool.and_eq_true, ih, beq_iff_eq]
    have hnext : s.next? i = s.toList[i]? := by simp [Subject.next?, Subject.toList]
    rw [hnext]
    rcases Nat.lt_or_ge i s.toList.length with hi | hi
    · rw [List.drop_eq_getElem_cons hi, List.cons_prefix_cons, List.getElem?_eq_getElem hi,
        Option.some_inj]
      exact and_congr_left' eq_comm
    · rw [List.drop_eq_nil_of_le hi, List.getElem?_eq_none hi]
      simp

/-- The positions of the leftmost occurrences of a text that do not overlap. An empty occurrence
takes up its position. -/
structure Leftmost (t : List Char) (s : Subject) (places : List Nat) : Prop where
  occurs : ∀ q ∈ places, Occurs t s q
  apart : places.Pairwise fun q q' => q + max t.length 1 ≤ q'
  leftmost : ∀ k, Occurs t s k → ∃ q ∈ places, q ≤ k ∧ k < q + max t.length 1

namespace Leftmost

variable {places places' : List Nat}

theorem apart_of_lt (h : Leftmost t s places) (hk : k ∈ places) (hq : q ∈ places) (hkq : k < q) :
    k + max t.length 1 ≤ q := by
  have hpairs := List.pairwise_iff_getElem.mp h.apart
  obtain ⟨a, ha, rfl⟩ := List.getElem_of_mem hk
  obtain ⟨b, hb, rfl⟩ := List.getElem_of_mem hq
  rcases Nat.lt_trichotomy a b with hab | rfl | hab
  · exact hpairs a b ha hb hab
  · exact absurd hkq (Nat.lt_irrefl _)
  · have hba := hpairs b a hb ha hab
    omega

theorem mem_of_mem (h : Leftmost t s places) (h' : Leftmost t s places') (hq : q ∈ places)
    (before : ∀ k < q, k ∈ places' → k ∈ places) : q ∈ places' := by
  -- A place of the other list that covers `q` is a place of this one too, so it is `q` itself.
  obtain ⟨k, hk, hkq, hcovers⟩ := h'.leftmost q (h.occurs q hq)
  rcases Nat.eq_or_lt_of_le hkq with rfl | hlt
  · exact hk
  · have hapart := h.apart_of_lt (before k hlt hk) hq hlt
    omega

theorem unique (h : Leftmost t s places) (h' : Leftmost t s places') : places' = places := by
  have hlt {l : List Nat} (hl : Leftmost t s l) : l.Pairwise (· < ·) :=
    hl.apart.imp fun hab => by omega
  refine (hlt h').eq_of_mem_iff (hlt h) fun q => ?_
  induction q using Nat.strongRecOn with
  | ind q ih =>
    exact ⟨fun hq => h'.mem_of_mem h hq fun k hk => (ih k hk).mpr,
      fun hq => h.mem_of_mem h' hq fun k hk => (ih k hk).mp⟩

end Leftmost

section Search

variable (m : Matcher) (origin budget : Nat)

theorem attempt_ofText (hi : i ≤ s.size) : (Regex.ofText t).attempt s origin budget i =
    if Occurs t s i then .found i (i + t.length) [] else .failed budget := by
  have hiff : Occurs t s i ↔ Regex.hasTextAt s t i = true := by
    rw [hasTextAt_iff, Occurs, and_iff_right hi]
  simp only [hiff]
  cases t with
  | nil =>
    have hmatch : (Automaton.ofExpr .empty false).match? s 0 i (s.size - i) =
        some (i, #[none, none]) := by
      change Automaton.run ⟨#[.accept], 0, false⟩ s (s.size - i) i [⟨0, #[none, none]⟩] none = _
      cases s.size - i <;> simp [Automaton.run, Automaton.advance, Automaton.emptyFront]
    simp only [Regex.attempt, Regex.ofText, Engine.ofText, hmatch]
    change Regex.Attempt.found (min i i) i [] = _
    rw [Nat.min_self]
    rfl
  | cons c t => rfl

/-- An occurrence as a match. -/
def Occurs.anchor (h : Occurs t s q) : Anchor s q :=
  ⟨⟨q, q + t.length, [], m.names, Nat.le_add_right _ _, h.add_length_le⟩, rfl⟩

/-- The occurrences of a text. -/
def occurrence (t : List Char) (s : Subject) : Anchoring s := fun q =>
  if h : Occurs t s q then some (h.anchor m) else none

theorem occurrence_eq_none_iff : occurrence m t s q = none ↔ ¬Occurs t s q := by
  unfold occurrence
  split <;> simp [*]

theorem eq_of_occurrence {f : Anchor s q} (h : occurrence m t s q = some f) :
    ∃ hq : Occurs t s q, f = hq.anchor m := by
  unfold occurrence at h
  split at h
  · next hq => exact ⟨hq, (Option.some.inj h).symm⟩
  · cases h

theorem first_of_occurs (h : Occurs t s i) :
    (occurrence m t s).first i = some (h.anchor m).val :=
  Anchoring.first_of_some h.1 (dif_pos h)

theorem first_of_not_occurs (h : ¬Occurs t s i) :
    (occurrence m t s).first i = (occurrence m t s).first (i + 1) :=
  Anchoring.first_of_none (dif_neg h)

/-- A search for a text tries one position after the other. -/
theorem searchFrom_ofText {left : Nat} (hleft : i + left = s.size) :
    ∃ found, (Regex.ofText t).searchFrom s origin left budget i = .ok found ∧
      found.map m.matchOf = (occurrence m t s).first i := by
  have hfloating : (Regex.ofText t).floating = true := by cases t <;> rfl
  induction left generalizing i with
  | zero =>
    rw [Regex.searchFrom, attempt_ofText origin budget (by omega)]
    by_cases hocc : Occurs t s i
    · rw [if_pos hocc, first_of_occurs m hocc]
      exact ⟨_, dif_pos ⟨Nat.le_add_right _ _, hocc.add_length_le⟩, rfl⟩
    · rw [if_neg hocc, first_of_not_occurs m hocc, Anchoring.first_of_size_lt (by omega)]
      exact ⟨none, rfl, rfl⟩
  | succ left ih =>
    rw [Regex.searchFrom, attempt_ofText origin budget (by omega)]
    by_cases hocc : Occurs t s i
    · rw [if_pos hocc, first_of_occurs m hocc]
      exact ⟨_, dif_pos ⟨Nat.le_add_right _ _, hocc.add_length_le⟩, rfl⟩
    · rw [if_neg hocc, first_of_not_occurs m hocc]
      simpa [hfloating] using ih (i := i + 1) (by omega)

theorem findsFirst_of_literal {m : Matcher} {text : String} (h : Matcher.literal text = .ok m) :
    m.FindsFirst s (occurrence m text.toList s) := by
  obtain ⟨hbody, -⟩ := Matcher.eq_of_literal h
  intro i hi
  have hleft : i + (s.size - i) = s.size := by omega
  obtain ⟨found, hsearch, hfirst⟩ :=
    searchFrom_ofText (t := text.toList) m i Program.maxReturns hleft
  rw [← hfirst]
  refine Matcher.find_of_search ?_
  rw [hbody, Regex.search, if_pos hi]
  exact hsearch

end Search

section Runs

variable {m : Matcher} {fs : List (Match s)} {failure : Option Error}

theorem Matcher.FindsFirst.goesForward {tryAt : Anchoring s} (h : m.FindsFirst s tryAt) :
    m.GoesForward s false := by
  intro i f hfind
  rw [h.find_eq] at hfind
  exact (Anchoring.exists_of_first (Except.ok.inj hfind)).1

/-- The matches of a text are occurrences, and each occurrence starts at one of them or is covered
by it. -/
theorem Matcher.Visits.occurs (finds : m.FindsFirst s (occurrence m t s))
    (unsticky : m.sticky = false) (h : m.Visits s i fs failure) :
    failure = none ∧ (∀ f ∈ fs, Occurs t s f.start ∧ f.stop = f.start + t.length) ∧
      ∀ k, i ≤ k → Occurs t s k → ∃ f ∈ fs, f.start ≤ k ∧ k < f.start + max t.length 1 := by
  induction h with
  | failed search =>
    rw [unsticky, finds.find_eq] at search
    cases search
  | nothing search =>
    rw [unsticky, finds.find_eq] at search
    refine ⟨rfl, by simp, fun k hk hocc => ?_⟩
    have hnone := Anchoring.first_eq_none_iff.mp (Except.ok.inj search) k hk hocc.1
    exact absurd hocc ((occurrence_eq_none_iff m).mp hnone)
  | @found i f fs failure search others ih =>
    rw [unsticky, finds.find_eq] at search
    obtain ⟨hi, hf, hbefore⟩ := Anchoring.exists_of_first (Except.ok.inj search)
    obtain ⟨hocc, hanchor⟩ := eq_of_occurrence m hf
    have hstop : f.stop = f.start + t.length := congrArg (·.val.stop) hanchor
    obtain ⟨hfailure, hothers, hcovers⟩ := ih
    refine ⟨hfailure, List.forall_mem_cons.mpr ⟨⟨hocc, hstop⟩, hothers⟩, fun k hk hkocc => ?_⟩
    have hfk : f.start ≤ k := Nat.not_lt.mp fun hlt =>
      (occurrence_eq_none_iff m).mp (hbefore k hk hlt) hkocc
    by_cases hcover : k < f.start + max t.length 1
    · exact ⟨f, List.mem_cons_self, hfk, hcover⟩
    · obtain ⟨f', hf', hle, hlt⟩ := hcovers k (by split <;> omega) hkocc
      exact ⟨f', List.mem_cons_of_mem _ hf', hle, hlt⟩

/-- A matcher for a text visits its leftmost occurrences. -/
theorem leftmost_run (finds : m.FindsFirst s (occurrence m t s)) (unsticky : m.sticky = false) :
    (m.run s).failure = none ∧
      (∀ f ∈ (m.run s).found, f.stop = f.start + t.length ∧ f.text = String.ofList t) ∧
      Leftmost t s ((m.run s).found.map (·.start)) := by
  have forward : m.GoesForward s m.sticky := unsticky ▸ finds.goesForward
  have visits := Matcher.visits_runFrom forward 0
  obtain ⟨hfailure, hfound, hcovers⟩ := visits.occurs finds unsticky
  refine ⟨hfailure, fun f hf => ?_, ?_, ?_, fun k hk => ?_⟩
  · obtain ⟨hocc, hstop⟩ := hfound f hf
    exact ⟨hstop, by rw [Match.text, hstop, hocc.slice_eq]⟩
  · intro q hq
    obtain ⟨f, hf, rfl⟩ := List.mem_map.mp hq
    exact (hfound f hf).1
  · have apart := (visits.pairwise forward).2
    refine List.pairwise_map.mpr (apart.imp_of_mem fun {f f'} hf hf' hlt => ?_)
    have hstop := (hfound f hf).2
    omega
  · obtain ⟨f, hf, hle, hlt⟩ := hcovers k (Nat.zero_le k) hk
    exact ⟨f.start, List.mem_map_of_mem hf, hle, hlt⟩

end Runs

section Pieces

variable {fs : List (Match s)} {last : Nat}

/-- A gap lies beside every match. -/
theorem exists_of_mem_gaps (ahead : ∀ f ∈ fs, last ≤ f.start)
    (apart : fs.Pairwise fun f f' => f.stop ≤ f'.start) (inside : last ≤ s.size) {p : String}
    (h : p ∈ gaps s last fs) : ∃ i j, p = s.slice i j ∧ last ≤ i ∧ i ≤ j ∧ j ≤ s.size ∧
      ∀ f ∈ fs, f.stop ≤ i ∨ j ≤ f.start := by
  induction fs generalizing last with
  | nil =>
    rw [gaps, List.mem_singleton] at h
    exact ⟨last, s.size, h, Nat.le_refl _, inside, Nat.le_refl _, by simp⟩
  | cons f fs ih =>
    obtain ⟨hbehind, apart⟩ := List.pairwise_cons.mp apart
    have hstart := ahead f List.mem_cons_self
    have hle := f.start_le
    have hsize := f.stop_le
    rcases List.mem_cons.mp h with rfl | h
    · refine ⟨last, f.start, rfl, Nat.le_refl _, hstart, by omega, fun f' hf' => .inr ?_⟩
      rcases List.mem_cons.mp hf' with rfl | hf'
      · exact Nat.le_refl _
      · exact Nat.le_trans hle (hbehind f' hf')
    · obtain ⟨i, j, hp, hi, hij, hj, hbeside⟩ := ih hbehind apart f.stop_le h
      exact ⟨i, j, hp, by omega, hij, hj, List.forall_mem_cons.mpr ⟨.inl hi, hbeside⟩⟩

theorem slice_succ (h : q < s.toList.length) :
    s.slice q (q + 1) = String.singleton s.toList[q] := by
  refine String.toList_inj.mp ?_
  rw [Subject.toList_slice, List.drop_eq_getElem_cons h, Nat.add_sub_cancel_left,
    String.toList_singleton]
  rfl

end Pieces

section EmptyTexts

variable (m : Matcher) {text : String}

/-- Behind each position that an empty text takes up a character is cut off. -/
theorem piecesFrom_empty (hq : q < s.size) : piecesFrom (occurrence m [] s) q q =
    (s.toList.drop q).map fun c => some (String.singleton c) := by
  have hat (k : Nat) (hk : k ≤ s.size) :
      occurrence m [] s k = some (Occurs.anchor m ⟨hk, List.nil_prefix⟩) :=
    dif_pos ⟨hk, List.nil_prefix⟩
  have hempty (k : Nat) (hk : k ≤ s.size) : ∀ f ∈ occurrence m [] s k, f.val.stop = k := by
    rw [hat k hk]
    rintro f ⟨⟩
    rfl
  induction hn : s.size - q generalizing q with
  | zero => omega
  | succ n ih =>
    have hlt : q < s.toList.length := by rwa [Subject.length_toList]
    rw [piecesFrom_skip (hempty q (Nat.le_of_lt hq)), List.drop_eq_getElem_cons hlt, List.map_cons,
      ← slice_succ hlt]
    rcases Nat.lt_or_ge (q + 1) s.size with hq' | hq'
    · rw [piecesFrom_cut hq' (hat _ (Nat.le_of_lt hq')) (Nat.succ_ne_self q)]
      exact congrArg (some (s.slice q (q + 1)) :: ·) (ih (q := q + 1) hq' (by omega))
    · have hend : q + 1 = s.size := by omega
      rw [piecesFrom_end hq', ← hend, List.drop_eq_nil_of_le (by rw [Subject.length_toList]; omega)]
      rfl

theorem split_empty_text (finds : ∀ s, m.FindsFirst s (occurrence m [] s)) :
    m.split (.ofString text) none =
      .ok ((text.toList.map String.singleton).map some) := by
  have hlimit : (none : Option Nat) ≠ some 0 := by simp
  rcases Nat.eq_zero_or_pos (Subject.ofString text).size with hsize | hsize
  · obtain rfl : text = "" := by
      rw [← String.toList_inj]
      exact List.eq_nil_of_length_eq_zero hsize
    exact Matcher.split_empty (finds _) hlimit
  · have hempty : occurrence m [] (.ofString "") 0 ≠ none :=
      fun h => (occurrence_eq_none_iff m).mp h ⟨Nat.zero_le _, List.nil_prefix⟩
    rw [Matcher.split_of_pos (finds _) (finds _) hsize hlimit, if_neg fun h => hempty h.2.2,
      List.append_nil, atMost, stepwise, if_neg hlimit, if_neg (Nat.ne_of_gt hsize), List.map_map]
    exact congrArg Except.ok (piecesFrom_empty m hsize)

end EmptyTexts

section Literals

variable {m : Matcher} {text : String}

theorem intercalate_singletons (cs : List Char) :
    "".intercalate (cs.map String.singleton) = String.ofList cs := by
  refine String.toList_inj.mp ?_
  rw [String.toList_intercalate, String.toList_ofList, List.map_map]
  induction cs with
  | nil => rfl
  | cons c cs ih => cases cs <;> simp_all [List.intercalate_cons_cons]

/-- No gap between the matches of a text has the text in it. -/
theorem not_infix_of_mem_gaps (ht : t ≠ []) {found : List (Match s)}
    (stops : ∀ f ∈ found, f.stop = f.start + t.length)
    (leftmost : Leftmost t s (found.map (·.start))) {p : String} (hp : p ∈ gaps s 0 found) :
    ¬t <:+: p.toList := by
  have hlength := List.length_pos_iff.mpr ht
  have apart : found.Pairwise fun f f' => f.stop ≤ f'.start :=
    (List.pairwise_map.mp leftmost.apart).imp_of_mem fun {f f'} hf hf' hlt => by
      have hstop := stops f hf
      omega
  obtain ⟨i, j, rfl, -, hij, hj, hbeside⟩ :=
    exists_of_mem_gaps (fun f _ => Nat.zero_le _) apart (Nat.zero_le _) hp
  intro hinfix
  obtain ⟨k, hik, hkj, hocc⟩ := Occurs.exists_of_infix hij hj hinfix
  obtain ⟨q, hq, hqk, hkq⟩ := leftmost.leftmost k hocc
  obtain ⟨f, hf, rfl⟩ := List.mem_map.mp hq
  have hstop := stops f hf
  rcases hbeside f hf with hside | hside <;> omega

end Literals

/-- A literal text is looked for as it stands, whatever its characters mean in a pattern. Its
matches are its leftmost occurrences that do not overlap. Splitting cuts at all of them, so the
pieces joined with the text are the subject; unless the text is empty it is in no piece, and there
is one piece more than occurrences. Replacing puts what is written for an occurrence in its place,
at all of them or at the first alone. An empty text occurs at every position. -/
theorem literal_occurrences (text t : String) {m : Matcher} (accepted : Matcher.literal t = .ok m) :
    let s := Subject.ofString text
    ∃ found : List (Match s),
      (∀ places, Leftmost t.toList s places ↔ places = found.map (·.start)) ∧
      (∀ f ∈ found, f.stop = f.start + t.toList.length ∧ f.text = t) ∧
      (∃ pieces, Patterns.split s (.text t) none = .ok (pieces.map some) ∧
        t.intercalate pieces = text ∧
        (t ≠ "" → pieces = gaps s 0 found ∧ pieces.length = found.length + 1 ∧
          ∀ p ∈ pieces, ¬t.toList <:+: p.toList)) ∧
      (t = "" → found.map (·.start) = List.range (s.size + 1)) ∧
      ∀ (r : Replacement) (scope : Option ReplaceScope) (write : Match s → String),
        (∀ f ∈ found, ∀ cursor, ∃ cursor', r.write f cursor = .ok (write f, cursor')) →
        let visited := if scope = some .all then found else found.take 1
        (Patterns.replace s (.text t) r scope).result =
          .ok (fill (gaps s 0 visited) (visited.map write)) := by
  intro s
  obtain ⟨hbody, unsticky, hglobal⟩ := Matcher.eq_of_literal accepted
  have finds (s : Subject) : m.FindsFirst s (occurrence m t.toList s) :=
    findsFirst_of_literal accepted
  obtain ⟨closed, hfound, leftmost⟩ := leftmost_run (finds s) unsticky
  have forward : m.GoesForward s m.sticky := unsticky ▸ (finds s).goesForward
  have bare : m.body.groups = 0 := by rw [hbody]; rfl
  refine ⟨(m.run s).found, fun places => ⟨leftmost.unique, ?_⟩, ?_, ?_, ?_, ?_⟩
  · rintro rfl
    exact leftmost
  · simpa using hfound
  · have hsplit : Patterns.split s (.text t) none = m.split s none := by
      simp only [Patterns.split, Needle.toMatcher, accepted, bind, Except.bind]
    by_cases ht : t = ""
    · subst ht
      refine ⟨_, hsplit.trans (split_empty_text m finds), ?_, fun h => absurd rfl h⟩
      rw [intercalate_singletons, String.ofList_toList]
    · have hne : t.toList ≠ [] := by simpa using ht
      have hpos := List.length_pos_iff.mpr hne
      have long : ∀ f ∈ (m.run s).found, f.start < f.stop := fun f hf => by
        have hstop := (hfound f hf).1
        omega
      refine ⟨gaps s 0 (m.run s).found, ?_, ?_, fun _ => ⟨rfl, length_gaps _ _, fun p hp =>
        not_infix_of_mem_gaps hne (fun f hf => (hfound f hf).1) leftmost hp⟩⟩
      · rw [hsplit, Matcher.split_eq_answer unsticky bare long, MatchRun.answer_of_closed closed]
      · have htexts : (m.run s).found.map (·.text) = (m.run s).found.map fun _ => t :=
          List.map_congr_left fun f hf => by simpa using (hfound f hf).2
        have apart := ((Matcher.visits_runFrom forward 0).pairwise forward).2.imp And.right
        rw [intercalate_gaps, ← htexts]
        exact (fill_gaps_text (fun f _ => Nat.zero_le _) apart (Nat.zero_le _)).trans
          (Subject.slice_ofString text)
  · rintro rfl
    refine (leftmost.unique ⟨?_, ?_, ?_⟩).symm
    · exact fun q hq => ⟨Nat.le_of_lt_succ (List.mem_range.mp hq), List.nil_prefix⟩
    · exact List.pairwise_lt_range
    · exact fun k hk => ⟨k, List.mem_range.mpr (Nat.lt_succ_of_le hk.1), Nat.le_refl k, by simp⟩
  · intro r scope write writes visited
    have hreplace :
        Patterns.replace s (.text t) r scope = Patterns.replace s (.matcher m) r scope := by
      simp only [Patterns.replace, Needle.toMatcher, accepted]
    obtain ⟨wide, hwide, hrun⟩ := Matcher.exists_wide forward scope
    have hall : m.run s = ⟨(m.run s).found, none⟩ := by rw [← closed]
    have hfirst : (m.run s).first = ⟨(m.run s).found.take 1, none⟩ := by
      rw [hall, MatchRun.first, ite_self]
    have hvisited : (if wide then m.run s else m.runOnce s) = ⟨visited, none⟩ := by
      rw [hrun, hglobal, hfirst]
      rcases scope with _ | _ | _
      · rfl
      · rfl
      · exact hall
    have hwrites : ∀ f ∈ visited, ∀ cursor, ∃ cursor',
        r.write f cursor = .ok (write f, cursor') := by
      intro f hf
      refine writes f ?_
      by_cases hscope : scope = some .all
      · simpa [visited, hscope] using hf
      · exact List.mem_of_mem_take (by simpa [visited, hscope] using hf)
    rw [hreplace, hwide, Matcher.result_replace, hvisited, Matcher.substitute_eq_fill _ hwrites]
    rfl

/-- Of two occurrences that overlap the first one is taken. -/
theorem literal_occurrences_overlap :
    let s := Subject.ofString "éa.a.a."
    let replaced (scope : Option ReplaceScope) := (Patterns.replace s (.text "a.a.")
      (.function fun f cursor => (f.text ++ "|", cursor)) scope).result
    (∃ m, Matcher.literal "a.a." = .ok m) ∧ Occurs "a.a.".toList s 3 ∧
      Patterns.split s (.text "a.a.") none = .ok [some "é", some "a."] ∧
      replaced (some .all) = .ok "éa.a.|a." ∧ replaced none = .ok "éa.a.|a." := by
  intro s replaced
  obtain ⟨m, hm⟩ := Matcher.exists_literal (t := "a.a.") (by decide)
  obtain ⟨found, hplaces, hfound, ⟨pieces, hsplit, -, hpieces⟩, -, hreplace⟩ :=
    literal_occurrences "éa.a.a." "a.a." hm
  have hcovers : ∀ k < 8, Occurs "a.a.".toList s k → 1 ≤ k ∧ k < 5 := by decide +kernel
  have leftmost : Leftmost "a.a.".toList s [1] := by
    refine ⟨?_, List.pairwise_singleton _ _, fun k hk => ⟨1, List.mem_singleton_self 1, ?_⟩⟩
    · rintro q hq
      obtain rfl := List.mem_singleton.mp hq
      decide +kernel
    · exact hcovers k (Nat.lt_succ_of_le hk.1) hk
  obtain ⟨f, rfl, hstart⟩ := List.map_eq_singleton_iff.mp ((hplaces [1]).mp leftmost).symm
  have hstop : f.stop = 5 := by rw [(hfound f List.mem_cons_self).1, hstart]; rfl
  have hgaps : gaps s 0 [f] = ["é", "a."] := by
    simp only [gaps, hstart, hstop]
    decide +kernel
  have hreplaced (scope : Option ReplaceScope) : replaced scope = .ok "éa.a.|a." := by
    have hresult := hreplace (.function fun f cursor => (f.text ++ "|", cursor)) scope
      (fun f => f.text ++ "|") fun f _ cursor => ⟨cursor, rfl⟩
    have hvisited : (if scope = some .all then [f] else [f].take 1) = [f] := by split <;> rfl
    refine hresult.trans ?_
    rw [hvisited, show gaps (.ofString "éa.a.a.") 0 [f] = _ from hgaps, List.map_singleton,
      (hfound f List.mem_cons_self).2]
    decide +kernel
  refine ⟨⟨m, hm⟩, by decide +kernel, ?_, hreplaced _, hreplaced _⟩
  rw [show Patterns.split s (.text "a.a.") none = _ from hsplit, (hpieces (by decide)).1,
    show gaps (.ofString "éa.a.a.") 0 [f] = _ from hgaps]
  rfl

end Patterns
