import Patterns.Proofs.Reads

/-!
# Removed text before a quantifier

Comments and, in spaced mode, white space and line comments are removed. A run of them that stands
before a quantifier is removed in pieces, and a separator is written for each piece but the last.
-/
namespace Patterns.Extended
open Patterns.Text

/-- Text that is removed; all of it but a comment in parentheses is spacing. -/
inductive Filler where
  | comment (body : {cs : List Char // ')' ∉ cs})
  | blank (c : {c : Char // isBlank c = true})
  | line (body : {cs : List Char // '\n' ∉ cs ∧ '\r' ∉ cs})
    (stop : {c : Char // c = '\n' ∨ c = '\r'})

namespace Filler

def text : Filler → List Char
  | .comment body => '(' :: '?' :: '#' :: (body.1 ++ [')'])
  | .blank c => [c.1]
  | .line body stop => '#' :: (body.1 ++ [stop.1])

def isSpacing : Filler → Bool
  | .comment _ => false
  | .blank _ | .line _ _ => true

/-- The number of pieces that a run is removed in: spacing goes together with what spacing follows.
-/
def pieces : List Filler → Nat
  | [] => 0
  | f :: fs => pieces fs + if f.isSpacing && fs.head?.any isSpacing then 0 else 1

def separators (n : Nat) : List Char := (List.replicate n ['(', '?', ':', ')']).flatten

variable {f : Filler} {fs gs : List Filler} {r : List Char}

theorem pieces_append (hne : gs ≠ []) (hgs : ∀ g ∈ gs, g.isSpacing = true)
    (hfs : fs.head?.any isSpacing = false) : pieces (gs ++ fs) = pieces fs + 1 := by
  induction gs with
  | nil => exact absurd rfl hne
  | cons g gs ih =>
    have hg := hgs g (by simp)
    cases gs with
    | nil => simp [pieces, hfs]
    | cons g' gs =>
      have hg' := hgs g' (by simp)
      have hi := ih (by simp) (fun g hm => hgs g (by simp [hm]))
      rw [List.cons_append, pieces, hi]
      simp [hg, hg']

theorem pieces_pos (hne : fs ≠ []) : 0 < pieces fs := by
  induction fs with
  | nil => exact absurd rfl hne
  | cons f fs ih =>
    cases fs with
    | nil => simp [pieces]
    | cons g fs =>
      have hi := ih (by simp)
      rw [pieces]
      omega

theorem separators_succ (n : Nat) : separators (n + 1) = ['(', '?', ':', ')'] ++ separators n := by
  simp [separators, List.replicate_succ]

private theorem spacingLength_line {body : List Char} {stop : Char}
    (hbody : '\n' ∉ body ∧ '\r' ∉ body) (hstop : stop = '\n' ∨ stop = '\r') :
    Lexeme.spacingLength true (body ++ stop :: r) =
      body.length + 1 + Lexeme.spacingLength false r := by
  induction body with
  | nil => rcases hstop with rfl | rfl <;> simp [Lexeme.spacingLength]
  | cons c body ih =>
    simp only [List.mem_cons, not_or] at hbody
    have hi := ih ⟨hbody.1.2, hbody.2.2⟩
    simp [Lexeme.spacingLength, Ne.symm hbody.1.1, Ne.symm hbody.2.1, hi]
    omega

theorem spacingLength_text (hf : f.isSpacing = true) :
    Lexeme.spacingLength false (f.text ++ r) =
      f.text.length + Lexeme.spacingLength false r := by
  cases f with
  | comment => simp [isSpacing] at hf
  | blank c => simp [text, Lexeme.spacingLength, c.2]
  | line body stop =>
    have hl := spacingLength_line (r := r) body.2 stop.2
    simp [text, Lexeme.spacingLength_comment, hl]
    omega

theorem spacingLength_flatMap (hfs : ∀ f ∈ fs, f.isSpacing = true) :
    Lexeme.spacingLength false (fs.flatMap text ++ r) =
      (fs.flatMap text).length + Lexeme.spacingLength false r := by
  induction fs with
  | nil => simp
  | cons f fs ih =>
    have hi := ih fun g hg => hfs g (by simp [hg])
    rw [List.flatMap_cons, List.append_assoc, spacingLength_text (hfs f (by simp)), hi,
      List.length_append]
    omega

theorem exists_text_eq (f : Filler) :
    ∃ c t, f.text = c :: t ∧ (c = '(' ∨ isBlank c = true ∨ c = '#') := by
  cases f with
  | comment => exact ⟨'(', _, rfl, .inl rfl⟩
  | blank c => exact ⟨c.1, [], rfl, .inr (.inl c.2)⟩
  | line => exact ⟨'#', _, rfl, .inr (.inr rfl)⟩

/-- Whether a filler stands there or not can be told from a quantifier. -/
theorem startsWithQuantifier_text : startsWithQuantifier (f.text ++ r) = false := by
  rw [← Bool.not_eq_true]
  intro h
  obtain ⟨t, r', he, ht⟩ := startsWithQuantifier_iff.mp h
  obtain ⟨a, t, rfl, ha⟩ := ht.exists_eq_cons
  obtain ⟨c, w, hw, hc⟩ := exists_text_eq f
  rw [hw] at he
  obtain rfl := (List.cons.inj he).1
  simp only [List.mem_cons, List.not_mem_nil, or_false] at ha
  rcases ha with rfl | rfl | rfl | rfl <;> exact absurd hc (by decide)

end Filler

section Runs

variable {e : Setting} {c : Context} {f : Filler} {fs gs : List Filler} {r : List Char}

private theorem reads_comment (body : {cs : List Char // ')' ∉ cs}) :
    Reads e c (Filler.comment body).text r (separator r) c :=
  reads_lexeme (fun _ => .comment body.2) rfl .comment

private theorem reads_spacing (hne : gs ≠ []) (hgs : ∀ g ∈ gs, g.isSpacing = true)
    (hx : c.hasFlag 'x' = true) (hr : Lexeme.spacingLength false r = 0) :
    Reads e c (gs.flatMap Filler.text) r (separator r) c := by
  refine .of_moves fun _ => .lexeme rfl (.spacing hx ?_ ?_) rfl .spacing
  · obtain ⟨g, gs, rfl⟩ := List.exists_cons_of_ne_nil hne
    obtain ⟨a, t, ht, -⟩ := Filler.exists_text_eq g
    simp [ht]
  · rw [Filler.spacingLength_flatMap hgs, hr, Nat.add_zero]

private theorem spacingLength_quantifier (hq : startsWithQuantifier r = true) :
    Lexeme.spacingLength false r = 0 := by
  obtain ⟨t, r', rfl, ht⟩ := startsWithQuantifier_iff.mp hq
  obtain ⟨a, t, rfl, ha⟩ := ht.exists_eq_cons
  simp only [List.mem_cons, List.not_mem_nil, or_false] at ha
  rcases ha with rfl | rfl | rfl | rfl <;> exact Lexeme.spacingLength_eq_zero (by decide)

/-- A run starts with a piece that is removed at once. -/
private theorem exists_piece (hne : fs ≠ [])
    (hx : ∀ f ∈ fs, f.isSpacing = true → c.hasFlag 'x' = true)
    (hq : startsWithQuantifier r = true) :
    ∃ gs hs, fs = gs ++ hs ∧ gs ≠ [] ∧ Filler.pieces fs = Filler.pieces hs + 1 ∧
      Reads e c (gs.flatMap Filler.text) (hs.flatMap Filler.text ++ r)
        (separator (hs.flatMap Filler.text ++ r)) c := by
  obtain ⟨f, fs, rfl⟩ := List.exists_cons_of_ne_nil hne
  cases hf : f.isSpacing with
  | false =>
    refine ⟨[f], fs, rfl, by simp, by simp [Filler.pieces, hf], ?_⟩
    cases f with
    | comment body => simpa using reads_comment body
    | blank | line => simp [Filler.isSpacing] at hf
  | true =>
    obtain ⟨hs, hfs, hstop⟩ := eq_takeWhile_append Filler.isSpacing (f :: fs)
    have hgs := all_takeWhile Filler.isSpacing (f :: fs)
    have hg : (f :: fs).takeWhile Filler.isSpacing ≠ [] := by simp [hf]
    generalize (f :: fs).takeWhile Filler.isSpacing = gs at hfs hgs hg
    refine ⟨gs, hs, hfs, hg, by rw [hfs, Filler.pieces_append hg hgs hstop], ?_⟩
    refine reads_spacing hg hgs (hx f (by simp) hf) ?_
    cases hs with
    | nil => exact spacingLength_quantifier hq
    | cons h hs =>
      cases h with
      | comment body => exact Lexeme.spacingLength_eq_zero (by decide)
      | blank | line => simp [Filler.isSpacing] at hstop

/-- A run before a quantifier writes a separator for each of its pieces but the last. -/
theorem reads_fillers (hx : ∀ f ∈ fs, f.isSpacing = true → c.hasFlag 'x' = true)
    (hq : startsWithQuantifier r = true) :
    Reads e c (fs.flatMap Filler.text) r (Filler.separators (Filler.pieces fs - 1)) c := by
  generalize hn : fs.length = n
  induction n using Nat.strongRecOn generalizing fs with
  | ind n ih =>
    by_cases hne : fs = []
    · subst hne
      exact Reads.nil
    obtain ⟨gs, hs, rfl, hg, hpieces, hreads⟩ := exists_piece (e := e) hne hx hq
    have hpos : 0 < gs.length := List.length_pos_iff.mpr hg
    have hrest := ih hs.length (by simp at hn; omega) (fun f hf => hx f (by simp [hf])) rfl
    have h := hreads.append hrest
    rw [← List.flatMap_append] at h
    rw [hpieces, Nat.add_sub_cancel]
    cases hs with
    | nil => simpa [separator, hq, Filler.separators, Filler.pieces] using h
    | cons f hs =>
      have hp : 0 < Filler.pieces (f :: hs) := Filler.pieces_pos (by simp)
      obtain ⟨k, hk⟩ : ∃ k, Filler.pieces (f :: hs) = k + 1 :=
        ⟨_, (Nat.succ_pred (Nat.ne_of_gt hp)).symm⟩
      have hsep : separator ((f :: hs).flatMap Filler.text ++ r) = ['(', '?', ':', ')'] := by
        rw [List.flatMap_cons, List.append_assoc]
        exact if_neg (by simp [Filler.startsWithQuantifier_text])
      rw [hsep, hk, Nat.add_sub_cancel, ← Filler.separators_succ] at h
      rwa [hk]

variable {p q : Spot} {ms : History} {limit : Nat} {out t w : List Char} {c' : Context}

/-- What is written behind a run starts with its separators and the quantifier. -/
theorem exists_written_fillers (h : Reading e p ms q) (hend : q.rest = [])
    (hscope : p.scope = .outside) (hrest : p.rest = fs.flatMap Filler.text ++ (t ++ r))
    (hq : IsQuantifier t) (hx : ∀ f ∈ fs, f.isSpacing = true → p.context.hasFlag 'x' = true) :
    ∃ w, written ms = Filler.separators (Filler.pieces fs - 1) ++ (t ++ w) := by
  obtain ⟨atStart, text, scope, c⟩ := p
  obtain rfl : scope = .outside := hscope
  obtain rfl : text = fs.flatMap Filler.text ++ (t ++ r) := hrest
  obtain ⟨z, r', rfl, hz⟩ := exists_isMark r
  have hstart : startsWithQuantifier (t ++ (z ++ r')) = true :=
    startsWithQuantifier_iff.mpr ⟨t, _, rfl, hq⟩
  have hreads := reads_fillers (e := e) (c := c) hx hstart
  rw [← List.append_assoc t z r'] at hreads h
  rw [← List.append_assoc] at h
  obtain ⟨w, hw⟩ := (hreads.append (reads_quantifier hq hz)).exists_written h hend
  exact ⟨z ++ w, by simp [hw]⟩

private theorem prefix_separators_iff {n : Nat} (hq : IsQuantifier t) :
    t <+: Filler.separators n ++ (t ++ w) ↔ n = 0 := by
  constructor
  · intro hprefix
    cases n with
    | zero => rfl
    | succ n =>
      rw [Filler.separators_succ] at hprefix
      obtain ⟨a, u, rfl, ha⟩ := hq.exists_eq_cons
      obtain rfl := (List.cons_prefix_cons.mp hprefix).1
      exact absurd ha (by decide)
  · rintro rfl
    exact List.prefix_append t w

/-- Behind a run of removed text a quantifier follows what is written before the run exactly where
the run is a single piece. -/
theorem quantifier_follows_iff (ht : e.dialect.tokens = [])
    (h : e.toPlain limit c = .ok (out, c')) (hms : Reading e (.start e.pattern.toList c) ms p)
    (hscope : p.scope = .outside) (hrest : p.rest = fs.flatMap Filler.text ++ (t ++ r))
    (hq : IsQuantifier t) (hx : ∀ f ∈ fs, f.isSpacing = true → p.context.hasFlag 'x' = true)
    (hne : fs ≠ []) :
    (∃ w, out = written ms ++ Filler.separators (Filler.pieces fs - 1) ++ t ++ w) ∧
      (written ms ++ t <+: out ↔ Filler.pieces fs = 1) := by
  obtain ⟨all, q, hall, hend, -, rfl, -⟩ := (toPlain_eq_ok_iff ht).mp h
  obtain ⟨rest, rfl, hreading⟩ := hms.split hall hend
  obtain ⟨w, hw⟩ := exists_written_fillers hreading hend hscope hrest hq hx
  have hpos : 0 < Filler.pieces fs := Filler.pieces_pos hne
  rw [written_append, hw]
  refine ⟨⟨w, by simp⟩, ?_⟩
  rw [List.prefix_append_right_inj, prefix_separators_iff hq]
  omega

private theorem reads_letter : Reads e c ['a'] r ['a'] c := by
  refine reads_single (by decide) (fun _ => ?_) (.inl (by decide))
  rw [List.singleton_append, Lexeme.scan?_of_not_mem_starters (by decide),
    Lexeme.spacingLength_eq_zero (by decide)]
  simp

private theorem toPlain_letter (ht : e.dialect.tokens = [])
    (hp : e.pattern.toList = ['a'] ++ (fs.flatMap Filler.text ++ ['*']))
    (hx : ∀ f ∈ fs, f.isSpacing = true → c.hasFlag 'x' = true) :
    e.toPlain limit c = .ok (['a'] ++ (Filler.separators (Filler.pieces fs - 1) ++ ['*']), c) := by
  refine toPlain_of_reads ht ?_
  rw [hp]
  exact reads_letter.append ((reads_fillers hx rfl).append
    (reads_quantifier (z := []) (.simple (by decide)) (.inr ⟨rfl, by simp⟩)))

/-- White space and a line comment are a single piece. -/
theorem quantifier_follows_spacing :
    Setting.toPlain ⟨{}, ⟨true, fun _ _ => none⟩, none, "a #c\n*"⟩ 0 (.ofFlags "x") =
        .ok (['a', '*'], .ofFlags "x") ∧ ['a'] ++ ['*'] <+: ['a', '*'] := by
  let e : Setting := ⟨{}, ⟨true, fun _ _ => none⟩, none, "a #c\n*"⟩
  let fs : List Filler := [.blank ⟨' ', by decide⟩, .line ⟨['c'], by decide⟩ ⟨'\n', by decide⟩]
  have hx : ∀ f ∈ fs, f.isSpacing = true → (Context.ofFlags "x").hasFlag 'x' = true :=
    fun _ _ _ => by decide
  have hp : e.pattern.toList = ['a'] ++ (fs.flatMap Filler.text ++ ['*']) := by decide
  have h : e.toPlain 0 (.ofFlags "x") = .ok (['a', '*'], .ofFlags "x") := toPlain_letter rfl hp hx
  obtain ⟨ms, atStart, hms, hw, -⟩ := reads_letter (e := e) (c := .ofFlags "x")
    (r := fs.flatMap Filler.text ++ ['*']) true
  rw [← hp] at hms
  have hfollows := quantifier_follows_iff (r := []) (t := ['*']) rfl h hms rfl rfl
    (.simple (by decide)) hx (by decide)
  rw [hw] at hfollows
  exact ⟨h, hfollows.2.mpr (by decide)⟩

/-- Between two comments a separator is written, and the quantifier follows that. -/
theorem separator_before_quantifier :
    Setting.toPlain ⟨{}, ⟨true, fun _ _ => none⟩, none, "a(?#x)(?#y)*"⟩ 0 (.ofFlags "") =
        .ok ("a(?:)*".toList, .ofFlags "") ∧ ¬"a*".toList <+: "a(?:)*".toList := by
  refine ⟨?_, by decide⟩
  let fs : List Filler := [.comment ⟨['x'], by decide⟩, .comment ⟨['y'], by decide⟩]
  have hx : ∀ f ∈ fs, f.isSpacing = true → (Context.ofFlags "").hasFlag 'x' = true := by decide
  exact toPlain_letter rfl (by decide) hx

end Runs

end Patterns.Extended
