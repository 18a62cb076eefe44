import Patterns.Proofs.Alternatives
import Patterns.Proofs.References
import Patterns.Proofs.Searches

/-!
# Parts joined as bare text

Where the parts of a union stand next to each other a reference at the end of one takes the digits
at the start of the next, and bars part all of the text and not only the part that they stand in.
`Fragments.Seamless` excludes the first; then the union is the texts of its parts, each of its
references goes to the group that the part meant, and `Fragments.choicesInOrder` are its
alternatives.
-/
namespace Patterns
open Patterns.Text Patterns.Extended

namespace Extended

def Fragment.isReference : Fragment → Bool
  | .reference _ => true
  | _ => false

namespace Fragments

/-- No list that ends in a reference stands before a digit. -/
def Seamless : List (List Fragment) → Prop
  | [] => True
  | ss :: sss =>
    (ss.getLast?.any Fragment.isReference = true →
      (plain sss.flatten).head?.any Char.isDigit = false) ∧ Seamless sss

instance decidableSeamless : (sss : List (List Fragment)) → Decidable (Seamless sss)
  | [] => inferInstanceAs (Decidable True)
  | _ :: sss =>
    have := decidableSeamless sss
    inferInstanceAs (Decidable (_ ∧ _))

/-- Does not start with a quantifier. -/
def IsFronted (ss : List Fragment) : Prop := ∀ q, ss.head? ≠ some (.quantifier q)

/-- The numbers of the references. -/
def numbers (ss : List Fragment) : List Nat :=
  ss.filterMap fun
    | .reference n => some n
    | _ => none

/-- The numbers of references of lists that stand in this order, each behind the groups of those
before it. -/
def numbersInOrder : Nat → List (List Fragment) → List Nat
  | _, [] => []
  | prior, ss :: sss =>
    (numbers ss).map (· + prior) ++ numbersInOrder (prior + (groups ss).length) sss

variable {ss ss' : List Fragment} {sss : List (List Fragment)} {prior : Nat} {r : List Char}

section Seams

theorem IsFronted.append (h : IsFronted ss) (h' : IsFronted ss') : IsFronted (ss ++ ss') := by
  cases ss with
  | nil => exact h'
  | cons s ss => exact h

theorem IsFronted.shift (h : IsFronted ss) (offset : Nat) : IsFronted (shift offset ss) := by
  cases ss with
  | nil => exact h
  | cons s ss =>
    intro q hq
    cases s with
    | quantifier q' => exact h q' rfl
    | _ => simp [Fragment.shift] at hq

theorem isFronted_flatten (h : ∀ ss ∈ sss, IsFronted ss) (prior : Nat) :
    IsFronted (shiftEach prior sss).flatten := by
  induction sss generalizing prior with
  | nil => simp [IsFronted, shiftEach]
  | cons ss sss ih =>
    exact ((h ss (by simp)).shift prior).append (ih (fun ss hm => h ss (by simp [hm])) _)

theorem isFronted_literal (cs : List Char) : IsFronted (literal cs) := by
  cases cs with
  | nil => simp [IsFronted, literal]
  | cons c cs =>
    intro q hq
    have hc : Fragment.literal c = .quantifier q := by simpa [literal] using hq
    unfold Fragment.literal at hc
    split at hc
    · simp at hc
    · split at hc <;> simp at hc

theorem fragments_ne_nil {flags : List Char} {before : Groups} {after : List Char} {t : Tree}
    (h : t.isAtom = true) : t.fragments flags before after ≠ [] := by
  cases t with
  | dot =>
    simp only [Tree.fragments]
    split <;> simp
  | _ => simp_all [Tree.isAtom, Tree.fragments]

theorem isFronted_fragments {flags : List Char} {before : Groups} {after : List Char} {t : Tree}
    (hw : t.WellFormed flags before after) : IsFronted (t.fragments flags before after) := by
  induction t generalizing before after with
  | empty => simp [IsFronted, Tree.fragments]
  | char c =>
    simp only [Tree.fragments, Literal.fragment]
    split <;> simp [IsFronted]
  | dot =>
    simp only [Tree.fragments]
    split <;> simp [IsFronted]
  | escape | oneOf | reference | namedReference => simp [IsFronted, Tree.fragments]
  | group o body =>
    cases o with
    | unnamed =>
      simp only [Tree.fragments, Opener.fragment]
      split <;> simp [IsFronted]
    | _ => simp [IsFronted, Tree.fragments, Opener.fragment]
  | quantified atom q ih =>
    have hatom := ih hw.2
    cases hfragments : atom.fragments flags before (q.text ++ after) with
    | nil => exact absurd hfragments (fragments_ne_nil hw.1)
    | cons s ss =>
      rw [Tree.fragments, hfragments]
      rwa [hfragments] at hatom
  | concat left right ihl ihr => exact (ihl hw.1).append (ihr hw.2)
  | alternation left right ihl ihr => exact (ihl hw.1).append (by simp [IsFronted, Fragment.bar])

theorem IsFronted.head?_plain (h : IsFronted ss) : (plain ss).head? ≠ some '?' := by
  cases ss with
  | nil => simp
  | cons s ss =>
    rw [← List.append_nil (plain (s :: ss)), head?_plain_cons]
    cases s with
    | sign c =>
      have hc := c.2
      simp only [List.mem_cons, List.not_mem_nil, or_false, not_or] at hc
      simp [Fragment.plain, Fragment.print, hc]
    | opener o =>
      obtain ⟨u, hu, -⟩ := exists_eq_cons_of_mem_openers o.2
      simp [Fragment.plain, Fragment.print, hu]
    | quantifier q => exact absurd rfl (h q)
    | _ => simp [Fragment.plain, Fragment.print, referenceTo]

theorem getLast?_shift_any (offset : Nat) :
    (shift offset ss).getLast?.any Fragment.isReference = ss.getLast?.any Fragment.isReference := by
  rw [shift, List.getLast?_map]
  cases ss.getLast? with
  | none => rfl
  | some s => cases s <;> rfl

theorem closed_flatten (h : ∀ ss ∈ sss, Closed 0 ss) (prior : Nat) :
    Closed 0 (shiftEach prior sss).flatten := by
  induction sss generalizing prior with
  | nil => rfl
  | cons ss sss ih => exact (h ss (by simp)).shift.append (ih (fun ss hm => h ss (by simp [hm])) _)

theorem noBar_flatten (h : ∀ ss ∈ sss, NoBar 0 ss) (closed : ∀ ss ∈ sss, Closed 0 ss)
    (prior : Nat) : NoBar 0 (shiftEach prior sss).flatten := by
  induction sss generalizing prior with
  | nil => trivial
  | cons ss sss ih =>
    exact (h ss (by simp)).shift.append (closed ss (by simp)).shift
      (ih (fun ss hm => h ss (by simp [hm])) (fun ss hm => closed ss (by simp [hm])) _)

theorem head?_plain_flatten (prior : Nat) : (plain (shiftEach prior sss).flatten).head? =
    (plain sss.flatten).head? := by
  induction sss generalizing prior with
  | nil => rfl
  | cons ss sss ih =>
    rw [shiftEach, List.flatten_cons, List.flatten_cons, plain_append, plain_append,
      head?_plain_shift]
    cases ss with
    | nil => exact ih _
    | cons s ss => rw [head?_plain_cons, head?_plain_cons]

theorem Fit.congr {count : Nat} {after after' : List Char} (h : Fit count after ss)
    (hhead : after'.head? = after.head?) : Fit count after' ss :=
  h.of_getLast? fun _ _ _ hs => hs.congr hhead

/-- Before a text that it does not run on into a list of fragments fits as it does by itself. -/
theorem Fit.before (h : Fit 0 [] ss) (mark : r.head? ≠ some '?')
    (digit : ss.getLast?.any Fragment.isReference = true → r.head?.any Char.isDigit = false) :
    Fit prior r (Fragments.shift prior ss) := by
  refine (h.shift prior).of_getLast? fun s hlast n hfits => ?_
  cases s with
  | reference m =>
    refine ⟨hfits.1, hfits.2.1, digit ?_⟩
    rw [← getLast?_shift_any prior, Option.mem_def.mp hlast]
    rfl
  | capture | quantifier => exact mark
  | _ => trivial

theorem fit_flatten (h : ∀ ss ∈ sss, Fit 0 [] ss) (fronted : ∀ ss ∈ sss, IsFronted ss)
    (seamless : Seamless sss) (prior : Nat) : Fit prior [] (shiftEach prior sss).flatten := by
  induction sss generalizing prior with
  | nil => trivial
  | cons ss sss ih =>
    have hfronted : ∀ ss ∈ sss, IsFronted ss := fun ss hm => fronted ss (by simp [hm])
    rw [shiftEach, List.flatten_cons, fit_append, groups_shift, List.append_nil]
    refine ⟨(h ss (by simp)).before ?_ ?_, ih (fun ss hm => h ss (by simp [hm])) hfronted
      seamless.2 _⟩
    · exact (isFronted_flatten hfronted _).head?_plain
    · rw [head?_plain_flatten]
      exact seamless.1

/-- Where a list runs on into the next one there is a first reference that stands before a digit. -/
theorem exists_loose (h : ∀ ss ∈ sss, Fit 0 [] ss) (fronted : ∀ ss ∈ sss, IsFronted ss)
    (loose : ¬Seamless sss) (prior : Nat) :
    ∃ front n back, (shiftEach prior sss).flatten = front ++ Fragment.reference n :: back ∧ 1 ≤ n ∧
      Fit prior (referenceTo n ++ plain back) front ∧
      (plain back).head?.any Char.isDigit = true := by
  induction sss generalizing prior with
  | nil => exact absurd trivial loose
  | cons ss sss ih =>
    have hfronted : ∀ ss ∈ sss, IsFronted ss := fun ss hm => fronted ss (by simp [hm])
    have hss := h ss (by simp)
    rw [shiftEach, List.flatten_cons]
    generalize hrest : (shiftEach (prior + (groups ss).length) sss).flatten = rest
    have hhead : (plain rest).head? = (plain sss.flatten).head? := by
      rw [← hrest, head?_plain_flatten]
    by_cases hseam : ss.getLast?.any Fragment.isReference = true →
        (plain sss.flatten).head?.any Char.isDigit = false
    · obtain ⟨front, n, back, heq, hn, hfit, hdigit⟩ := ih (fun ss hm => h ss (by simp [hm]))
        hfronted (fun hs => loose ⟨hseam, hs⟩) (prior + (groups ss).length)
      obtain rfl : rest = front ++ Fragment.reference n :: back := hrest.symm.trans heq
      refine ⟨shift prior ss ++ front, n, back, by simp, hn, ?_, hdigit⟩
      rw [fit_append, groups_shift]
      have hplain : plain (front ++ Fragment.reference n :: back) =
          plain front ++ (referenceTo n ++ plain back) := by simp [Fragment.plain, Fragment.print]
      rw [hplain] at hhead
      refine ⟨hss.before ?_ ?_, hfit⟩
      · rw [hhead, ← head?_plain_flatten 0]
        exact (isFronted_flatten hfronted 0).head?_plain
      · rw [hhead]
        exact hseam
    · simp only [Classical.not_imp, Bool.not_eq_false] at hseam
      obtain ⟨hlast, hdigit⟩ := hseam
      cases hs : ss.getLast? with
      | none => simp [hs] at hlast
      | some s =>
        cases s with
        | reference n =>
          obtain ⟨front, rfl⟩ := List.getLast?_eq_some_iff.mp hs
          obtain ⟨hfront, hn, -⟩ := fit_append.mp hss
          refine ⟨shift prior front, n + prior, rest, by simp [shift, Fragment.shift], ?_, ?_, ?_⟩
          · exact Nat.le_trans hn.1 (Nat.le_add_right _ _)
          · exact (hfront.shift prior).congr rfl
          · rw [hhead, hdigit]
        | _ => simp [hs, Fragment.isReference] at hlast

end Seams

section References

private theorem isPlain_of {scope : Scope} {c : Char} (hc : c ∉ ['\\', '[', ']']) :
    IsPlain scope c := by
  simp only [List.mem_cons, List.not_mem_nil, or_false, not_or] at hc
  cases scope <;> simp [IsPlain, hc]

theorem traverses_references (bound : Nat) :
    Traverses bound (fun scope _ => references scope) (fun _ x => x)
      (fun n x => Nat.toDigits 10 n :: x) (fun _ x => x) where
  copy_nil := rfl
  copy_append := rfl
  char ha _ := references_cons (isPlain_of ha)
  escape {scope u _ r} := by
    have hl := u.escapeLength_eq r
    rw [List.cons_append] at hl
    rw [List.cons_append, List.cons_append, references_escape (by simp [u.letter_isDigit]), hl]
    simp
  openClass := references_open
  closeClass := references_close
  reference hn _ hr :=
    references_number Nat.toDigits_ne_nil (areDigits_toDigits _) (head?_toDigits hn) hr
  capture _ := references_cons (by decide)
  opener := references_cons (by decide)

/-- The references of the plain text of fragments are those of the fragments. -/
theorem references_plain {count : Nat} (fit : Fit count r ss) :
    references .outside (plain ss ++ r) =
      (numbers ss).map (Nat.toDigits 10) ++ references .outside r := by
  have h := (traverses_references _).fragments [] fit (Nat.le_refl _)
  rw [h]
  clear h fit
  induction ss with
  | nil => rfl
  | cons s ss ih =>
    rw [List.foldr_cons, ih]
    cases s <;> rfl

theorem numbers_shift (offset : Nat) :
    numbers (shift offset ss) = (numbers ss).map (· + offset) := by
  induction ss with
  | nil => rfl
  | cons s ss ih =>
    cases s with
    | reference n => exact congrArg (List.cons (n + offset)) ih
    | _ => exact ih

theorem numbers_flatten (prior : Nat) :
    numbers (shiftEach prior sss).flatten = numbersInOrder prior sss := by
  induction sss generalizing prior with
  | nil => rfl
  | cons ss sss ih =>
    rw [shiftEach, List.flatten_cons, numbersInOrder, ← numbers_shift, ← ih]
    exact List.filterMap_append ..

end References

end Fragments

section Loose

variable {e : Setting} {c c' : Context} {p : Spot} {m : Move} {n : Nat} {r : List Char}

private theorem le_foldl (ds : List Char) (n : Nat) :
    n ≤ ds.foldl (fun n d => 10 * n + (d.toNat - '0'.toNat)) n := by
  induction ds generalizing n with
  | nil => exact Nat.le_refl n
  | cons d ds ih =>
    have hstep : n ≤ 10 * n + (d.toNat - '0'.toNat) := by omega
    exact Nat.le_trans hstep (ih _)

/-- With more digits behind it a number is larger. -/
theorem lt_digitsValue_append {ds : List Char} (hn : 1 ≤ n) (hds : ds ≠ []) :
    n < digitsValue (Nat.toDigits 10 n ++ ds) := by
  obtain ⟨d, ds, rfl⟩ := List.exists_cons_of_ne_nil hds
  have hfold : digitsValue (Nat.toDigits 10 n ++ d :: ds) =
      ds.foldl (fun n d => 10 * n + (d.toNat - '0'.toNat)) (10 * n + (d.toNat - '0'.toNat)) := by
    conv_rhs => rw [← digitsValue_toDigits n]
    simp [digitsValue]
  rw [hfold]
  exact Nat.lt_of_lt_of_le (by omega) (le_foldl ds _)

/-- Where digits stand behind a reference they are read as part of it. -/
theorem Moves.taken (h : Moves e p m) (hrest : p.rest = referenceTo n ++ r) (hn : 1 ≤ n)
    (hr : r.head?.any Char.isDigit = true) :
    ∃ v, n < v ∧ e.reference? p = some v ∧ m.output = referenceTo v := by
  obtain ⟨r', hr', hapart⟩ := eq_takeWhile_append Char.isDigit r
  have hds := all_takeWhile Char.isDigit r
  have hne : r.takeWhile Char.isDigit ≠ [] := by
    cases r with
    | nil => simp at hr
    | cons d r =>
      have hd : d.isDigit = true := by simpa using hr
      simp [hd]
  generalize r.takeWhile Char.isDigit = ds at hr' hds hne
  subst hr'
  have hzero : (Nat.toDigits 10 n ++ ds).head? ≠ some '0' := by
    rw [List.head?_append_of_ne_nil _ Nat.toDigits_ne_nil]
    exact head?_toDigits hn
  have spelled : (Lexeme.numberedReference (Nat.toDigits 10 n ++ ds)).Spelled (e.lexemeSettings p)
      p.scope ('\\' :: (Nat.toDigits 10 n ++ ds)) r' :=
    .numberedReference (by simp [hne]) (List.forall_mem_append.mpr ⟨areDigits_toDigits n, hds⟩)
      hapart
  have hrest' : p.rest = '\\' :: (Nat.toDigits 10 n ++ ds) ++ r' := by
    simp [hrest, referenceTo]
  have hscan := spelled.scan?
  rw [← hrest'] at hscan
  have hvalue : (Lexeme.numberedReference (Nat.toDigits 10 n ++ ds)).number? p.context =
      some (digitsValue (Nat.toDigits 10 n ++ ds)) := if_neg hzero
  refine ⟨_, lt_digitsValue_append hn hne, (reference?_eq hrest' spelled).trans hvalue, ?_⟩
  cases h with
  | lexeme rest spelled' kept emitted =>
    have hscan' := spelled'.scan?
    rw [← rest, hscan] at hscan'
    simp only [Option.some.injEq, Prod.mk.injEq] at hscan'
    obtain ⟨rfl, -⟩ := hscan'
    cases hdigits : Nat.toDigits 10 n ++ ds with
    | nil => simp [hne] at hdigits
    | cons d ds' =>
      rw [hdigits] at emitted hzero
      cases emitted with
      | zero => exact absurd rfl hzero
      | numberedReference => rfl
  | subpattern rest =>
    rw [hrest'] at rest
    simp at rest
  | copied _ bare => simp [bare] at hscan
  | single _ bare => simp [bare] at hscan

/-- Such a text is not written with the references of its fragments. -/
theorem references_ne_numbers {front back : List Fragment} {limit : Nat} {out : List Char}
    (ht : e.dialect.tokens = []) (hb : e.subpatterns = none)
    (hp : e.pattern.toList = Fragments.text (front ++ Fragment.reference n :: back))
    (bare : c.IsBare)
    (fit : Fragments.Fit c.groupCount (referenceTo n ++ Fragments.plain back) front)
    (hn : 1 ≤ n) (hdigit : (Fragments.plain back).head?.any Char.isDigit = true)
    (distinct : DistinctNames (c.groups ++ Fragments.groups front))
    (h : e.toPlain limit c = .ok (out, c')) :
    references .outside out ≠
      (Fragments.numbers (front ++ Fragment.reference n :: back)).map (Nat.toDigits 10) := by
  obtain ⟨ms, q, hms, hend, -, rfl, -⟩ := (toPlain_eq_ok_iff ht).mp h
  have hpattern : e.pattern.toList =
      Fragments.text front ++ (referenceTo n ++ Fragments.text back) := by
    simp [hp, Fragment.text, Fragment.print]
  rw [hpattern] at hms
  have hread := reads_fragments (r := referenceTo n ++ Fragments.text back) hb bare (fit.congr rfl)
    distinct
  obtain ⟨run, atStart, hrun, hw, -⟩ := hread true
  obtain ⟨tail, rfl, htail⟩ := hrun.split hms hend
  have hwritten := references_written htail hend
  have hback : (Fragments.text back).head?.any Char.isDigit = true := by
    have hhead : (Fragments.text back ++ []).head? = (Fragments.plain back ++ []).head? :=
      Fragments.head?_text_append rfl
    rw [List.append_nil, List.append_nil] at hhead
    rwa [hhead]
  cases htail with
  | done => simp [referenceTo] at hend
  | step move rest =>
    obtain ⟨v, hlt, href, hout⟩ := (moves_of_move? move).taken rfl hn hback
    rw [referencesRead_cons, href] at hwritten
    have hnumbers : Fragments.numbers (front ++ Fragment.reference n :: back) =
        Fragments.numbers front ++ n :: Fragments.numbers back := by simp [Fragments.numbers]
    intro heq
    rw [written_append, hw, Fragments.references_plain (fit.congr ?_), hwritten, hnumbers,
      List.map_append, List.map_append] at heq
    · have hv := congrArg digitsValue (List.cons.inj (List.append_cancel_left heq)).1
      rw [digitsValue_toDigits, digitsValue_toDigits] at hv
      omega
    · rw [written_cons, hout]
      rfl

end Loose

end Extended

namespace Host

variable {σ : Type} {host : Host σ} {ps : List Needle} {sss : List (List Fragment)} {s t : σ}

/-- Without bars outside of groups joined parts are matched one after the other. -/
theorem matches_flatten_iff (h : List.Forall₂ Needle.FallsInto ps sss) {prior : Nat}
    (takes : ∀ a ∈ (Fragments.shiftEach prior sss).flatten, host.Takes a)
    (closed : ∀ ss ∈ sss, Fragments.Closed 0 ss) (noBar : ∀ ss ∈ sss, Fragments.NoBar 0 ss)
    (fronted : ∀ ss ∈ sss, Fragments.IsFronted ss)
    (fit : Fragments.Fit prior [] (Fragments.shiftEach prior sss).flatten) :
    host.Matches prior (Fragments.plain (Fragments.shiftEach prior sss).flatten) s t ↔
      host.MatchesInOrder prior ps s t := by
  induction h generalizing prior s with
  | nil => exact host.empty
  | @cons p ss ps sss hp _ ih =>
    rw [Fragments.shiftEach, List.flatten_cons] at takes fit ⊢
    have hclosed : ∀ ss ∈ sss, Fragments.Closed 0 ss := fun ss hm => closed ss (by simp [hm])
    have hnoBar : ∀ ss ∈ sss, Fragments.NoBar 0 ss := fun ss hm => noBar ss (by simp [hm])
    have hfronted : ∀ ss ∈ sss, Fragments.IsFronted ss := fun ss hm => fronted ss (by simp [hm])
    have hfit := (Fragments.fit_append.mp fit).2
    rw [Fragments.groups_shift] at hfit
    have hrest := fun u => ih (s := u) (fun a ha => takes a (by simp [ha])) hclosed hnoBar hfronted
      hfit
    rw [host.sequence takes (closed ss (by simp)).shift (Fragments.closed_flatten hclosed _)
      (noBar ss (by simp)).shift (Fragments.noBar_flatten hnoBar hclosed _) fit
      (Fragments.isFronted_flatten hfronted _), Fragments.groups_shift]
    simp only [hrest, MatchesInOrder, hp.source_eq, hp.names_eq]

end Host

section Parts

variable {p : Needle} {ps : List Needle} {ss : List Fragment} {sss : List (List Fragment)}

/-- The plain text of a part falls into fragments, without a quantifier in front, and closes its
groups. -/
structure Needle.IsPart (p : Needle) (ss : List Fragment) : Prop where
  fallsInto : p.FallsInto ss
  closed : Fragments.Closed 0 ss
  fronted : Fragments.IsFronted ss

theorem Needle.isPart_text (t : String) : (Needle.text t).IsPart (Fragments.literal t.toList) :=
  ⟨.text t, Fragments.closed_literal _, Fragments.isFronted_literal _⟩

theorem Matcher.CompiledFrom.isPart {m : Matcher} {t : Tree} {flags : String}
    (h : m.CompiledFrom t flags) (few : m.names.length < UInt64.size) :
    (Needle.matcher m).IsPart (t.fragments flags.toList [] []) := by
  have hclosed : Fragments.Closed 0 (t.fragments flags.toList [] [] ++ []) :=
    Fragments.Closed.append_fragments rfl
  rw [List.append_nil] at hclosed
  exact ⟨h.fallsInto few, hclosed, Fragments.isFronted_fragments h.wellFormed⟩

theorem Needle.IsWellFormed.exists_isPart (h : p.IsWellFormed) : ∃ ss, p.IsPart ss := by
  cases h with
  | text t => exact ⟨_, isPart_text t⟩
  | matcher compiled few => exact ⟨_, compiled.isPart few⟩

theorem Needle.forall₂_fallsInto (h : List.Forall₂ IsPart ps sss) :
    List.Forall₂ FallsInto ps sss ∧ (∀ ss ∈ sss, Fragments.Closed 0 ss) ∧
      ∀ ss ∈ sss, Fragments.IsFronted ss := by
  induction h with
  | nil => exact ⟨.nil, by simp, by simp⟩
  | cons hp _ ih =>
    exact ⟨.cons hp.fallsInto ih.1, List.forall_mem_cons.mpr ⟨hp.closed, ih.2.1⟩,
      List.forall_mem_cons.mpr ⟨hp.fronted, ih.2.2⟩⟩

private theorem nil_intercalate {α : Type} (l : List (List α)) : [].intercalate l = l.flatten := by
  induction l with
  | nil => rfl
  | cons a l ih =>
    cases l with
    | nil => simp
    | cons b l =>
      rw [List.intercalate_cons_cons, ih, List.append_nil]
      rfl

variable {g : Engine}

private theorem seamless_of_references {pattern : String} {out : List Char} {c : Context}
    (tokens : g.dialect.tokens = []) (hfalls : List.Forall₂ Needle.FallsInto ps sss)
    (fronted : ∀ ss ∈ sss, Fragments.IsFronted ss)
    (distinct : DistinctNames (ps.flatMap Needle.names))
    (htext : pattern.toList = Fragments.text (Fragments.shiftEach 0 sss).flatten)
    (hplain : Setting.toPlain ⟨g.dialect, g.surroundings, none, pattern⟩ g.reparseLimit
      (.ofFlags "") = .ok (out, c))
    (href : references .outside out = (Fragments.numbersInOrder 0 sss).map (Nat.toDigits 10)) :
    Fragments.Seamless sss := by
  by_contra loose
  obtain ⟨front, n, back, heq, hn, hfit, hdigit⟩ :=
    Fragments.exists_loose (Needle.fit_of_forall₂ hfalls) fronted loose 0
  have hgroups :
      Fragments.groups (Fragments.shiftEach 0 sss).flatten = ps.flatMap Needle.names := by
    rw [← nil_intercalate, Fragments.groups_intercalate rfl, Fragments.flatMap_groups_shiftEach,
      Needle.flatMap_names hfalls]
  rw [← hgroups, heq, Fragments.groups_append] at distinct
  rw [heq] at htext
  refine references_ne_numbers (c := .ofFlags "") tokens rfl htext
    (Engine.isBare_ofFlags (by simp)) hfit hn hdigit distinct.left hplain ?_
  rw [href, ← Fragments.numbers_flatten, heq]

/-- Bare texts of parts in a row are read with the references that the parts meant exactly where no
part runs on into the next one. Then the union is the row of their plain texts. Its alternatives are
those of the parts with the last one of each in front of the first one of the next, so it matches
the parts one after the other where none of them has a bar outside of its groups. -/
theorem Engine.union_none (tokens : g.dialect.tokens = []) (idle : g.compiling = false)
    (nonempty : ps ≠ []) (h : List.Forall₂ Needle.IsPart ps sss)
    (distinct : DistinctNames (ps.flatMap Needle.names)) :
    ∃ pattern : String,
      ((union ps "" .none).run.run g).1 = ((Needle.recheckAll ps).bind fun _ =>
        Extended.compile g.dialect g.surroundings g.reparseLimit pattern "" none) ∧
      ((∃ out c, Setting.toPlain ⟨g.dialect, g.surroundings, none, pattern⟩ g.reparseLimit
            (.ofFlags "") = .ok (out, c) ∧
          references .outside out = (Fragments.numbersInOrder 0 sss).map (Nat.toDigits 10)) ↔
        Fragments.Seamless sss) ∧
      (Fragments.Seamless sss →
        Setting.toPlain ⟨g.dialect, g.surroundings, none, pattern⟩ g.reparseLimit (.ofFlags "") =
          .ok ((Needle.sources 0 ps).flatten, ⟨[], ps.flatMap Needle.names⟩) ∧
        ((union ps "" .none).run.run g).1 = ((Needle.recheckAll ps).bind fun _ =>
          Matcher.ofCompiled (String.ofList (Needle.sources 0 ps).flatten) {}
            (ps.flatMap Needle.names) pattern "") ∧
        ∀ {σ : Type} (host : Host σ),
          (∀ a ∈ (Fragments.shiftEach 0 sss).flatten, host.Takes a) → ∀ s t : σ,
            (host.Matches 0 (Needle.sources 0 ps).flatten s t ↔
              ∃ c ∈ Fragments.choicesInOrder 0 sss, host.Matches c.1 (Fragments.plain c.2) s t) ∧
            (ps.length = 1 ∨ (∀ ss ∈ sss, Fragments.NoBar 0 ss) →
              (host.Matches 0 (Needle.sources 0 ps).flatten s t ↔
                host.MatchesInOrder 0 ps s t))) := by
  obtain ⟨hfalls, closed, fronted⟩ := Needle.forall₂_fallsInto h
  have hfits := Needle.fit_of_forall₂ hfalls
  obtain ⟨pattern, htext, hrun⟩ := exists_run_union tokens idle nonempty hfalls "" .none
  have hjoined : Conjunction.none.mark.intercalate (Fragments.shiftEach 0 sss) =
      (Fragments.shiftEach 0 sss).flatten := nil_intercalate _
  have hsources : (Fragments.plain (Fragments.shiftEach 0 sss).flatten) =
      (Needle.sources 0 ps).flatten := by
    rw [← hjoined, Fragments.plain_intercalate, ← Needle.sources_eq hfalls]
    exact nil_intercalate _
  have hplain (seamless : Fragments.Seamless sss) :
      Setting.toPlain ⟨g.dialect, g.surroundings, none, pattern⟩ g.reparseLimit (.ofFlags "") =
        .ok ((Needle.sources 0 ps).flatten, ⟨[], ps.flatMap Needle.names⟩) := by
    have fit := Fragments.fit_flatten hfits fronted seamless 0
    rw [← hjoined] at fit
    have hread := toPlain_joined "" tokens hfalls htext fit (by simp) distinct
    rw [show Fragments.plain Conjunction.none.mark = [] from rfl, nil_intercalate] at hread
    exact hread
  refine ⟨pattern, hrun, ⟨?_, fun seamless => ⟨_, _, hplain seamless, ?_⟩⟩, fun seamless =>
    ⟨hplain seamless, ?_, fun host takes s t => ⟨?_, ?_⟩⟩⟩
  · rintro ⟨out, c, hout, href⟩
    exact seamless_of_references tokens hfalls fronted distinct (hjoined ▸ htext) hout href
  · have href := Fragments.references_plain (Fragments.fit_flatten hfits fronted seamless 0)
    rwa [List.append_nil, references_nil, List.append_nil, hsources, Fragments.numbers_flatten]
      at href
  · rw [hrun, compile_of_toPlain (validate_of_letters (by simp) (by simp) _) (hplain seamless)]
    rfl
  · rw [← hsources, host.alternation takes (Fragments.closed_flatten closed 0)
      (Fragments.fit_flatten hfits fronted seamless 0), Fragments.choices_flatten closed]
  · rintro (single | noBar)
    · obtain ⟨p, rfl⟩ := List.length_eq_one_iff.mp single
      simp [Needle.sources, Host.MatchesInOrder]
    · rw [← hsources]
      exact host.matches_flatten_iff hfalls takes closed noBar fronted
        (Fragments.fit_flatten hfits fronted seamless 0)

theorem union_none_rows :
    (∃ m m' : Matcher,
      m.CompiledFrom (paired ⟨['n'], by decide⟩ ⟨'a', by decide⟩) "" ∧
      m'.CompiledFrom (paired ⟨['m'], by decide⟩ ⟨'b', by decide⟩) "" ∧
      ∃ pattern : String,
        Setting.toPlain ⟨{}, Engine.surroundings {}, none, pattern⟩ 10000 (.ofFlags "") =
          .ok ("(a)\\1x(b)\\2".toList, ⟨[], [some "n", some "m"]⟩) ∧
        ((Engine.union [.matcher m, .text "x", .matcher m'] "" .none).run.run {}).1 =
          (Needle.recheckAll [.matcher m, .text "x", .matcher m']).bind fun _ =>
            Matcher.ofCompiled "(a)\\1x(b)\\2" {} [some "n", some "m"] pattern "") ∧
    ∀ s t, Host.words.Matches 0 ['x', 'y'] s t ↔
      Host.words.MatchesInOrder 0 [.text "x", .text "y"] s t := by
  constructor
  · obtain ⟨m, hm⟩ := Matcher.exists_compiledFrom (paired ⟨['n'], by decide⟩ ⟨'a', by decide⟩) ""
      (by decide) (by decide) rfl
      (by decide +kernel)
    obtain ⟨m', hm'⟩ := Matcher.exists_compiledFrom (paired ⟨['m'], by decide⟩ ⟨'b', by decide⟩) ""
      (by decide) (by decide) rfl
      (by decide +kernel)
    refine ⟨m, m', hm, hm', ?_⟩
    obtain ⟨hsource, hnames⟩ := hm.eq
    obtain ⟨hsource', hnames'⟩ := hm'.eq
    have hfew : m.names.length < UInt64.size := by rw [hnames]; decide
    have hfew' : m'.names.length < UInt64.size := by rw [hnames']; decide
    have hjoined : [.matcher m, .text "x", .matcher m'].flatMap Needle.names =
        [some "n", some "m"] := by
      simp only [List.flatMap_cons, List.flatMap_nil, Needle.names, hnames, hnames']
      decide
    have hsources : (Needle.sources 0 [.matcher m, .text "x", .matcher m']).flatten =
        "(a)\\1x(b)\\2".toList := by
      simp only [Needle.sources, Needle.source, Needle.names, hsource, hsource', hnames,
        String.toList_ofList]
      cbv
    obtain ⟨pattern, -, -, hunion⟩ := Engine.union_none (g := {}) rfl rfl (by simp)
      (.cons (hm.isPart hfew) (.cons (Needle.isPart_text "x") (.cons (hm'.isPart hfew') .nil)))
      (by rw [hjoined]; decide)
    obtain ⟨hplain, hrun, -⟩ := hunion (by decide)
    rw [hsources, hjoined] at hplain hrun
    exact ⟨pattern, hplain, hrun⟩
  · intro s t
    obtain ⟨pattern, -, -, hunion⟩ := Engine.union_none (g := {}) rfl rfl (by simp)
      (.cons (Needle.isPart_text "x") (.cons (Needle.isPart_text "y") .nil)) (by decide)
    obtain ⟨-, -, hhost⟩ := hunion (by decide)
    have htakes : ∀ a ∈ (Fragments.shiftEach 0
        [Fragments.literal "x".toList, Fragments.literal "y".toList]).flatten,
        Host.words.Takes a := by
      intro a ha
      rcases List.mem_pair.mp (show a ∈ [Fragment.literal 'x', Fragment.literal 'y'] from ha) with
        rfl | rfl
      · exact ⟨⟨'x', by decide⟩, rfl, .inl (by decide)⟩
      · exact ⟨⟨'y', by decide⟩, rfl, .inl (by decide)⟩
    exact (hhost Host.words htakes s t).2 (.inr (by simp [Fragments.noBar_literal]))

/-- Alternatives in front of a text: the first of them matches without the text. -/
theorem union_none_alternatives :
    ∃ m u : Matcher,
      m.CompiledFrom (.alternation (.char ⟨'a', by decide⟩) (.char ⟨'b', by decide⟩)) "" ∧
      ((Engine.union [.matcher m, .text "c"] "" .none).run.run {}).1 = .ok u ∧
      u.source = "a|bc" ∧
      (∃ f, u.find (.ofString "a") 0 false = .ok (some f) ∧ f.start = 0 ∧ f.stop = 1) ∧
      Host.words.Matches 0 "a|bc".toList ['a'] [] ∧
      ¬Host.words.MatchesInOrder 0 [.matcher m, .text "c"] ['a'] [] := by
  obtain ⟨m, hm⟩ := Matcher.exists_compiledFrom
    (.alternation (.char ⟨'a', by decide⟩) (.char ⟨'b', by decide⟩)) "" (by decide)
    (by decide) rfl (by decide +kernel)
  obtain ⟨hsource, hnames⟩ := hm.eq
  have hsource' : m.source = "a|b" := hsource.trans (by decide)
  have hnames' : m.names = [] := hnames
  have hfew : m.names.length < UInt64.size := by rw [hnames]; decide
  obtain ⟨hfalls, -, fronted⟩ := Needle.forall₂_fallsInto
    (.cons (hm.isPart hfew) (.cons (Needle.isPart_text "c") .nil))
  have hjoined : [.matcher m, .text "c"].flatMap Needle.names = [] := by
    simp [Needle.names, hnames']
  have hsources : (Needle.sources 0 [.matcher m, .text "c"]).flatten = "a|bc".toList := by
    simp only [Needle.sources, Needle.source, hsource']
    cbv
  have fit := Fragments.fit_flatten (Needle.fit_of_forall₂ hfalls) fronted (by decide) 0
  rw [← nil_intercalate] at fit
  obtain ⟨pattern, -, hrun⟩ := Engine.exists_run_union_of_fit (g := {}) "" .none rfl rfl
    (by simp) hfalls fit (by simp) (by simp) (by rw [hjoined]; decide)
  have hcompile (source pattern : String)
      (h : (compilePlain? source {}).any (·.groups == ([] : Groups).length) = true) :
      ∃ m, Matcher.ofCompiled source {} [] pattern "" = .ok m :=
    Matcher.exists_ofCompiled pattern "" h
  have hagain : Needle.recheckAll [.matcher m, .text "c"] = .ok () := by
    obtain ⟨again, hagain⟩ := hcompile "a|b" "a|b" (by decide +kernel)
    simp [Needle.recheckAll, Needle.recheck, hsource', hnames', hagain, bind, Except.bind, pure,
      Except.pure]
  obtain ⟨u, hu⟩ := hcompile "a|bc" pattern (by decide +kernel)
  obtain ⟨husource, -⟩ := Matcher.eq_of_ofCompiled hu
  have hfind : ∃ f, u.find (.ofString "a") 0 false = .ok (some f) ∧ f.start = 0 ∧ f.stop = 1 :=
    Matcher.exists_find_of_search (by
      rw [u.body_eq, ← Matcher.body_of_ofCompiled hu]
      decide +kernel)
  refine ⟨m, u, hm, ?_, husource, hfind, ?_, ?_⟩
  · rw [hrun, hagain, hjoined, show Fragments.plain Engine.Conjunction.none.mark = [] from rfl,
      nil_intercalate, hsources]
    exact hu
  · exact ⟨['a'], by decide, rfl⟩
  · rintro ⟨u, ⟨w, -, hw⟩, t, ⟨w', hw', rfl⟩, -⟩
    obtain rfl : w' = ['c'] := List.mem_singleton.mp hw'
    have hmem : 'c' ∈ ['a'] := by rw [hw]; simp
    exact absurd hmem (by decide)

end Parts

end Patterns
