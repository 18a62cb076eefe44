import Patterns.Proofs.Caching
import Patterns.Proofs.Progress
import Patterns.Proofs.Searches
import Patterns.Proofs.Turns

/-!
# Escape characters that do not occur

With an escape character reading skips text before it looks for the next delimiter, as far as the
union of the delimiters does not match. Where the character does not occur the same delimiters are
seen from every place if and only if the union matches wherever a delimiter does.
-/
namespace Patterns
open Patterns.Text Patterns.Extended

variable {s : Subject} {i j k q : Nat} {isMark : Char → Bool} {here : Nat → Bool} {cs : List Char}

section Runs

/-- Where a run that starts at `i` ends, `cs` being the text from there on: a mark goes with the
character behind it, and a character that no delimiter starts at goes alone. -/
def runEnd (isMark : Char → Bool) (here : Nat → Bool) : (i : Nat) → (cs : List Char) → Nat
  | i, [] => i
  | i, [c] => if isMark c || here i then i else i + 1
  | i, c :: c' :: cs =>
    if isMark c then runEnd isMark here (i + 2) cs
    else if here i then i
    else runEnd isMark here (i + 1) (c' :: cs)

theorem runEnd_of_here (hmark : ∀ c ∈ cs.head?, isMark c = false) (h : here i = true) :
    runEnd isMark here i cs = i := by
  match cs with
  | [] => rfl
  | [c] => simp [runEnd, h]
  | c :: c' :: cs => simp [runEnd, h, hmark c rfl]

theorem runEnd_cons {c : Char} (hmark : isMark c = false) (h : here i = false) :
    runEnd isMark here i (c :: cs) = runEnd isMark here (i + 1) cs := by
  cases cs <;> simp [runEnd, h, hmark]

theorem runEnd_mark {c c' : Char} (hmark : isMark c = true) :
    runEnd isMark here i (c :: c' :: cs) = runEnd isMark here (i + 2) cs := by
  simp [runEnd, hmark]

theorem runEnd_lone {c : Char} (hmark : isMark c = true) : runEnd isMark here i [c] = i := by
  simp [runEnd, hmark]

/-- Without marks a run ends where a delimiter starts, or at the end of the text. -/
theorem runEnd_bounds (here : Nat → Bool) (i : Nat) (hmark : ∀ c ∈ cs, isMark c = false) :
    i ≤ runEnd isMark here i cs ∧ runEnd isMark here i cs ≤ i + cs.length ∧
      ∀ k, i ≤ k → k < runEnd isMark here i cs → here k = false := by
  induction cs generalizing i with
  | nil => exact ⟨Nat.le_refl i, Nat.le_refl i, fun k hk hki => absurd hki (Nat.not_lt.mpr hk)⟩
  | cons c cs ih =>
    cases hi : here i with
    | true =>
      rw [runEnd_of_here (by simp [hmark]) hi]
      exact ⟨Nat.le_refl i, Nat.le_add_right i _, fun k hk hki => absurd hki (Nat.not_lt.mpr hk)⟩
    | false =>
      obtain ⟨hle, hge, hbefore⟩ := ih (i + 1) fun a ha => hmark a (by simp [ha])
      rw [runEnd_cons (hmark c (by simp)) hi, List.length_cons]
      refine ⟨by omega, by omega, fun k hk hki => ?_⟩
      rcases Nat.eq_or_lt_of_le hk with rfl | hk
      · exact hi
      · exact hbefore k hk hki

theorem lt_runEnd (hcs : cs ≠ []) (hmark : ∀ c ∈ cs, isMark c = false) (h : here i = false) :
    i < runEnd isMark here i cs := by
  obtain ⟨c, cs, rfl⟩ := List.exists_cons_of_ne_nil hcs
  rw [runEnd_cons (hmark c (by simp)) h]
  exact (runEnd_bounds here (i + 1) fun a ha => hmark a (by simp [ha])).1

end Runs

namespace Matcher

/-- A sticky search finds the run of escaped characters and of text without delimiters, where
`isMark` says what an escape character is and `here` where the union of the delimiters matches. -/
def Skips (e : Matcher) (s : Subject) (isMark : Char → Bool) (here : Nat → Bool) : Prop :=
  ∀ i ≤ s.size, ∃ found, e.find s i true = .ok found ∧
    (found.map (·.stop)).getD i = runEnd isMark here i (s.toList.drop i)

theorem skips_of_search {e : Matcher} (h : (compilePlain? e.source e.flags).any (fun body =>
      (List.range (s.size + 1)).all fun i =>
        match ((anchored? e.source e.flags body.groups).getD body).search s i with
        | .error _ => false
        | .ok none => i == runEnd isMark here i (s.toList.drop i)
        | .ok (some f) => f.start == i && f.stop == runEnd isMark here i (s.toList.drop i)) =
      true) : e.Skips s isMark here := by
  intro i hi
  rw [e.body_eq, Option.any_some, ← e.anchored_eq, List.all_eq_true] at h
  have hsearch := h i (List.mem_range.mpr (Nat.lt_succ_of_le hi))
  cases hfound : (e.anchored.get.getD e.body).search s i with
  | error err => simp [hfound] at hsearch
  | ok found =>
    rw [hfound] at hsearch
    refine ⟨_, find_of_anchored_search hfound, ?_⟩
    cases found with
    | none => simpa using hsearch
    | some f =>
      obtain ⟨hstart, hstop⟩ : f.start = i ∧ f.stop = runEnd isMark here i (s.toList.drop i) := by
        simpa using hsearch
      rw [Option.filter_some, hstart, beq_self_eq_true]
      exact hstop

end Matcher

namespace Delimiter

variable {m m' : Delimiter s i}

def found? : Delimiter s i → Option (Side × Match s)
  | .left f => some (.left, f.val)
  | .right f => some (.right, f.val)
  | .none => Option.none

theorem found?_weaken (h : i ≤ j) (m : Delimiter s j) : (m.weaken h).found? = m.found? := by
  cases m <;> rfl

theorem found?_injective (h : m.found? = m'.found?) : m = m' := by
  cases m <;> cases m' <;> simp_all [found?, Subtype.ext_iff]

theorem le_start {f : Side × Match s} (h : f ∈ m.found?) : i ≤ f.2.start := by
  cases m with
  | left g | right g =>
    obtain rfl := Option.some.inj h
    exact g.property
  | none => cases h

end Delimiter

namespace Delimiters

variable {d : Delimiters} {e : Matcher} {al ar : Anchoring s} {p : Pairing s}

theorem seen_withoutEscape (d : Delimiters) (s : Subject) (i : Nat) :
    { d with escape := none }.seen s i = d.next s i := by
  have hnext : { d with escape := none }.next s i = d.next s i := rfl
  simp only [seen, skipEscaped, hnext]
  cases d.next s i with
  | error e => rfl
  | ok m => cases m <;> rfl

/-- What reading comes to depends on the delimiters that it sees. -/
theorem read_withoutEscape (h : ∀ i, d.seen s i = { d with escape := none }.seen s i)
    (p : Pairing s) : d.read s p = { d with escape := none }.read s p := by
  have hturn (p : Pairing s) : d.turn p = { d with escape := none }.turn p := by
    rw [turn, turn, h]
    cases { d with escape := none }.seen s p.stop with
    | error e => rfl
    | ok m => cases m <;> rfl
  induction p using read_induction d with
  | ends p result hp => rw [read_eq, read_eq { d with escape := none }, ← hturn, hp]
  | goesOn p p' hp ih =>
    rw [read_eq, read_eq { d with escape := none }, ← hturn, hp]
    exact ih

/-- Of two matches the earlier one, and the left one where both start. -/
def earliest : Option (Match s) → Option (Match s) → Option (Side × Match s)
  | none, none => none
  | some f, none => some (.left, f)
  | none, some g => some (.right, g)
  | some f, some g => if f.start ≤ g.start then some (.left, f) else some (.right, g)

theorem exists_earliest_le {x y : Option (Match s)} {f : Match s} (h : x = some f ∨ y = some f) :
    ∃ c ∈ earliest x y, c.2.start ≤ f.start := by
  rcases h with rfl | rfl
  · cases y with
    | none => exact ⟨_, rfl, Nat.le_refl _⟩
    | some g =>
      rw [earliest]
      split
      · exact ⟨_, rfl, Nat.le_refl _⟩
      · next hlt => exact ⟨_, rfl, Nat.le_of_lt (Nat.not_le.mp hlt)⟩
  · cases x with
    | none => exact ⟨_, rfl, Nat.le_refl _⟩
    | some g =>
      rw [earliest]
      split
      · next hle => exact ⟨_, rfl, hle⟩
      · exact ⟨_, rfl, Nat.le_refl _⟩

section Searches

variable (hl : d.left.FindsFirst s al) (hr : d.right.FindsFirst s ar)
include hl hr

theorem exists_next (i : Nat) :
    ∃ m, d.next s i = .ok m ∧ m.found? = earliest (al.first i) (ar.first i) := by
  rw [next]
  cases hleft : al.first i with
  | none =>
    cases hright : ar.first i with
    | none => rw [hl.searchAt_none hleft, hr.searchAt_none hright]; exact ⟨_, rfl, rfl⟩
    | some g => rw [hl.searchAt_none hleft, hr.searchAt_some hright]; exact ⟨_, rfl, rfl⟩
  | some f =>
    cases hright : ar.first i with
    | none => rw [hl.searchAt_some hleft, hr.searchAt_none hright]; exact ⟨_, rfl, rfl⟩
    | some g =>
      rw [hl.searchAt_some hleft, hr.searchAt_some hright]
      refine ⟨_, rfl, ?_⟩
      rw [earliest]
      split <;> rfl

/-- The next delimiter stands no later than any other. -/
theorem exists_next_le (h : (al q).isSome = true ∨ (ar q).isSome = true) (hi : i ≤ q)
    (hq : q ≤ s.size) : ∃ m, d.next s i = .ok m ∧ ∃ f ∈ m.found?, f.2.start ≤ q := by
  obtain ⟨m, hm, hfound⟩ := exists_next hl hr i
  refine ⟨m, hm, ?_⟩
  rw [hfound]
  have hfirst : ∃ f, (al.first i = some f ∨ ar.first i = some f) ∧ f.start ≤ q := by
    rcases h with h | h
    · exact (Anchoring.exists_first_le h hi hq).imp fun f hf => ⟨.inl hf.1, hf.2⟩
    · exact (Anchoring.exists_first_le h hi hq).imp fun f hf => ⟨.inr hf.1, hf.2⟩
  obtain ⟨f, hf, hfq⟩ := hfirst
  obtain ⟨c, hc, hcf⟩ := exists_earliest_le hf
  exact ⟨c, hc, Nat.le_trans hcf hfq⟩

/-- Where no delimiter stands the search may as well start behind. -/
theorem next_weaken (hij : i ≤ j) (clear : ∀ k, i ≤ k → k < j → al k = none ∧ ar k = none) :
    (d.next s j).map (·.weaken hij) = d.next s i := by
  have hal : al.first i = al.first j :=
    Anchoring.first_of_forall_none (fun k hk hkj => (clear k hk hkj).1) hij
  have har : ar.first i = ar.first j :=
    Anchoring.first_of_forall_none (fun k hk hkj => (clear k hk hkj).2) hij
  obtain ⟨m, hm, hfound⟩ := exists_next hl hr j
  obtain ⟨m', hm', hfound'⟩ := exists_next hl hr i
  rw [hm, hm', Except.map]
  refine congrArg Except.ok (Delimiter.found?_injective ?_)
  rw [Delimiter.found?_weaken, hfound, hfound', hal, har]

end Searches

section Escape

theorem exists_skipEscaped (escape : d.escape = some e) (skips : e.Skips s isMark here)
    (hi : i ≤ s.size) :
    ∃ hj, d.skipEscaped s i = .ok ⟨runEnd isMark here i (s.toList.drop i), hj⟩ := by
  obtain ⟨found, hfind, hend⟩ := skips i hi
  rw [skipEscaped, escape]
  cases found with
  | none =>
    obtain hend : i = _ := hend
    rw [← hend]
    refine ⟨Nat.le_refl i, ?_⟩
    simp only [Matcher.searchAt_of_none hfind]
    rfl
  | some f =>
    have hstart := start_eq_of_find hfind
    have hle := f.start_le
    obtain hend : f.stop = _ := hend
    rw [← hend]
    refine ⟨by omega, ?_⟩
    simp only [Matcher.searchAt_of_some hfind (Nat.le_of_eq hstart.symm)]
    rfl

theorem skipEscaped_of_size_lt (hi : s.size < i) :
    d.skipEscaped s i = .ok ⟨i, Nat.le_refl i⟩ := by
  rw [skipEscaped]
  cases d.escape with
  | none => rfl
  | some e =>
    simp only [Matcher.searchAt_of_none (Matcher.find_of_size_lt hi)]
    rfl

variable (hl : d.left.FindsFirst s al) (hr : d.right.FindsFirst s ar)
  (escape : d.escape = some e) (skips : e.Skips s isMark here)
  (unused : ∀ c ∈ s.toList, isMark c = false)
include hl hr escape skips unused

/-- An unused escape character hides no delimiter where the union of the delimiters matches wherever
one of them does, and only there. -/
theorem seen_iff :
    (∀ i ≤ s.size, d.seen s i = { d with escape := none }.seen s i) ↔
      ∀ q < s.size, (al q).isSome = true ∨ (ar q).isSome = true → here q = true := by
  have hmarks (i : Nat) : ∀ c ∈ s.toList.drop i, isMark c = false :=
    fun c hc => unused c (List.mem_of_mem_drop hc)
  constructor
  · intro h q hq hdelimiter
    cases hhere : here q with
    | true => rfl
    | false =>
      -- The run at `q` passes the delimiter there, and only one behind it is seen.
      obtain ⟨hj, hskip⟩ := exists_skipEscaped escape skips (Nat.le_of_lt hq)
      obtain ⟨m, hm, f, hf, hfq⟩ :=
        exists_next_le hl hr hdelimiter (Nat.le_refl q) (Nat.le_of_lt hq)
      have hrest : s.toList.drop q ≠ [] := by simpa [Subject.length_toList] using hq
      have hpast := lt_runEnd hrest (hmarks q) hhere
      have hseen := h q (Nat.le_of_lt hq)
      rw [seen_withoutEscape, hm, seen, hskip] at hseen
      cases hnext : d.next s (runEnd isMark here q (s.toList.drop q)) with
      | error e => simp [hnext, Except.map] at hseen
      | ok m' =>
        obtain rfl : m'.weaken hj = m := by simpa [hnext, Except.map] using hseen
        rw [Delimiter.found?_weaken] at hf
        have hbehind := Delimiter.le_start hf
        omega
  · intro h i hi
    obtain ⟨hj, hskip⟩ := exists_skipEscaped escape skips hi
    obtain ⟨-, hsize, hbefore⟩ := runEnd_bounds here i (hmarks i)
    rw [List.length_drop, Subject.length_toList] at hsize
    rw [seen_withoutEscape, seen, hskip]
    refine next_weaken hl hr hj fun k hk hkj => ?_
    have hclear : ¬((al k).isSome = true ∨ (ar k).isSome = true) := by
      intro hdelimiter
      have hhere := h k (by omega) hdelimiter
      rw [hbefore k hk hkj] at hhere
      cases hhere
    simpa using hclear

/-- Where the union misses no delimiter an unused escape character changes nothing. -/
theorem segments_withoutEscape
    (matched : ∀ q < s.size, (al q).isSome = true ∨ (ar q).isSome = true → here q = true) :
    d.segments s = { d with escape := none }.segments s := by
  have hseen (i : Nat) : d.seen s i = { d with escape := none }.seen s i := by
    rcases Nat.lt_or_ge s.size i with hi | hi
    · rw [seen_withoutEscape, seen, skipEscaped_of_size_lt hi]
      exact next_weaken hl hr (Nat.le_refl i) fun k hk hki => absurd hki (Nat.not_lt.mpr hk)
    · exact (seen_iff hl hr escape skips unused).mpr matched i hi
  rw [segments_eq, segments_eq, read_withoutEscape hseen]
  rfl

end Escape

end Delimiters

namespace Engine

variable {g g' : Engine} {l r e : Matcher} {mark : Char} {flags : String}

section Making

/-- The pattern for a run of escaped characters and of text without delimiters. -/
def escapeText (mark : Char) (delimiters : String) : String :=
  "(?:" ++ Literal.escape (String.singleton mark) ++ "[\\s\\S]|(?:(?!" ++ delimiters ++ ")[^"
    ++ Literal.escape (String.singleton mark) ++ "])+)+"

/-- The plain texts of two matchers as alternatives. -/
def alternatives (l r : Matcher) : String :=
  String.ofList (['|'].intercalate (Needle.sources 0 [.matcher l, .matcher r]))

theorem escapeMatcher_eq (mark : Char) (l r : Matcher) (flags : String) :
    escapeMatcher mark l r flags = (do
      let u ← union [.matcher l, .matcher r] "" .or
      ExceptT.mk (pure (Matcher.plain (escapeText mark u.source)
        (String.ofList (flags.toList.filter fun c => c == 'i' || c == 'm'))))) := rfl

theorem result_escapeMatcher {ss ss' : List Fragment} (tokens : g.dialect.tokens = [])
    (idle : g.compiling = false) (hl : (Needle.matcher l).FallsInto ss)
    (hr : (Needle.matcher r).FallsInto ss') (distinct : DistinctNames (l.names ++ r.names)) :
    ∃ pattern : String, ((escapeMatcher mark l r flags).run.run g).1 =
      (Needle.recheckAll [.matcher l, .matcher r]).bind fun _ =>
        (Matcher.ofCompiled (alternatives l r) {} (l.names ++ r.names) pattern "").bind fun _ =>
          Matcher.plain (escapeText mark (alternatives l r))
            (String.ofList (flags.toList.filter fun c => c == 'i' || c == 'm')) := by
  have parts : List.Forall₂ Needle.FallsInto [.matcher l, .matcher r] [ss, ss'] :=
    .cons hl (.cons hr .nil)
  obtain ⟨pattern, -, hunion⟩ := exists_run_union_of_fit "" .or tokens idle (by simp) parts
    (Fragments.fit_bars (Needle.fit_of_forall₂ parts) 0) (by simp) (by simp)
    (by simpa [Needle.names] using distinct)
  have hnames : [Needle.matcher l, .matcher r].flatMap Needle.names = l.names ++ r.names := by
    simp [Needle.names]
  have hmade : ((union [.matcher l, .matcher r] "" .or).run.run g).1 =
      (Needle.recheckAll [.matcher l, .matcher r]).bind fun _ =>
        Matcher.ofCompiled (alternatives l r) {} (l.names ++ r.names) pattern "" := by
    rw [hunion, hnames]
    rfl
  refine ⟨pattern, ?_⟩
  rw [escapeMatcher_eq, run_bind]
  cases hrun : (union [.matcher l, .matcher r] "" .or).run.run g with
  | mk made g' =>
    rw [hrun] at hmade
    obtain rfl : made = _ := hmade
    cases Needle.recheckAll [.matcher l, .matcher r] with
    | error err => rfl
    | ok _ =>
      simp only [Except.bind]
      cases hu : Matcher.ofCompiled (alternatives l r) {} (l.names ++ r.names) pattern "" with
      | error err => rfl
      | ok u =>
        dsimp only
        rw [(Matcher.eq_of_ofCompiled hu).1]
        rfl

/-- A matcher for what an escape character hides looks for the plain texts of both delimiters, with
their flags for case and lines. -/
structure LooksFor (e : Matcher) (mark : Char) (l r : Matcher) : Prop where
  source : e.source = escapeText mark (alternatives l r)
  left : e.flags.ignoreCase = l.flags.ignoreCase ∧ e.flags.multiline = l.flags.multiline
  right : e.flags.ignoreCase = r.flags.ignoreCase ∧ e.flags.multiline = r.flags.multiline

theorem eq_of_plain {source : String} (h : Matcher.plain source flags = .ok e) :
    e.source = source ∧ e.flags = .ofList flags.toList := by
  unfold Matcher.plain Flags.parsePlain at h
  cases hcheck : Flags.check PlainFlags.letters.contains (fun _ => .duplicatePlainFlag flags)
      (.unknownPlainFlag · flags) [] flags.toList with
  | error err => simp [hcheck, bind, Except.bind] at h
  | ok _ =>
    simp only [hcheck, bind, Except.bind, pure, Except.pure] at h
    obtain ⟨hsource, hflags, -⟩ := Matcher.eq_of_build h
    exact ⟨hsource, hflags⟩

theorem flags_of_compiledFrom {m : Matcher} {t : Tree} (h : m.CompiledFrom t flags) :
    m.flags = .ofList flags.toList := by
  obtain ⟨g, m', tokens, hrun, hcursor⟩ := h.compiled
  obtain ⟨-, out, c, hplain, hm⟩ :=
    compile_eq_ok_iff.mp (compile_of_run (idle_of_compile hrun) hrun)
  have htree := toPlain_tree tokens h.wellFormed h.isSolid
  have hc : c.flags = flags.toList := by
    have heq := Except.ok.inj (hplain.symm.trans htree)
    rw [(Prod.mk.inj heq).2]
  rw [hcursor, ← hc]
  exact (Matcher.eq_of_build hm).2.1

/-- Well-formed delimiters are looked for as they are. -/
theorem looksFor_of_run {tl tr : Tree} (tokens : g.dialect.tokens = [])
    (idle : g.compiling = false) (hl : l.CompiledFrom tl (basicFlags flags))
    (hr : r.CompiledFrom tr (basicFlags flags)) (fewl : l.names.length < UInt64.size)
    (fewr : r.names.length < UInt64.size)
    (h : ((escapeMatcher mark l r flags).run.run g).1 = .ok e) : LooksFor e mark l r := by
  have hfl := hl.fallsInto fewl
  have hfr := hr.fallsInto fewr
  have parts : List.Forall₂ Needle.FallsInto [.matcher l, .matcher r] [_, _] :=
    .cons hfl (.cons hfr .nil)
  have hmade : Matcher.plain (escapeText mark (alternatives l r))
      (String.ofList (flags.toList.filter fun c => c == 'i' || c == 'm')) = .ok e := by
    by_cases distinct : DistinctNames (l.names ++ r.names)
    · obtain ⟨pattern, hrun⟩ := result_escapeMatcher tokens idle hfl hfr distinct
      rw [hrun] at h
      cases hcheck : Needle.recheckAll [.matcher l, .matcher r] with
      | error err => simp [hcheck, Except.bind] at h
      | ok _ =>
        cases hu : Matcher.ofCompiled (alternatives l r) {} (l.names ++ r.names) pattern "" with
        | error err => simp [hcheck, hu, Except.bind] at h
        | ok u => simpa [hcheck, hu, Except.bind] using h
    · obtain ⟨err, hunion, -⟩ := exists_run_union_error "" .or tokens idle (by simp) parts
        (Fragments.fit_bars (Needle.fit_of_forall₂ parts) 0) (by simp) (by simp)
        (by simpa [Needle.names] using distinct)
      rw [escapeMatcher_eq, run_bind] at h
      cases hrun : (union [.matcher l, .matcher r] "" .or).run.run g with
      | mk made g' =>
        obtain rfl : made = .error err := (congrArg Prod.fst hrun).symm.trans hunion
        simp [hrun] at h
  obtain ⟨hsource, hflags⟩ := eq_of_plain hmade
  have hleft := flags_of_compiledFrom hl
  have hright := flags_of_compiledFrom hr
  refine ⟨hsource, ?_, ?_⟩
  · rw [hflags, hleft]
    simp [PlainFlags.ofList]
  · rw [hflags, hright]
    simp [PlainFlags.ofList]

end Making

section Calls

variable {text left right : String} {unbalanced : Unbalanced} {names : SegmentNames}
  {out : List Segment} {d : Delimiters}

theorem idle_of_prepare (h : ((prepare left right flags none unbalanced).run.run g).1 = .ok d) :
    g.compiling = false := by
  rw [prepare, run_bind] at h
  cases hl : (compile left (basicFlags flags)).run.run g with
  | mk l g' =>
    cases l with
    | error err => simp [hl] at h
    | ok l => exact idle_of_compile (congrArg Prod.fst hl)

/-- Where a call without an escape character succeeds two delimiters were made, and the engine has
but new trace lines. -/
theorem exists_prepare_of_success
    (success : ((matchRecursive text left right flags none unbalanced names).run.run g).1 =
      .ok out) :
    ∃ d trace, (prepare left right flags none unbalanced).run.run g = (.ok d, { g with trace }) ∧
      g.compiling = false ∧ d.escape = none ∧
      { d with names }.segments (.ofString text) = .ok out := by
  cases hprepare : (prepare left right flags none unbalanced).run.run g with
  | mk made g' =>
    rw [result_matchRecursive, hprepare] at success
    cases made with
    | error err => cases success
    | ok d =>
      have idle := idle_of_prepare (congrArg Prod.fst hprepare)
      obtain ⟨trace, hrun⟩ := exists_run_prepare idle left right flags unbalanced
      rw [hprepare] at hrun
      obtain ⟨hd, rfl⟩ := Prod.mk.inj hrun
      exact ⟨d, trace, rfl, idle, escape_of_unescaped hd.symm, success⟩

/-- A run of few turns with an escape character can be evaluated. -/
theorem matchRecursive_mark_of_turns {lm rm em : Except Error Matcher} {n : Nat}
    {result : Except Error (List Segment)} (idle : g.compiling = false)
    (hl : Extended.compile g.dialect g.surroundings g.reparseLimit left (basicFlags flags) none =
      lm)
    (hr : Extended.compile g.dialect g.surroundings g.reparseLimit right (basicFlags flags) none =
      rm)
    (he : ∀ l r trace, lm = .ok l → rm = .ok r →
      ((escapeMatcher mark l r flags).run.run { g with trace }).1 = em)
    (h : ((unescaped lm rm flags unbalanced).toOption.bind fun d => em.toOption.bind fun e =>
      { d with escape := some e, names }.segmentsWithin n (.ofString text)) = some result) :
    ((matchRecursive text left right flags (some mark) unbalanced names).run.run g).1 =
      result := by
  obtain ⟨trace, hprepare⟩ := exists_run_prepare idle left right flags unbalanced
  dsimp only at hprepare
  rw [hl, hr] at hprepare
  cases lm with
  | error err => cases h
  | ok l =>
    cases rm with
    | error err => cases h
    | ok r =>
      rw [result_matchRecursive, result_prepare_mark mark hprepare]
      simp only [unescaped, bind, Except.bind, pure, Except.pure, he l r trace rfl rfl]
      cases em with
      | error err => cases h
      | ok e => exact Delimiters.segments_of_turns h

/-- Two letters are looked for as `a|b`. -/
theorem result_escapeMatcher_letters {f f' : PlainFlags} {p p' : String}
    (hl : Matcher.ofCompiled "a" f [] p "g" = .ok l)
    (hr : Matcher.ofCompiled "b" f' [] p' "g" = .ok r) (trace : Trace) :
    ((escapeMatcher '\\' l r "g").run.run { ({} : Engine) with trace }).1 =
      Matcher.plain (escapeText '\\' "a|b") "" := by
  obtain ⟨hlsource, hlnames⟩ := Matcher.eq_of_ofCompiled hl
  obtain ⟨hrsource, hrnames⟩ := Matcher.eq_of_ofCompiled hr
  have hfl : (Needle.matcher l).FallsInto (Fragments.literal ['a']) :=
    .matcher (by rw [hlsource]; decide) (by rw [hlnames]; decide) Fragments.fit_literal
      (by rw [hlnames]; decide)
  have hfr : (Needle.matcher r).FallsInto (Fragments.literal ['b']) :=
    .matcher (by rw [hrsource]; decide) (by rw [hrnames]; decide) Fragments.fit_literal
      (by rw [hrnames]; decide)
  have hboth : alternatives l r = "a|b" := by
    simp only [alternatives, Needle.sources, Needle.source, Needle.names, hlsource, hrsource,
      hlnames]
    cbv
  obtain ⟨pattern, hrun⟩ : ∃ pattern : String, _ :=
    result_escapeMatcher (g := { ({} : Engine) with trace }) rfl rfl hfl hfr
      (by rw [hlnames, hrnames]; decide)
  have hcheck : Needle.recheckAll [.matcher l, .matcher r] = .ok () := by
    simp only [Needle.recheckAll, Needle.recheck, hlsource, hrsource, hlnames, hrnames]
    decide +kernel
  obtain ⟨u, hu⟩ : ∃ u, Matcher.ofCompiled "a|b" {} [] pattern "" = .ok u :=
    Matcher.exists_ofCompiled pattern "" (by decide +kernel)
  rw [hrun, hcheck, hboth, hlnames, hrnames]
  simp only [Except.bind, List.append_nil, hu]
  congr 1

/-- An escape character that does not occur in a text changes nothing where the call without one
succeeds, if the matcher for what it hides can be made and the union of the delimiters, as that
matcher reads it, matches wherever a delimiter does. Exactly then the same delimiters are seen from
every place. -/
theorem matchRecursive_unused_escape (mark : Char)
    (success : ((matchRecursive text left right flags none unbalanced names).run.run g).1 =
      .ok out) :
    let s := Subject.ofString text
    let made := ((prepare left right flags (some mark) unbalanced).run.run g).1
    let marked := ((matchRecursive text left right flags (some mark) unbalanced names).run.run g).1
    (∀ err, made = .error err → marked = .error err) ∧
    ∀ d, made = .ok d → ∃ e, d.escape = some e ∧
      (∀ tl tr : Tree, g.dialect.tokens = [] → d.left.CompiledFrom tl (basicFlags flags) →
        d.right.CompiledFrom tr (basicFlags flags) → d.left.names.length < UInt64.size →
        d.right.names.length < UInt64.size → LooksFor e mark d.left d.right) ∧
      ∀ (al ar : Anchoring s) (isMark : Char → Bool) (here : Nat → Bool),
        d.left.FindsFirst s al → d.right.FindsFirst s ar → e.Skips s isMark here →
        (∀ c ∈ text.toList, isMark c = false) →
        ((∀ i ≤ s.size, d.seen s i = { d with escape := none }.seen s i) ↔
          ∀ q < s.size, (al q).isSome = true ∨ (ar q).isSome = true → here q = true) ∧
        ((∀ q < s.size, (al q).isSome = true ∨ (ar q).isSome = true → here q = true) →
          marked = .ok out) := by
  intro s made marked
  obtain ⟨d₀, trace, hprepare, idle, hnone, hsegments⟩ := exists_prepare_of_success success
  have hmade : made = _ := result_prepare_mark mark hprepare
  have hmarked : marked = made.bind _ := result_matchRecursive text names
  refine ⟨fun err herr => by rw [hmarked, herr]; rfl, fun d hd => ?_⟩
  obtain ⟨e, hescape, rfl⟩ : ∃ e,
      ((escapeMatcher mark d₀.left d₀.right flags).run.run { g with trace }).1 = .ok e ∧
        { d₀ with escape := some e } = d := by
    rw [hmade] at hd
    cases hescape : ((escapeMatcher mark d₀.left d₀.right flags).run.run { g with trace }).1 with
    | error err => simp [hescape, Except.bind, Except.map] at hd
    | ok e => exact ⟨e, rfl, by simpa [hescape, Except.bind, Except.map] using hd⟩
  refine ⟨e, rfl, fun tl tr tokens hl hr fewl fewr => ?_, ?_⟩
  · exact looksFor_of_run (g := { g with trace }) tokens idle hl hr fewl fewr hescape
  · intro al ar isMark here hl hr skips unused
    have unused : ∀ c ∈ s.toList, isMark c = false := by
      simpa [s, Subject.ofString] using unused
    refine ⟨Delimiters.seen_iff hl hr rfl skips unused, fun matched => ?_⟩
    have hsame : { d₀ with escape := some e, names }.segments s =
        { d₀ with escape := none, names }.segments s :=
      Delimiters.segments_withoutEscape hl hr rfl skips unused matched
    rw [← hnone] at hsame
    rw [hmarked, hd]
    exact hsame.trans hsegments

theorem matchRecursive_unused_escape_letters :
    let result (escape : Option Char) := ((matchRecursive "axb" "a" "b" "g" escape .refuse
      { matched := "match" }).run.run {}).1
    result none = .ok [⟨"match", "x", 1, 2⟩] ∧ result (some '\\') = .ok [⟨"match", "x", 1, 2⟩] := by
  intro result
  have hleft : Setting.toPlain ⟨{}, surroundings {}, none, "a"⟩ 10000 (.ofFlags "g") =
      .ok (['a'], .ofFlags "g") := by cbv
  have hright : Setting.toPlain ⟨{}, surroundings {}, none, "b"⟩ 10000 (.ofFlags "g") =
      .ok (['b'], .ofFlags "g") := by cbv
  have hl := compile_of_toPlain rfl hleft
  have hr := compile_of_toPlain rfl hright
  have success : result none = .ok [⟨"match", "x", 1, 2⟩] :=
    matchRecursive_of_turns (n := 5) rfl hl hr (by decide +kernel)
  refine ⟨success, ?_⟩
  obtain ⟨l, hlm⟩ : ∃ l, Matcher.ofCompiled "a" (.ofList ['g']) [] "a" "g" = .ok l :=
    Matcher.exists_ofCompiled _ _ (by decide +kernel)
  obtain ⟨r, hrm⟩ : ∃ r, Matcher.ofCompiled "b" (.ofList ['g']) [] "b" "g" = .ok r :=
    Matcher.exists_ofCompiled _ _ (by decide +kernel)
  obtain ⟨e, hem, hesource, heflags⟩ := Matcher.exists_plain (escapeText '\\' "a|b") "" {} rfl
    (by decide +kernel)
  obtain ⟨trace, hprepare⟩ := exists_run_prepare (g := {}) rfl "a" "b" "g" .refuse
  have hlc : Extended.compile {} (surroundings {}) 10000 "a" (basicFlags "g") none = .ok l :=
    hl.trans hlm
  have hrc : Extended.compile {} (surroundings {}) 10000 "b" (basicFlags "g") none = .ok r :=
    hr.trans hrm
  dsimp only at hprepare
  rw [hlc, hrc] at hprepare
  have hmark := result_prepare_mark '\\' hprepare
  simp only [unescaped, bind, Except.bind, pure, Except.pure,
    result_escapeMatcher_letters hlm hrm trace, hem] at hmark
  obtain ⟨-, hmade⟩ := matchRecursive_unused_escape '\\' success
  obtain ⟨e', he', -, hresult⟩ := hmade _ hmark
  obtain rfl : e = e' := Option.some.inj he'
  obtain ⟨hlsource, hlflags, -⟩ := Matcher.eq_of_build hlm
  obtain ⟨hrsource, hrflags, -⟩ := Matcher.eq_of_build hrm
  have hfl : l.FindsFirst (.ofString "axb") (l.anchoring _) :=
    Matcher.findsFirst_of_search (by rw [hlsource, hlflags]; decide +kernel)
  have hfr : r.FindsFirst (.ofString "axb") (r.anchoring _) :=
    Matcher.findsFirst_of_search (by rw [hrsource, hrflags]; decide +kernel)
  have skips : e.Skips (.ofString "axb") (· == '\\') fun q => q == 0 || q == 2 :=
    Matcher.skips_of_search (by rw [hesource, heflags]; decide +kernel)
  refine (hresult _ _ _ _ hfl hfr skips (by simp)).2 fun q hq hdelimiter => ?_
  have hlone : l.anchoring (.ofString "axb") 1 = none :=
    Matcher.anchoring_eq_none_of_search (by rw [hlsource, hlflags]; decide +kernel)
  have hrone : r.anchoring (.ofString "axb") 1 = none :=
    Matcher.anchoring_eq_none_of_search (by rw [hrsource, hrflags]; decide +kernel)
  have hq' : q < 3 := hq
  obtain rfl | rfl | rfl : q = 0 ∨ q = 1 ∨ q = 2 := by omega
  · rfl
  · simp [hlone, hrone] at hdelimiter
  · rfl

/-- With the leading mode of the left delimiter lost, `A` is passed over as text that holds no
delimiter. -/
theorem matchRecursive_lost_mode :
    let result (escape : Option Char) := ((matchRecursive "Axb" "(?i)a" "b" "g" escape .refuse
      { matched := "match" }).run.run {}).1
    result none = .ok [⟨"match", "x", 1, 2⟩] ∧
      result (some '\\') = .error (.unbalanced .right 2) := by
  have hleft : Setting.toPlain ⟨{}, surroundings {}, none, "(?i)a"⟩ 10000 (.ofFlags "g") =
      .ok (['a'], ⟨['g', 'i'], []⟩) := by cbv
  have hright : Setting.toPlain ⟨{}, surroundings {}, none, "b"⟩ 10000 (.ofFlags "g") =
      .ok (['b'], .ofFlags "g") := by cbv
  have hl := compile_of_toPlain rfl hleft
  have hr := compile_of_toPlain rfl hright
  exact ⟨matchRecursive_of_turns (n := 5) rfl hl hr (by decide +kernel),
    matchRecursive_mark_of_turns (n := 5) rfl hl hr
      (fun l r trace hl hr => result_escapeMatcher_letters hl hr trace) (by decide +kernel)⟩

end Calls

end Engine

end Patterns
