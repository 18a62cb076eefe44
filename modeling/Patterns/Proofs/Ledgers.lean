import Patterns.Proofs.GatedTokens
import Patterns.Proofs.Insertion

/-!
# Ledgers of groups

While a pattern is read groups are recorded by the compiler and by the handlers of tokens, which
also set flags, in any order, and may go on when a group was refused. A `Ledger` is a context with a
mark for names that is kept beside the groups. What one call keeps of it (`IsOrderly`) all calls
keep, and the context at every place of a run comes from such calls.
-/
namespace Patterns.Extended
open Patterns.Text

variable {c c' : Context} {name : String}

section Contexts

namespace Context

theorem flags_setFlag (c : Context) (flag : Char) :
    (c.setFlag flag).flags = if c.hasFlag flag then c.flags else c.flags ++ [flag] := by
  unfold setFlag
  split <;> rfl

theorem flags_prefix_setFlag (c : Context) (flag : Char) : c.flags <+: (c.setFlag flag).flags := by
  rw [flags_setFlag]
  split
  · exact List.prefix_rfl
  · exact List.prefix_append ..

theorem nodup_setFlag (h : c.flags.Nodup) (flag : Char) : (c.setFlag flag).flags.Nodup := by
  rw [flags_setFlag]
  split
  · exact h
  · next hflag =>
    refine List.nodup_append.mpr ⟨h, List.nodup_singleton flag, fun a ha b hb heq => hflag ?_⟩
    obtain rfl := List.mem_singleton.mp hb
    exact List.contains_iff_mem.mpr (heq ▸ ha)

theorem hasNamedGroup_iff : c.hasNamedGroup = true ↔ ∃ name, some name ∈ c.groups := by
  simp [hasNamedGroup, Option.isSome_iff_exists]

/-- A name that is recorded once has one number. -/
theorem groupIndex?_eq_some_iff (h : DistinctNames c.groups) {n : Nat} :
    c.groupIndex? name = some n ↔ 0 < n ∧ c.groups[n - 1]? = some (some name) := by
  have hpairs := List.pairwise_iff_getElem.mp (List.pairwise_filterMap.mp h)
  simp only [groupIndex?, indexOfName?, Option.map_eq_some_iff, List.findIdx?_eq_some_iff_getElem]
  constructor
  · rintro ⟨i, ⟨hi, hname, -⟩, rfl⟩
    refine ⟨Nat.succ_pos i, ?_⟩
    rw [Nat.add_sub_cancel, List.getElem?_eq_getElem hi, eq_of_beq hname]
  · rintro ⟨hpos, hget⟩
    obtain ⟨hi, hname⟩ := List.getElem?_eq_some_iff.mp hget
    refine ⟨n - 1, ⟨hi, beq_iff_eq.mpr hname, fun j hj hsame => ?_⟩, by omega⟩
    exact hpairs j (n - 1) (by omega) hi hj name (eq_of_beq hsame) name hname rfl

end Context

end Contexts

/-- A context that keeps a mark of its own whether a group with a name is recorded. -/
structure Ledger extends Context where
  named : Bool

abbrev LedgerM := ExceptT Error (StateM Ledger)

namespace Ledger

def ofFlags (flags : String) : Ledger := ⟨.ofFlags flags, false⟩

def setFlag (flag : Char) : LedgerM Unit :=
  modify fun l => { l with toContext := l.toContext.setFlag flag }

/-- Records a group and answers its number. -/
def addGroup (name : Option String) : LedgerM Nat := do
  if let some name := name then
    ExceptT.mk (pure ((← get).checkName name))
    modify fun l => { l with named := true }
  modify fun l => { l with toContext := l.record name }
  return (← get).groupCount

/-- What a handler can do to the context. -/
inductive Call where
  | setFlag (flag : Char)
  | addGroup (name : Option String)

def Call.perform : Call → LedgerM Unit
  | .setFlag flag => Ledger.setFlag flag
  | .addGroup name => do let _ ← Ledger.addGroup name

/-- A call that is refused is over, and whoever made it goes on. -/
def meet (l : Ledger) (call : Call) : Ledger := (call.perform.run.run l).2

def after (l : Ledger) (calls : List Call) : Ledger := calls.foldl meet l

variable {l : Ledger}

section Calls

theorem run_addGroup (l : Ledger) (name : Option String) :
    (addGroup name).run.run l =
      match l.toContext.addGroup name with
      | .ok c => (.ok c.groupCount, ⟨c, l.named || name.isSome⟩)
      | .error err => (.error err, l) := by
  obtain ⟨c, named⟩ := l
  -- `get` is lifted into the answers with errors, where it has no equation of its own.
  have hget : StateT.run (ExceptT.run (get : LedgerM Ledger)) ⟨c, named⟩ =
      pure (.ok ⟨c, named⟩, ⟨c, named⟩) := rfl
  cases name with
  | none =>
    simp only [Context.addGroup, Option.isSome_none, Bool.or_false]
    rfl
  | some name =>
    cases hcheck : c.checkName name with
    | error err =>
      have hadd : c.addGroup (some name) = .error err := by
        simp [Context.addGroup, hcheck, bind, Except.bind]
      have hrun : (addGroup (some name)).run.run ⟨c, named⟩ = pure (.error err, ⟨c, named⟩) := by
        simp [addGroup, hget, hcheck]
      rw [hadd]
      exact hrun
    | ok u =>
      have hadd : c.addGroup (some name) = .ok (c.record (some name)) :=
        Context.addGroup_eq_ok_iff.mpr ⟨by simpa using hcheck, rfl⟩
      rw [hadd, Option.isSome_some, Bool.or_true]
      simp only [addGroup, ExceptT.run_bind, StateT.run_bind, hget, pure_bind, ExceptT.run_mk,
        hcheck]
      rfl

theorem meet_addGroup (l : Ledger) (name : Option String) :
    l.meet (.addGroup name) = ((addGroup name).run.run l).2 := by
  rw [meet, Call.perform, Engine.run_bind]
  obtain ⟨_ | n, l'⟩ := (addGroup name).run.run l <;> rfl

/-- What a call does: nothing where a group is refused. -/
theorem meet_cases (l : Ledger) (call : Call) :
    l.meet call = l ∨ (∃ flag, l.meet call = ⟨l.toContext.setFlag flag, l.named⟩) ∨
      ∃ name, l.toContext.addGroup name = .ok (l.record name) ∧
        l.meet call = ⟨l.record name, l.named || name.isSome⟩ := by
  cases call with
  | setFlag flag => exact .inr (.inl ⟨flag, rfl⟩)
  | addGroup name =>
    rw [meet_addGroup, run_addGroup]
    cases hadd : l.toContext.addGroup name with
    | error err => exact .inl rfl
    | ok c =>
      obtain rfl := (Context.addGroup_eq_ok_iff.mp hadd).2
      exact .inr (.inr ⟨name, hadd, rfl⟩)

theorem after_append (l : Ledger) (calls more : List Call) :
    l.after (calls ++ more) = (l.after calls).after more :=
  List.foldl_append

/-- Flags are only added. -/
theorem flags_prefix_after (l : Ledger) (calls : List Call) : l.flags <+: (l.after calls).flags := by
  induction calls generalizing l with
  | nil => exact List.prefix_rfl
  | cons call calls ih =>
    refine List.IsPrefix.trans ?_ (ih (l.meet call))
    rcases l.meet_cases call with hmeet | ⟨flag, hmeet⟩ | ⟨name, -, hmeet⟩
    · rw [hmeet]
    · rw [hmeet]
      exact Context.flags_prefix_setFlag _ flag
    · rw [hmeet]
      exact List.prefix_rfl

end Calls

section Orderly

/-- Names are distinct and look like names, the mark is right, and no flag is repeated. -/
structure IsOrderly (l : Ledger) : Prop where
  names : ∀ name, some name ∈ l.groups → IsGroupName name
  distinct : DistinctNames l.groups
  mark : l.named = l.hasNamedGroup
  flags : l.flags.Nodup

theorem isOrderly_ofFlags {flags : String} (h : flags.toList.Nodup) : (ofFlags flags).IsOrderly :=
  ⟨fun _ hm => absurd hm List.not_mem_nil, List.nodup_nil, rfl, h⟩

theorem IsOrderly.record (h : l.IsOrderly) {name : Option String}
    (added : l.toContext.addGroup name = .ok (l.record name)) :
    IsOrderly ⟨l.record name, l.named || name.isSome⟩ where
  names n hm := by
    rcases List.mem_append.mp hm with hm | hm
    · exact h.names n hm
    · obtain rfl := List.mem_singleton.mp hm
      exact (Context.checkName_eq_ok_iff.mp ((Context.addGroup_eq_ok_iff.mp added).1 n rfl)).1
  distinct := distinctNames_addGroup added h.distinct
  mark := by simp [h.mark, Context.hasNamedGroup, Context.record]
  flags := h.flags

theorem IsOrderly.setFlag (h : l.IsOrderly) (flag : Char) :
    IsOrderly ⟨l.toContext.setFlag flag, l.named⟩ := by
  have hgroups : (l.toContext.setFlag flag).groups = l.groups := Context.groups_setFlag _ flag
  refine ⟨?_, ?_, ?_, Context.nodup_setFlag h.flags flag⟩
  · rw [hgroups]
    exact h.names
  · rw [hgroups]
    exact h.distinct
  · rw [Context.hasNamedGroup, hgroups]
    exact h.mark

/-- What a call keeps. -/
theorem IsOrderly.meet (h : l.IsOrderly) (call : Call) : (l.meet call).IsOrderly := by
  rcases l.meet_cases call with hmeet | ⟨flag, hmeet⟩ | ⟨name, added, hmeet⟩
  · rwa [hmeet]
  · rw [hmeet]
    exact h.setFlag flag
  · rw [hmeet]
    exact h.record added

theorem IsOrderly.after (h : l.IsOrderly) (calls : List Call) : (l.after calls).IsOrderly := by
  induction calls generalizing l with
  | nil => exact h
  | cons call calls ih => exact ih (h.meet call)

end Orderly

end Ledger

section Leads

namespace Context.Leads

theorem trans {c'' : Context} (h : c.Leads c') (h' : c'.Leads c'') : c.Leads c'' := by
  induction h' with
  | refl => exact h
  | setFlag flag _ ih => exact ih.setFlag flag
  | addGroup _ added ih => exact ih.addGroup added

theorem hasFlag {flag : Char} (h : c.Leads c') (set : c.hasFlag flag = true) :
    c'.hasFlag flag = true := by
  induction h with
  | refl => exact set
  | setFlag f _ ih => rw [hasFlag_setFlag, ih, Bool.true_or]
  | addGroup _ added ih =>
    rw [Context.hasFlag, flags_addGroup added]
    exact ih

/-- What can become of a context becomes of it by calls. -/
theorem exists_calls {l : Ledger} (h : l.toContext.Leads c) :
    ∃ calls, (l.after calls).toContext = c := by
  induction h with
  | refl => exact ⟨[], rfl⟩
  | setFlag flag _ ih =>
    obtain ⟨calls, rfl⟩ := ih
    exact ⟨calls ++ [.setFlag flag], by rw [Ledger.after_append]; rfl⟩
  | @addGroup _ _ name _ added ih =>
    obtain ⟨calls, rfl⟩ := ih
    refine ⟨calls ++ [.addGroup name], ?_⟩
    rw [Ledger.after_append]
    change ((l.after calls).meet (.addGroup name)).toContext = _
    rw [Ledger.meet_addGroup, Ledger.run_addGroup, added]

end Context.Leads

theorem leads_setModifierFlags {custom flags : List Char} {written : String}
    (h : setModifierFlags custom written flags c = .ok c') : c.Leads c' := by
  induction flags generalizing c with
  | nil =>
    cases h
    exact .refl
  | cons flag flags ih =>
    rw [setModifierFlags] at h
    split at h
    · cases h
    · split at h
      · cases h
      · exact (Context.Leads.refl.setFlag flag).trans (ih h)

theorem Lexeme.Emits.leads {lexeme : Lexeme} {scope : Scope} {written : String}
    {after custom out : List Char} {subpatterns : Option Subpatterns}
    (h : lexeme.Emits scope written after custom subpatterns c out c') : c.Leads c' := by
  cases h with
  | modifier set => exact leads_setModifierFlags set
  | namedGroup added | group _ added => exact .addGroup .refl added
  | _ => exact .refl

/-- Under the flag `n` only groups with names are recorded. -/
theorem Lexeme.Emits.records_named {lexeme : Lexeme} {scope : Scope} {written : String}
    {after custom out : List Char} {subpatterns : Option Subpatterns}
    (h : lexeme.Emits scope written after custom subpatterns c out c')
    (named : c.hasFlag 'n' = true) :
    c'.groups = c.groups ∨ ∃ name, c'.groups = c.groups ++ [some name] := by
  cases h with
  | modifier set => exact .inl (groups_setModifierFlags set)
  | namedGroup added => exact .inr ⟨_, groups_addGroup added⟩
  | group flag => simp [named] at flag
  | _ => exact .inl rfl

end Leads

section Runs

variable {e : Setting} {s t : Scan} {p : Piece} {n : Nat}

theorem leads_of_piece? (h : e.piece? s = .ok (some p)) : s.context.Leads p.context := by
  rcases hits_or_emits_of_piece? h with ⟨t, -, hits⟩ | ⟨settings, lexeme, -, emits⟩
  · cases hits with
    | @intro _ _ later => exact later.leads
  · exact emits.leads

theorem Run.leads (h : Run e s n t) : s.context.Leads t.context :=
  h.keeps (fun _ _ hs hit => hs.trans (leads_of_piece? hit)) .refl

/-- Without tokens every group that is recorded under the flag `n` has a name. -/
theorem Run.exists_named (tokens : e.dialect.tokens = []) (h : Run e s n t)
    (named : s.context.hasFlag 'n' = true) :
    ∃ new, t.context.groups = s.context.groups ++ new ∧ none ∉ new := by
  -- Nothing unsets the flag, so it is carried along with the groups recorded from `s` on.
  let P (c : Context) : Prop :=
    c.hasFlag 'n' = true ∧ ∃ new, c.groups = s.context.groups ++ new ∧ none ∉ new
  have kept (q : Scan) (p : Piece) (hq : P q.context) (hit : e.piece? q = .ok (some p)) :
      P p.context := by
    obtain ⟨flag, new, hnew, hnone⟩ := hq
    refine ⟨(leads_of_piece? hit).hasFlag flag, ?_⟩
    rcases hits_or_emits_of_piece? hit with ⟨t, hmem, -⟩ | ⟨settings, lexeme, -, emits⟩
    · simp [tokens] at hmem
    · rcases emits.records_named flag with hgroups | ⟨name, hgroups⟩
      · exact ⟨new, hgroups.trans hnew, hnone⟩
      · exact ⟨new ++ [some name], by rw [hgroups, hnew, List.append_assoc], by simp [hnone]⟩
  exact (h.keeps kept (show P s.context from ⟨named, [], by simp, by simp⟩)).2

end Runs

/-- Whatever the tokens are, the context at every place of a run comes from calls that set flags and
record groups, and no calls spoil it: it stays orderly, each name has a number of its own, and flags
are only added. A call that is refused changes nothing. Without tokens only groups with names are
recorded under the flag `n`. So a matcher that was compiled has one entry for each of its groups. -/
theorem ledger_orderly (d : Dialect) (w : Surroundings) (subpatterns : Option Subpatterns)
    (pattern flags : String) (valid : Flags.validate d.flags flags = .ok ()) :
    let e : Setting := ⟨d, w, subpatterns, pattern⟩
    let start := Scan.start pattern (.ofFlags flags)
    let l := Ledger.ofFlags flags
    (∀ calls, (l.after calls).IsOrderly ∧
      ((l.after calls).named = true ↔ ∃ name, some name ∈ (l.after calls).groups) ∧
      (∀ name n, (l.after calls).groupIndex? name = some n ↔
        0 < n ∧ (l.after calls).groups[n - 1]? = some (some name)) ∧
      (∀ name err l', (Ledger.addGroup name).run.run (l.after calls) = (.error err, l') →
        l' = l.after calls) ∧
      ∀ more, (l.after calls).flags <+: (l.after (calls ++ more)).flags) ∧
    (∀ n s k t, Run e start n s → Run e s k t →
      ∃ calls more, s.context = (l.after calls).toContext ∧
        t.context = (l.after (calls ++ more)).toContext ∧
        (d.tokens = [] → s.context.hasFlag 'n' = true →
          ∃ new, t.context.groups = s.context.groups ++ new ∧ none ∉ new)) ∧
    ∀ limit m, compile d w limit pattern flags subpatterns = .ok m →
      m.names.length = m.body.groups ∧ DistinctNames m.names ∧
        ∀ name, some name ∈ m.names → IsGroupName name := by
  intro e start l
  have orderly (calls : List Ledger.Call) : (l.after calls).IsOrderly :=
    (Ledger.isOrderly_ofFlags (Flags.validate_eq_ok_iff.mp valid).1).after calls
  have runs {n : Nat} {s : Scan} (h : Run e start n s) :
      ∃ calls, (l.after calls).toContext = s.context := h.leads.exists_calls
  refine ⟨fun calls => ⟨orderly calls, ?_, ?_, ?_, fun more => ?_⟩, fun n s k t first second => ?_,
    fun limit m compiled => ?_⟩
  · rw [(orderly calls).mark]
    exact Context.hasNamedGroup_iff
  · exact fun name n => Context.groupIndex?_eq_some_iff (orderly calls).distinct
  · intro name err l' hrun
    rw [Ledger.run_addGroup] at hrun
    split at hrun
    · cases hrun
    · exact (congrArg Prod.snd hrun).symm
  · rw [Ledger.after_append]
    exact Ledger.flags_prefix_after _ more
  · obtain ⟨calls, hcalls⟩ := runs first
    obtain ⟨more, hmore⟩ := Context.Leads.exists_calls (hcalls ▸ second.leads)
    exact ⟨calls, more, hcalls.symm, by rw [Ledger.after_append, hmore],
      fun tokens named => second.exists_named tokens named⟩
  · obtain ⟨-, out, c, hplain, hof⟩ := compile_eq_ok_iff.mp compiled
    obtain ⟨n, s, hrun, -, -, -, rfl⟩ := exists_run_of_toPlain hplain
    obtain ⟨calls, hcalls⟩ := runs hrun
    rw [(Matcher.eq_of_ofCompiled hof).2, Matcher.groups_of_ofCompiled hof, ← hcalls]
    exact ⟨rfl, (orderly calls).distinct, (orderly calls).names⟩

/-- Two groups under the flag `n`, the second one with a name, which is refused when it comes
back. -/
theorem ledger_orderly_pair :
    ∃ (n : Nat) (s : Scan) (calls : List Ledger.Call) (m : Matcher),
      let e : Setting := ⟨{}, ⟨false, fun _ _ => none⟩, none, "(a)(?<v>b)"⟩
      let l := (Ledger.ofFlags "n").after calls
      Run e (.start "(a)(?<v>b)" (.ofFlags "n")) n s ∧ s.rest = [] ∧ s.context = l.toContext ∧
        l.groups = [some "v"] ∧ l.IsOrderly ∧ l.named = true ∧ l.groupIndex? "v" = some 1 ∧
        (Ledger.addGroup (some "v")).run.run l = (.error (.repeatedGroupName "v"), l) ∧
        compile e.dialect e.surroundings 1 e.pattern "n" none = .ok m ∧ m.body.groups = 1 := by
  let e : Setting := ⟨{}, ⟨false, fun _ _ => none⟩, none, "(a)(?<v>b)"⟩
  have valid : Flags.validate e.dialect.flags "n" = .ok () := rfl
  obtain ⟨orderly, runs, compiled⟩ :=
    ledger_orderly e.dialect e.surroundings none "(a)(?<v>b)" "n" valid
  have hplain : e.toPlain 1 (.ofFlags "n") =
      .ok ("(?:a)(b)".toList, ⟨['n'], [some "v"]⟩) := by cbv
  obtain ⟨n, s, hrun, -, hend, -, hcontext⟩ := exists_run_of_toPlain hplain
  obtain ⟨calls, -, hcalls, -⟩ := runs n s 0 s hrun (.done s)
  obtain ⟨horderly, hnamed, hindex, -⟩ := orderly calls
  have hl : ((Ledger.ofFlags "n").after calls).toContext = ⟨['n'], [some "v"]⟩ :=
    hcalls.symm.trans hcontext
  have hgroups := congrArg Context.groups hl
  obtain ⟨m, hm⟩ : ∃ m, Matcher.ofCompiled "(?:a)(b)" (.ofList ['n']) [some "v"] e.pattern "n" =
      .ok m := Matcher.exists_ofCompiled _ _ (by decide +kernel)
  have hcompile : compile e.dialect e.surroundings 1 e.pattern "n" none = .ok m :=
    compile_eq_ok_iff.mpr ⟨valid, _, _, hplain, hm⟩
  refine ⟨n, s, calls, m, hrun, hend, hcalls, hgroups, horderly, ?_, ?_, ?_, hcompile, ?_⟩
  · exact hnamed.mpr ⟨"v", by simp [hgroups]⟩
  · exact (hindex "v" 1).mpr ⟨Nat.one_pos, by simp [hgroups]⟩
  · rw [Ledger.run_addGroup, hl]
    rfl
  · rw [← (compiled 1 m hcompile).1, (Matcher.eq_of_ofCompiled hm).2]
    rfl

end Patterns.Extended
