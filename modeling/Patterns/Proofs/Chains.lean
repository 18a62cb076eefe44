import Patterns.Proofs.Uses

/-!
# Chains put together

A chain takes all values through one stage before the next one sees any of them. Still each value
goes its own way: what comes out of a longer chain is what its second part makes of each value that
comes out of its first part, in order (`matchChain_append`).
-/
namespace Patterns
open Patterns.Text

variable {stage : Stage} {a b : List Stage} {us us' vs : List String}

/-- The answer for two lists of values that follow each other, put together from the answers for
each of them: the texts of both, or an error of one. -/
inductive Combines {α : Type} : (first second both : Except Error (List α)) → Prop
  | texts (vs vs' : List α) : Combines (.ok vs) (.ok vs') (.ok (vs ++ vs'))
  | first (e : Error) (second : Except Error (List α)) : Combines (.error e) second (.error e)
  | second (e : Error) (first : Except Error (List α)) : Combines first (.error e) (.error e)

namespace Combines

variable {α : Type} {x y z : Except Error (List α)} {f : List α → Except Error (List α)}

theorem bind (h : Combines x y z) (hf : ∀ vs vs', Combines (f vs) (f vs') (f (vs ++ vs'))) :
    Combines (x.bind f) (y.bind f) (z.bind f) := by
  cases h with
  | texts vs vs' => exact hf vs vs'
  | first e second => exact .first e _
  | second e first => exact .second e _

theorem ok_iff (h : Combines x y z) {ws : List α} :
    z = .ok ws ↔ ∃ vs vs', x = .ok vs ∧ y = .ok vs' ∧ ws = vs ++ vs' := by
  cases h with
  | texts vs vs' => simp [eq_comm]
  | first e second => simp
  | second e first => simp

theorem error_or (h : Combines x y z) {e : Error} (hz : z = .error e) :
    x = .error e ∨ y = .error e := by
  cases h with
  | texts vs vs' => cases hz
  | first e second => exact .inl hz
  | second e first => exact .inr hz

end Combines

section Stages

theorem Stage.apply_cons (value : String) (us : List String) : stage.apply (value :: us) =
    (stage.texts value).bind fun vs => (stage.apply us).map (vs ++ ·) := by
  rw [apply]
  cases stage.texts value with
  | error e => rfl
  | ok vs => cases stage.apply us <;> rfl

/-- A stage looks at each value by itself. -/
theorem Stage.combines_apply (us us' : List String) :
    Combines (stage.apply us) (stage.apply us') (stage.apply (us ++ us')) := by
  induction us with
  | nil =>
    rw [apply, List.nil_append]
    cases stage.apply us' with
    | error e => exact .second e _
    | ok vs => exact .texts [] vs
  | cons value us ih =>
    rw [List.cons_append, apply_cons, apply_cons]
    cases stage.texts value with
    | error e => exact .first e _
    | ok vs =>
      change Combines ((stage.apply us).map _) _ ((stage.apply (us ++ us')).map _)
      generalize stage.apply us = x, stage.apply us' = y, stage.apply (us ++ us') = z at ih
      cases ih with
      | texts ws ws' =>
        have hcombined := Combines.texts (vs ++ ws) ws'
        rwa [List.append_assoc] at hcombined
      | first e second => exact .first e _
      | second e first => exact .second e _

@[simp] theorem result_runStages_empty : (runStages [] b).1 = .ok [] := by
  cases b <;> rfl

/-- A chain that ends early answers as one that goes on without values. -/
theorem result_runStages_cons :
    (runStages us (stage :: b)).1 = (stage.apply us).bind fun vs => (runStages vs b).1 := by
  rw [runStages]
  cases stage.apply us with
  | error e => rfl
  | ok vs =>
    cases vs with
    | nil => exact result_runStages_empty.symm
    | cons => rfl

theorem result_runStages_append :
    (runStages us (a ++ b)).1 = (runStages us a).1.bind fun vs => (runStages vs b).1 := by
  induction a generalizing us with
  | nil => rfl
  | cons stage a ih =>
    rw [List.cons_append, result_runStages_cons, result_runStages_cons]
    cases stage.apply us with
    | error e => rfl
    | ok vs => exact ih

/-- No value has a say in what the stages make of another one. -/
theorem combines_runStages (us us' : List String) :
    Combines (runStages us b).1 (runStages us' b).1 (runStages (us ++ us') b).1 := by
  induction b generalizing us us' with
  | nil => exact .texts us us'
  | cons stage b ih =>
    rw [result_runStages_cons, result_runStages_cons, result_runStages_cons]
    exact (stage.combines_apply us us').bind ih

/-- The values one by one. -/
theorem result_runStages_eq_ok_iff : (runStages us b).1 = .ok vs ↔
    ∃ vss, List.Forall₂ (fun u vs => (runStages [u] b).1 = .ok vs) us vss ∧ vs = vss.flatten := by
  induction us generalizing vs with
  | nil => simp [eq_comm]
  | cons u us ih =>
    have hcombines : Combines (runStages [u] b).1 (runStages us b).1 (runStages (u :: us) b).1 :=
      combines_runStages [u] us
    rw [hcombines.ok_iff]
    constructor
    · rintro ⟨ws, ws', hu, hus, rfl⟩
      obtain ⟨vss, heach, rfl⟩ := ih.mp hus
      exact ⟨ws :: vss, .cons hu heach, rfl⟩
    · rintro ⟨vss, heach, rfl⟩
      cases heach with
      | @cons _ ws _ vss hu heach => exact ⟨ws, vss.flatten, hu, ih.mpr ⟨vss, heach, rfl⟩, rfl⟩

theorem exists_of_result_runStages {e : Error} (h : (runStages us b).1 = .error e) :
    ∃ u ∈ us, (runStages [u] b).1 = .error e := by
  induction us with
  | nil => simp at h
  | cons u us ih =>
    have hcombines : Combines (runStages [u] b).1 (runStages us b).1 (runStages (u :: us) b).1 :=
      combines_runStages [u] us
    rcases hcombines.error_or h with hu | hus
    · exact ⟨u, List.mem_cons_self, hu⟩
    · obtain ⟨u', hmem, hu'⟩ := ih hus
      exact ⟨u', List.mem_cons_of_mem u hmem, hu'⟩

end Stages

namespace Stage

variable {m : Matcher} {value : String} {bs : List Matcher.Bounds}

theorem texts_of_pick {fs : List (Match (.ofString value))} {choice : GroupChoice}
    {text : Match (.ofString value) → String} (hrun : m.run (.ofString value) = ⟨fs, none⟩)
    (hpick : ∀ f ∈ fs, pick f choice = .ok (text f)) :
    Stage.texts ⟨m, choice⟩ value = .ok (fs.map text) := by
  have hpicked : fs.mapM (pick · choice) = .ok (fs.map text) := by
    clear hrun
    induction fs with
    | nil => rfl
    | cons f fs ih =>
      obtain ⟨hf, hfs⟩ := List.forall_mem_cons.mp hpick
      rw [List.mapM_cons, hf, ih hfs]
      rfl
  rw [texts, hrun]
  dsimp only [MatchRun.close]
  rw [hpicked]
  rfl

theorem texts_whole
    (h : ∃ fs, m.run (.ofString value) = ⟨fs, none⟩ ∧ fs.map Matcher.bounds = bs) :
    Stage.texts ⟨m, .whole⟩ value =
      .ok (bs.map fun b => (Subject.ofString value).slice b.1 b.2.1) := by
  obtain ⟨fs, hrun, rfl⟩ := h
  rw [texts_of_pick hrun fun f _ => rfl, Matcher.map_text]

theorem texts_index {n : Nat} (hn : ∀ b ∈ bs, n < b.2.2.length)
    (h : ∃ fs, m.run (.ofString value) = ⟨fs, none⟩ ∧ fs.map Matcher.bounds = bs) :
    Stage.texts ⟨m, .index (n + 1)⟩ value = .ok (bs.map fun b =>
      ((b.2.2[n]?).join.map (Subject.ofString value).sliceSpan).getD "") := by
  obtain ⟨fs, hrun, rfl⟩ := h
  have hpick : ∀ f ∈ fs, pick f (.index (n + 1)) =
      .ok (((f.groups[n]?).join.map (Subject.ofString value).sliceSpan).getD "") := by
    intro f hf
    have hcount : n < f.groupCount := hn _ (List.mem_map_of_mem hf)
    exact if_pos hcount
  rw [texts_of_pick hrun hpick, List.map_map]
  rfl

end Stage

end Patterns
