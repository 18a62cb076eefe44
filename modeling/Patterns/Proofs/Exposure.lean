import Patterns.Proofs.Layout

/-!
# Starts of matches

A program whose expression says at most once where the whole match starts, and at its front, finds
matches that start where they were tried and do not end before that (`start_of_match?`). A tame part
of the expression reads forwards and leaves the registers of the whole match alone.
-/
namespace Patterns.Plain.Program
open Patterns.Text

variable {s : Subject} {origin groups n n' : Nat} {b c : Branch}

section Expressions

variable {referenced : List Nat}

theorem builds_embedded (e : Expr) (h : e.Tame groups) :
    Builds s origin groups (Forward groups) (embedded e) := by
  unfold embedded
  split
  · exact builds_pure
  · exact builds_emit (by simp) (fun _ => rfl) (by simp [Op.writes]) trivial
  · exact builds_emit (by simp) (fun _ => rfl) (by simp [Op.writes]) trivial
  · exact builds_emit (by simp) (fun _ => rfl) (by simp [Op.writes]) trivial
  · refine builds_lift fun a ha => ?_
    obtain rfl := Automaton.eq_of_ofExpr? ha
    exact builds_emit (by simp) (fun _ => rfl)
      (fun r hr => not_isKept_of_slotsOf (Expr.groups_of_tame e h) hr) rfl

theorem builds_embeddedAll (es : List Expr) (h : ∀ e ∈ es, e.Tame groups) :
    Builds s origin groups (Forward groups) (embeddedAll es) := by
  unfold embeddedAll
  split
  · exact builds_pure
  · exact builds_embedded _ (Expr.tame_ofList h)

mutual

theorem builds_build (e : Expr) (h : e.Tame groups) (retried : Bool) :
    Builds s origin groups (Forward groups) (build referenced e retried) := by
  rw [build.eq_def]
  split
  · exact builds_embedded e h
  · cases e with
    | empty => exact builds_pure
    | char => exact builds_embedded _ h
    | set => exact builds_embedded _ h
    | assertion => exact builds_embedded _ h
    | concat es =>
      have hes := Expr.tame_concat.mp h
      exact (builds_embeddedAll _ fun e he => hes e (List.mem_of_mem_take he)).seq
        ((builds_buildSome es hes _ _).seq
          (builds_embeddedAll _ fun e he => hes e (List.mem_of_mem_drop he)))
    | alt es => exact builds_buildAny es (Expr.tame_alt.mp h) retried
    | group i e =>
      obtain ⟨hi, h⟩ := Expr.tame_group.mp h
      have hslot {r : Nat} (hr : r = 2 * i ∨ r = 2 * i + 1) :
          Builds s origin groups (Forward groups) (emit (.save r)) := by
        refine builds_emit nofun (fun _ => rfl) (fun r' hr' n => ?_) trivial
        rw [List.mem_singleton.mp hr']
        rintro (h | h) <;> omega
      exact (hslot (.inl rfl)).seq ((builds_build e h retried).seq (hslot (.inr rfl)))
    | loop e least most greedy => exact builds_loop (builds_build e (Expr.tame_loop.mp h) _)
    | look behind negative e =>
      have he := Expr.tame_look.mp h
      cases behind with
      | false => exact builds_around negative (builds_build e he false).keeps
      | true =>
        have hbody := builds_build e he false
        have hgroups := Expr.groups_of_tame e he
        cases e with
        | alt es =>
          have hes := Expr.tame_alt.mp he
          dsimp only
          split
          · exact builds_around negative
              (builds_backwards hgroups (builds_buildAny es hes false))
          · exact builds_buildBehind negative es hes
        | _ => exact builds_around negative (builds_backwards hgroups hbody)
    | atomic e =>
      exact builds_beginAtomic.seq
        ((builds_build e (Expr.tame_atomic.mp h) false).seq builds_endAtomic)
    | backref => exact builds_emit nofun (fun _ => rfl) (by simp [Op.writes]) trivial
    | resetStart => exact absurd h Expr.not_tame_resetStart
    | searchStart => exact builds_emit nofun (fun _ => rfl) (by simp [Op.writes]) trivial
    | groupTest => exact builds_emit nofun (fun _ => rfl) (by simp [Op.writes]) trivial
    | cond test yes no =>
      obtain ⟨htest, hyes, hno⟩ := Expr.tame_cond.mp h
      exact builds_condition (builds_build test htest retried) (builds_build yes hyes retried)
        (builds_build no hno retried)

theorem builds_buildSome (es : List Expr) (h : ∀ e ∈ es, e.Tame groups) (first count : Nat) :
    Builds s origin groups (Forward groups) (buildSome referenced es first count) := by
  match es, first, count with
  | [], _, _ => exact builds_pure
  | e :: es, first + 1, count =>
    exact builds_buildSome es (List.forall_mem_cons.mp h).2 first count
  | _ :: _, 0, 0 => exact builds_pure
  | e :: es, 0, count + 1 =>
    obtain ⟨he, hes⟩ := List.forall_mem_cons.mp h
    exact (builds_build e he true).seq (builds_buildSome es hes 0 count)

theorem builds_buildAny (es : List Expr) (h : ∀ e ∈ es, e.Tame groups) (retried : Bool) :
    Builds s origin groups (Forward groups) (buildAny referenced es retried) := by
  match es with
  | [] => exact builds_failure
  | [e] => exact builds_build e (h e List.mem_cons_self) retried
  | e :: e' :: es =>
    obtain ⟨he, hes⟩ := List.forall_mem_cons.mp h
    exact builds_either (builds_build e he retried) (builds_buildAny (e' :: es) hes retried)

theorem builds_buildBehind (negative : Bool) (es : List Expr) (h : ∀ e ∈ es, e.Tame groups) :
    Builds s origin groups (Forward groups) (buildBehind referenced negative es) := by
  match es with
  | [] => exact builds_failure
  | [e] =>
    have he := h e List.mem_cons_self
    exact builds_around negative
      (builds_backwards (Expr.groups_of_tame e he) (builds_build e he false))
  | e :: e' :: es =>
    obtain ⟨he, hes⟩ := List.forall_mem_cons.mp h
    have hfirst : Builds s origin groups (Forward groups) (around negative
        (backwards (e.shape referenced) e (build referenced e false))) :=
      builds_around negative (builds_backwards (Expr.groups_of_tame e he) (builds_build e he false))
    have hothers := builds_buildBehind negative (e' :: es) hes
    rw [buildBehind.eq_def]
    cases negative with
    | true => exact hfirst.seq hothers
    | false => exact builds_either hfirst hothers

end

end Expressions

section Whole

variable {referenced : List Nat}

/-- The whole match starts where the part was entered, and does not end before that. -/
structure Exposes (b c : Branch) : Prop where
  place_le : b.place ≤ c.place
  start_eq : ∀ v, register c 0 = some v → v = b.place ∨ register b 0 = some v
  le_stop : ∀ v, register c 1 = some v → b.place ≤ v ∨ register b 1 = some v

theorem Forward.exposes (h : Forward groups n b c) : Exposes b c where
  place_le := h.place_le
  start_eq v hv := .inr (by rwa [← h.keeps 0 (.inl Nat.zero_lt_two)])
  le_stop v hv := .inr (by rwa [← h.keeps 1 (.inl Nat.one_lt_two)])

theorem Exposes.forward {d : Branch} (h : Exposes b c) (h' : Forward groups n c d) :
    Exposes b d where
  place_le := Nat.le_trans h.place_le h'.place_le
  start_eq v hv := h.start_eq v (by rwa [← h'.keeps 0 (.inl Nat.zero_lt_two)])
  le_stop v hv := h.le_stop v (by rwa [← h'.keeps 1 (.inl Nat.one_lt_two)])

theorem builds_op {op : Op} {Post : Branch → Branch → Prop} (hne : op ≠ .accept)
    (leads : ∀ (p : Program) (b c : Branch), p.ops[b.op]? = some op → p.Leads s origin b c →
      c.op = b.op + 1 ∧ Post b c) :
    Builds s origin groups (fun _ => Post) (emit op) := by
  rintro d _ ⟨⟩ -
  exact laid_op hne leads

/-- The whole match as a group of its own. -/
theorem builds_whole (e : Expr) (h : e.Tame groups) :
    Builds s origin groups (fun _ => Exposes) (build referenced (.group 0 e) true) := by
  have hstart : Builds s origin groups (fun _ b c => c.place = b.place ∧
      ∀ v, register c 0 = some v → v = b.place) (emit (.save 0)) := by
    refine builds_op nofun fun p b c hop hleads => ?_
    obtain rfl := eq_of_leads_save hop hleads
    exact ⟨rfl, rfl, fun v hv => (Option.some.inj (eq_of_register_put hv)).symm⟩
  have hstop : Builds s origin groups (fun _ b c => c.place = b.place ∧
      register c 0 = register b 0 ∧ ∀ v, register c 1 = some v → v = b.place)
      (emit (.save 1)) := by
    refine builds_op nofun fun p b c hop hleads => ?_
    obtain rfl := eq_of_leads_save hop hleads
    exact ⟨rfl, rfl, register_put_of_ne Nat.zero_ne_one,
      fun v hv => (Option.some.inj (eq_of_register_put hv)).symm⟩
  have hbody : Builds s origin groups (fun _ b c => b.place ≤ c.place ∧
      register c 0 = register b 0 ∧ ∀ v, register c 1 = some v → b.place ≤ v)
      (do build referenced e true; emit (.save 1)) :=
    (builds_build e h true).bind hstop fun _ h h' => ⟨h'.1 ▸ h.place_le,
      h'.2.1.trans (h.keeps 0 (.inl Nat.zero_lt_two)), fun v hv => h'.2.2 v hv ▸ h.place_le⟩
  have hwhole : Builds s origin groups (fun _ => Exposes)
      (do emit (.save 0); build referenced e true; emit (.save 1)) :=
    hstart.bind hbody fun _ h h' => ⟨h.1 ▸ h'.1, fun v hv => .inl (h.2 v (h'.2.1 ▸ hv)),
      fun v hv => .inl (h.1 ▸ h'.2.2 v hv)⟩
  rw [build.eq_def]
  exact hwhole

/-- The whole match as the first part that is left to an automaton. -/
theorem builds_embed_whole {a : Automaton} {gs : List Nat} (forwards : a.backwards = false)
    (opens : a.OpensOnce) (hgs : ∀ g ∈ gs, 1 ≤ g ∧ g ≤ groups) :
    Builds s origin groups (fun _ => Exposes) (emit (.embed a (0 :: gs))) := by
  refine builds_op nofun fun p b c hop hleads => ?_
  obtain ⟨stop, slots, hmatch, rfl⟩ := eq_of_leads_embed hop hleads
  obtain ⟨hzero, hslots⟩ := Automaton.slots_of_match? forwards opens hmatch
  have hkept (r : Nat) (hr : r < 2) : r ∉ slotsOf gs := fun hmem =>
    not_isKept_of_slotsOf hgs hmem 0 (.inl hr)
  refine ⟨op_putGroups _ _ _, ?_, fun v hv => .inl ?_, fun v hv => .inl ?_⟩
  · rw [place_putGroups]
    exact Automaton.le_of_match? forwards hmatch
  · rw [Branch.putGroups, register_putGroups (hkept 0 Nat.zero_lt_two),
      register_put_of_ne Nat.zero_ne_one] at hv
    exact hzero v (eq_of_register_put hv)
  · rw [Branch.putGroups, register_putGroups (hkept 1 Nat.one_lt_two)] at hv
    exact hslots 1 v (eq_of_register_put hv)

theorem builds_embedded_whole {e : Expr} {es : List Expr} (he : e.Tame groups)
    (hes : ∀ e ∈ es, e.Tame groups) :
    Builds s origin groups (fun _ => Exposes) (embedded (.concat (.group 0 e :: es))) := by
  refine builds_lift fun a ha => ?_
  obtain rfl := Automaton.eq_of_ofExpr? ha
  exact builds_embed_whole rfl (Automaton.opensOnce_ofExpr_group he hes)
    (List.forall_mem_append.mpr ⟨Expr.groups_of_tame e he, Expr.groupsIn_of_tame es hes⟩)

theorem builds_embeddedAll_whole {e : Expr} {es : List Expr} (he : e.Tame groups)
    (hes : ∀ e ∈ es, e.Tame groups) :
    Builds s origin groups (fun _ => Exposes) (embeddedAll (.group 0 e :: es)) := by
  cases es with
  | nil =>
    refine builds_lift fun a ha => ?_
    obtain rfl := Automaton.eq_of_ofExpr? ha
    exact builds_embed_whole rfl (Automaton.opensOnce_ofExpr_group he hes)
      (Expr.groups_of_tame e he)
  | cons => exact builds_embedded_whole he hes

theorem delegated_le (referenced : List Nat) (retried : Bool) (es : List Expr) :
    (delegated referenced retried es).2 ≤ es.length - (delegated referenced retried es).1 := by
  refine Nat.le_trans (List.takeWhile_sublist _).length_le ?_
  rw [List.length_reverse, List.length_drop]
  exact Nat.le_refl _

theorem builds_concat_whole {e : Expr} {es : List Expr} (he : e.Tame groups)
    (hes : ∀ e ∈ es, e.Tame groups) :
    Builds s origin groups (fun _ => Exposes)
      (build referenced (.concat (.group 0 e :: es)) false) := by
  have hforward (k : Nat) : Builds s origin groups (Forward groups) (embeddedAll (es.drop k)) :=
    builds_embeddedAll _ fun e he => hes e (List.mem_of_mem_drop he)
  rw [build.eq_def]
  split
  · exact builds_embedded_whole he hes
  · have hle := delegated_le referenced false (.group 0 e :: es)
    dsimp only at hle ⊢
    generalize delegated referenced false (.group 0 e :: es) = counts at hle ⊢
    obtain ⟨front, back⟩ := counts
    rw [List.length_cons] at hle ⊢
    cases front with
    | succ front =>
      have hsome : Builds s origin groups (Forward groups)
          (buildSome referenced es front (es.length + 1 - (front + 1) - back)) :=
        builds_buildSome es hes _ _
      have hlast : es.length + 1 - back = (es.length - back) + 1 := by omega
      rw [hlast]
      have hfirst : Builds s origin groups (fun _ => Exposes)
          (embeddedAll (.group 0 e :: es.take front)) :=
        builds_embeddedAll_whole he fun e he => hes e (List.mem_of_mem_take he)
      exact hfirst.bind (hsome.seq (hforward _)) fun _ h h' => h.forward h'
    | zero =>
      cases hcount : es.length + 1 - 0 - back with
      | zero => exact builds_embeddedAll_whole he hes
      | succ count =>
        have hfirst : Builds s origin groups (fun _ => Exposes)
          (buildSome referenced (.group 0 e :: es) 0 (count + 1)) :=
          (builds_whole e he).bind (builds_buildSome es hes 0 count) fun _ h h' => h.forward h'
        exact hfirst.bind (hforward count) fun _ h h' => h.forward h'

end Whole

section Matches

variable {referenced : List Nat} {budget i stop : Nat} {slots : Slots} {p : Program}

theorem builds_startsOnce {e : Expr} (h : e.StartsOnce groups) :
    Builds s origin groups (fun _ => Exposes) (build referenced e false) := by
  obtain h | ⟨whole, others, rfl, hwhole, hothers⟩ := h
  · exact fun d d' hrun hregisters =>
      (builds_build e h false hrun hregisters).mono fun _ _ h => h.exposes
  · exact builds_concat_whole hwhole hothers

/-- A match ends where it was tried, or behind that. Where its bounds are told, it starts there. -/
theorem start_of_match? {e : Expr} (h : e.StartsOnce groups)
    (hprogram : ofExpr? referenced groups e = some p)
    (hmatch : p.match? s origin budget i = .matched stop slots) :
    i ≤ stop ∧ (∀ v, (slots[0]?).join = some v → v = i) ∧
      ∀ v, (slots[1]?).join = some v → i ≤ v := by
  simp only [ofExpr?, StateT.run_bind, run_emit, Option.bind_eq_bind,
    Option.bind_some, Option.bind_eq_some_iff] at hprogram
  obtain ⟨⟨⟨⟩, d⟩, ⟨⟨⟨⟩, d₁⟩, hrun, ⟨⟩⟩, ⟨⟩⟩ := hprogram
  have hsave : Laid s origin ⟨#[], 2 * (groups + 1)⟩ ⟨#[.save 0], 2 * (groups + 1)⟩
      fun b c => c = b.next.put 0 (some b.place) :=
    laid_op nofun fun p b c hop hleads => by
      obtain rfl := eq_of_leads_save hop hleads
      exact ⟨rfl, rfl⟩
  have hlaid : Laid s origin ⟨#[], 2 * (groups + 1)⟩ d₁
      fun b c => Exposes (b.next.put 0 (some b.place)) c :=
    hsave.seq (builds_startsOnce h hrun (Nat.le_refl _)) fun hsave hexposes => hsave ▸ hexposes
  let p : Program := ⟨d₁.ops.push .accept, groups, d₁.registers, !startsAtSearch e⟩
  have haccept : p.ops[d₁.ops.size]? = some .accept := Array.getElem?_push_size
  have hsegment := hlaid.segment p fun k _ hk => by
    rw [show p.ops = d₁.ops.push .accept from rfl, Array.getElem?_push_lt hk,
      Array.getElem?_eq_getElem hk]
  let start : Branch := ⟨0, i, Array.replicate p.registers none, []⟩
  -- Nothing leads on from the end, so a run never leaves what was laid.
  have closed (b c : Branch) (hb : p.Within s origin 0 d₁.ops.size start b)
      (hleads : p.Leads s origin b c) : p.Within s origin 0 d₁.ops.size start c := by
    rcases hsegment start b rfl hb with ⟨hin, -⟩ | ⟨-, hend, -⟩
    · exact hb.tail ⟨hin, hleads⟩
    · exact absurd (moves_of_leads (hend.symm ▸ haccept) hleads).op_mem List.not_mem_nil
  have hmatched : p.run s origin maxSteps ⟨start, [], 0, budget⟩ = .matched stop slots := hmatch
  obtain ⟨b, hb, hdone, rfl, rfl⟩ :=
    exists_of_run closed (by exact .refl) (by simp) hmatched
  obtain ⟨hle, hstart, hstop⟩ : Exposes (start.next.put 0 (some start.place)) b := by
    rcases hsegment start b rfl hb with ⟨-, hne⟩ | ⟨-, -, hexposes⟩
    · exact absurd hdone hne
    · exact hexposes
  have hempty (v : Nat) : register (start.next.put 0 (some start.place)) 1 ≠ some v := by
    rw [register_put_of_ne Nat.one_ne_zero]
    change ((Array.replicate p.registers (none : Option Nat))[1]?).join ≠ some v
    rw [Array.getElem?_replicate]
    split <;> simp
  refine ⟨hle, fun v hv => ?_, fun v hv => (hstop v hv).resolve_right (hempty v)⟩
  rcases hstart v hv with hv | hv
  · exact hv
  · exact (Option.some.inj (eq_of_register_put hv)).symm

end Matches

end Patterns.Plain.Program
