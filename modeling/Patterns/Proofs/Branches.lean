import Mathlib.Logic.Relation
import Patterns.Proofs.Threads

/-!
# Branches of a run

A run goes on with branches to which operations lead, so what operations keep holds of the branch
that is done (`exists_of_run`). A segment of a program is left at its end only; what holds between
its two ends is put together from the operations and the segments inside of it.
-/
namespace Patterns.Text.Subject

theorem le_of_skipBytes? {s : Subject} {i j n : Nat} (h : s.skipBytes? i n = some j) : i ≤ j := by
  fun_induction skipBytes? s i n with
  | case1 i => exact Nat.le_of_eq (Option.some.inj h)
  | case2 => cases h
  | case3 i n _ c _ _ ih => exact Nat.le_of_succ_le (ih h)
  | case4 => cases h

end Patterns.Text.Subject

namespace Patterns.Plain.Program
open Patterns.Text Relation

variable {p : Program} {s : Subject} {origin steps lo mid hi : Nat} {b c d : Branch} {st : State}

/-- The branches that are run next, or may come back later. -/
def Move.branches : Move → List Branch
  | .go b | .cut b _ => [b]
  | .choose b later => [b, later]
  | .failPast _ | .fail | .done => []

/-- An operation leads from a branch to another one. -/
def Leads (p : Program) (s : Subject) (origin : Nat) (b c : Branch) : Prop :=
  ∃ height, c ∈ (p.move s origin height b).branches

section Runs

variable {P : Branch → Prop} {stop : Nat} {registers : Slots}

theorem mem_of_mem_dropPast {op height : Nat} {stack : List Branch}
    (h : b ∈ (dropPast op stack height).1) : b ∈ stack := by
  induction stack generalizing height with
  | nil => exact h
  | cons c stack ih =>
    rw [dropPast] at h
    split at h
    · exact List.mem_cons_of_mem c h
    · exact List.mem_cons_of_mem c (ih h)

theorem eq_accept_of_move {height : Nat} (h : p.move s origin height b = .done) :
    p.ops[b.op]?.getD .accept = .accept := by
  rw [move] at h
  generalize p.ops[b.op]?.getD .accept = op at h
  cases op with
  | accept => rfl
  | _ =>
    dsimp only at h
    repeat' split at h
    all_goals cases h

theorem mem_of_back {budget height : Nat} {stack : List Branch}
    (h : State.back budget stack height = .inr st) :
    st.branch ∈ stack ∧ ∀ b ∈ st.stack, b ∈ stack := by
  cases stack with
  | nil => cases h
  | cons b stack =>
    cases budget with
    | zero => cases h
    | succ budget =>
      cases h
      exact ⟨List.mem_cons_self, fun c hc => List.mem_cons_of_mem b hc⟩

theorem back_ne_matched {budget height : Nat} {stack : List Branch} :
    State.back budget stack height ≠ .inl (.matched stop registers) := by
  cases stack with
  | nil => exact nofun
  | cons b stack => cases budget <;> exact nofun

/-- What operations keep is kept of all branches of a state. -/
theorem forall_of_step (closed : ∀ b c, P b → p.Leads s origin b c → P c) (hbranch : P st.branch)
    (hstack : ∀ b ∈ st.stack, P b) {st' : State} (h : p.step s origin st = .inr st') :
    P st'.branch ∧ ∀ b ∈ st'.stack, P b := by
  have hkept : ∀ c ∈ (p.move s origin st.height st.branch).branches, P c :=
    fun c hc => closed _ c hbranch ⟨_, hc⟩
  unfold step at h
  cases hmove : p.move s origin st.height st.branch with
  | go b =>
    rw [hmove] at h hkept
    cases h
    exact ⟨hkept b List.mem_cons_self, hstack⟩
  | choose b later =>
    rw [hmove] at h hkept
    dsimp only at h
    by_cases hroom : st.height + (if p.floating then 1 else 0) < maxBranches
    · rw [if_pos hroom] at h
      cases h
      exact ⟨hkept b List.mem_cons_self,
        List.forall_mem_cons.mpr ⟨hkept later (List.mem_cons_of_mem _ List.mem_cons_self), hstack⟩⟩
    · rw [if_neg hroom] at h
      cases h
  | cut b mark =>
    rw [hmove] at h hkept
    cases h
    exact ⟨hkept b List.mem_cons_self, fun c hc => hstack c (List.mem_of_mem_drop hc)⟩
  | failPast op =>
    rw [hmove] at h
    obtain ⟨hmem, hothers⟩ := mem_of_back h
    exact ⟨hstack _ (mem_of_mem_dropPast hmem),
      fun b hb => hstack b (mem_of_mem_dropPast (hothers b hb))⟩
  | fail =>
    rw [hmove] at h
    obtain ⟨hmem, hothers⟩ := mem_of_back h
    exact ⟨hstack _ hmem, fun b hb => hstack b (hothers b hb)⟩
  | done =>
    rw [hmove] at h
    cases h

theorem eq_of_step_matched (h : p.step s origin st = .inl (.matched stop registers)) :
    p.ops[st.branch.op]?.getD .accept = .accept ∧ st.branch.place = stop ∧
      st.branch.registers = registers := by
  unfold step at h
  split at h
  · cases h
  · by_cases hroom : st.height + (if p.floating then 1 else 0) < maxBranches
    · rw [if_pos hroom] at h
      cases h
    · rw [if_neg hroom] at h
      cases h
  · cases h
  · exact absurd h back_ne_matched
  · exact absurd h back_ne_matched
  · next hmove =>
    cases h
    exact ⟨eq_accept_of_move hmove, rfl, rfl⟩

/-- What operations keep holds of the branch that is done. -/
theorem exists_of_run (closed : ∀ b c, P b → p.Leads s origin b c → P c) (hbranch : P st.branch)
    (hstack : ∀ b ∈ st.stack, P b) (h : p.run s origin steps st = .matched stop registers) :
    ∃ b, P b ∧ p.ops[b.op]?.getD .accept = .accept ∧ b.place = stop ∧ b.registers = registers := by
  -- What is kept holds of the whole stack, since a run may come back to any branch of it.
  induction steps generalizing st with
  | zero => cases h
  | succ steps ih =>
    rw [run] at h
    split at h
    · next hstep =>
      subst h
      exact ⟨st.branch, hbranch, eq_of_step_matched hstep⟩
    · next hstep =>
      obtain ⟨hbranch', hstack'⟩ := forall_of_step closed hbranch hstack hstep
      exact ih hbranch' hstack' h

end Runs

section Operations

variable {op : Op} {r r' : Nat}

theorem register_put (b : Branch) (r r' : Nat) (v : Option Nat) :
    register (b.put r v) r' = if r = r' ∧ r < b.registers.size then v else register b r' := by
  rw [register, Branch.put, Array.getElem?_setIfInBounds]
  split
  · next heq =>
    split
    · next hlt => rw [if_pos ⟨heq, hlt⟩, Option.join_some]
    · next hlt =>
      rw [if_neg (fun h => hlt h.2), register, ← heq, Array.getElem?_eq_none (Nat.not_lt.mp hlt)]
  · next hne => rw [if_neg (fun h => hne h.1), register]

theorem register_put_of_ne {v : Option Nat} (h : r' ≠ r) :
    register (b.put r v) r' = register b r' := by
  rw [register_put, if_neg fun h' => h h'.1.symm]

theorem eq_of_register_put {v : Option Nat} {i : Nat} (h : register (b.put r v) r = some i) :
    v = some i := by
  rw [register_put] at h
  split at h
  · exact h
  · next hsize =>
    rw [register, Array.getElem?_eq_none (by simpa using hsize)] at h
    cases h

/-- The slots of some groups. -/
def slotsOf (groups : List Nat) : List Nat := groups.flatMap fun g => [2 * g, 2 * g + 1]

theorem op_putGroups (b : Branch) (slots : Slots) (groups : List Nat) :
    (b.putGroups slots groups).op = b.op := by
  induction groups generalizing b with
  | nil => rfl
  | cons g gs ih => exact ih _

theorem place_putGroups (b : Branch) (slots : Slots) (groups : List Nat) :
    (b.putGroups slots groups).place = b.place := by
  induction groups generalizing b with
  | nil => rfl
  | cons g gs ih => exact ih _

theorem register_putGroups {slots : Slots} {groups : List Nat} (h : r ∉ slotsOf groups) :
    register (b.putGroups slots groups) r = register b r := by
  induction groups generalizing b with
  | nil => rfl
  | cons g gs ih =>
    simp only [slotsOf, List.flatMap_cons, List.cons_append, List.nil_append, List.mem_cons,
      not_or] at h
    rw [Branch.putGroups, ih h.2.2, register_put_of_ne h.2.1, register_put_of_ne h.1]

end Operations

end Patterns.Plain.Program

namespace Patterns.Plain.Op
open Program

/-- Where a run can go on behind the operation at `k`. -/
def targets (k : Nat) : Op → List Nat
  | .jump target => [target]
  | .split first second => [first, second]
  | .round _ _ _ exit _ | .progress _ _ exit _ _ => [k + 1, exit]
  | .failLook | .accept => []
  | _ => [k + 1]

/-- The registers that an operation writes. -/
def writes : Op → List Nat
  | .save r | .zero r => [r]
  | .round _ _ _ _ counter => [counter]
  | .progress _ _ _ counter last => [counter, last]
  | .embed _ groups | .embedBehind _ _ groups => slotsOf groups
  | _ => []

/-- An operation that does not go back in the text. -/
def Advances : Op → Prop
  | .restore _ | .stepBack _ => False
  | .embed a _ => a.backwards = false
  | _ => True

/-- What an operation does to a branch. -/
structure Moves (op : Op) (b c : Branch) : Prop where
  op_mem : c.op ∈ op.targets b.op
  register_eq : ∀ r ∉ op.writes, register c r = register b r
  place_le : op.Advances → b.place ≤ c.place

theorem moves_to {op : Op} {b : Branch} {k : Nat} (h : k ∈ op.targets b.op) :
    op.Moves b (b.to k) :=
  ⟨h, fun _ _ => rfl, fun _ => Nat.le_refl _⟩

/-- The operation writes a register before it goes on. -/
theorem Moves.of_put {op : Op} {b c : Branch} {r : Nat} {v : Option Nat}
    (h : op.Moves (b.put r v) c) (hr : r ∈ op.writes) : op.Moves b c where
  op_mem := h.op_mem
  register_eq r' hr' := by
    rw [h.register_eq r' hr', register_put_of_ne (ne_of_mem_of_not_mem hr hr').symm]
  place_le := h.place_le

/-- The operation writes the groups of a match before it goes on. -/
theorem moves_putGroups {op : Op} {b c : Branch} {slots : Slots} {groups : List Nat}
    (hop : c.op ∈ op.targets b.op) (hwrites : op.writes = slotsOf groups)
    (hregisters : c.registers = b.registers)
    (hplace : op.Advances → b.place ≤ c.place) : op.Moves b (c.putGroups slots groups) where
  op_mem := by rwa [op_putGroups]
  register_eq r hr := by
    rw [register_putGroups (hwrites ▸ hr), register, hregisters, register]
  place_le := by rwa [place_putGroups]

end Patterns.Plain.Op

namespace Patterns.Plain.Program
open Patterns.Text Relation

section Inversion

variable {p : Program} {s : Subject} {origin : Nat} {op : Op} {b c : Branch}

theorem le_of_repeatedText? {anyCase : Bool} {start stop i j : Nat}
    (h : repeatedText? s anyCase start stop i = some j) : i ≤ j := by
  unfold repeatedText? at h
  dsimp only at h
  split at h
  · cases h
    exact Nat.le_add_right _ _
  · split at h
    · exact Subject.le_of_skipBytes? (Option.filter_eq_some_iff.mp h).1
    · cases h

theorem eq_of_leads_save {r : Nat} (hop : p.ops[b.op]? = some (.save r))
    (h : p.Leads s origin b c) : c = b.next.put r (some b.place) := by
  obtain ⟨height, h⟩ := h
  rw [move, hop, Option.getD_some] at h
  exact List.mem_singleton.mp h

theorem eq_of_leads_restore {r : Nat} (hop : p.ops[b.op]? = some (.restore r))
    (h : p.Leads s origin b c) : ∃ i, register b r = some i ∧ c = { b.next with place := i } := by
  obtain ⟨height, h⟩ := h
  rw [move, hop, Option.getD_some] at h
  dsimp only at h
  split at h
  · next i hi => exact ⟨i, hi, List.mem_singleton.mp h⟩
  · exact absurd h List.not_mem_nil

theorem eq_of_leads_embed {a : Automaton} {groups : List Nat}
    (hop : p.ops[b.op]? = some (.embed a groups)) (h : p.Leads s origin b c) :
    ∃ stop slots, a.match? s p.groups b.place (s.size - b.place) = some (stop, slots) ∧
      c = { b.next with place := stop }.putGroups slots groups := by
  obtain ⟨height, h⟩ := h
  rw [move, hop, Option.getD_some] at h
  dsimp only at h
  split at h
  · next stop slots hmatch => exact ⟨stop, slots, hmatch, List.mem_singleton.mp h⟩
  · exact absurd h List.not_mem_nil

/-- A round is counted, unless enough of them have been counted. -/
theorem eq_of_leads_round {least : Nat} {most : Option Nat} {greedy : Bool} {exit counter : Nat}
    (hop : p.ops[b.op]? = some (.round least most greedy exit counter))
    (h : p.Leads s origin b c) :
    c = b.to exit ∨ ∃ n, c = (b.put counter (some n)).next ∨
      c = (b.put counter (some n)).to exit := by
  obtain ⟨height, h⟩ := h
  rw [move, hop, Option.getD_some] at h
  dsimp only at h
  split at h
  · exact .inl (List.mem_singleton.mp h)
  · refine .inr ⟨(register b counter).getD 0 + 1, ?_⟩
    split at h
    · exact .inl (List.mem_singleton.mp h)
    · split at h <;> simpa [Move.branches, or_comm] using h

/-- A round that need not be made is counted with the place where it starts. -/
theorem eq_of_leads_progress {least : Nat} {greedy : Bool} {exit counter last : Nat}
    (hop : p.ops[b.op]? = some (.progress least greedy exit counter last))
    (h : p.Leads s origin b c) :
    c = b.to exit ∨ ∃ n, c = (b.put counter (some n)).next ∨
      c = ((b.put counter (some n)).put last (some b.place)).next ∨
      c = ((b.put counter (some n)).put last (some b.place)).to exit := by
  obtain ⟨height, h⟩ := h
  rw [move, hop, Option.getD_some] at h
  dsimp only at h
  split at h
  · exact .inl (List.mem_singleton.mp h)
  · refine .inr ⟨(register b counter).getD 0 + 1, ?_⟩
    split at h
    · exact .inl (List.mem_singleton.mp h)
    · refine .inr ?_
      split at h <;> simpa [Move.branches, Branch.put, or_comm] using h

theorem moves_of_leads (hop : p.ops[b.op]? = some op) (leads : p.Leads s origin b c) :
    op.Moves b c := by
  have ⟨height, h⟩ := leads
  rw [move, hop, Option.getD_some] at h
  cases op with
  | eat set =>
    dsimp only at h
    split at h
    · split at h
      · obtain rfl := List.mem_singleton.mp h
        exact ⟨List.mem_singleton_self _, fun _ _ => rfl, fun _ => Nat.le_succ _⟩
      · exact absurd h List.not_mem_nil
    · exact absurd h List.not_mem_nil
  | check | groupTest | searchStart =>
    dsimp only at h
    split at h
    · obtain rfl := List.mem_singleton.mp h
      exact Op.moves_to (List.mem_singleton_self _)
    · exact absurd h List.not_mem_nil
  | jump target =>
    obtain rfl := List.mem_singleton.mp h
    exact Op.moves_to (List.mem_singleton_self _)
  | split first second =>
    have hc : c = b.to first ∨ c = b.to second := by simpa [Move.branches] using h
    rcases hc with rfl | rfl
    · exact Op.moves_to List.mem_cons_self
    · exact Op.moves_to (List.mem_cons_of_mem _ List.mem_cons_self)
  | save r | zero r =>
    obtain rfl := List.mem_singleton.mp h
    exact (Op.moves_to (List.mem_singleton_self _)).of_put (List.mem_singleton_self _)
  | restore r =>
    obtain ⟨i, -, rfl⟩ := eq_of_leads_restore hop leads
    exact ⟨List.mem_singleton_self _, fun _ _ => rfl, False.elim⟩
  | round least most greedy exit counter =>
    rcases eq_of_leads_round hop leads with rfl | ⟨n, rfl | rfl⟩
    · exact Op.moves_to (List.mem_cons_of_mem _ List.mem_cons_self)
    · exact (Op.moves_to List.mem_cons_self).of_put List.mem_cons_self
    · exact (Op.moves_to (List.mem_cons_of_mem _ List.mem_cons_self)).of_put List.mem_cons_self
  | progress least greedy exit counter last =>
    have hlast : last ∈ [counter, last] := List.mem_cons_of_mem _ List.mem_cons_self
    rcases eq_of_leads_progress hop leads with rfl | ⟨n, rfl | rfl | rfl⟩
    · exact Op.moves_to (List.mem_cons_of_mem _ List.mem_cons_self)
    · exact (Op.moves_to List.mem_cons_self).of_put List.mem_cons_self
    · exact ((Op.moves_to List.mem_cons_self).of_put hlast).of_put List.mem_cons_self
    · exact ((Op.moves_to (List.mem_cons_of_mem _ List.mem_cons_self)).of_put hlast).of_put
        List.mem_cons_self
  | stepBack n =>
    dsimp only at h
    split at h
    · obtain rfl := List.mem_singleton.mp h
      exact ⟨List.mem_singleton_self _, fun _ _ => rfl, False.elim⟩
    · exact absurd h List.not_mem_nil
  | backref slot anyCase =>
    dsimp only at h
    split at h
    · split at h
      · next htext =>
        obtain rfl := List.mem_singleton.mp h
        exact ⟨List.mem_singleton_self _, fun _ _ => rfl, fun _ => le_of_repeatedText? htext⟩
      · exact absurd h List.not_mem_nil
    · exact absurd h List.not_mem_nil
  | beginAtomic =>
    obtain rfl := List.mem_singleton.mp h
    exact ⟨List.mem_singleton_self _, fun _ _ => rfl, fun _ => Nat.le_refl _⟩
  | endAtomic =>
    dsimp only at h
    split at h <;> obtain rfl := List.mem_singleton.mp h <;>
      exact ⟨List.mem_singleton_self _, fun _ _ => rfl, fun _ => Nat.le_refl _⟩
  | failLook | accept => exact absurd h List.not_mem_nil
  | embed a groups =>
    obtain ⟨stop, slots, hmatch, rfl⟩ := eq_of_leads_embed hop leads
    exact Op.moves_putGroups (List.mem_singleton_self _) rfl rfl fun forwards =>
      Automaton.le_of_match? forwards hmatch
  | embedBehind back front groups =>
    dsimp only at h
    split at h
    · exact absurd h List.not_mem_nil
    · split at h
      · obtain rfl := List.mem_singleton.mp h
        exact Op.moves_putGroups (List.mem_singleton_self _) rfl rfl fun _ => Nat.le_refl _
      · exact absurd h List.not_mem_nil

end Inversion

variable {p : Program} {s : Subject} {origin steps lo mid hi : Nat} {b c d : Branch} {st : State}

section Segments

variable {Post Post' : Branch → Branch → Prop}

/-- One branch leads to the other by operations from `lo` on and before `hi`. -/
def Within (p : Program) (s : Subject) (origin lo hi : Nat) : Branch → Branch → Prop :=
  ReflTransGen fun b c => (lo ≤ b.op ∧ b.op < hi) ∧ p.Leads s origin b c

/-- Entered at `lo`, a run stays before `hi` and does not end there, or leaves with `Exit`. -/
def Block (p : Program) (s : Subject) (origin lo hi : Nat) (Exit : Branch → Branch → Prop) : Prop :=
  ∀ b c, b.op = lo → p.Within s origin lo hi b c →
    ((lo ≤ c.op ∧ c.op < hi) ∧ p.ops[c.op]?.getD .accept ≠ .accept) ∨
      (¬(lo ≤ c.op ∧ c.op < hi) ∧ Exit b c)

/-- A segment is left at its end. -/
def Segment (p : Program) (s : Subject) (origin lo hi : Nat) (Post : Branch → Branch → Prop) :
    Prop :=
  p.Block s origin lo hi fun b c => c.op = hi ∧ Post b c

theorem Block.mono {Exit Exit' : Branch → Branch → Prop} (h : p.Block s origin lo hi Exit)
    (himp : ∀ b c, b.op = lo → Exit b c → Exit' b c) : p.Block s origin lo hi Exit' :=
  fun b c hb hc => (h b c hb hc).imp_right (And.imp_right (himp b c hb))

theorem Segment.mono (h : p.Segment s origin lo hi Post)
    (himp : ∀ b c, Post b c → Post' b c) : p.Segment s origin lo hi Post' :=
  Block.mono h fun b c _ => And.imp_right (himp b c)

/-- An operation that is left at once. -/
theorem block_of_leads {Exit : Branch → Branch → Prop} {op : Op} (hop : p.ops[lo]? = some op)
    (hne : op ≠ .accept) (leads : ∀ b c, b.op = lo → p.Leads s origin b c → c.op ≠ lo ∧ Exit b c) :
    p.Block s origin lo (lo + 1) Exit := by
  intro b c hb hc
  have hat (c : Branch) : lo ≤ c.op ∧ c.op < lo + 1 ↔ c.op = lo := by omega
  have hexit : c = b ∨ c.op ≠ lo ∧ Exit b c := by
    induction hc with
    | refl => exact .inl rfl
    | tail _ hstep ih =>
      rcases ih with rfl | ⟨hleft, -⟩
      · exact .inr (leads _ _ hb hstep.2)
      · exact absurd ((hat _).mp hstep.1) hleft
  rw [hat]
  rcases hexit with rfl | hexit
  · exact .inl ⟨hb, by rw [hb, hop]; exact hne⟩
  · exact .inr hexit

/-- Blocks that lead from hub to hub up to `hi`. -/
theorem segment_of_hubs {hubs : List Nat} (hlo : lo ∈ hubs) (refl : ∀ b, Post b b)
    (trans : ∀ {b c d}, Post b c → Post c d → Post b d)
    (blocks : ∀ k ∈ hubs, lo ≤ k ∧ (k = hi ∨ ∃ k', k < k' ∧ k' ≤ hi ∧
      p.Block s origin k k' fun b c => c.op ∈ hubs ∧ Post b c)) :
    p.Segment s origin lo hi Post := by
  intro b c hb hc
  -- A run is at a hub, or inside of the block that it entered at the hub `z`.
  have hinside (c : Branch) (hc : p.Within s origin lo hi b c) :
      (c.op ∈ hubs ∧ Post b c) ∨ ∃ z k', lo ≤ z.op ∧ k' ≤ hi ∧ Post b z ∧
        p.Block s origin z.op k' (fun b c => c.op ∈ hubs ∧ Post b c) ∧
        p.Within s origin z.op k' z c ∧ (z.op ≤ c.op ∧ c.op < k') ∧
        p.ops[c.op]?.getD .accept ≠ .accept := by
    induction hc with
    | refl => exact .inl ⟨hb ▸ hlo, refl b⟩
    | @tail c d _ hstep ih =>
      obtain ⟨z, k', hz, hk', hpost, hblock, hwithin⟩ : ∃ z k', lo ≤ z.op ∧ k' ≤ hi ∧ Post b z ∧
          p.Block s origin z.op k' (fun b c => c.op ∈ hubs ∧ Post b c) ∧
          p.Within s origin z.op k' z d := by
        rcases ih with ⟨hhub, hpost⟩ | ⟨z, k', hz, hk', hpost, hblock, hwithin, hin, -⟩
        · obtain ⟨hlo, rfl | ⟨k', hlt, hk', hblock⟩⟩ := blocks c.op hhub
          · exact absurd hstep.1.2 (Nat.lt_irrefl _)
          · exact ⟨c, k', hlo, hk', hpost, hblock, .single ⟨⟨Nat.le_refl _, hlt⟩, hstep.2⟩⟩
        · exact ⟨z, k', hz, hk', hpost, hblock, hwithin.tail ⟨hin, hstep.2⟩⟩
      rcases hblock z d rfl hwithin with ⟨hin, hne⟩ | ⟨-, hhub, hpost'⟩
      · exact .inr ⟨z, k', hz, hk', hpost, hblock, hwithin, hin, hne⟩
      · exact .inl ⟨hhub, trans hpost hpost'⟩
  rcases hinside c hc with ⟨hhub, hpost⟩ | ⟨z, k', hz, hk', -, -, -, hin, hne⟩
  · obtain ⟨hlo, rfl | ⟨k', hlt, hk', hblock⟩⟩ := blocks c.op hhub
    · exact .inr ⟨by omega, rfl, hpost⟩
    · rcases hblock c c rfl .refl with ⟨-, hne⟩ | ⟨hout, -⟩
      · exact .inl ⟨⟨hlo, by omega⟩, hne⟩
      · exact absurd ⟨Nat.le_refl _, hlt⟩ hout
  · exact .inl ⟨⟨by omega, by omega⟩, hne⟩

theorem Segment.seq {Post'' : Branch → Branch → Prop} (h : p.Segment s origin lo mid Post)
    (h' : p.Segment s origin mid hi Post') (hlo : lo ≤ mid) (hhi : mid ≤ hi)
    (trans : ∀ {b c d}, Post b c → Post' c d → Post'' b d) : p.Segment s origin lo hi Post'' := by
  intro b c hb hc
  have hparts : p.Within s origin lo mid b c ∨
      ∃ z, z.op = mid ∧ Post b z ∧ p.Within s origin mid hi z c := by
    induction hc with
    | refl => exact .inl .refl
    | @tail c d _ hstep ih =>
      rcases ih with hwithin | ⟨z, hz, hpost, hwithin⟩
      · rcases h b c hb hwithin with ⟨hin, -⟩ | ⟨-, hmid, hpost⟩
        · exact .inl (hwithin.tail ⟨hin, hstep.2⟩)
        · exact .inr ⟨c, hmid, hpost, .single ⟨⟨Nat.le_of_eq hmid.symm, hstep.1.2⟩, hstep.2⟩⟩
      · rcases h' z c hz hwithin with ⟨hin, -⟩ | ⟨hout, rfl, -⟩
        · exact .inr ⟨z, hz, hpost, hwithin.tail ⟨hin, hstep.2⟩⟩
        · exact absurd hstep.1.2 (Nat.lt_irrefl _)
  have hsecond (z : Branch) (hz : z.op = mid) (hpost : Post b z)
      (hwithin : p.Within s origin mid hi z c) :
      ((lo ≤ c.op ∧ c.op < hi) ∧ p.ops[c.op]?.getD .accept ≠ .accept) ∨
        (¬(lo ≤ c.op ∧ c.op < hi) ∧ c.op = hi ∧ Post'' b c) := by
    rcases h' z c hz hwithin with ⟨hin, hne⟩ | ⟨-, hend, hpost'⟩
    · exact .inl ⟨⟨by omega, hin.2⟩, hne⟩
    · exact .inr ⟨by omega, hend, trans hpost hpost'⟩
  rcases hparts with hwithin | ⟨z, hz, hpost, hwithin⟩
  · rcases h b c hb hwithin with ⟨hin, hne⟩ | ⟨-, hmid, hpost⟩
    · exact .inl ⟨⟨hin.1, by omega⟩, hne⟩
    · exact hsecond c hmid hpost .refl
  · exact hsecond z hz hpost hwithin

end Segments

end Patterns.Plain.Program
