import Patterns.Proofs.Branches

/-!
# Layout of programs

What a builder adds to a draft is a segment of every program that has the added operations. Parts
that read the text forwards are put together to parts that do so, whatever their operations repeat,
skip or try again; a look around reads from a place that it keeps in a register of its own.
-/
namespace Patterns.Plain.Program
open Patterns.Text

variable {s : Subject} {origin groups n n' : Nat} {b c : Branch}

/-- The registers of the whole match, and those that are in use before `n`, the slots of groups
aside. -/
def IsKept (groups n r : Nat) : Prop := r < 2 ∨ 2 * groups + 2 ≤ r ∧ r < n

/-- Kept registers are as they were. -/
def Keeps (groups n : Nat) (b c : Branch) : Prop :=
  ∀ r, IsKept groups n r → register c r = register b r

/-- The text was read forwards. -/
structure Forward (groups n : Nat) (b c : Branch) : Prop where
  keeps : Keeps groups n b c
  place_le : b.place ≤ c.place

theorem IsKept.mono {r : Nat} (h : IsKept groups n r) (hn : n ≤ n') : IsKept groups n' r :=
  h.imp_right fun h => ⟨h.1, Nat.lt_of_lt_of_le h.2 hn⟩

theorem not_isKept {r : Nat} (hn : n ≤ r) (hregisters : 2 * groups + 2 ≤ n) :
    ¬IsKept groups n r := by
  rintro (h | h) <;> omega

theorem Forward.refl (b : Branch) : Forward groups n b b := ⟨fun _ _ => rfl, Nat.le_refl _⟩

theorem Forward.trans {d : Branch} (h : Forward groups n b c) (h' : Forward groups n c d) :
    Forward groups n b d :=
  ⟨fun r hr => (h'.keeps r hr).trans (h.keeps r hr), Nat.le_trans h.place_le h'.place_le⟩

theorem Forward.mono (h : Forward groups n' b c) (hn : n ≤ n') : Forward groups n b c :=
  ⟨fun r hr => h.keeps r (hr.mono hn), h.place_le⟩

/-- Operations were added, and what they do from their start to their end. -/
structure Laid (s : Subject) (origin : Nat) (d d' : Draft) (Post : Branch → Branch → Prop) :
    Prop where
  size_le : d.ops.size ≤ d'.ops.size
  registers_le : d.registers ≤ d'.registers
  ops_eq : ∀ k < d.ops.size, d'.ops[k]? = d.ops[k]?
  segment : ∀ p : Program, (∀ k, d.ops.size ≤ k → k < d'.ops.size → p.ops[k]? = d'.ops[k]?) →
    p.Segment s origin d.ops.size d'.ops.size Post

/-- Whenever `body` succeeds, it adds operations that do what `Post` says of the registers that were
in use. -/
def Builds (s : Subject) (origin groups : Nat) (Post : Nat → Branch → Branch → Prop)
    (body : Builder Unit) : Prop :=
  ∀ ⦃d d'⦄, body.run d = some ((), d') → 2 * groups + 2 ≤ d.registers →
    Laid s origin d d' (Post d.registers)

section Hubs

variable {p : Program} {hubs : List Nat} {lo hi k k' : Nat} {op : Op}
  {Post : Branch → Branch → Prop}

/-- A run that is at the hub `k` goes on to other hubs up to `hi`. -/
def IsHub (p : Program) (s : Subject) (origin lo hi : Nat) (hubs : List Nat)
    (Post : Branch → Branch → Prop) (k : Nat) : Prop :=
  lo ≤ k ∧ (k = hi ∨ ∃ k', k < k' ∧ k' ≤ hi ∧
    p.Block s origin k k' fun b c => c.op ∈ hubs ∧ Post b c)

theorem isHub_stop (h : lo ≤ hi) : p.IsHub s origin lo hi hubs Post hi := ⟨h, .inl rfl⟩

theorem isHub_of_segment (h : p.Segment s origin k k' Post) (hlo : lo ≤ k) (hk : k ≤ k')
    (mem : k' ∈ hubs) (next : k' ≤ hi ∧ p.IsHub s origin lo hi hubs Post k') :
    p.IsHub s origin lo hi hubs Post k := by
  rcases Nat.eq_or_lt_of_le hk with rfl | hlt
  · exact next.2
  · exact ⟨hlo, .inr ⟨k', hlt, next.1, Block.mono h fun b c _ hexit => ⟨hexit.1 ▸ mem, hexit.2⟩⟩⟩

theorem isHub_of_op (hop : p.ops[k]? = some op) (hne : op ≠ .accept) (hlo : lo ≤ k) (hhi : k < hi)
    (targets : ∀ t ∈ op.targets k, t ∈ hubs) (writes : ∀ r ∈ op.writes, ¬IsKept groups n r)
    (advances : op.Advances) : p.IsHub s origin lo hi hubs (Forward groups n) k := by
  refine ⟨hlo, .inr ⟨k + 1, Nat.lt_succ_self k, hhi, fun b c hb hc => ?_⟩⟩
  have hreached : (c.op = k ∨ c.op ∈ hubs) ∧ Forward groups n b c := by
    induction hc with
    | refl => exact ⟨.inl hb, .refl b⟩
    | @tail c e _ hstep ih =>
      have hk : c.op = k := Nat.le_antisymm (Nat.le_of_lt_succ hstep.1.2) hstep.1.1
      have hmoves := moves_of_leads (hk.symm ▸ hop) hstep.2
      have hforward : Forward groups n c e :=
        ⟨fun r hr => hmoves.register_eq r fun hw => writes r hw hr, hmoves.place_le advances⟩
      exact ⟨.inr (targets _ (hk ▸ hmoves.op_mem)), ih.2.trans hforward⟩
  by_cases hk : c.op = k
  · exact .inl ⟨by omega, by rw [hk, hop]; exact hne⟩
  · exact .inr ⟨by omega, hreached.1.resolve_left hk, hreached.2⟩

theorem segment_of_isHub (hubs : List Nat) (hlo : lo ∈ hubs)
    (h : ∀ k ∈ hubs, p.IsHub s origin lo hi hubs (Forward groups n) k) :
    p.Segment s origin lo hi (Forward groups n) :=
  segment_of_hubs hlo Forward.refl Forward.trans h

end Hubs

section Drafts

variable {d d₁ d' : Draft} {op : Op}

theorem laid_refl : Laid s origin d d (Forward groups n) where
  size_le := Nat.le_refl _
  registers_le := Nat.le_refl _
  ops_eq _ _ := rfl
  segment p _ := by
    refine segment_of_isHub [d.ops.size] List.mem_cons_self (List.forall_mem_singleton.mpr ?_)
    exact isHub_stop (Nat.le_refl _)

theorem Laid.seq {Post Post' Post'' : Branch → Branch → Prop} (h : Laid s origin d d₁ Post)
    (h' : Laid s origin d₁ d' Post') (trans : ∀ {b c e}, Post b c → Post' c e → Post'' b e) :
    Laid s origin d d' Post'' where
  size_le := Nat.le_trans h.size_le h'.size_le
  registers_le := Nat.le_trans h.registers_le h'.registers_le
  ops_eq k hk := (h'.ops_eq k (Nat.lt_of_lt_of_le hk h.size_le)).trans (h.ops_eq k hk)
  segment p hp := by
    refine (h.segment p fun k hle hlt => ?_).seq (h'.segment p fun k hle hlt => ?_) h.size_le
      h'.size_le trans
    · rw [hp k hle (Nat.lt_of_lt_of_le hlt h'.size_le), h'.ops_eq k hlt]
    · exact hp k (Nat.le_trans h.size_le hle) hlt

theorem Laid.mono {Post Post' : Branch → Branch → Prop} (h : Laid s origin d d' Post)
    (himp : ∀ b c, Post b c → Post' b c) : Laid s origin d d' Post' :=
  { h with segment := fun p hp => (h.segment p hp).mono himp }

/-- An operation that leads to the place behind it. -/
theorem laid_op {Post : Branch → Branch → Prop} (hne : op ≠ .accept)
    (leads : ∀ (p : Program) (b c : Branch), p.ops[b.op]? = some op → p.Leads s origin b c →
      c.op = b.op + 1 ∧ Post b c) :
    Laid s origin d ⟨d.ops.push op, d.registers⟩ Post where
  size_le := by simp
  registers_le := Nat.le_refl _
  ops_eq k hk := Array.getElem?_push_lt hk ▸ (Array.getElem?_eq_getElem hk).symm
  segment p hp := by
    have hop : p.ops[d.ops.size]? = some op := by
      rw [hp _ (Nat.le_refl _) (by simp), Array.getElem?_push_size]
    rw [Array.size_push]
    refine block_of_leads hop hne fun b c hb hleads => ?_
    obtain ⟨hc, hpost⟩ := leads p b c (hb.symm ▸ hop) hleads
    rw [hb] at hc
    exact ⟨hc ▸ Nat.succ_ne_self _, hc, hpost⟩

/-- An operation behind which a run goes on in the text. -/
theorem laid_emit (hne : op ≠ .accept) (targets : ∀ k, op.targets k = [k + 1])
    (writes : ∀ r ∈ op.writes, ¬IsKept groups n r) (advances : op.Advances) :
    Laid s origin d ⟨d.ops.push op, d.registers⟩ (Forward groups n) :=
  laid_op hne fun p b c hop hleads => by
    have hmoves := moves_of_leads hop hleads
    have hmem := hmoves.op_mem
    rw [targets, List.mem_singleton] at hmem
    exact ⟨hmem, fun r hr => hmoves.register_eq r fun hw => writes r hw hr,
      hmoves.place_le advances⟩

end Drafts

section Parts

variable {d d' : Draft} {body first others : Builder Unit} {greedy : Bool}

theorem run_here : here.run d = some (d.ops.size, d) := rfl

theorem run_emit {op : Op} : (emit op).run d = some ((), ⟨d.ops.push op, d.registers⟩) := rfl

theorem run_place {k : Nat} {op : Op} :
    (place k op).run d = some ((), ⟨d.ops.setIfInBounds k op, d.registers⟩) := rfl

theorem run_newRegister : newRegister.run d = some (d.registers, ⟨d.ops, d.registers + 1⟩) := rfl

theorem push_setIfInBounds {ops : Array Op} {k : Nat} {op op' : Op} (h : k < ops.size) :
    (ops.push op).setIfInBounds k op' = (ops.setIfInBounds k op').push op := by
  have h' : k < ops.size + 1 := Nat.lt_succ_of_lt h
  simp [Array.setIfInBounds, Array.set_push, h, h']

/-- `op` stands first, and `Post` is what stands behind it. -/
structure Opened (s : Subject) (origin : Nat) (d d' : Draft) (op : Op)
    (Post : Branch → Branch → Prop) : Prop where
  size_lt : d.ops.size < d'.ops.size
  registers_le : d.registers ≤ d'.registers
  ops_eq : ∀ k < d.ops.size, d'.ops[k]? = d.ops[k]?
  op_eq : d'.ops[d.ops.size]? = some op
  segment : ∀ p : Program, (∀ k, d.ops.size < k → k < d'.ops.size → p.ops[k]? = d'.ops[k]?) →
    p.Segment s origin (d.ops.size + 1) d'.ops.size Post

/-- Room was left for the first operation, which is put in its place later. -/
theorem Laid.opened {d₁ : Draft} {Post : Branch → Branch → Prop}
    (h : Laid s origin ⟨d.ops.push .accept, d.registers⟩ d₁ Post) (op : Op) :
    Opened s origin d ⟨d₁.ops.setIfInBounds d.ops.size op, d₁.registers⟩ op Post := by
  have hsize : d.ops.size < d₁.ops.size := by
    have hle := h.size_le
    rwa [Array.size_push] at hle
  refine ⟨by simpa using hsize, h.registers_le, fun k hk => ?_, ?_, fun p hp => ?_⟩
  · have hold := h.ops_eq k (by simpa using Nat.lt_succ_of_lt hk)
    rw [Array.getElem?_setIfInBounds_ne (Nat.ne_of_gt hk), hold, Array.getElem?_push_lt hk,
      Array.getElem?_eq_getElem hk]
  · exact Array.getElem?_setIfInBounds_self_of_lt hsize
  · simp only [Array.size_setIfInBounds] at hp ⊢
    have hsegment := h.segment p fun k hle hlt => by
      rw [Array.size_push] at hle
      rw [hp k hle hlt, Array.getElem?_setIfInBounds_ne (Nat.ne_of_lt hle)]
    rwa [Array.size_push] at hsegment

theorem Opened.laid {op : Op} {Post : Branch → Branch → Prop} (h : Opened s origin d d' op Post)
    {Post' : Branch → Branch → Prop}
    (segment : ∀ p : Program, p.ops[d.ops.size]? = some op →
      p.Segment s origin (d.ops.size + 1) d'.ops.size Post →
      p.Segment s origin d.ops.size d'.ops.size Post') : Laid s origin d d' Post' where
  size_le := Nat.le_of_lt h.size_lt
  registers_le := h.registers_le
  ops_eq := h.ops_eq
  segment p hp := segment p (by rw [hp _ (Nat.le_refl _) h.size_lt, h.op_eq])
    (h.segment p fun k hle hlt => hp k (Nat.le_of_lt hle) hlt)

/-- An operation that decides between the one behind it and an exit. -/
structure Decides (groups n start : Nat) (test : Nat → Op) : Prop where
  ne_accept : ∀ exit, test exit ≠ .accept
  targets : ∀ exit, ∀ t ∈ (test exit).targets start, t = start + 1 ∨ t = exit
  writes : ∀ exit, ∀ r ∈ (test exit).writes, ¬IsKept groups n r
  advances : ∀ exit, (test exit).Advances

theorem decides_splitOp (greedy : Bool) (start : Nat) :
    Decides groups n start (splitOp greedy (start + 1)) where
  ne_accept exit := by cases greedy <;> exact nofun
  targets exit := by cases greedy <;> simp [splitOp, Op.targets, or_comm]
  writes exit := by cases greedy <;> simp [splitOp, Op.writes]
  advances exit := by cases greedy <;> trivial

theorem segment_of_decides {p : Program} {test : Nat → Op} {lo hi : Nat}
    (decides : Decides groups n lo test) (htest : p.ops[lo]? = some (test hi))
    (h : p.Segment s origin (lo + 1) hi (Forward groups n)) (hlt : lo < hi) :
    p.Segment s origin lo hi (Forward groups n) := by
  let hubs := [lo, lo + 1, hi]
  have hstop : p.IsHub s origin lo hi hubs (Forward groups n) hi := isHub_stop (Nat.le_of_lt hlt)
  refine segment_of_isHub hubs List.mem_cons_self ?_
  simp only [hubs, List.forall_mem_cons, List.not_mem_nil, false_imp_iff, implies_true, and_true]
  refine ⟨isHub_of_op htest (decides.ne_accept _) (Nat.le_refl _) hlt (fun t ht => ?_)
    (decides.writes _) (decides.advances _), isHub_of_segment h (Nat.le_succ _) hlt (by simp)
    ⟨Nat.le_refl _, hstop⟩, hstop⟩
  rcases decides.targets _ t ht with rfl | rfl <;> simp

theorem builds_optional (hbody : Builds s origin groups (Forward groups) body) :
    Builds s origin groups (Forward groups) (optional greedy body) := by
  intro d d' h hregisters
  simp only [optional, StateT.run_bind, run_here, run_emit, run_place, Option.bind_eq_bind,
    Option.bind_some, Option.bind_eq_some_iff] at h
  obtain ⟨⟨⟨⟩, d₁⟩, hrun, ⟨⟩⟩ := h
  have hlaid : Laid s origin ⟨d.ops.push .accept, d.registers⟩ d₁ (Forward groups d.registers) :=
    hbody hrun hregisters
  have hopened := hlaid.opened (splitOp greedy (d.ops.size + 1) d₁.ops.size)
  have hlt := hopened.size_lt
  refine hopened.laid fun p hsplit hsegment => ?_
  rw [Array.size_setIfInBounds] at hlt hsegment ⊢
  exact segment_of_decides (decides_splitOp greedy _) hsplit hsegment hlt

theorem laid_either {e : Draft}
    (first : Opened s origin d e (.split (d.ops.size + 1) (e.ops.size + 1)) (Forward groups n))
    (others : Opened s origin e d' (.jump d'.ops.size) (Forward groups n)) :
    Laid s origin d d' (Forward groups n) := by
  have hsize := first.size_lt
  have hsize' := others.size_lt
  refine ⟨by omega, Nat.le_trans first.registers_le others.registers_le,
    fun k hk => (others.ops_eq k (Nat.lt_trans hk hsize)).trans (first.ops_eq k hk), fun p hp => ?_⟩
  have hsplit : p.ops[d.ops.size]? = some (.split (d.ops.size + 1) (e.ops.size + 1)) := by
    rw [hp _ (Nat.le_refl _) (by omega), others.ops_eq _ hsize, first.op_eq]
  have hjump : p.ops[e.ops.size]? = some (.jump d'.ops.size) := by
    rw [hp _ (Nat.le_of_lt hsize) hsize', others.op_eq]
  have hfirst := first.segment p fun k hle hlt => by
    rw [hp k (Nat.le_of_lt hle) (by omega), others.ops_eq k hlt]
  have hothers := others.segment p fun k hle hlt => hp k (by omega) hlt
  let hubs := [d.ops.size, d.ops.size + 1, e.ops.size, e.ops.size + 1, d'.ops.size]
  have hstop : p.IsHub s origin d.ops.size d'.ops.size hubs (Forward groups n) d'.ops.size :=
    isHub_stop (by omega)
  have hskip : p.IsHub s origin d.ops.size d'.ops.size hubs (Forward groups n) e.ops.size :=
    isHub_of_op hjump nofun (by omega) hsize' (by simp [Op.targets, hubs])
      (by simp [Op.writes]) trivial
  refine segment_of_isHub hubs List.mem_cons_self ?_
  simp only [hubs, List.forall_mem_cons, List.not_mem_nil, false_imp_iff, implies_true, and_true]
  refine ⟨isHub_of_op hsplit nofun (Nat.le_refl _) (by omega) ?_ (by simp [Op.writes]) trivial,
    isHub_of_segment hfirst (Nat.le_succ _) hsize (by simp) ⟨Nat.le_of_lt hsize', hskip⟩, hskip,
    isHub_of_segment hothers (by omega) hsize' (by simp) ⟨Nat.le_refl _, hstop⟩, hstop⟩
  simp [Op.targets]

/-- The first part, and behind a jump past them the others. -/
theorem builds_either (hfirst : Builds s origin groups (Forward groups) first)
    (hothers : Builds s origin groups (Forward groups) others) :
    Builds s origin groups (Forward groups) (either first others) := by
  intro d d' h hregisters
  simp only [either, StateT.run_bind, run_here, run_emit, run_place, Option.bind_eq_bind,
    Option.bind_some, Option.bind_eq_some_iff] at h
  obtain ⟨⟨⟨⟩, d₁⟩, hrun, ⟨⟨⟩, d₂⟩, hrun', ⟨⟩⟩ := h
  have hlaid : Laid s origin ⟨d.ops.push .accept, d.registers⟩ d₁ (Forward groups d.registers) :=
    hfirst hrun hregisters
  let e : Draft :=
    ⟨d₁.ops.setIfInBounds d.ops.size (.split (d.ops.size + 1) (d₁.ops.size + 1)), d₁.registers⟩
  have hsize : e.ops.size = d₁.ops.size := Array.size_setIfInBounds
  have hopened : Opened s origin d e (.split (d.ops.size + 1) (e.ops.size + 1))
      (Forward groups d.registers) := hsize ▸ hlaid.opened _
  have hlt : d.ops.size < d₁.ops.size := hsize ▸ hopened.size_lt
  -- Room for the jump is made before the split is put in its place; the order does not matter.
  have hrun'' : others.run ⟨e.ops.push .accept, e.registers⟩ = some ((), d₂) := by
    simpa only [Array.size_push, push_setIfInBounds hlt] using hrun'
  have hlaid' : Laid s origin ⟨e.ops.push .accept, e.registers⟩ d₂ (Forward groups d.registers) :=
    (hothers hrun'' (Nat.le_trans hregisters hlaid.registers_le)).mono fun _ _ h =>
      h.mono hlaid.registers_le
  have hopened' := hlaid'.opened (.jump d₂.ops.size)
  rw [hsize] at hopened'
  refine laid_either hopened ?_
  simpa using hopened'

theorem Opened.laid_push {e : Draft} {op last : Op} {Post Post' : Branch → Branch → Prop}
    (h : Opened s origin d e op Post)
    (segment : ∀ p : Program, p.ops[d.ops.size]? = some op →
      p.Segment s origin (d.ops.size + 1) e.ops.size Post → p.ops[e.ops.size]? = some last →
      p.Segment s origin d.ops.size (e.ops.size + 1) Post') :
    Laid s origin d ⟨e.ops.push last, e.registers⟩ Post' := by
  have hlt := h.size_lt
  have hold {k : Nat} (hk : k < e.ops.size) : (e.ops.push last)[k]? = e.ops[k]? := by
    rw [Array.getElem?_push_lt hk, Array.getElem?_eq_getElem hk]
  refine ⟨by simpa using Nat.le_succ_of_le (Nat.le_of_lt hlt), h.registers_le,
    fun k hk => (hold (Nat.lt_trans hk hlt)).trans (h.ops_eq k hk), fun p hp => ?_⟩
  simp only [Array.size_push] at hp ⊢
  refine segment p ?_ (h.segment p fun k hle hk => ?_) ?_
  · rw [hp _ (Nat.le_refl _) (by omega), hold hlt, h.op_eq]
  · rw [hp k (Nat.le_of_lt hle) (by omega), hold hk]
  · rw [hp _ (Nat.le_of_lt hlt) (Nat.lt_succ_self _), Array.getElem?_push_size]

theorem laid_rounds {e : Draft} {exit : Nat} {test : Nat → Op}
    (decides : Decides groups n d.ops.size test)
    (h : Opened s origin d e (test exit) (Forward groups n)) (hexit : exit = e.ops.size + 1) :
    Laid s origin d ⟨e.ops.push (.jump d.ops.size), e.registers⟩ (Forward groups n) := by
  subst hexit
  have hlt := h.size_lt
  refine h.laid_push fun p htest hsegment hjump => ?_
  let hubs := [d.ops.size, d.ops.size + 1, e.ops.size, e.ops.size + 1]
  have hagain : p.IsHub s origin d.ops.size (e.ops.size + 1) hubs (Forward groups n) e.ops.size :=
    isHub_of_op hjump nofun (by omega) (Nat.lt_succ_self _) (by simp [Op.targets, hubs])
      (by simp [Op.writes]) trivial
  refine segment_of_isHub hubs List.mem_cons_self ?_
  simp only [hubs, List.forall_mem_cons, List.not_mem_nil, false_imp_iff, implies_true, and_true]
  refine ⟨isHub_of_op htest (decides.ne_accept _) (Nat.le_refl _) (by omega) (fun t ht => ?_)
    (decides.writes _) (decides.advances _), isHub_of_segment hsegment (Nat.le_succ _) hlt
    (by simp) ⟨Nat.le_succ _, hagain⟩, hagain, isHub_stop (by omega)⟩
  rcases decides.targets _ t ht with rfl | rfl <;> simp

/-- What can be read ahead of here does not matter where it makes a run fail. -/
theorem laid_unless {e : Draft} {exit : Nat} {Post : Branch → Branch → Prop}
    (h : Opened s origin d e (.split (d.ops.size + 1) exit) Post) (hexit : exit = e.ops.size + 1) :
    Laid s origin d ⟨e.ops.push .failLook, e.registers⟩ (Forward groups n) := by
  subst hexit
  have hlt := h.size_lt
  refine h.laid_push fun p hsplit hsegment hfail => ?_
  refine segment_of_decides (decides_splitOp true _) hsplit ?_ (Nat.lt_succ_of_lt hlt)
  have hlast : p.Segment s origin e.ops.size (e.ops.size + 1) fun _ _ => False :=
    block_of_leads hfail nofun fun b c hb hleads =>
      absurd (moves_of_leads (hb.symm ▸ hfail) hleads).op_mem List.not_mem_nil
  exact hsegment.seq hlast hlt (Nat.le_succ _) fun _ h => h.elim

theorem Laid.of_registers {m : Nat} {Post : Branch → Branch → Prop}
    (h : Laid s origin ⟨d.ops, m⟩ d' Post) (hm : d.registers ≤ m) : Laid s origin d d' Post :=
  { h with registers_le := Nat.le_trans hm h.registers_le }

/-- A place from which to read is kept in a register of its own. -/
theorem builds_around (negative : Bool) (hbody : Builds s origin groups (Keeps groups) body) :
    Builds s origin groups (Forward groups) (around negative body) := by
  intro d d' h hregisters
  cases negative with
  | true =>
    simp only [around, if_true, StateT.run_bind, run_here, run_emit, run_place,
      Option.bind_eq_bind, Option.bind_some, Option.bind_eq_some_iff] at h
    obtain ⟨⟨⟨⟩, d₁⟩, hrun, ⟨⟩⟩ := h
    have hlaid : Laid s origin ⟨d.ops.push .accept, d.registers⟩ d₁ (Keeps groups d.registers) :=
      hbody hrun hregisters
    have hopened := hlaid.opened (.split (d.ops.size + 1) (d₁.ops.size + 1))
    have hlt := hopened.size_lt
    rw [Array.size_setIfInBounds] at hlt
    simp only [Array.size_push, push_setIfInBounds hlt]
    exact laid_unless hopened (by simp)
  | false =>
    simp only [around, Bool.false_eq_true, if_false, StateT.run_bind, run_newRegister, run_emit,
      Option.bind_eq_bind, Option.bind_some, Option.bind_eq_some_iff] at h
    obtain ⟨⟨⟨⟩, d₁⟩, hrun, ⟨⟩⟩ := h
    have hlaid : Laid s origin ⟨d.ops.push (.save d.registers), d.registers + 1⟩ d₁
        (Keeps groups (d.registers + 1)) := hbody hrun (Nat.le_succ_of_le hregisters)
    have hsave : Laid s origin ⟨d.ops, d.registers + 1⟩
        ⟨d.ops.push (.save d.registers), d.registers + 1⟩ fun b c =>
          Keeps groups d.registers b c ∧ ∀ i, register c d.registers = some i → i = b.place := by
      refine laid_op nofun fun p b c hop hleads => ?_
      obtain rfl := eq_of_leads_save hop hleads
      refine ⟨rfl, fun r hr => register_put_of_ne ?_, fun i hi => ?_⟩
      · rintro rfl
        exact not_isKept (Nat.le_refl _) hregisters hr
      · exact (Option.some.inj (eq_of_register_put hi)).symm
    have hrestore : Laid s origin d₁ ⟨d₁.ops.push (.restore d.registers), d₁.registers⟩
        fun b c => (∀ r, register c r = register b r) ∧ register b d.registers = some c.place := by
      refine laid_op nofun fun p b c hop hleads => ?_
      obtain ⟨i, hi, rfl⟩ := eq_of_leads_restore hop hleads
      exact ⟨rfl, fun _ => rfl, hi⟩
    -- The body keeps the new register as it keeps all that were in use before it.
    have hread : Laid s origin ⟨d.ops, d.registers + 1⟩ d₁ fun b c =>
        Keeps groups d.registers b c ∧ ∀ i, register c d.registers = some i → i = b.place := by
      refine hsave.seq hlaid fun h h' => ⟨fun r hr => ?_, fun i hi => h.2 i ?_⟩
      · exact (h' r (hr.mono (Nat.le_succ _))).trans (h.1 r hr)
      · rwa [← h' d.registers (.inr ⟨hregisters, Nat.lt_succ_self _⟩)]
    refine Laid.of_registers ?_ (Nat.le_succ _)
    refine hread.seq hrestore fun h h' => ⟨fun r hr => (h'.1 r).trans (h.1 r hr), ?_⟩
    exact Nat.le_of_eq (h.2 _ h'.2).symm

theorem laid_of_run_rounds {test : Nat → Op} (decides : Decides groups n d.ops.size test)
    (hbody : Builds s origin groups (Forward groups) body) (hn : n ≤ d.registers)
    (hregisters : 2 * groups + 2 ≤ n) (h : (rounds body test).run d = some ((), d')) :
    Laid s origin d d' (Forward groups n) := by
  simp only [rounds, StateT.run_bind, run_here, run_emit, run_place, Option.bind_eq_bind,
    Option.bind_some, Option.bind_eq_some_iff] at h
  obtain ⟨⟨⟨⟩, d₁⟩, hrun, ⟨⟩⟩ := h
  have hlaid : Laid s origin ⟨d.ops.push .accept, d.registers⟩ d₁ (Forward groups n) :=
    (hbody hrun (Nat.le_trans hregisters hn)).mono fun _ _ h => h.mono hn
  have hopened := hlaid.opened (test (d₁.ops.size + 1))
  have hlt := hopened.size_lt
  rw [Array.size_setIfInBounds] at hlt
  simp only [Array.size_push, push_setIfInBounds hlt]
  exact laid_rounds decides hopened (by simp)

theorem decides_round {least counter start : Nat} {most : Option Nat} (hn : n ≤ counter)
    (hregisters : 2 * groups + 2 ≤ n) :
    Decides groups n start (.round least most greedy · counter) where
  ne_accept _ := nofun
  targets _ := by simp [Op.targets]
  writes _ := by simpa [Op.writes] using not_isKept hn hregisters
  advances _ := trivial

theorem decides_progress {least counter last start : Nat} (hcounter : n ≤ counter)
    (hlast : n ≤ last) (hregisters : 2 * groups + 2 ≤ n) :
    Decides groups n start (.progress least greedy · counter last) where
  ne_accept _ := nofun
  targets _ := by simp [Op.targets]
  writes _ := by
    simpa [Op.writes] using ⟨not_isKept hcounter hregisters, not_isKept hlast hregisters⟩
  advances _ := trivial

/-- Counters are registers of their own. -/
theorem laid_zero {counter m : Nat} (hn : n ≤ counter) (hregisters : 2 * groups + 2 ≤ n) :
    Laid s origin ⟨d.ops, m⟩ ⟨d.ops.push (.zero counter), m⟩ (Forward groups n) :=
  laid_emit nofun (fun _ => rfl)
    (by simpa [Op.writes] using not_isKept hn hregisters) trivial

/-- The body once, and again as long as it is decided so behind it. -/
theorem laid_again {d₁ : Draft} (h : Laid s origin d d₁ (Forward groups n)) :
    Laid s origin d ⟨d₁.ops.push (splitOp greedy d.ops.size (d₁.ops.size + 1)), d₁.registers⟩
      (Forward groups n) := by
  have hle := h.size_le
  have hold {k : Nat} (hk : k < d₁.ops.size) (op : Op) : (d₁.ops.push op)[k]? = d₁.ops[k]? := by
    rw [Array.getElem?_push_lt hk, Array.getElem?_eq_getElem hk]
  refine ⟨by simpa using Nat.le_succ_of_le hle, h.registers_le,
    fun k hk => (hold (Nat.lt_of_lt_of_le hk hle) _).trans (h.ops_eq k hk), fun p hp => ?_⟩
  simp only [Array.size_push] at hp ⊢
  have hsplit := hp _ hle (Nat.lt_succ_self _)
  rw [Array.getElem?_push_size] at hsplit
  have hsegment := h.segment p fun k hk hlt => by rw [hp k hk (Nat.lt_succ_of_lt hlt), hold hlt]
  let hubs := [d.ops.size, d₁.ops.size, d₁.ops.size + 1]
  have hagain : p.IsHub s origin d.ops.size (d₁.ops.size + 1) hubs (Forward groups n) d₁.ops.size :=
    isHub_of_op hsplit (by cases greedy <;> exact nofun) hle (Nat.lt_succ_self _)
      (by cases greedy <;> simp [splitOp, Op.targets, hubs])
      (by cases greedy <;> simp [splitOp, Op.writes]) (by cases greedy <;> trivial)
  refine segment_of_isHub hubs List.mem_cons_self ?_
  simp only [hubs, List.forall_mem_cons, List.not_mem_nil, false_imp_iff, implies_true, and_true]
  exact ⟨isHub_of_segment hsegment (Nat.le_refl _) hle (by simp) ⟨Nat.le_succ _, hagain⟩, hagain,
    isHub_stop (by omega)⟩

theorem builds_loop {canBeEmpty : Bool} {least : Nat} {most : Option Nat}
    (hbody : Builds s origin groups (Forward groups) body) :
    Builds s origin groups (Forward groups) (loop least most greedy canBeEmpty body) := by
  intro d d' h hregisters
  unfold loop at h
  split at h
  · exact builds_optional hbody h hregisters
  · split at h
    · simp only [StateT.run_bind, run_newRegister, run_emit, Option.bind_eq_bind,
        Option.bind_some] at h
      have hrounds := laid_of_run_rounds
        (decides_progress (Nat.le_refl d.registers) (Nat.le_succ _) hregisters) hbody
        (Nat.le_succ_of_le (Nat.le_succ _)) hregisters h
      have hzero : Laid s origin ⟨d.ops, d.registers + 1 + 1⟩ _ _ :=
        laid_zero (Nat.le_refl d.registers) hregisters
      exact (hzero.seq hrounds Forward.trans).of_registers (Nat.le_succ_of_le (Nat.le_succ _))
    · split at h
      · exact laid_of_run_rounds (decides_splitOp greedy _) hbody (Nat.le_refl _) hregisters h
      · simp only [StateT.run_bind, run_here, run_emit, Option.bind_eq_bind,
          Option.bind_some, Option.bind_eq_some_iff] at h
        obtain ⟨⟨⟨⟩, d₁⟩, hrun, ⟨⟩⟩ := h
        exact laid_again (hbody hrun hregisters)
      · simp only [StateT.run_bind, run_newRegister, run_emit, Option.bind_eq_bind,
          Option.bind_some] at h
        have hrounds := laid_of_run_rounds (decides_round (Nat.le_refl d.registers) hregisters)
          hbody (Nat.le_succ _) hregisters h
        have hzero : Laid s origin ⟨d.ops, d.registers + 1⟩ _ _ :=
          laid_zero (Nat.le_refl d.registers) hregisters
        exact (hzero.seq hrounds Forward.trans).of_registers (Nat.le_succ _)

theorem builds_pure : Builds s origin groups (Forward groups) (pure ()) := by
  rintro d _ ⟨⟩ -
  exact laid_refl

theorem Builds.bind {Post Post' Post'' : Nat → Branch → Branch → Prop}
    (h : Builds s origin groups Post first) (h' : Builds s origin groups Post' others)
    (trans : ∀ {n n' b c e}, n ≤ n' → Post n b c → Post' n' c e → Post'' n b e) :
    Builds s origin groups Post'' (do first; others) := by
  intro d d' hrun hregisters
  rw [StateT.run_bind, Option.bind_eq_bind, Option.bind_eq_some_iff] at hrun
  obtain ⟨⟨⟨⟩, d₁⟩, hfirst, hothers⟩ := hrun
  have hlaid := h hfirst hregisters
  exact hlaid.seq (h' hothers (Nat.le_trans hregisters hlaid.registers_le))
    (trans hlaid.registers_le)

theorem Builds.seq (h : Builds s origin groups (Forward groups) first)
    (h' : Builds s origin groups (Forward groups) others) :
    Builds s origin groups (Forward groups) (do first; others) :=
  h.bind h' fun hn h h' => h.trans (h'.mono hn)

theorem Builds.keeps (h : Builds s origin groups (Forward groups) body) :
    Builds s origin groups (Keeps groups) body :=
  fun _ _ hrun hregisters => (h hrun hregisters).mono fun _ _ h => h.keeps

theorem builds_failure {Post : Nat → Branch → Branch → Prop} :
    Builds s origin groups Post failure := by
  rintro d _ ⟨⟩

theorem builds_emit {op : Op} (hne : op ≠ .accept) (targets : ∀ k, op.targets k = [k + 1])
    (writes : ∀ r ∈ op.writes, ∀ n, ¬IsKept groups n r) (advances : op.Advances) :
    Builds s origin groups (Forward groups) (emit op) := by
  rintro d _ ⟨⟩ -
  exact laid_emit hne targets (fun r hr => writes r hr _) advances

theorem builds_lift {α : Type} {Post : Nat → Branch → Branch → Prop} {x : Option α}
    {build : α → Builder Unit} (h : ∀ a, x = some a → Builds s origin groups Post (build a)) :
    Builds s origin groups Post (do build (← x)) := by
  cases x with
  | none => exact builds_failure
  | some a => exact h a rfl

/-- The slots of groups may be written anywhere. -/
theorem not_isKept_of_slotsOf {gs : List Nat} (h : ∀ g ∈ gs, 1 ≤ g ∧ g ≤ groups) {r : Nat}
    (hr : r ∈ slotsOf gs) (n : Nat) : ¬IsKept groups n r := by
  simp only [slotsOf, List.mem_flatMap, List.mem_cons, List.not_mem_nil, or_false] at hr
  obtain ⟨g, hg, hr⟩ := hr
  have hbounds := h g hg
  rintro (hr' | hr') <;> omega

theorem builds_beginAtomic : Builds s origin groups (Forward groups) (emit .beginAtomic) :=
  builds_emit nofun (fun _ => rfl) (by simp [Op.writes]) trivial

theorem builds_endAtomic : Builds s origin groups (Forward groups) (emit .endAtomic) :=
  builds_emit nofun (fun _ => rfl) (by simp [Op.writes]) trivial

theorem builds_condition {test yes no : Builder Unit}
    (htest : Builds s origin groups (Forward groups) test)
    (hyes : Builds s origin groups (Forward groups) yes)
    (hno : Builds s origin groups (Forward groups) no) :
    Builds s origin groups (Forward groups) (condition test yes no) :=
  builds_beginAtomic.seq (builds_either (htest.seq (builds_endAtomic.seq hyes)) hno)

theorem builds_backwards {e : Expr} {shape : Shape} (h : ∀ g ∈ e.groups, 1 ≤ g ∧ g ≤ groups)
    (hbody : Builds s origin groups (Forward groups) body) :
    Builds s origin groups (Keeps groups) (backwards shape e body) := by
  unfold backwards
  split
  · intro d d' hrun hregisters
    rw [StateT.run_bind, Option.bind_eq_bind, run_emit, Option.bind_some] at hrun
    have hback : Laid s origin d ⟨d.ops.push (.stepBack shape.minSize), d.registers⟩
        (Keeps groups d.registers) := by
      refine laid_op nofun fun p b c hop hleads => ?_
      have hmoves := moves_of_leads hop hleads
      exact ⟨List.mem_singleton.mp hmoves.op_mem, fun r _ => hmoves.register_eq r List.not_mem_nil⟩
    exact hback.seq (hbody hrun hregisters) fun h h' r hr => (h'.keeps r hr).trans (h r hr)
  · split
    · refine builds_lift fun back _ => builds_lift fun front _ => ?_
      have hforward : Builds s origin groups (Forward groups)
          (emit (.embedBehind back front e.groups)) :=
        builds_emit nofun (fun _ => rfl) (fun r hr => not_isKept_of_slotsOf h hr) trivial
      exact fun d d' hrun hregisters =>
        (hforward hrun hregisters).mono fun _ _ h => h.keeps
    · exact builds_failure

end Parts

end Patterns.Plain.Program
