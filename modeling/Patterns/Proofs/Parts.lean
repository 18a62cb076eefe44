import Patterns.Plain.Expr

/-!
# Parts of expressions

What holds of an expression and of everything in it. A part can move the start of a match, or say
where the whole match starts; an expression that has no such part is tame. The whole match may be
the first part of a sequence all the same, as it is where a look ahead at the end is exposed.
-/
namespace Patterns.Plain

namespace Expr

mutual

/-- `p` holds of the expression and of all of its parts. -/
def all (p : Expr → Bool) (e : Expr) : Bool :=
  p e && match e with
    | .concat es | .alt es => allIn p es
    | .group _ e | .loop e _ _ _ | .look _ _ e | .atomic e => e.all p
    | .cond test yes no => test.all p && yes.all p && no.all p
    | _ => true

def allIn (p : Expr → Bool) : List Expr → Bool
  | [] => true
  | e :: es => e.all p && allIn p es

end

variable {p q : Expr → Bool} {e : Expr} {es : List Expr}

theorem allIn_eq_true_iff : allIn p es = true ↔ ∀ e ∈ es, e.all p = true := by
  induction es with
  | nil => simp [allIn]
  | cons e es ih => simp [allIn, ih]

mutual

theorem all_and (p q : Expr → Bool) (e : Expr) :
    e.all (fun e => p e && q e) = (e.all p && e.all q) := by
  cases e with
  | concat es | alt es =>
    simp only [all, allIn_and p q es]
    ac_rfl
  | group _ e | loop e _ _ _ | look _ _ e | atomic e =>
    simp only [all, all_and p q e]
    ac_rfl
  | cond test yes no =>
    simp only [all, all_and p q test, all_and p q yes, all_and p q no]
    ac_rfl
  | _ => simp [all]

theorem allIn_and (p q : Expr → Bool) (es : List Expr) :
    allIn (fun e => p e && q e) es = (allIn p es && allIn q es) := by
  cases es with
  | nil => rfl
  | cons e es =>
    simp only [allIn, all_and p q e, allIn_and p q es]
    ac_rfl

end

theorem all_mono (himp : ∀ e, p e = true → q e = true) (h : e.all p = true) : e.all q = true := by
  have hand : (fun e => p e && q e) = p := by
    funext e
    cases hp : p e with
    | true => simp [himp e hp]
    | false => rfl
  rw [← hand, all_and, Bool.and_eq_true] at h
  exact h.2

/-- The start of a match is moved here. -/
def isReset : Expr → Bool
  | .resetStart => true
  | _ => false

/-- Groups are numbered from one to `n`, and no part moves the start of a match unless `moves`. -/
def isTame (moves : Bool) (n : Nat) : Expr → Bool
  | .group i _ => 1 ≤ i && i ≤ n
  | .resetStart => moves
  | _ => true

def Tame (n : Nat) (e : Expr) (moves : Bool := false) : Prop := e.all (isTame moves n) = true

/-- Groups are numbered from one to `n`. -/
abbrev Numbered (n : Nat) (e : Expr) : Prop := e.Tame n true

section Tame

variable {m n i least : Nat} {most : Option Nat} {moves greedy behind negative : Bool}
  {test yes no : Expr}

@[simp] theorem tame_concat : (concat es).Tame n moves ↔ ∀ e ∈ es, e.Tame n moves :=
  allIn_eq_true_iff

@[simp] theorem tame_alt : (alt es).Tame n moves ↔ ∀ e ∈ es, e.Tame n moves :=
  allIn_eq_true_iff

@[simp] theorem tame_group : (group i e).Tame n moves ↔ (1 ≤ i ∧ i ≤ n) ∧ e.Tame n moves := by
  change ((decide (1 ≤ i) && decide (i ≤ n)) && e.all (isTame moves n)) = true ↔ _
  rw [Bool.and_eq_true, Bool.and_eq_true, decide_eq_true_iff, decide_eq_true_iff]
  rfl

@[simp] theorem tame_loop : (loop e least most greedy).Tame n moves ↔ e.Tame n moves :=
  Iff.rfl

@[simp] theorem tame_look : (look behind negative e).Tame n moves ↔ e.Tame n moves :=
  Iff.rfl

@[simp] theorem tame_atomic : (atomic e).Tame n moves ↔ e.Tame n moves :=
  Iff.rfl

@[simp] theorem tame_cond :
    (cond test yes no).Tame n moves ↔ test.Tame n moves ∧ yes.Tame n moves ∧ no.Tame n moves := by
  change (test.all (isTame moves n) && yes.all (isTame moves n) && no.all (isTame moves n)) =
    true ↔ _
  rw [Bool.and_eq_true, Bool.and_eq_true, and_assoc]
  rfl

theorem tame_ofList (h : ∀ e ∈ es, e.Tame n moves) : (ofList es).Tame n moves := by
  match es with
  | [] => rfl
  | [e] => exact h e List.mem_cons_self
  | _ :: _ :: _ => exact tame_concat.mpr h

theorem not_tame_resetStart : ¬resetStart.Tame n := by
  simp [Tame, all, isTame]

theorem Tame.mono (h : e.Tame m moves) (hmn : m ≤ n) : e.Tame n moves := by
  refine all_mono (fun e he => ?_) h
  cases e with
  | group i e =>
    simp only [isTame, Bool.and_eq_true, decide_eq_true_eq] at he ⊢
    exact ⟨he.1, Nat.le_trans he.2 hmn⟩
  | resetStart => exact he
  | _ => rfl

/-- Where groups are numbered, only a move of the start is not tame. -/
theorem tame_iff : e.Tame n ↔ e.Numbered n ∧ e.all (!·.isReset) = true := by
  have hand : isTame false n = fun e => isTame true n e && !e.isReset := by
    funext e
    cases e <;> simp [isTame, isReset]
  rw [Tame, hand, all_and, Bool.and_eq_true]
  rfl

mutual

theorem groups_of_tame (e : Expr) (h : e.Tame n moves) : ∀ g ∈ e.groups, 1 ≤ g ∧ g ≤ n := by
  cases e with
  | concat es => exact groupsIn_of_tame es (tame_concat.mp h)
  | alt es => exact groupsIn_of_tame es (tame_alt.mp h)
  | group i e =>
    obtain ⟨hi, h⟩ := tame_group.mp h
    exact List.forall_mem_cons.mpr ⟨hi, groups_of_tame e h⟩
  | loop e least most greedy =>
    rw [groups]
    split
    · simp
    · exact groups_of_tame e (tame_loop.mp h)
  | look behind negative e => exact groups_of_tame e (tame_look.mp h)
  | atomic e => exact groups_of_tame e (tame_atomic.mp h)
  | cond test yes no =>
    obtain ⟨htest, hyes, hno⟩ := tame_cond.mp h
    exact List.forall_mem_append.mpr ⟨List.forall_mem_append.mpr
      ⟨groups_of_tame test htest, groups_of_tame yes hyes⟩, groups_of_tame no hno⟩
  | empty | char | set | assertion | backref | resetStart | searchStart | groupTest =>
    simp [groups]

theorem groupsIn_of_tame (es : List Expr) (h : ∀ e ∈ es, e.Tame n moves) :
    ∀ g ∈ groupsIn es, 1 ≤ g ∧ g ≤ n := by
  cases es with
  | nil => simp [groupsIn]
  | cons e es =>
    obtain ⟨he, hes⟩ := List.forall_mem_cons.mp h
    exact List.forall_mem_append.mpr ⟨groups_of_tame e he, groupsIn_of_tame es hes⟩

end

end Tame

section Starts

variable {n : Nat} {moves : Bool}

/-- The start of the whole match is told once, if at all: at the front. -/
def StartsOnce (n : Nat) (e : Expr) (moves : Bool := false) : Prop :=
  e.Tame n moves ∨ ∃ whole others, e = .concat (.group 0 whole :: others) ∧
    whole.Tame n moves ∧ ∀ e ∈ others, e.Tame n moves

theorem startsOnce_exposeLast (h : e.Tame n moves) : e.exposeLast.StartsOnce n moves := by
  unfold exposeLast
  split
  · next es =>
    have hes := tame_concat.mp h
    split
    · next last hlast =>
      have hlook := hes _ (List.mem_of_getLast? hlast)
      exact .inr ⟨_, _, rfl, tame_concat.mpr fun e he => hes e (List.dropLast_subset es he),
        List.forall_mem_singleton.mpr (tame_look.mp hlook)⟩
    · exact .inl h
  · exact .inl h

theorem StartsOnce.tame (h : e.StartsOnce n true) (hkeep : e.all (!·.isReset) = true) :
    e.StartsOnce n := by
  obtain h | ⟨whole, others, rfl, hwhole, hothers⟩ := h
  · exact .inl (tame_iff.mpr ⟨h, hkeep⟩)
  · simp only [all, allIn, Bool.and_eq_true, allIn_eq_true_iff] at hkeep
    exact .inr ⟨whole, others, rfl, tame_iff.mpr ⟨hwhole, hkeep.2.1.2⟩,
      fun e he => tame_iff.mpr ⟨hothers e he, hkeep.2.2 e he⟩⟩

end Starts

end Expr

end Patterns.Plain
