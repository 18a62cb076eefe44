import Patterns.Plain.Regex
import Patterns.Proofs.Parts

/-!
# Threads of an automaton

What a thread keeps from node to node holds of the match that is found. So a match does not end
before it starts, its slots lie behind its start, and where the whole match is a group that group
starts where the match was tried.
-/
namespace Patterns.Plain
open Patterns.Text

/-- A node leads to nodes below `n`, and does not say where a match starts. -/
def Node.Within (n : Nat) : Node → Prop
  | .dead | .accept => True
  | .eat _ next | .check _ next => next < n
  | .split first second => first < n ∧ second < n
  | .save slot next => slot ≠ 0 ∧ next < n

theorem Node.Within.mono {m n : Nat} {node : Node} (h : node.Within m) (hmn : m ≤ n) :
    node.Within n := by
  cases node with
  | dead | accept => trivial
  | eat | check => exact Nat.lt_of_lt_of_le h hmn
  | split => exact ⟨Nat.lt_of_lt_of_le h.1 hmn, Nat.lt_of_lt_of_le h.2 hmn⟩
  | save => exact ⟨h.1, Nat.lt_of_lt_of_le h.2 hmn⟩

namespace Automaton

variable {a : Automaton} {s : Subject} {i j left groups stop : Nat} {t t' : Thread} {slots : Slots}

/-- A thread goes from one node to the next, and on to the next position if it takes a
character. -/
inductive Leads (a : Automaton) : Nat → Thread → Nat → Thread → Prop
  | check {i node next : Nat} {slots : Slots} {c : Assertion}
    (h : a.nodes[node]? = some (.check c next)) : Leads a i ⟨node, slots⟩ i ⟨next, slots⟩
  | first {i node first second : Nat} {slots : Slots}
    (h : a.nodes[node]? = some (.split first second)) : Leads a i ⟨node, slots⟩ i ⟨first, slots⟩
  | second {i node first second : Nat} {slots : Slots}
    (h : a.nodes[node]? = some (.split first second)) : Leads a i ⟨node, slots⟩ i ⟨second, slots⟩
  | save {i node slot next : Nat} {slots : Slots} (h : a.nodes[node]? = some (.save slot next)) :
    Leads a i ⟨node, slots⟩ i ⟨next, slots.setIfInBounds slot (some i)⟩
  | eat {i node next : Nat} {slots : Slots} {set : CharSet}
    (h : a.nodes[node]? = some (.eat set next)) :
    Leads a i ⟨node, slots⟩ (a.beyond i) ⟨next, slots⟩

section Runs

variable {Q : Nat → Thread → Prop}

theorem getElem?_of_getD {k : Nat} {node : Node} (h : a.nodes[k]?.getD .dead = node)
    (hnode : node ≠ .dead) : a.nodes[k]? = some node := by
  cases hk : a.nodes[k]? with
  | none => rw [hk] at h; exact absurd h.symm hnode
  | some n => rw [hk] at h; exact congrArg some h

theorem follow_induction (closed : ∀ {i t j t'}, Q i t → a.Leads i t j t' → Q j t') (fuel : Nat)
    {pending : List Thread} {front : Front} (hpending : ∀ t ∈ pending, Q i t)
    (hfront : ∀ t ∈ front.threads, Q i t) :
    ∀ t ∈ (a.follow s i fuel pending front).threads, Q i t := by
  induction fuel generalizing pending front with
  | zero => simpa [follow] using hfront
  | succ fuel ih =>
    cases pending with
    | nil => simpa [follow] using hfront
    | cons t pending =>
      obtain ⟨ht, hothers⟩ := List.forall_mem_cons.mp hpending
      rw [follow]
      split
      · exact ih hothers hfront
      · dsimp only
        split
        · exact ih hothers hfront
        · exact ih hothers (List.forall_mem_cons.mpr ⟨ht, hfront⟩)
        · exact ih hothers (List.forall_mem_cons.mpr ⟨ht, hfront⟩)
        · next hnode =>
          have hnext := closed ht (.check (getElem?_of_getD hnode nofun))
          split
          · exact ih (List.forall_mem_cons.mpr ⟨hnext, hothers⟩) hfront
          · exact ih hothers hfront
        · next hnode =>
          have hfirst := closed ht (.first (getElem?_of_getD hnode nofun))
          have hsecond := closed ht (.second (getElem?_of_getD hnode nofun))
          exact ih (List.forall_mem_cons.mpr ⟨hfirst, List.forall_mem_cons.mpr ⟨hsecond, hothers⟩⟩)
            hfront
        · next hnode =>
          have hnext := closed ht (.save (getElem?_of_getD hnode nofun))
          exact ih (List.forall_mem_cons.mpr ⟨hnext, hothers⟩) hfront

theorem forall_mem_emptyFront (a : Automaton) (P : Thread → Prop) :
    ∀ t ∈ a.emptyFront.threads, P t := by
  simp [emptyFront]

theorem advance_induction (closed : ∀ {i t j t'}, Q i t → a.Leads i t j t' → Q j t')
    {ts : List Thread} {front : Front} (hts : ∀ t ∈ ts, Q i t)
    (hfront : ∀ t ∈ front.threads, Q (a.beyond i) t) :
    (∀ t ∈ (a.advance s i ts front).1.threads, Q (a.beyond i) t) ∧
      ∀ slots, (a.advance s i ts front).2 = some slots → ∃ t, Q i t ∧ t.slots = slots := by
  induction ts generalizing front with
  | nil => exact ⟨hfront, by simp [advance]⟩
  | cons t ts ih =>
    obtain ⟨ht, hothers⟩ := List.forall_mem_cons.mp hts
    rw [advance]
    split
    · refine ⟨hfront, fun slots h => ⟨t, ht, Option.some.inj h⟩⟩
    · next hnode =>
      have hnext := closed ht (.eat (getElem?_of_getD hnode nofun))
      split
      · split
        · exact ih hothers (follow_induction closed _ (List.forall_mem_singleton.mpr hnext) hfront)
        · exact ih hothers hfront
      · exact ih hothers hfront
    · exact ih hothers hfront

theorem run_induction (closed : ∀ {i t j t'}, Q i t → a.Leads i t j t' → Q j t')
    {ts : List Thread} {best : Option (Nat × Slots)} (hts : ∀ t ∈ ts, Q i t)
    (hbest : ∀ stop slots, best = some (stop, slots) → ∃ t, Q stop t ∧ t.slots = slots)
    (h : a.run s left i ts best = some (stop, slots)) : ∃ t, Q stop t ∧ t.slots = slots := by
  induction left generalizing i ts best with
  | zero =>
    cases ts with
    | nil => exact hbest _ _ (by rwa [run] at h)
    | cons t ts =>
      have hadvance := advance_induction (s := s) closed hts (a.forall_mem_emptyFront _)
      rw [run] at h
      split at h
      · next hslots =>
        obtain ⟨rfl, rfl⟩ := Prod.mk.inj (Option.some.inj h)
        exact hadvance.2 _ hslots
      · exact hbest _ _ h
  | succ left ih =>
    cases ts with
    | nil => exact hbest _ _ (by rwa [run] at h)
    | cons t ts =>
      have hadvance := advance_induction (s := s) closed hts (a.forall_mem_emptyFront _)
      rw [run] at h
      refine ih (fun t ht => hadvance.1 t (List.mem_reverse.mp ht)) (fun stop slots hslots => ?_) h
      split at hslots
      · next hslots' =>
        obtain ⟨rfl, rfl⟩ := Prod.mk.inj (Option.some.inj hslots)
        exact hadvance.2 _ hslots'
      · exact hbest _ _ hslots

/-- What holds of the first thread, and is kept from node to node, holds of the thread that
accepts. -/
theorem match?_induction (closed : ∀ {i t j t'}, Q i t → a.Leads i t j t' → Q j t')
    (start : Q i ⟨a.start, Array.replicate (2 * (groups + 1)) none⟩)
    (h : a.match? s groups i left = some (stop, slots)) : ∃ t, Q stop t ∧ t.slots = slots :=
  run_induction closed (fun t ht => follow_induction closed _ (List.forall_mem_singleton.mpr start)
    (a.forall_mem_emptyFront _) t (List.mem_reverse.mp ht)) (by simp) h

end Runs

theorem le_of_match? (forwards : a.backwards = false)
    (h : a.match? s groups i left = some (stop, slots)) : i ≤ stop := by
  obtain ⟨t, hle, -⟩ := match?_induction (Q := fun j _ => i ≤ j) (fun hle hleads => by
    cases hleads with
    | eat => exact Nat.le_trans hle (by rw [beyond, forwards]; exact Nat.le_succ _)
    | _ => exact hle) (Nat.le_refl i) h
  exact hle

section Building

variable {ns : Array Node} {n next : Nat} {moves : Bool} {node : Node} {build : Nat → Builder Nat}

/-- All nodes lead to nodes that there are. -/
def Sound (ns : Array Node) : Prop := ∀ node ∈ ns, node.Within ns.size

/-- Nodes were added, and what was built starts at one of the nodes. -/
structure Extends (ns : Array Node) (built : Nat × Array Node) : Prop where
  size_le : ns.size ≤ built.2.size
  start_lt : built.1 < built.2.size
  sound : Sound built.2

theorem Extends.trans {built built' : Nat × Array Node} (h : Extends ns built)
    (h' : Extends built.2 built') : Extends ns built' :=
  ⟨Nat.le_trans h.size_le h'.size_le, h'.start_lt, h'.sound⟩

theorem extends_pure (h : Sound ns) (hnext : next < ns.size) : Extends ns (next, ns) :=
  ⟨Nat.le_refl _, hnext, h⟩

theorem extends_emit (h : Sound ns) (hnode : node.Within (ns.size + 1)) :
    Extends ns ((emit node).run ns) := by
  refine ⟨?_, ?_, fun n hn => ?_⟩
  · change ns.size ≤ (ns.push node).size
    rw [Array.size_push]
    exact Nat.le_succ _
  · change ns.size < (ns.push node).size
    rw [Array.size_push]
    exact Nat.lt_succ_self _
  · change n ∈ ns.push node at hn
    change n.Within (ns.push node).size
    rw [Array.size_push]
    rcases Array.mem_push.mp hn with hn | rfl
    · exact (h n hn).mono (Nat.le_succ _)
    · exact hnode

theorem sound_place {k : Nat} (h : Sound ns) (hnode : node.Within ns.size) :
    Sound (ns.setIfInBounds k node) := by
  intro n hn
  rw [Array.size_setIfInBounds]
  rcases Array.mem_or_eq_of_mem_setIfInBounds hn with hn | rfl
  · exact h n hn
  · exact hnode

/-- What `build` puts in front of a node only adds nodes. -/
def Grows (build : Nat → Builder Nat) : Prop :=
  ∀ ⦃ns next⦄, Sound ns → next < ns.size → Extends ns ((build next).run ns)

theorem branch_within {body exit : Nat} (greedy : Bool) (hbody : body < n) (hexit : exit < n) :
    (branch greedy body exit).Within n := by
  cases greedy <;> exact ⟨by assumption, by assumption⟩

theorem grows_copies (grows : Grows build) (n : Nat) : Grows (copies build n) := by
  induction n with
  | zero => exact fun _ _ => extends_pure
  | succ n ih =>
    intro ns next sound hnext
    have hfirst := grows sound hnext
    exact hfirst.trans (ih hfirst.sound hfirst.start_lt)

theorem grows_optionals (greedy : Bool) (grows : Grows build) (n : Nat) :
    Grows (optionals greedy build · n) := by
  induction n with
  | zero => exact fun _ _ => extends_pure
  | succ n ih =>
    intro ns next sound hnext
    have hothers := ih sound hnext
    have hbody := hothers.trans (grows hothers.sound hothers.start_lt)
    refine hbody.trans (extends_emit hbody.sound (branch_within greedy ?_ ?_))
    · exact Nat.lt_succ_of_lt hbody.start_lt
    · exact Nat.lt_succ_of_lt (Nat.lt_of_lt_of_le hnext hbody.size_le)

/-- A loop is entered at its body, or at the node that decides on another round. -/
theorem extends_loop (greedy : Bool) (grows : Grows build) (sound : Sound ns)
    (hnext : next < ns.size) {entry : Nat}
    (hentry : entry = ns.size ∨ entry = ((build ns.size).run (ns.push .dead)).1) :
    Extends ns (entry, ((build ns.size).run (ns.push .dead)).2.setIfInBounds ns.size
      (branch greedy ((build ns.size).run (ns.push .dead)).1 next)) := by
  have hagain : Extends ns ((emit .dead).run ns) := extends_emit sound trivial
  have hbody := grows hagain.sound hagain.start_lt
  have hsize : ns.size < ((build ns.size).run (ns.push .dead)).2.size :=
    Nat.lt_of_lt_of_le hagain.start_lt hbody.size_le
  have hbranch := branch_within greedy hbody.start_lt (Nat.lt_trans hnext hsize)
  refine ⟨?_, ?_, sound_place hbody.sound hbranch⟩
  · rw [Array.size_setIfInBounds]
    exact Nat.le_of_lt hsize
  · rw [Array.size_setIfInBounds]
    rcases hentry with rfl | rfl
    · exact hsize
    · exact hbody.start_lt

theorem grows_repeated (greedy : Bool) (grows : Grows build) : Grows (repeated greedy build) :=
  fun _ _ sound hnext => extends_loop greedy grows sound hnext (.inr rfl)

theorem grows_unbounded (greedy canBeEmpty : Bool) (grows : Grows build) (n : Nat) :
    Grows (unbounded greedy canBeEmpty build · n) := by
  intro ns next sound hnext
  cases n with
  | zero =>
    cases canBeEmpty with
    | false => exact extends_loop greedy grows sound hnext (.inl rfl)
    | true =>
      have hbody := grows_repeated greedy grows sound hnext
      have hbranch := branch_within greedy (Nat.lt_succ_of_lt hbody.start_lt)
        (Nat.lt_succ_of_lt (Nat.lt_of_lt_of_le hnext hbody.size_le))
      exact hbody.trans (extends_emit hbody.sound hbranch)
  | succ n =>
    have hbody := grows_repeated greedy grows sound hnext
    exact hbody.trans (grows_copies grows n hbody.sound hbody.start_lt)

mutual

theorem grows_build (e : Expr) (h : e.Tame n moves) : Grows (Automaton.build e) := by
  cases e with
  | empty => exact fun _ _ => extends_pure
  | char | set | assertion =>
    exact fun _ _ sound hnext => extends_emit sound (Nat.lt_succ_of_lt hnext)
  | concat es => exact grows_buildAll es (Expr.tame_concat.mp h)
  | alt es => exact grows_buildAny es (Expr.tame_alt.mp h)
  | group i e =>
    obtain ⟨hi, h⟩ := Expr.tame_group.mp h
    intro ns next sound hnext
    have hclose : Extends ns ((emit (.save (2 * i + 1) next)).run ns) :=
      extends_emit sound ⟨Nat.succ_ne_zero _, Nat.lt_succ_of_lt hnext⟩
    have hbody := hclose.trans (grows_build e h hclose.sound hclose.start_lt)
    exact hbody.trans (extends_emit hbody.sound ⟨by omega, Nat.lt_succ_of_lt hbody.start_lt⟩)
  | loop e least most greedy =>
    have grows := grows_build e (Expr.tame_loop.mp h)
    cases most with
    | none => exact grows_unbounded greedy _ grows least
    | some k =>
      intro ns next sound hnext
      have hothers := grows_optionals greedy grows (k - least) sound hnext
      exact hothers.trans (grows_copies grows least hothers.sound hothers.start_lt)
  | look | atomic | backref | resetStart | searchStart | groupTest | cond =>
    exact fun _ _ sound _ => extends_emit sound trivial

theorem grows_buildAll (es : List Expr) (h : ∀ e ∈ es, e.Tame n moves) :
    Grows (buildAll es) := by
  cases es with
  | nil => exact fun _ _ => extends_pure
  | cons e es =>
    obtain ⟨he, hes⟩ := List.forall_mem_cons.mp h
    intro ns next sound hnext
    have hothers := grows_buildAll es hes sound hnext
    exact hothers.trans (grows_build e he hothers.sound hothers.start_lt)

theorem grows_buildAny (es : List Expr) (h : ∀ e ∈ es, e.Tame n moves) :
    Grows (buildAny es) := by
  match es with
  | [] => exact fun _ _ sound _ => extends_emit sound trivial
  | [e] => exact grows_build e (h e List.mem_cons_self)
  | e :: e' :: es =>
    obtain ⟨he, hes⟩ := List.forall_mem_cons.mp h
    intro ns next sound hnext
    have hothers := grows_buildAny (e' :: es) hes sound hnext
    have hfirst := grows_build e he hothers.sound (Nat.lt_of_lt_of_le hnext hothers.size_le)
    have hstart := Nat.lt_of_lt_of_le hothers.start_lt hfirst.size_le
    exact (hothers.trans hfirst).trans (extends_emit hfirst.sound
      ⟨Nat.lt_succ_of_lt hfirst.start_lt, Nat.lt_succ_of_lt hstart⟩)

end

end Building

section Starts

variable {ns : Array Node} {n : Nat} {moves backwards : Bool} {e : Expr} {es : List Expr}

/-- Nothing leads to a node that says where the whole match starts. -/
def OpensOnce (a : Automaton) : Prop :=
  ∀ ⦃i t j t'⦄, a.Leads i t j t' → ∀ next, a.nodes[t'.node]? ≠ some (.save 0 next)

theorem opensOnce_of_sound (sound : Sound ns)
    (hnodes : a.nodes = ns ∨ ∃ body < ns.size, a.nodes = ns.push (.save 0 body)) :
    a.OpensOnce := by
  have below {k : Nat} {node : Node} (h : a.nodes[k]? = some node) :
      node.Within ns.size ∨ ∃ body < ns.size, node = .save 0 body := by
    rcases hnodes with hnodes | ⟨body, hbody, hnodes⟩
    · rw [hnodes] at h
      exact .inl (sound node (Array.mem_of_getElem? h))
    · rw [hnodes] at h
      rcases Array.mem_push.mp (Array.mem_of_getElem? h) with hnode | rfl
      · exact .inl (sound node hnode)
      · exact .inr ⟨body, hbody, rfl⟩
  intro i t j t' hleads next hnode
  have hlt : t'.node < ns.size := by
    cases hleads with
    | check h | eat h => exact (below h).resolve_right (by simp)
    | first h => exact ((below h).resolve_right (by simp)).1
    | second h => exact ((below h).resolve_right (by simp)).2
    | save h =>
      rcases below h with hwithin | ⟨body, hbody, heq⟩
      · exact hwithin.2
      · cases heq
        exact hbody
  have hat : ns[t'.node]? = some (.save 0 next) := by
    rcases hnodes with hnodes | ⟨body, hbody, hnodes⟩
    · rwa [hnodes] at hnode
    · rwa [hnodes, Array.getElem?_push_lt hlt, ← Array.getElem?_eq_getElem hlt] at hnode
  exact (sound _ (Array.mem_of_getElem? hat)).1 rfl

/-- The slots of a match lie behind its start, and slot 0 is the start. -/
theorem slots_of_match? (forwards : a.backwards = false) (opens : a.OpensOnce)
    (h : a.match? s groups i left = some (stop, slots)) :
    (∀ v, (slots[0]?).join = some v → v = i) ∧
      ∀ (r : Nat) (v : Nat), (slots[r]?).join = some v → i ≤ v := by
  have hput {slots : Slots} {slot r v : Nat} (j : Nat)
      (h : ((slots.setIfInBounds slot (some j))[r]?).join = some v) :
      (slot = r ∧ v = j) ∨ (slots[r]?).join = some v := by
    rw [Array.getElem?_setIfInBounds] at h
    split at h
    · next heq =>
      split at h
      · exact .inl ⟨heq, (Option.some.inj h).symm⟩
      · cases h
    · exact .inr h
  -- A thread at a node that opens the whole match has not taken a character.
  let Q (j : Nat) (t : Thread) : Prop := i ≤ j ∧
    (∀ next, a.nodes[t.node]? = some (.save 0 next) → j = i) ∧
    (∀ v, (t.slots[0]?).join = some v → v = i) ∧
    ∀ (r : Nat) (v : Nat), (t.slots[r]?).join = some v → i ≤ v
  have closed {j t j' t'} (hQ : Q j t) (hleads : a.Leads j t j' t') : Q j' t' := by
    obtain ⟨hle, hopen, hzero, hslots⟩ := hQ
    have hnever (next : Nat) (hnode : a.nodes[t'.node]? = some (.save 0 next)) : j' = i :=
      absurd hnode (opens hleads next)
    cases hleads with
    | check | first | second => exact ⟨hle, hnever, hzero, hslots⟩
    | eat =>
      refine ⟨Nat.le_trans hle ?_, hnever, hzero, hslots⟩
      rw [beyond, forwards]
      exact Nat.le_succ _
    | save hnode =>
      refine ⟨hle, hnever, fun v hv => ?_, fun r v hv => ?_⟩
      · rcases hput j hv with ⟨rfl, rfl⟩ | hv
        · exact hopen _ hnode
        · exact hzero v hv
      · rcases hput j hv with ⟨-, rfl⟩ | hv
        · exact hle
        · exact hslots r v hv
  have hempty (r v : Nat) :
      ((Array.replicate (2 * (groups + 1)) (none : Option Nat))[r]?).join ≠ some v := by
    rw [Array.getElem?_replicate]
    split <;> simp
  obtain ⟨t, ⟨-, -, hzero, hslots⟩, rfl⟩ := match?_induction closed
    ⟨Nat.le_refl i, fun _ _ => rfl, fun v hv => absurd hv (hempty 0 v),
      fun r v hv => absurd hv (hempty r v)⟩ h
  exact ⟨hzero, hslots⟩

theorem sound_accept : Sound #[.accept] := by
  simp [Sound, Node.Within]

theorem eq_of_ofExpr? (h : ofExpr? e = some a) : ofExpr e false = a := by
  rw [ofExpr?] at h
  split at h
  · exact Option.some.inj h
  · cases h

theorem opensOnce_ofExpr (h : e.Tame n moves) :
    (ofExpr e backwards).OpensOnce :=
  opensOnce_of_sound (grows_build e h sound_accept Nat.zero_lt_one).sound (.inl rfl)

theorem opensOnce_ofExpr_group (he : e.Tame n moves) (hes : ∀ e ∈ es, e.Tame n moves) :
    (ofExpr (.concat (.group 0 e :: es)) backwards).OpensOnce := by
  have hothers := grows_buildAll es hes sound_accept Nat.zero_lt_one
  have hclose : Extends _ ((emit (.save 1 ((buildAll es 0).run #[.accept]).1)).run _) :=
    extends_emit hothers.sound ⟨Nat.one_ne_zero, Nat.lt_succ_of_lt hothers.start_lt⟩
  have hbody := grows_build e he hclose.sound hclose.start_lt
  exact opensOnce_of_sound (a := ofExpr (.concat (.group 0 e :: es)) backwards) hbody.sound
    (.inr ⟨_, hbody.start_lt, rfl⟩)

/-- An automaton for a tame expression, or for one whose first part is the whole match. -/
theorem opensOnce_of_startsOnce (h : e.StartsOnce n moves) : (ofExpr e backwards).OpensOnce := by
  obtain h | ⟨whole, others, rfl, hwhole, hothers⟩ := h
  · exact opensOnce_ofExpr h
  · exact opensOnce_ofExpr_group hwhole hothers

end Starts

end Automaton

end Patterns.Plain
