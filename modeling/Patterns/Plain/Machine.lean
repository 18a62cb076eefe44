import Patterns.Plain.Automaton

/-!
# A backtracking machine for irregular expressions

A program is an array of operations. A run keeps the branches that it may come back to on a stack;
its registers hold group slots, loop counters and saved positions. Regular parts are left to
automata where nothing after them can ask for another match. Coming back too often ends the run.
-/
namespace Patterns.Plain
open Patterns.Text

inductive Op where
  | eat (s : CharSet)
  | check (a : Assertion)
  | jump (target : Nat)
  | split (first second : Nat)
  | save (register : Nat)
  | restore (register : Nat)
  | zero (register : Nat)
  /-- Counts rounds of a loop whose end is at `exit`. -/
  | round (least : Nat) (most : Option Nat) (greedy : Bool) (exit counter : Nat)
  /-- As `round` without an upper bound, but a round that took nothing is the last one. -/
  | progress (least : Nat) (greedy : Bool) (exit counter last : Nat)
  | stepBack (n : Nat)
  | backref (slot : Nat) (anyCase : Bool)
  | groupTest (slot : Nat)
  | searchStart
  | beginAtomic
  | endAtomic
  /-- Fails and gives up the branches down to the one that comes back behind here. -/
  | failLook
  | embed (a : Automaton) (groups : List Nat)
  /-- `back` finds where the text before here begins, and `front` reads its groups from there. -/
  | embedBehind (back front : Automaton) (groups : List Nat)
  | accept
  deriving Inhabited

structure Program where
  ops : Array Op
  groups : Nat
  registers : Nat
  /-- The search may move on from its start. -/
  floating : Bool

namespace Program

structure Draft where
  ops : Array Op
  registers : Nat

abbrev Builder := StateT Draft Option

def here : Builder Nat := return (← get).ops.size

def emit (op : Op) : Builder Unit := modify fun d => { d with ops := d.ops.push op }

def place (i : Nat) (op : Op) : Builder Unit :=
  modify fun d => { d with ops := d.ops.setIfInBounds i op }

def newRegister : Builder Nat :=
  modifyGet fun d => (d.registers, { d with registers := d.registers + 1 })

def splitOp (greedy : Bool) (body exit : Nat) : Op :=
  if greedy then .split body exit else .split exit body

/-- Leaves a regular expression to an automaton. -/
def embedded (e : Expr) : Builder Unit :=
  match e with
  | .empty => pure ()
  | .char c anyCase => emit (.eat (CharSet.foldIf anyCase (.single c)))
  | .set s => emit (.eat s)
  | .assertion a => emit (.check a)
  | e => do emit (.embed (← Automaton.ofExpr? e) e.groups)

def embeddedAll (es : List Expr) : Builder Unit :=
  if es.isEmpty then pure () else embedded (Expr.ofList es)

/-- How many children at the front, and at the back of the others, automata take. -/
def delegated (referenced : List Nat) (retried : Bool) (es : List Expr) : Nat × Nat :=
  let fixed (e : Expr) : Bool := (e.shape referenced).fixed && (e.shape referenced).regular
  let front := (es.takeWhile fixed).length
  let back := ((es.drop front).reverse.takeWhile fun e =>
    if retried then fixed e else (e.shape referenced).regular).length
  (front, back)

/-- A choice between `first` and what comes after it. -/
def optional (greedy : Bool) (body : Builder Unit) : Builder Unit := do
  let start ← here
  emit .accept
  body
  place start (splitOp greedy (start + 1) (← here))

def either (first others : Builder Unit) : Builder Unit := do
  let start ← here
  emit .accept
  first
  let skip ← here
  emit .accept
  place start (.split (start + 1) (← here))
  others
  place skip (.jump (← here))

/-- Rounds of `body`, between which `test` decides. -/
def rounds (body : Builder Unit) (test : (exit : Nat) → Op) : Builder Unit := do
  let start ← here
  emit .accept
  body
  emit (.jump start)
  place start (test (← here))

def loop (least : Nat) (most : Option Nat) (greedy canBeEmpty : Bool) (body : Builder Unit) :
    Builder Unit := do
  match least, most with
  | 0, some 1 => optional greedy body
  | _, _ =>
    if canBeEmpty && most.isNone then
      let counter ← newRegister
      let last ← newRegister
      emit (.zero counter)
      rounds body fun exit => .progress least greedy exit counter last
    else
      match least, most with
      | 0, none =>
        let start ← here
        rounds body (splitOp greedy (start + 1))
      | 1, none =>
        let start ← here
        body
        emit (splitOp greedy start ((← here) + 1))
      | _, _ =>
        let counter ← newRegister
        emit (.zero counter)
        rounds body fun exit => .round least most greedy exit counter

/-- Runs `body` and comes back to where it began, or fails where `body` succeeds. -/
def around (negative : Bool) (body : Builder Unit) : Builder Unit := do
  if negative then
    let start ← here
    emit .accept
    body
    emit .failLook
    place start (.split (start + 1) (← here))
  else
    let place ← newRegister
    emit (.save place)
    body
    emit (.restore place)

/-- Matches `e` before here; an irregular `e` must have a fixed size for that. -/
def backwards (shape : Shape) (e : Expr) (body : Builder Unit) : Builder Unit := do
  if shape.fixed then
    emit (.stepBack shape.minSize)
    body
  else if shape.regular then
    emit (.embedBehind (← Automaton.ofReversed? e) (← Automaton.ofExpr? e) e.groups)
  else failure

def condition (test yes no : Builder Unit) : Builder Unit := do
  emit .beginAtomic
  either (do test; emit .endAtomic; yes) no

mutual

/-- Adds the operations of `e`. When `retried` holds, what comes after `e` may come back into it,
so only its parts of fixed size are left to automata. -/
def build (referenced : List Nat) (e : Expr) (retried : Bool) : Builder Unit :=
  if !retried && (e.shape referenced).regular then embedded e
  else
    match e with
    | .empty => pure ()
    | .char c anyCase => embedded (.char c anyCase)
    | .set s => embedded (.set s)
    | .assertion a => embedded (.assertion a)
    | .concat es => do
      let (front, back) := delegated referenced retried es
      embeddedAll (es.take front)
      buildSome referenced es front (es.length - front - back)
      embeddedAll (es.drop (es.length - back))
    | .alt es => buildAny referenced es retried
    | .group i e => do
      emit (.save (2 * i))
      build referenced e retried
      emit (.save (2 * i + 1))
    | .loop e least most greedy =>
      let shape := e.shape referenced
      let again := if least == 0 && most == some 1 then retried else retried || !shape.regular
      loop least most greedy (shape.minSize == 0) (build referenced e again)
    | .look false negative e => around negative (build referenced e false)
    | .look true negative (.alt es) =>
      if (Expr.altShape referenced es).fixed then
        around negative (backwards (Expr.altShape referenced es) (.alt es)
          (buildAny referenced es false))
      else buildBehind referenced negative es
    | .look true negative e =>
      around negative (backwards (e.shape referenced) e (build referenced e false))
    | .atomic e => do
      emit .beginAtomic
      build referenced e false
      emit .endAtomic
    | .backref n anyCase _ => emit (.backref (2 * n) anyCase)
    | .resetStart => emit (.save 0)
    | .searchStart => emit .searchStart
    | .groupTest n => emit (.groupTest (2 * n))
    | .cond test yes no =>
      condition (build referenced test retried) (build referenced yes retried)
        (build referenced no retried)

/-- The children from `first` on, `count` of them. -/
def buildSome (referenced : List Nat) (es : List Expr) (first count : Nat) : Builder Unit :=
  match es, first, count with
  | [], _, _ => pure ()
  | _ :: es, first + 1, count => buildSome referenced es first count
  | _ :: _, 0, 0 => pure ()
  | e :: es, 0, count + 1 => do
    build referenced e true
    buildSome referenced es 0 count

def buildAny (referenced : List Nat) (es : List Expr) (retried : Bool) : Builder Unit :=
  match es with
  | [] => failure
  | [e] => build referenced e retried
  | e :: es => either (build referenced e retried) (buildAny referenced es retried)

/-- A look behind at alternatives of several sizes looks behind at each. -/
def buildBehind (referenced : List Nat) (negative : Bool) (es : List Expr) : Builder Unit :=
  match es with
  | [] => failure
  | [e] => around negative (backwards (e.shape referenced) e (build referenced e false))
  | e :: es =>
    let first := around negative (backwards (e.shape referenced) e (build referenced e false))
    if negative then do
      first
      buildBehind referenced negative es
    else either first (buildBehind referenced negative es)

end

def startsAtSearch : Expr → Bool
  | .searchStart => true
  | .concat (.searchStart :: _) => true
  | _ => false

def ofExpr? (referenced : List Nat) (groups : Nat) (e : Expr) : Option Program := do
  let draft : Draft := ⟨#[], 2 * (groups + 1)⟩
  let ((), d) ← (do emit (.save 0); build referenced e false; emit .accept).run draft
  return ⟨d.ops, groups, d.registers, !startsAtSearch e⟩

structure Branch where
  op : Nat
  place : Nat
  registers : Slots
  /-- Heights of the stack where atomic parts began. -/
  marks : List Nat

inductive Outcome where
  | matched (stop : Nat) (registers : Slots)
  | failed (budget : Nat)
  | exhausted

/-- How often one search may come back to an earlier branch. -/
def maxReturns : Nat := 1000000

/-- How many branches a search may keep; the one for its next position is among them. -/
def maxBranches : Nat := 1000000

/-- No run takes more steps than this. -/
def maxSteps : Nat := 1 <<< 60

def register (b : Branch) (r : Nat) : Option Nat := (b.registers[r]?).join

def Branch.put (b : Branch) (r : Nat) (v : Option Nat) : Branch :=
  { b with registers := b.registers.setIfInBounds r v }

def Branch.to (b : Branch) (op : Nat) : Branch := { b with op }

def Branch.next (b : Branch) : Branch := { b with op := b.op + 1 }

def startsAnyCase : (wanted text : List Char) → Bool
  | [], _ => true
  | _, [] => false
  | a :: wanted, b :: text => (a == b || sameFold a b) && startsAnyCase wanted text

def holdsAnyCase (wanted : List Char) : (text : List Char) → Bool
  | [] => wanted.isEmpty
  | c :: text => startsAnyCase wanted (c :: text) || holdsAnyCase wanted text

def isAscii (cs : List Char) : Bool := cs.all (·.toNat < 128)

/-- Whether `text`, of as many bytes, repeats `wanted` when case is ignored. Variants of a character
may differ in size, so text that is not ASCII need only hold one of `wanted`. -/
def repeatsAnyCase (wanted text : List Char) : Bool :=
  if isAscii text then isAscii wanted && startsAnyCase wanted text else holdsAnyCase wanted text

/-- Whether the text of an earlier group stands at `i` again, in as many bytes, and where it
ends. -/
def repeatedText? (s : Subject) (anyCase : Bool) (start stop i : Nat) : Option Nat :=
  let wanted := (s.chars.extract start stop).toList
  if (s.chars.extract i (i + wanted.length)).toList == wanted then some (i + wanted.length)
  else if anyCase then
    (s.skipBytes? i (utf8Size wanted)).filter fun j =>
      repeatsAnyCase wanted (s.chars.extract i j).toList
  else none

def Branch.putGroups (b : Branch) (slots : Slots) : List Nat → Branch
  | [] => b
  | g :: gs =>
    ((b.put (2 * g) (slots[2 * g]?).join).put (2 * g + 1) (slots[2 * g + 1]?).join).putGroups
      slots gs

/-- What an operation does: go on, perhaps leaving a branch to come back to, or not. -/
inductive Move where
  | go (b : Branch)
  | choose (b later : Branch)
  | cut (b : Branch) (height : Nat)
  | failPast (op : Nat)
  | fail
  | done

def move (p : Program) (s : Subject) (origin height : Nat) (b : Branch) : Move :=
  match p.ops[b.op]?.getD .accept with
  | .eat set =>
    match s.next? b.place with
    | some c => if set.mem c then .go { b.next with place := b.place + 1 } else .fail
    | none => .fail
  | .check a => if a.holds s b.place then .go b.next else .fail
  | .jump target => .go (b.to target)
  | .split first second => .choose (b.to first) (b.to second)
  | .save r => .go (b.next.put r (some b.place))
  | .restore r =>
    match register b r with
    | some i => .go { b.next with place := i }
    | none => .fail
  | .zero r => .go (b.next.put r (some 0))
  | .round least most greedy exit counter =>
    let n := (register b counter).getD 0
    if most == some n then .go (b.to exit)
    else
      let b := b.put counter (some (n + 1))
      if n < least then .go b.next
      else if greedy then .choose b.next (b.to exit)
      else .choose (b.to exit) b.next
  | .progress least greedy exit counter last =>
    let n := (register b counter).getD 0
    if n > 0 && register b last == some b.place then .go (b.to exit)
    else
      let b := b.put counter (some (n + 1))
      if n < least then .go b.next
      else
        let b := b.put last (some b.place)
        if greedy then .choose b.next (b.to exit)
        else .choose (b.to exit) b.next
  | .stepBack n => if n ≤ b.place then .go { b.next with place := b.place - n } else .fail
  | .backref slot anyCase =>
    match register b slot, register b (slot + 1) with
    | some start, some stop =>
      match repeatedText? s anyCase start stop b.place with
      | some i => .go { b.next with place := i }
      | none => .fail
    | _, _ => .fail
  | .groupTest slot => if (register b slot).isSome then .go b.next else .fail
  | .searchStart => if b.place ≤ origin then .go b.next else .fail
  | .beginAtomic => .go { b.next with marks := height :: b.marks }
  | .endAtomic =>
    match b.marks with
    | mark :: marks => .cut { b.next with marks } mark
    | [] => .go b.next
  | .failLook => .failPast (b.op + 1)
  | .embed a groups =>
    match a.match? s p.groups b.place (s.size - b.place) with
    | some (stop, slots) => .go ({ b.next with place := stop }.putGroups slots groups)
    | none => .fail
  | .embedBehind back front groups =>
    match back.match? s p.groups b.place b.place with
    | none => .fail
    | some (start, _) =>
      match front.match? s p.groups start (b.place - start) with
      | some (_, slots) => .go (b.next.putGroups slots groups)
      | none => .fail
  | .accept => .done

structure State where
  branch : Branch
  stack : List Branch
  /-- The length of the stack. -/
  height : Nat
  budget : Nat

/-- Comes back to the branch on top of the stack. -/
def State.back (budget : Nat) (stack : List Branch) (height : Nat) : Outcome ⊕ State :=
  match stack, budget with
  | [], _ => .inl (.failed budget)
  | _ :: _, 0 => .inl .exhausted
  | b :: stack, budget + 1 => .inr ⟨b, stack, height - 1, budget⟩

/-- The stack below the latest branch that comes back to `op`, and its length. -/
def dropPast (op : Nat) : (stack : List Branch) → (height : Nat) → List Branch × Nat
  | [], height => ([], height)
  | b :: stack, height =>
    if b.op = op then (stack, height - 1) else dropPast op stack (height - 1)

def step (p : Program) (s : Subject) (origin : Nat) (st : State) : Outcome ⊕ State :=
  match p.move s origin st.height st.branch with
  | .go b => .inr { st with branch := b }
  | .choose b later =>
    if st.height + (if p.floating then 1 else 0) < maxBranches then
      .inr { st with branch := b, stack := later :: st.stack, height := st.height + 1 }
    else .inl .exhausted
  | .cut b mark =>
    .inr { st with branch := b, stack := st.stack.drop (st.height - mark),
                   height := min st.height mark }
  | .failPast op =>
    let (stack, height) := dropPast op st.stack st.height
    State.back st.budget stack height
  | .fail => State.back st.budget st.stack st.height
  | .done => .inl (.matched st.branch.place st.branch.registers)

def run (p : Program) (s : Subject) (origin : Nat) : (steps : Nat) → State → Outcome
  | 0, _ => .exhausted
  | steps + 1, st =>
    match p.step s origin st with
    | .inl outcome => outcome
    | .inr st => p.run s origin steps st

/-- A match that starts at `i` in a search from `origin`. -/
def match? (p : Program) (s : Subject) (origin budget i : Nat) : Outcome :=
  p.run s origin maxSteps
    ⟨⟨0, i, Array.replicate p.registers none, []⟩, [], 0, budget⟩

end Program

end Patterns.Plain
