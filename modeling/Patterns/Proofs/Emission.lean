import Patterns.Proofs.Lexemes

/-!
# What is written for a lexeme

`Lexeme.Emits` says what a lexeme writes and what context it leaves behind. A group with a name is
recorded where the name looks like one and is new.
-/
namespace Patterns.Extended
open Patterns.Text

/-- What a name of a group looks like. -/
def IsGroupName (name : String) : Prop := IsName name.toList ∧ ¬AreDigits name.toList

namespace Context

variable {c c' : Context} {name : String}

theorem groupIndex?_eq_none_iff : c.groupIndex? name = none ↔ some name ∉ c.groups := by
  simp only [groupIndex?, indexOfName?, Option.map_eq_none_iff, List.findIdx?_eq_none_iff,
    beq_eq_false_iff_ne]
  exact ⟨fun h hm => h _ hm rfl, fun h _ hm heq => h (heq ▸ hm)⟩

theorem checkName_eq_ok_iff :
    c.checkName name = .ok () ↔ IsGroupName name ∧ some name ∉ c.groups := by
  have hname : (name.isEmpty || !name.toList.all Flags.isFlagChar) = false ↔ IsName name.toList := by
    simp [IsName]
  have hdigits : name.toList.all Char.isDigit = true ↔ AreDigits name.toList := by
    simp [AreDigits]
  have hindex : (c.groupIndex? name).isSome = false ↔ some name ∉ c.groups := by
    rw [← groupIndex?_eq_none_iff, Option.isSome_eq_false_iff, Option.isNone_iff_eq_none]
  rw [checkName, IsGroupName]
  split
  · next h =>
    rw [← Bool.not_eq_false, hname] at h
    simp [h]
  · next h =>
    rw [Bool.not_eq_true, hname] at h
    split
    · next hd =>
      rw [hdigits] at hd
      simp [hd]
    · next hd =>
      rw [hdigits] at hd
      split
      · next hi =>
        rw [← Bool.not_eq_false, hindex] at hi
        simp [hi]
      · next hi =>
        rw [Bool.not_eq_true, hindex] at hi
        simp [h, hd, hi]

theorem addGroup_eq_ok_iff {name : Option String} :
    c.addGroup name = .ok c' ↔ (∀ n ∈ name, c.checkName n = .ok ()) ∧ c' = c.record name := by
  cases name with
  | none => simp [addGroup, eq_comm]
  | some name =>
    cases hcheck : c.checkName name with
    | error err => simp [addGroup, hcheck, bind, Except.bind]
    | ok u => simp [addGroup, hcheck, bind, Except.bind, pure, Except.pure, eq_comm]

end Context

namespace Lexeme

inductive Emits (scope : Scope) (written : String) (after custom : List Char)
    (subpatterns : Option Subpatterns) (c : Context) : Lexeme → List Char → Context → Prop
  | emptyClass :
    Emits scope written after custom subpatterns c (.emptyClass false) ['\\', 'b', '\\', 'B'] c
  | fullClass : Emits scope written after custom subpatterns c (.emptyClass true) anyChar c
  | comment : Emits scope written after custom subpatterns c .comment (separator after) c
  | spacing : Emits scope written after custom subpatterns c .spacing (separator after) c
  | modifier {flags : List Char} {c' : Context}
    (set : setModifierFlags custom written flags c = .ok c') :
    Emits scope written after custom subpatterns c (.modifier flags) [] c'
  | namedReference {name : List Char} {index : Nat}
    (found : c.groupIndex? (String.ofList name) = some index) :
    Emits scope written after custom subpatterns c (.namedReference name) (referenceTo index ++
      if after.head?.any Char.isDigit then ['(', '?', ':', ')'] else []) c
  | zero :
    Emits scope written after custom subpatterns c (.numberedReference ['0'])
      ['\\', 'x', '0', '0'] c
  | numberedReference {digits : List Char} (positive : digits.head? ≠ some '0')
    (outside : scope = .outside) (known : digitsValue digits ≤ c.groupCount) :
    Emits scope written after custom subpatterns c (.numberedReference digits)
      (referenceTo (digitsValue digits)) c
  | dot : Emits scope written after custom subpatterns c .dot anyChar c
  | namedGroup {name : List Char} {c' : Context}
    (added : c.addGroup (some (String.ofList name)) = .ok c') :
    Emits scope written after custom subpatterns c (.namedGroup name) ['('] c'
  | gathering (flag : c.hasFlag 'n' = true) :
    Emits scope written after custom subpatterns c .group ['(', '?', ':'] c
  | group {c' : Context} (flag : c.hasFlag 'n' = false) (added : c.addGroup none = .ok c') :
    Emits scope written after custom subpatterns c .group ['('] c'
  | subpattern {name : List Char} {text : String}
    (found : (subpatterns.getD []).lookup (String.ofList name) = some text) :
    Emits scope written after custom subpatterns c (.subpattern name)
      (['(', '?', ':'] ++ text.toList ++ [')']) c

variable {lexeme : Lexeme} {scope : Scope} {written : String} {after custom w : List Char}
  {subpatterns : Option Subpatterns} {c c' : Context}

private theorem eq_of_bind {a : Except Error Context} {v : List Char}
    (h : (do return (v, ← a) : Except Error (List Char × Context)) = .ok (w, c')) :
    v = w ∧ a = .ok c' := by
  cases a with
  | error err => simp [bind, Except.bind] at h
  | ok d =>
    obtain ⟨rfl, rfl⟩ := Prod.mk.inj (Except.ok.inj h)
    exact ⟨rfl, rfl⟩

private theorem emits_numberedReference {digits : List Char}
    (h : (numberedReference digits).emit scope written after custom subpatterns c = .ok (w, c')) :
    Emits scope written after custom subpatterns c (.numberedReference digits) w c' := by
  simp only [emit] at h
  split at h
  · next hz =>
    subst hz
    obtain ⟨rfl, rfl⟩ := Prod.mk.inj (Except.ok.inj h)
    exact .zero
  · split at h
    · simp at h
    · next hz =>
      split at h
      · simp at h
      · next hscope =>
        split at h
        · next hle =>
          obtain ⟨rfl, rfl⟩ := Prod.mk.inj (Except.ok.inj h)
          refine .numberedReference hz ?_ hle
          cases scope with
          | outside => rfl
          | inClass => exact absurd rfl hscope
        · simp at h

theorem emits_of_emit
    (h : lexeme.emit scope written after custom subpatterns c = .ok (w, c')) :
    lexeme.Emits scope written after custom subpatterns c w c' := by
  cases lexeme with
  | emptyClass negated =>
    obtain ⟨hw, rfl⟩ := Prod.mk.inj (Except.ok.inj h)
    subst hw
    cases negated with
    | false => exact .emptyClass
    | true => exact .fullClass
  | comment =>
    obtain ⟨rfl, rfl⟩ := Prod.mk.inj (Except.ok.inj h)
    exact .comment
  | spacing =>
    obtain ⟨rfl, rfl⟩ := Prod.mk.inj (Except.ok.inj h)
    exact .spacing
  | modifier flags =>
    obtain ⟨rfl, hset⟩ := eq_of_bind h
    exact .modifier hset
  | namedReference name =>
    simp only [emit] at h
    split at h
    · simp at h
    · next hfound =>
      obtain ⟨rfl, rfl⟩ := Prod.mk.inj (Except.ok.inj h)
      exact .namedReference hfound
  | numberedReference digits => exact emits_numberedReference h
  | dot =>
    obtain ⟨rfl, rfl⟩ := Prod.mk.inj (Except.ok.inj h)
    exact .dot
  | namedGroup name =>
    obtain ⟨rfl, hadded⟩ := eq_of_bind h
    exact .namedGroup hadded
  | group =>
    simp only [emit] at h
    split at h
    · next hn =>
      obtain ⟨rfl, rfl⟩ := Prod.mk.inj (Except.ok.inj h)
      exact .gathering hn
    · next hn =>
      obtain ⟨rfl, hadded⟩ := eq_of_bind h
      exact .group (by simpa using hn) hadded
  | subpattern name =>
    simp only [emit] at h
    split at h
    · simp at h
    · next hfound =>
      obtain ⟨rfl, rfl⟩ := Prod.mk.inj (Except.ok.inj h)
      exact .subpattern hfound

theorem Emits.emit (h : lexeme.Emits scope written after custom subpatterns c w c') :
    lexeme.emit scope written after custom subpatterns c = .ok (w, c') := by
  cases h with
  | modifier set => simp [Lexeme.emit, set, bind, Except.bind, pure, Except.pure]
  | namedReference found => simp [Lexeme.emit, found]
  | numberedReference positive outside known =>
    have hz : _ ≠ ['0'] := fun he => positive (congrArg List.head? he)
    simp [Lexeme.emit, positive, outside, known, hz]
  | namedGroup added => simp [Lexeme.emit, added, bind, Except.bind, pure, Except.pure]
  | gathering flag => simp [Lexeme.emit, flag]
  | group flag added => simp [Lexeme.emit, flag, added, bind, Except.bind, pure, Except.pure]
  | subpattern found => simp [Lexeme.emit, found]
  | _ => rfl

end Lexeme

end Patterns.Extended
