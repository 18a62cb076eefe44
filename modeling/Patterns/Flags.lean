import Patterns.Error

/-!
# Flags

The plain flags are read by the plain language or drive iteration; the extended ones are
implemented by the compiler. Custom flags come with tokens.
-/
namespace Patterns

structure PlainFlags where
  global : Bool := false
  ignoreCase : Bool := false
  multiline : Bool := false
  sticky : Bool := false
  deriving DecidableEq, Repr

namespace PlainFlags

def letters : List Char := ['g', 'i', 'm', 'y']

/-- The plain flags among others. -/
def ofList (flags : List Char) : PlainFlags :=
  ⟨flags.contains 'g', flags.contains 'i', flags.contains 'm', flags.contains 'y'⟩

def toList (f : PlainFlags) : List Char :=
  letters.filter fun c =>
    match c with
    | 'g' => f.global
    | 'i' => f.ignoreCase
    | 'm' => f.multiline
    | _ => f.sticky

def toString (f : PlainFlags) : String := String.ofList f.toList

end PlainFlags

namespace Flags

def extended : List Char := ['n', 's', 'x']

/-- Flags that direct iteration and cannot be set from inside a pattern. -/
def iteration : List Char := ['g', 'y']

/-- Characters of flags and of names. -/
def isFlagChar (c : Char) : Bool := c.isAlphanum || c == '_' || c == '$'

def isKnown (custom : List Char) (c : Char) : Bool :=
  PlainFlags.letters.contains c || extended.contains c || custom.contains c

/-- The first flag that repeats an earlier one or is not known. -/
def check (known : Char → Bool) (repeated unknown : Char → Error) :
    (seen flags : List Char) → Except Error Unit
  | _, [] => .ok ()
  | seen, c :: rest =>
    if seen.contains c then .error (repeated c)
    else if !known c then .error (unknown c)
    else check known repeated unknown (c :: seen) rest

theorem check_eq_ok_iff {known : Char → Bool} {repeated unknown : Char → Error}
    {seen flags : List Char} :
    check known repeated unknown seen flags = .ok () ↔
      flags.Nodup ∧ ∀ c ∈ flags, c ∉ seen ∧ known c = true := by
  induction flags generalizing seen with
  | nil => simp [check]
  | cons c rest ih =>
    rw [check]
    split
    · next hseen => simp [List.contains_iff_mem.mp hseen]
    · next hseen =>
      have hseen : c ∉ seen := fun h => hseen (List.contains_iff_mem.mpr h)
      split
      · next hknown => simp_all
      · next hknown =>
        have hknown : known c = true := by simpa using hknown
        simp only [ih, List.nodup_cons, List.mem_cons, forall_eq_or_imp, hseen, hknown]
        constructor
        · rintro ⟨hnodup, hall⟩
          exact ⟨⟨fun h => (hall c h).1 (.inl rfl), hnodup⟩, by simp,
            fun d hd => ⟨fun h => (hall d hd).1 (.inr h), (hall d hd).2⟩⟩
        · rintro ⟨⟨hc, hnodup⟩, -, hall⟩
          refine ⟨hnodup, fun d hd => ⟨?_, (hall d hd).2⟩⟩
          rintro (rfl | h)
          · exact hc hd
          · exact (hall d hd).1 h

def validate (custom : List Char) (flags : String) : Except Error Unit :=
  check (isKnown custom) (.duplicateFlag · flags) (.unknownFlag · flags) [] flags.toList

theorem validate_eq_ok_iff {custom : List Char} {flags : String} :
    validate custom flags = .ok () ↔
      flags.toList.Nodup ∧ ∀ c ∈ flags.toList, isKnown custom c = true := by
  simp [validate, check_eq_ok_iff]

def parsePlain (flags : String) : Except Error PlainFlags := do
  check PlainFlags.letters.contains (fun _ => .duplicatePlainFlag flags)
    (.unknownPlainFlag · flags) [] flags.toList
  return .ofList flags.toList

private def adjustList (remove : List Char) : (kept flags : List Char) → List Char
  | kept, [] => kept.reverse
  | kept, c :: rest =>
    if remove.contains c || kept.contains c then adjustList remove kept rest
    else adjustList remove (c :: kept) rest

/-- `flags` and `add` without `remove`, each flag at its first place. -/
def adjust (flags add remove : String) : String :=
  String.ofList (adjustList remove.toList [] (flags.toList ++ add.toList))

private theorem adjustList_of_nodup {kept flags : List Char} (h : (kept.reverse ++ flags).Nodup)
    (more : List Char) :
    adjustList [] kept (flags ++ more) = adjustList [] (flags.reverse ++ kept) more := by
  induction flags generalizing kept with
  | nil => rfl
  | cons c rest ih =>
    have hc : c ∉ kept := by
      have := (List.nodup_append.mp h).2.2
      intro hmem
      exact this c (List.mem_reverse.mpr hmem) c List.mem_cons_self rfl
    rw [List.cons_append, adjustList, if_neg (by simpa using hc), ih (by simpa using h)]
    simp

/-- Flags without repetition stay as they are. -/
theorem adjust_self {flags : String} (h : flags.toList.Nodup) : adjust flags "" "" = flags := by
  have hadjust := @adjustList_of_nodup [] flags.toList (by simpa using h) []
  simp only [List.append_nil] at hadjust
  simp [adjust, hadjust, adjustList]

/-- A flag that is added goes behind the others, where they do not have it. -/
theorem toList_adjust_add {flags : String} (h : flags.toList.Nodup) (c : Char) :
    (adjust flags (String.singleton c) "").toList =
      if c ∈ flags.toList then flags.toList else flags.toList ++ [c] := by
  have hadjust := @adjustList_of_nodup [] flags.toList (by simpa using h) [c]
  by_cases hc : c ∈ flags.toList <;> simp [adjust, hadjust, adjustList, hc]

end Flags

end Patterns
