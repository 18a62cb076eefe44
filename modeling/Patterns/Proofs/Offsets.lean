import Mathlib
import Patterns.Text.Subject

/-!
# Byte offsets of positions

The byte offset of a position is the size of the text before it. Exactly the offsets of positions
lie on the bounds of characters.
-/
namespace Patterns.Text

theorem utf8Size_append (a b : List Char) : utf8Size (a ++ b) = utf8Size a + utf8Size b := by
  have shift (n : Nat) (cs : List Char) :
      cs.foldl (fun n c => n + c.utf8Size) n = n + cs.foldl (fun n c => n + c.utf8Size) 0 := by
    induction cs generalizing n with
    | nil => rfl
    | cons c cs ih =>
      simp only [List.foldl_cons]
      rw [ih (n + c.utf8Size), ih (0 + c.utf8Size)]
      omega
  rw [utf8Size, utf8Size, utf8Size, List.foldl_append, shift]

@[simp] theorem utf8Size_nil : utf8Size [] = 0 := rfl

theorem utf8Size_cons (c : Char) (cs : List Char) :
    utf8Size (c :: cs) = c.utf8Size + utf8Size cs := by
  have h := utf8Size_append [c] cs
  simpa [utf8Size] using h

theorem utf8Size_pos {cs : List Char} (h : cs ≠ []) : 0 < utf8Size cs := by
  obtain ⟨c, cs, rfl⟩ := List.exists_cons_of_ne_nil h
  have hc := c.utf8Size_pos
  rw [utf8Size_cons]
  omega

theorem length_offsetsFrom (n : Nat) (cs : List Char) :
    (offsetsFrom n cs).length = cs.length + 1 := by
  induction cs generalizing n with
  | nil => rfl
  | cons c cs ih => simp [offsetsFrom, ih]

theorem getElem?_offsetsFrom {n i : Nat} {cs : List Char} (h : i ≤ cs.length) :
    (offsetsFrom n cs)[i]? = some (n + utf8Size (cs.take i)) := by
  induction cs generalizing n i with
  | nil =>
    obtain rfl : i = 0 := by simpa using h
    rfl
  | cons c cs ih =>
    cases i with
    | zero => rfl
    | succ i =>
      have hi : i ≤ cs.length := by simpa using h
      simp [offsetsFrom, ih hi, utf8Size_cons, Nat.add_assoc]

namespace Subject

variable {s : Subject} {i j byte : Nat}

theorem get_offsets (s : Subject) : s.offsets.get = (offsetsFrom 0 s.toList).toArray := by
  rw [s.offsets_eq]
  rfl

theorem byteOffset_eq (h : i ≤ s.size) : s.byteOffset i = utf8Size (s.toList.take i) := by
  rw [← length_toList] at h
  simp [byteOffset, get_offsets, getElem?_offsetsFrom h]

/-- What lies between two positions takes as many bytes as their offsets are apart. -/
theorem byteOffset_add {n : Nat} (h : i + n ≤ s.size) :
    s.byteOffset (i + n) = s.byteOffset i + utf8Size ((s.toList.drop i).take n) := by
  rw [byteOffset_eq h, byteOffset_eq (by omega), List.take_add, utf8Size_append]

theorem byteOffset_lt (h : i < j) (hj : j ≤ s.size) : s.byteOffset i < s.byteOffset j := by
  obtain ⟨n, rfl⟩ : ∃ n, j = i + n := ⟨j - i, by omega⟩
  have hne : (s.toList.drop i).take n ≠ [] := by
    intro he
    have hl := congrArg List.length he
    simp only [List.length_take, List.length_drop, length_toList, List.length_nil] at hl
    omega
  have hpos := utf8Size_pos hne
  rw [byteOffset_add hj]
  omega

theorem byteOffset_mono (h : i ≤ j) (hj : j ≤ s.size) : s.byteOffset i ≤ s.byteOffset j := by
  rcases Nat.eq_or_lt_of_le h with rfl | hlt
  · exact Nat.le_refl _
  · exact Nat.le_of_lt (byteOffset_lt hlt hj)

theorem byteOffset_inj (hi : i ≤ s.size) (hj : j ≤ s.size) :
    s.byteOffset i = s.byteOffset j ↔ i = j := by
  refine ⟨fun h => ?_, fun h => h ▸ rfl⟩
  rcases Nat.lt_trichotomy i j with hlt | heq | hlt
  · exact absurd h (Nat.ne_of_lt (byteOffset_lt hlt hj))
  · exact heq
  · exact absurd h (Nat.ne_of_gt (byteOffset_lt hlt hi))

theorem le_of_ceil? (h : s.ceil? byte = some i) : i ≤ s.size ∧ byte ≤ s.byteOffset i := by
  obtain ⟨hlt, hle, -⟩ := Array.findIdx?_eq_some_iff_getElem.mp h
  have hget : s.byteOffset i = s.offsets.get[i] := by simp [byteOffset, hlt]
  rw [hget]
  rw [get_offsets, List.size_toArray, length_offsetsFrom, length_toList] at hlt
  exact ⟨by omega, by simpa using hle⟩

theorem ceil?_byteOffset (h : i ≤ s.size) : s.ceil? (s.byteOffset i) = some i := by
  have hi : i < s.offsets.get.size := by
    rw [get_offsets, List.size_toArray, length_offsetsFrom, length_toList]
    omega
  have hget {k : Nat} (hk : k < s.offsets.get.size) : s.offsets.get[k] = s.byteOffset k := by
    simp [byteOffset, hk]
  rw [ceil?, Array.findIdx?_eq_some_iff_getElem]
  refine ⟨hi, by simp [hget hi], fun k hk => ?_⟩
  have hlt := byteOffset_lt hk h
  rw [hget (by omega)]
  simpa using hlt

/-- The position at an offset is the one whose offset that is. -/
theorem position?_eq_some_iff : s.position? byte = some i ↔ i ≤ s.size ∧ byte = s.byteOffset i := by
  constructor
  · intro h
    obtain ⟨hceil, heq⟩ := Option.filter_eq_some_iff.mp h
    exact ⟨(le_of_ceil? hceil).1, (beq_iff_eq.mp heq).symm⟩
  · rintro ⟨hi, rfl⟩
    simp [position?, ceil?_byteOffset hi]

/-- A byte offset between two characters, before the first or behind the last. -/
def IsBound (s : Subject) (byte : Nat) : Prop := (s.position? byte).isSome = true

theorem isBound_iff : s.IsBound byte ↔ ∃ i ≤ s.size, byte = s.byteOffset i := by
  simp only [IsBound, Option.isSome_iff_exists, position?_eq_some_iff]

theorem isBound_byteOffset (h : i ≤ s.size) : s.IsBound (s.byteOffset i) :=
  isBound_iff.mpr ⟨i, h, rfl⟩

end Subject

end Patterns.Text
