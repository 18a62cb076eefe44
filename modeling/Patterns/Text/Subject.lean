/-!
# Subjects of a search

A subject is a text with random access to its characters. Positions count characters; the table
of byte offsets converts them for callers, who speak of bytes.
-/
namespace Patterns.Text

/-- Where each character starts, and where the last one ends, when the first starts at `n`. -/
def offsetsFrom (n : Nat) : List Char → List Nat
  | [] => [n]
  | c :: rest => n :: offsetsFrom (n + c.utf8Size) rest

def utf8Size (cs : List Char) : Nat := cs.foldl (fun n c => n + c.utf8Size) 0

structure Subject where
  chars : Array Char
  offsets : Thunk (Array Nat)
  offsets_eq : offsets = Thunk.mk fun _ => (offsetsFrom 0 chars.toList).toArray

structure Span where
  start : Nat
  stop : Nat
  deriving DecidableEq, Repr

namespace Subject

def ofArray (cs : Array Char) : Subject := ⟨cs, _, rfl⟩

def ofList (cs : List Char) : Subject := ofArray cs.toArray

def ofString (s : String) : Subject := ofList s.toList

def size (s : Subject) : Nat := s.chars.size

def toList (s : Subject) : List Char := s.chars.toList

def toString (s : Subject) : String := String.ofList s.toList

/-- The byte offset of a position. -/
def byteOffset (s : Subject) (i : Nat) : Nat := s.offsets.get[i]?.getD 0

/-- The first position at or after a byte offset, if the offset is not past the end. -/
def ceil? (s : Subject) (byte : Nat) : Option Nat := s.offsets.get.findIdx? (byte ≤ ·)

/-- The position at exactly a byte offset. -/
def position? (s : Subject) (byte : Nat) : Option Nat :=
  (s.ceil? byte).filter fun i => s.byteOffset i == byte

def next? (s : Subject) (i : Nat) : Option Char := s.chars[i]?

def previous? (s : Subject) (i : Nat) : Option Char :=
  if i = 0 then none else s.chars[i - 1]?

/-- The position `n` bytes after position `i`, if a character ends there. -/
def skipBytes? (s : Subject) (i n : Nat) : Option Nat :=
  if n = 0 then some i
  else
    match s.next? i with
    | none => none
    | some c => if c.utf8Size ≤ n then s.skipBytes? (i + 1) (n - c.utf8Size) else none
  termination_by n
  decreasing_by
    have := c.utf8Size_pos
    omega

def slice (s : Subject) (start stop : Nat) : String :=
  String.ofList (s.chars.extract start stop).toList

def sliceSpan (s : Subject) (r : Span) : String := s.slice r.start r.stop

/-- Puts `cs` in the place of the `n` characters from position `i` on. -/
def splice (s : Subject) (i n : Nat) (cs : List Char) : Subject :=
  ofArray (s.chars.extract 0 i ++ cs.toArray ++ s.chars.extract (i + n) s.size)

@[simp] theorem toList_ofList (cs : List Char) : (ofList cs).toList = cs := rfl

@[simp] theorem size_ofList (cs : List Char) : (ofList cs).size = cs.length := rfl

@[simp] theorem toString_ofString (s : String) : (ofString s).toString = s := by
  simp [toString, ofString]

@[simp] theorem toList_splice (s : Subject) (i n : Nat) (cs : List Char) :
    (s.splice i n cs).toList = s.toList.take i ++ (cs ++ s.toList.drop (i + n)) := by
  simp [splice, toList, ofArray, size, List.extract_eq_take_drop,
    List.take_of_length_le (l := List.drop (i + n) s.chars.toList)]

@[simp] theorem length_toList (s : Subject) : s.toList.length = s.size := by
  simp [toList, size]

@[ext] theorem ext {s t : Subject} (h : s.chars = t.chars) : s = t := by
  cases s; cases t; simp_all

end Subject

end Patterns.Text
