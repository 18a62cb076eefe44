import Patterns.Operations.Template
import Patterns.Proofs.Lexemes

/-!
# Reading replacement templates

A template has one reading from left to right: each character stands for itself, unless it is a
dollar that starts a reference (`Refers`). Expanding a template writes what its reading says, and
fails only where a reference names no group.
-/
namespace Patterns.Template
open Patterns.Text Patterns.Extended

variable {s : Subject} {m : Match s}

section Readings

/-- The text of a group; a group that takes no part is empty. -/
def groupText (m : Match s) (n : Nat) : String := (m.group? n).getD ""

/-- The number of a group, the whole match aside. -/
def IsGroup (m : Match s) (n : Nat) : Prop := 1 ≤ n ∧ n ≤ m.groupCount

instance (n : Nat) : Decidable (IsGroup m n) := inferInstanceAs (Decidable (_ ∧ _))

/-- `Refers m written rest value`: behind a dollar, `written` before `rest` stands for `value`, or
asks for a group that there is not. -/
inductive Refers (m : Match s) : (written rest : List Char) → Option String → Prop
  | dollar {rest : List Char} : Refers m ['$'] rest (some "$")
  | whole {rest : List Char} : Refers m ['&'] rest (some m.text)
  | before {rest : List Char} : Refers m ['\x60'] rest (some (s.slice 0 m.start))
  | behind {rest : List Char} : Refers m ['\''] rest (some (s.slice m.stop s.size))
  | twoDigits {a b : Char} {rest : List Char} (digits : AreDigits [a, b])
    (known : IsGroup m (digitsValue [a, b])) :
    Refers m [a, b] rest (some (groupText m (digitsValue [a, b])))
  | oneDigit {a : Char} {rest : List Char} (digit : a.isDigit = true)
    (known : IsGroup m (digitsValue [a]))
    (longer : ∀ b ∈ rest.head?, b.isDigit = true → ¬IsGroup m (digitsValue [a, b])) :
    Refers m [a] rest (some (groupText m (digitsValue [a])))
  | zero {rest : List Char} (alone : ∀ b ∈ rest.head?, b.isDigit = false) :
    Refers m ['0'] rest (some "$0")
  | zeros {rest : List Char} : Refers m ['0', '0'] rest (some "$00")
  | unknownDigits {a b : Char} {rest : List Char} (digits : AreDigits [a, b])
    (one : ¬IsGroup m (digitsValue [a])) (two : ¬IsGroup m (digitsValue [a, b]))
    (nonzero : [a, b] ≠ ['0', '0']) : Refers m [a, b] rest none
  | unknownDigit {a : Char} {rest : List Char} (digit : a.isDigit = true)
    (alone : ∀ b ∈ rest.head?, b.isDigit = false) (unknown : ¬IsGroup m (digitsValue [a]))
    (nonzero : a ≠ '0') : Refers m [a] rest none
  | number {digits rest : List Char} (nonempty : digits ≠ []) (areDigits : AreDigits digits)
    (known : digitsValue digits ≤ m.groupCount) :
    Refers m ('\x7b' :: (digits ++ ['\x7d'])) rest (some (groupText m (digitsValue digits)))
  | unknownNumber {digits rest : List Char} (nonempty : digits ≠ []) (areDigits : AreDigits digits)
    (unknown : m.groupCount < digitsValue digits) :
    Refers m ('\x7b' :: (digits ++ ['\x7d'])) rest none
  | name {name rest : List Char} {n : Nat} (isName : IsName name) (unnumbered : ¬AreDigits name)
    (known : indexOfName? m.names (String.ofList name) = some n) :
    Refers m ('\x7b' :: (name ++ ['\x7d'])) rest (some (groupText m n))
  | unknownName {name rest : List Char} (isName : IsName name) (unnumbered : ¬AreDigits name)
    (unknown : indexOfName? m.names (String.ofList name) = none) :
    Refers m ('\x7b' :: (name ++ ['\x7d'])) rest none
  | literal {rest : List Char}
    (unsigned : ∀ c ∈ rest.head?, c ∉ ['$', '&', '\x60', '\''] ∧ c.isDigit = false)
    (unbraced : ∀ name more, IsName name → rest ≠ '\x7b' :: (name ++ '\x7d' :: more)) :
    Refers m [] rest (some "$")

/-- A part of a template, and what it stands for. -/
structure Item where
  written : List Char
  value : Option String

/-- The parts of a template, from left to right. -/
inductive ReadsAs (m : Match s) : List Char → List Item → Prop
  | done : ReadsAs m [] []
  | char {c : Char} {rest : List Char} {items : List Item} (plain : c ≠ '$')
    (others : ReadsAs m rest items) :
    ReadsAs m (c :: rest) (⟨[c], some (String.singleton c)⟩ :: items)
  | reference {written rest : List Char} {value : Option String} {items : List Item}
    (refers : Refers m written rest value) (others : ReadsAs m rest items) :
    ReadsAs m ('$' :: (written ++ rest)) (⟨'$' :: written, value⟩ :: items)

/-- The texts of the parts one behind the other. The first part that asks for a group that there is
not is an error. -/
def outcome (items : List Item) : Except Error String :=
  match items.find? (·.value.isNone) with
  | some item => .error (.undefinedGroup (String.ofList item.written))
  | none => .ok (String.join (items.map fun item => item.value.getD ""))

end Readings

section References

variable {written rest written' rest' tail : List Char} {value value' : Option String}

/-- What a reference is expanded to. -/
def Item.text (item : Item) : Except Error String :=
  match item.value with
  | some t => .ok t
  | none => .error (.undefinedGroup (String.ofList item.written))

section Digits

variable {a b : Char}

theorem isName_of_areDigits {digits : List Char} (nonempty : digits ≠ [])
    (areDigits : AreDigits digits) : IsName digits :=
  ⟨nonempty, fun c hc => by simp [Flags.isFlagChar, Char.isAlphanum, areDigits c hc]⟩

theorem valueOf_eq : valueOf = digitsValue := rfl

theorem value_eq_zero_iff (ha : a.isDigit = true) : a.toNat - '0'.toNat = 0 ↔ a = '0' := by
  have hlow : '0'.toNat ≤ a.toNat := by
    simp only [Char.isDigit, Bool.and_eq_true, decide_eq_true_eq] at ha
    exact ha.1
  rw [Nat.sub_eq_zero_iff_le]
  exact ⟨fun h => Char.toNat_inj.mp (Nat.le_antisymm h hlow), fun h => h ▸ Nat.le_refl _⟩

theorem digitsValue_single_eq_zero_iff (ha : a.isDigit = true) : digitsValue [a] = 0 ↔ a = '0' := by
  rw [← value_eq_zero_iff ha]
  simp [digitsValue]

theorem digitsValue_pair_eq_zero_iff (digits : AreDigits [a, b]) :
    digitsValue [a, b] = 0 ↔ [a, b] = ['0', '0'] := by
  have ha := value_eq_zero_iff (digits a (by simp))
  have hb := value_eq_zero_iff (digits b (by simp))
  simp only [List.cons.injEq, and_true, ← ha, ← hb, digitsValue, List.foldl_cons, List.foldl_nil]
  omega

theorem reference_of_isDigit {groups : Nat} {hasName : String → Bool} (ha : a.isDigit = true) :
    reference groups hasName (a :: rest) = numbered groups a rest := by
  have hne {c : Char} {tail : List Char} (hc : c.isDigit = false) : a :: rest ≠ c :: tail := by
    rintro ⟨⟩
    rw [ha] at hc
    cases hc
  unfold reference
  split
  · next h => exact absurd h (hne rfl)
  · next h => exact absurd h (hne rfl)
  · next h => exact absurd h (hne rfl)
  · next h => exact absurd h (hne rfl)
  · next h => exact absurd h (hne rfl)
  · next h =>
    obtain ⟨rfl, rfl⟩ := List.cons.inj h
    exact if_pos ha
  · next h => cases h

theorem isGroup_iff {n : Nat} :
    (decide (1 ≤ n) && decide (n ≤ m.groupCount)) = true ↔ IsGroup m n := by
  simp [IsGroup]

theorem numbered_pair (hb : b.isDigit = true) : numbered m.groupCount a (b :: rest) =
    if IsGroup m (digitsValue [a, b]) then (.group (digitsValue [a, b]), 2)
    else if IsGroup m (digitsValue [a]) then (.group (digitsValue [a]), 1)
    else if digitsValue [a, b] = 0 then (.literal ['$', a, b], 2) else (.undefined [a, b], 2) := by
  have hsecond : (some b).filter Char.isDigit = some b := if_pos hb
  simp only [numbered, List.head?_cons, hsecond]
  exact if_congr isGroup_iff rfl (if_congr isGroup_iff rfl rfl)

theorem numbered_single (alone : ∀ b ∈ rest.head?, b.isDigit = false) :
    numbered m.groupCount a rest =
    if IsGroup m (digitsValue [a]) then (.group (digitsValue [a]), 1)
    else if digitsValue [a] = 0 then (.literal ['$', a], 1) else (.undefined [a], 1) := by
  have hnone : rest.head?.filter Char.isDigit = none := by
    cases h : rest.head? with
    | none => rfl
    | some b => simp [alone b h]
  simp only [numbered, hnone]
  exact if_congr isGroup_iff rfl rfl

end Digits

section Braces

variable {groups : Nat} {hasName : String → Bool} {name body : List Char}

/-- What a name in braces refers to. -/
def bracedReference (groups : Nat) (hasName : String → Bool) (name : List Char) : Reference :=
  if AreDigits name then
    if digitsValue name ≤ groups then .group (digitsValue name)
    else .undefined ('\x7b' :: (name ++ ['\x7d']))
  else if hasName (String.ofList name) then .named (String.ofList name)
  else .undefined ('\x7b' :: (name ++ ['\x7d']))

theorem braced?_of_isName (isName : IsName name) :
    braced? groups hasName (name ++ '\x7d' :: rest) =
      some (bracedReference groups hasName name, name.length + 2) := by
  have hname : ∀ c ∈ name, (c != '\x7d') = true := fun c hc => by
    rw [bne_iff_ne]
    rintro rfl
    exact absurd (isName.2 _ hc) (by decide)
  have htake : (name ++ '\x7d' :: rest).takeWhile (· != '\x7d') = name :=
    takeWhile_append_eq hname (by simp)
  have hall : name.all Flags.isFlagChar = true := List.all_eq_true.mpr isName.2
  have hdigits : name.all Char.isDigit = true ↔ AreDigits name := List.all_eq_true
  have hopen : ¬(decide (name.length = name.length + (rest.length + 1)) || name.isEmpty || !true) =
      true := by
    simpa using isName.1
  simp only [braced?, htake, hall, List.length_append, List.length_cons, valueOf_eq]
  rw [if_neg hopen, bracedReference]
  simp only [hdigits]
  split <;> split <;> rfl

theorem reference_of_isName (isName : IsName name) :
    reference groups hasName ('\x7b' :: (name ++ ['\x7d']) ++ rest) =
      (bracedReference groups hasName name, ('\x7b' :: (name ++ ['\x7d'])).length) := by
  have hlength : ('\x7b' :: (name ++ ['\x7d'])).length = name.length + 2 := by simp
  have happend : name ++ ['\x7d'] ++ rest = name ++ '\x7d' :: rest := by simp
  rw [hlength, List.cons_append, happend, reference, braced?_of_isName isName]
  rfl

theorem braced?_eq_none (unbraced : ∀ name more, IsName name → body ≠ name ++ '\x7d' :: more) :
    braced? groups hasName body = none := by
  rw [braced?]
  dsimp only
  rw [if_pos]
  by_contra h
  simp only [Bool.or_eq_true, decide_eq_true_eq, not_or, Bool.not_eq_true, Bool.not_eq_false'] at h
  obtain ⟨⟨hlength, hne⟩, hall⟩ := h
  obtain ⟨rest, hbody, hhead⟩ := eq_takeWhile_append (· != '\x7d') body
  cases rest with
  | nil => exact hlength (by rw [List.append_nil] at hbody; rw [← hbody])
  | cons c rest =>
    obtain rfl : c = '\x7d' := by simpa using hhead
    exact unbraced _ rest ⟨by simpa using hne, List.all_eq_true.mp hall⟩ hbody

end Braces

/-- The expansion takes a reference as the reading does. -/
theorem reference_of_refers (h : Refers m written rest value) :
    ∃ r, reference m.groupCount m.hasName (written ++ rest) = (r, written.length) ∧
      r.text m = Item.text ⟨'$' :: written, value⟩ := by
  cases h with
  | dollar => exact ⟨_, rfl, rfl⟩
  | whole => exact ⟨_, rfl, rfl⟩
  | before => exact ⟨_, rfl, rfl⟩
  | behind => exact ⟨_, rfl, rfl⟩
  | @twoDigits a b _ digits known =>
    refine ⟨.group (digitsValue [a, b]), ?_, rfl⟩
    exact (reference_of_isDigit (digits a (by simp))).trans
      ((numbered_pair (digits b (by simp))).trans (if_pos known))
  | @oneDigit a _ digit known longer =>
    refine ⟨.group (digitsValue [a]), (reference_of_isDigit digit).trans ?_, rfl⟩
    cases rest with
    | nil => exact (numbered_single (by simp)).trans (if_pos known)
    | cons b rest =>
      by_cases hb : b.isDigit = true
      · exact (numbered_pair hb).trans ((if_neg (longer b rfl hb)).trans (if_pos known))
      · exact (numbered_single (by simpa using hb)).trans (if_pos known)
  | zero alone =>
    exact ⟨.literal ['$', '0'], (reference_of_isDigit rfl).trans (numbered_single alone), rfl⟩
  | zeros =>
    exact ⟨.literal ['$', '0', '0'], (reference_of_isDigit rfl).trans (numbered_pair rfl), rfl⟩
  | @unknownDigits a b _ digits one two nonzero =>
    refine ⟨.undefined [a, b], (reference_of_isDigit (digits a (by simp))).trans
      ((numbered_pair (digits b (by simp))).trans ?_), rfl⟩
    rw [if_neg two, if_neg one,
      if_neg fun h => nonzero ((digitsValue_pair_eq_zero_iff digits).mp h)]
    rfl
  | @unknownDigit a _ digit alone unknown nonzero =>
    refine ⟨.undefined [a],
      (reference_of_isDigit digit).trans ((numbered_single alone).trans ?_), rfl⟩
    rw [if_neg unknown, if_neg fun h => nonzero ((digitsValue_single_eq_zero_iff digit).mp h)]
    rfl
  | number nonempty areDigits known =>
    refine ⟨_, reference_of_isName (isName_of_areDigits nonempty areDigits), ?_⟩
    rw [bracedReference, if_pos areDigits, if_pos known]
    rfl
  | unknownNumber nonempty areDigits unknown =>
    refine ⟨_, reference_of_isName (isName_of_areDigits nonempty areDigits), ?_⟩
    rw [bracedReference, if_pos areDigits, if_neg (Nat.not_le.mpr unknown)]
    rfl
  | name isName unnumbered known =>
    have hknown : m.hasName _ = true := congrArg Option.isSome known
    refine ⟨_, reference_of_isName isName, ?_⟩
    rw [bracedReference, if_neg unnumbered, if_pos hknown, Reference.text, Match.named?, known]
    rfl
  | unknownName isName unnumbered unknown =>
    have hunknown : ¬m.hasName _ = true :=
      (congrArg Option.isSome unknown).trans_ne Bool.false_ne_true
    refine ⟨_, reference_of_isName isName, ?_⟩
    rw [bracedReference, if_neg unnumbered, if_neg hunknown]
    rfl
  | literal unsigned unbraced =>
    refine ⟨.literal ['$'], ?_, rfl⟩
    rw [List.nil_append, reference.eq_def]
    split
    · exact absurd (unsigned _ rfl).1 (by decide)
    · exact absurd (unsigned _ rfl).1 (by decide)
    · exact absurd (unsigned _ rfl).1 (by decide)
    · exact absurd (unsigned _ rfl).1 (by decide)
    · rw [braced?_eq_none fun name more isName h => unbraced name more isName (congrArg _ h)]
      rfl
    · rw [(unsigned _ rfl).2]
      rfl
    · rfl

theorem exists_refers_of_alone {a : Char} (digit : a.isDigit = true) (rest : List Char)
    (alone : ∀ b ∈ rest.head?, b.isDigit = false) : ∃ value, Refers m [a] rest value := by
  by_cases known : IsGroup m (digitsValue [a])
  · exact ⟨_, .oneDigit digit known fun b hb hdigit => by simp [alone b hb] at hdigit⟩
  · by_cases hzero : a = '0'
    · subst hzero
      exact ⟨_, .zero alone⟩
    · exact ⟨_, .unknownDigit digit alone known hzero⟩

theorem exists_refers_of_isDigit {a : Char} (digit : a.isDigit = true) (rest : List Char) :
    ∃ written more value, a :: rest = written ++ more ∧ Refers m written more value := by
  cases rest with
  | nil =>
    obtain ⟨value, refers⟩ := exists_refers_of_alone (m := m) digit [] (by simp)
    exact ⟨[a], [], value, rfl, refers⟩
  | cons b rest =>
    by_cases hb : b.isDigit = true
    · have digits : AreDigits [a, b] := by simp [AreDigits, digit, hb]
      by_cases two : IsGroup m (digitsValue [a, b])
      · exact ⟨[a, b], rest, _, rfl, .twoDigits digits two⟩
      · by_cases one : IsGroup m (digitsValue [a])
        · refine ⟨[a], b :: rest, _, rfl, .oneDigit digit one ?_⟩
          rintro _ ⟨⟩ -
          exact two
        · by_cases hzero : [a, b] = ['0', '0']
          · obtain ⟨rfl, rfl⟩ : a = '0' ∧ b = '0' := by simpa using hzero
            exact ⟨['0', '0'], rest, _, rfl, .zeros⟩
          · exact ⟨[a, b], rest, _, rfl, .unknownDigits digits one two hzero⟩
    · obtain ⟨value, refers⟩ :=
        exists_refers_of_alone (m := m) digit (b :: rest) (by simpa using hb)
      exact ⟨[a], b :: rest, value, rfl, refers⟩

theorem exists_refers_of_isName {name : List Char} (isName : IsName name) (rest : List Char) :
    ∃ value, Refers m ('\x7b' :: (name ++ ['\x7d'])) rest value := by
  by_cases digits : AreDigits name
  · by_cases known : digitsValue name ≤ m.groupCount
    · exact ⟨_, .number isName.1 digits known⟩
    · exact ⟨_, .unknownNumber isName.1 digits (Nat.not_le.mp known)⟩
  · cases index : indexOfName? m.names (String.ofList name) with
    | some n => exact ⟨_, .name isName digits index⟩
    | none => exact ⟨_, .unknownName isName digits index⟩

/-- Whatever stands behind a dollar, it is read in some way. -/
theorem exists_refers (tail : List Char) :
    ∃ written rest value, tail = written ++ rest ∧ Refers m written rest value := by
  cases tail with
  | nil => exact ⟨[], [], _, rfl, .literal (by simp) (by simp)⟩
  | cons c rest =>
    by_cases digit : c.isDigit = true
    · exact exists_refers_of_isDigit digit rest
    · by_cases sign : c ∈ ['$', '&', '\x60', '\'']
      · simp only [List.mem_cons, List.not_mem_nil, or_false] at sign
        rcases sign with rfl | rfl | rfl | rfl
        · exact ⟨['$'], rest, _, rfl, .dollar⟩
        · exact ⟨['&'], rest, _, rfl, .whole⟩
        · exact ⟨['\x60'], rest, _, rfl, .before⟩
        · exact ⟨['\''], rest, _, rfl, .behind⟩
      · by_cases braced : ∃ name more, IsName name ∧ c :: rest = '\x7b' :: (name ++ '\x7d' :: more)
        · obtain ⟨name, more, isName, heq⟩ := braced
          obtain ⟨value, refers⟩ := exists_refers_of_isName (m := m) isName more
          exact ⟨_, more, value, by simp [heq], refers⟩
        · refine ⟨[], c :: rest, _, rfl, .literal ?_ fun name more isName heq =>
            braced ⟨name, more, isName, heq⟩⟩
          rintro _ ⟨⟩
          exact ⟨sign, by simpa using digit⟩

end References

section Runs

variable {written rest written' rest' cs : List Char} {value value' : Option String}
  {item : Item} {items items' : List Item}

/-- There is one way to read what stands behind a dollar. -/
theorem Refers.unique (h : Refers m written rest value) (h' : Refers m written' rest' value')
    (same : written ++ rest = written' ++ rest') :
    written' = written ∧ rest' = rest ∧ value' = value := by
  obtain ⟨r, hr, htext⟩ := reference_of_refers h
  obtain ⟨r', hr', htext'⟩ := reference_of_refers h'
  rw [← same, hr] at hr'
  obtain ⟨rfl, hlength⟩ := Prod.mk.inj hr'
  obtain ⟨rfl, rfl⟩ := List.append_inj same hlength
  rw [htext] at htext'
  refine ⟨rfl, rfl, ?_⟩
  cases value <;> cases value' <;> simp_all [Item.text]

theorem exists_readsAs (m : Match s) (cs : List Char) : ∃ items, ReadsAs m cs items := by
  induction hn : cs.length using Nat.strongRecOn generalizing cs with
  | ind n ih =>
    cases cs with
    | nil => exact ⟨[], .done⟩
    | cons c rest =>
      by_cases hc : c = '$'
      · subst hc
        obtain ⟨written, more, value, rfl, refers⟩ := exists_refers (m := m) rest
        have hshorter : more.length < n := by
          rw [← hn, List.length_cons, List.length_append]
          omega
        obtain ⟨items, others⟩ := ih more.length hshorter more rfl
        exact ⟨_, .reference refers others⟩
      · obtain ⟨items, others⟩ := ih rest.length (by rw [← hn]; exact Nat.lt_succ_self _) rest rfl
        exact ⟨_, .char hc others⟩

theorem ReadsAs.unique (h : ReadsAs m cs items) (h' : ReadsAs m cs items') : items' = items := by
  induction h generalizing items' with
  | done => cases h'; rfl
  | char plain others ih =>
    cases h' with
    | char _ others' => rw [ih others']
    | reference => exact absurd rfl plain
  | @reference written rest value items refers others ih =>
    generalize hcs : '$' :: (written ++ rest) = cs at h'
    cases h' with
    | done => cases hcs
    | char plain _ => exact absurd (List.cons.inj hcs).1.symm plain
    | reference refers' others' =>
      obtain ⟨rfl, rfl, rfl⟩ := refers.unique refers' (List.cons.inj hcs).2
      rw [ih others']

/-- Every character is read once. -/
theorem ReadsAs.flatMap_written (h : ReadsAs m cs items) : items.flatMap (·.written) = cs := by
  induction h with
  | done => rfl
  | char plain others ih => rw [List.flatMap_cons, ih]; rfl
  | reference refers others ih => rw [List.flatMap_cons, ih]; simp

theorem outcome_cons (item : Item) (items : List Item) :
    outcome (item :: items) = item.text.bind fun t => (outcome items).map (t ++ ·) := by
  obtain ⟨written, value⟩ := item
  cases value with
  | none => rfl
  | some t =>
    have hfind : (⟨written, some t⟩ :: items).find? (·.value.isNone) =
        items.find? (·.value.isNone) := rfl
    simp only [outcome, Item.text, hfind, Except.bind]
    cases items.find? (·.value.isNone) with
    | some item => rfl
    | none => simp [Except.map]

theorem exists_outcome_eq_error_iff :
    (∃ e, outcome items = .error e) ↔ ∃ item ∈ items, item.value = none := by
  rw [outcome]
  cases hfind : items.find? (·.value.isNone) with
  | some item =>
    refine iff_of_true ⟨_, rfl⟩ ⟨item, List.mem_of_find?_eq_some hfind, ?_⟩
    simpa using List.find?_some hfind
  | none =>
    refine iff_of_false (by simp) ?_
    rintro ⟨item, hmem, hvalue⟩
    simpa [hvalue] using List.find?_eq_none.mp hfind item hmem

/-- Expanding follows the reading. -/
theorem ReadsAs.expandList_eq (h : ReadsAs m cs items) : expandList m cs = outcome items := by
  induction h with
  | done => rw [expandList]; rfl
  | char plain others ih =>
    rw [expandList, if_neg plain, ih, outcome_cons]
    cases outcome _ <;> rfl
  | @reference written rest value items refers others ih =>
    obtain ⟨r, hr, htext⟩ := reference_of_refers refers
    rw [expandList, if_pos rfl, hr, outcome_cons, ← htext]
    dsimp only
    rw [List.drop_left, ih]
    cases r.text m with
    | error e => rfl
    | ok t => cases outcome items <;> rfl

end Runs

/-- Every template has one reading from left to right, which takes each character once, and it is
expanded to what its parts stand for. So expanding fails exactly where a part asks for a group that
there is not, and never on a dollar that starts no reference. -/
theorem expand_eq_outcome (template : String) (m : Match s) :
    ∃ items : List Item, (∀ items', ReadsAs m template.toList items' ↔ items' = items) ∧
      items.flatMap (·.written) = template.toList ∧ expand template m = outcome items ∧
      ((∃ e, expand template m = .error e) ↔ ∃ item ∈ items, item.value = none) := by
  obtain ⟨items, reading⟩ := exists_readsAs m template.toList
  have hexpand : expand template m = outcome items := reading.expandList_eq
  refine ⟨items, fun items' => ⟨reading.unique, ?_⟩, reading.flatMap_written, hexpand, ?_⟩
  · rintro rfl
    exact reading
  · rw [hexpand, exists_outcome_eq_error_iff]

end Patterns.Template
