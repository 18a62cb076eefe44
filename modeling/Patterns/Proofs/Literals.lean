import Patterns.Proofs.LiteralParts

/-!
# Literal text under every flag

Escaped text is read as it stands, whatever the flags and the subpatterns are, and the text comes
back from it when the escapes are undone. It is the text itself exactly where nothing was escaped.
-/
namespace Patterns
open Patterns.Text Patterns.Extended

namespace Literal

variable {c : Char} {r t : List Char}

/-- Undoes escapes. A backslash, an x and a hexadecimal number in braces are the character of that
code; any other backslash stands for the character behind it. -/
def unescape : List Char → List Char
  | [] => []
  | '\\' :: 'x' :: '\x7b' :: cs =>
    let digits := cs.takeWhile isHex
    if !digits.isEmpty && cs[digits.length]? == some '\x7d' then
      Char.ofNat (Plain.Reader.hexValue digits) :: unescape (cs.drop (digits.length + 1))
    else 'x' :: unescape ('\x7b' :: cs)
  | '\\' :: c :: cs => c :: unescape cs
  | c :: cs => c :: unescape cs
  termination_by cs => cs.length
  decreasing_by all_goals simp only [List.length_drop, List.length_cons]; omega

section Numbers

/-- The digits that the code of a character is escaped with. -/
def codeDigits (n : Nat) : List Char := (Nat.toDigits 16 n).map Char.toUpper

private theorem codeDigit : ∀ k < 16, isHex (Nat.digitChar k).toUpper = true ∧
    Plain.Reader.hexValue [(Nat.digitChar k).toUpper] = k := by decide

theorem isHex_of_mem_codeDigits {n : Nat} : ∀ d ∈ codeDigits n, isHex d = true := by
  intro d hd
  obtain ⟨d, hmem, rfl⟩ := List.mem_map.mp hd
  obtain ⟨k, hk, rfl⟩ := mem_toDigits_sixteen hmem
  exact (codeDigit k hk).1

theorem codeDigits_ne_nil (n : Nat) : codeDigits n ≠ [] := by
  simp [codeDigits, Nat.toDigits_ne_nil]

theorem hexValue_concat (ds : List Char) (d : Char) :
    Plain.Reader.hexValue (ds ++ [d]) =
      16 * Plain.Reader.hexValue ds + Plain.Reader.hexValue [d] := by
  simp [Plain.Reader.hexValue]

theorem hexValue_codeDigits (n : Nat) : Plain.Reader.hexValue (codeDigits n) = n := by
  induction n using Nat.strongRecOn with
  | ind n ih =>
    rcases Nat.lt_or_ge n 16 with h | h
    · rw [codeDigits, Nat.toDigits_of_lt_base h]
      exact (codeDigit n h).2
    · have hdigits : codeDigits n = codeDigits (n / 16) ++ [(Nat.digitChar (n % 16)).toUpper] := by
        simp [codeDigits, Nat.toDigits_of_base_le (by decide) h]
      rw [hdigits, hexValue_concat, ih (n / 16) (by omega),
        (codeDigit (n % 16) (Nat.mod_lt n (by decide))).2]
      omega

end Numbers

section Characters

theorem unescape_cons (hc : c ≠ '\\') : unescape (c :: r) = c :: unescape r := by
  rw [unescape.eq_def]
  split <;> simp_all

theorem unescape_backslash (hc : c ≠ 'x') : unescape ('\\' :: c :: r) = c :: unescape r := by
  rw [unescape]
  exact fun _ h => absurd h hc

theorem unescape_code (n : Nat) :
    unescape ('\\' :: 'x' :: '\x7b' :: (codeDigits n ++ '\x7d' :: r)) =
      Char.ofNat n :: unescape r := by
  have htake : (codeDigits n ++ '\x7d' :: r).takeWhile isHex = codeDigits n :=
    takeWhile_append_eq isHex_of_mem_codeDigits (by simp [show isHex '\x7d' = false by decide])
  rw [unescape]
  have hdrop : (codeDigits n ++ '\x7d' :: r).drop ((codeDigits n).length + 1) = r := by
    rw [← List.drop_drop, List.drop_left]
    rfl
  simp only [htake, hdrop, hexValue_codeDigits]
  simp [codeDigits_ne_nil]

theorem escapeChar_eq_code (hc : (isBlank c && c != ' ') = true) :
    escapeChar c = '\\' :: 'x' :: '\x7b' :: (codeDigits c.toNat ++ ['\x7d']) := by
  rw [escapeChar, if_pos hc]
  rfl

/-- An escaped character comes back, whatever stands behind it. -/
theorem unescape_escapeChar : unescape (escapeChar c ++ r) = c :: unescape r := by
  by_cases hblank : (isBlank c && c != ' ') = true
  · simp only [escapeChar_eq_code hblank, List.cons_append, List.append_assoc, List.nil_append]
    rw [unescape_code, Char.ofNat_toNat]
  · by_cases hmeta : metacharacters.contains c = true
    · have hx : c ≠ 'x' := by
        rintro rfl
        exact absurd hmeta (by decide)
      rw [escapeChar, if_neg hblank, if_pos hmeta]
      exact unescape_backslash hx
    · have hbackslash : c ≠ '\\' := by
        rintro rfl
        exact absurd (by decide) hmeta
      rw [escapeChar, if_neg hblank, if_neg hmeta]
      exact unescape_cons hbackslash

theorem unescape_escapeList (t : List Char) : unescape (escapeList t) = t := by
  induction t with
  | nil => simp [escapeList, unescape]
  | cons c t ih =>
    rw [escapeList, List.flatMap_cons, unescape_escapeChar]
    exact congrArg (c :: ·) ih

/-- A character that has to be escaped is written longer than it is. -/
theorem escapeChar_eq_or :
    (isBlank c = false ∧ c ∉ metacharacters) ∧ escapeChar c = [c] ∨
      ¬(isBlank c = false ∧ c ∉ metacharacters) ∧ 1 < (escapeChar c).length := by
  by_cases hblank : (isBlank c && c != ' ') = true
  · refine .inr ⟨by simp_all, ?_⟩
    rw [escapeChar_eq_code hblank]
    simp
  · by_cases hmeta : c ∈ metacharacters
    · exact .inr ⟨fun h => h.2 hmeta, by simp [escapeChar, hblank, hmeta]⟩
    · have hspace : c ≠ ' ' := by
        rintro rfl
        exact absurd (by decide) hmeta
      exact .inl ⟨⟨by simpa [hspace] using hblank, hmeta⟩, by simp [escapeChar, hblank, hmeta]⟩

theorem length_le_escapeList (t : List Char) : t.length ≤ (escapeList t).length := by
  induction t with
  | nil => simp
  | cons c t ih =>
    rw [escapeList, List.flatMap_cons, List.length_append, List.length_cons]
    have hpos := List.length_pos_iff.mpr (escapeChar_ne_nil c)
    change t.length ≤ (t.flatMap escapeChar).length at ih
    omega

theorem escapeList_eq_self_iff :
    escapeList t = t ↔ ∀ c ∈ t, isBlank c = false ∧ c ∉ metacharacters := by
  induction t with
  | nil => simp [escapeList]
  | cons c t ih =>
    have hcons : escapeList (c :: t) = escapeChar c ++ escapeList t := List.flatMap_cons
    rw [List.forall_mem_cons, ← ih, hcons]
    rcases escapeChar_eq_or (c := c) with ⟨hplain, hc⟩ | ⟨hplain, hlong⟩
    · rw [hc, List.singleton_append, List.cons_inj_right]
      exact (and_iff_right hplain).symm
    · have hle := length_le_escapeList t
      refine iff_of_false (fun h => ?_) fun h => hplain h.1
      have hlength := congrArg List.length h
      rw [List.length_append, List.length_cons] at hlength
      omega

theorem isPlain_iff {text : String} : isPlain text = true ↔ escape text = text := by
  have hplain : isPlain text = true ↔ escapeList text.toList = text.toList := by
    simp [isPlain, escapeList_eq_self_iff]
  rw [hplain, escape, ← String.toList_inj, String.toList_ofList]

theorem escape_append (a b : String) : escape (a ++ b) = escape a ++ escape b := by
  simp [escape, escapeList_append]

end Characters

end Literal

section Readings

variable {e : Setting} {limit : Nat} {c : Context} {t : List Char}

@[simp] theorem Extended.Scan.context_past (s : Scan) (t : List Char) :
    (s.past t).context = s.context := by
  induction t generalizing s with
  | nil => rfl
  | cons c t ih => exact ih _

/-- Without tokens escaped text is written as it stands, and nothing is recorded. -/
theorem Extended.toPlain_escapeList (tokens : e.dialect.tokens = [])
    (pattern : e.pattern.toList = Literal.escapeList t) :
    e.toPlain limit c = .ok (Literal.escapeList t, c) := by
  have hrest : (Scan.start e.pattern c).rest = Literal.escapeList t ++ [] := by
    rw [List.append_nil, ← pattern]
    rfl
  have hrun : Run e (.start e.pattern c) 0 ((Scan.start e.pattern c).past t) :=
    run_past rfl hrest (.of_nil tokens)
  rw [hrun.toPlain limit.zero_le (Scan.rest_past hrest), Scan.written_past, Scan.context_past]
  rfl

end Readings

namespace Engine

variable {g : Engine} {t flags : String}

/-- Compiling escaped text, with subpatterns or without, hands it to the host as it stands, without
groups and with the flags that were given. Undoing the escapes gives the text; escaping goes text by
text, and changes a text unless it is called plain. -/
theorem compile_escape (tokens : g.dialect.tokens = []) (idle : g.compiling = false)
    (distinct : flags.toList.Nodup)
    (known : ∀ c ∈ flags.toList, c ∈ PlainFlags.letters ++ Flags.extended) :
    (∀ subpatterns limit, Setting.toPlain ⟨g.dialect, g.surroundings, subpatterns, Literal.escape t⟩
      limit (.ofFlags flags) = .ok ((Literal.escape t).toList, .ofFlags flags)) ∧
    ((compile (Literal.escape t) flags).run.run g).1 =
      Matcher.ofCompiled (Literal.escape t) (.ofList flags.toList) [] (Literal.escape t) flags ∧
    (∀ subpatterns, ((build (Literal.escape t) subpatterns flags).run.run g).1 =
      Matcher.ofCompiled (Literal.escape t) (.ofList flags.toList) [] (Literal.escape t) flags) ∧
    Literal.unescape (Literal.escape t).toList = t.toList ∧
    (∀ u, Literal.escape (t ++ u) = Literal.escape t ++ Literal.escape u) ∧
    (Literal.isPlain t = true ↔ Literal.escape t = t) := by
  have hescape : (Literal.escape t).toList = Literal.escapeList t.toList := by simp [Literal.escape]
  have hplain (subpatterns : Option Subpatterns) (limit : Nat) :
      Setting.toPlain ⟨g.dialect, g.surroundings, subpatterns, Literal.escape t⟩ limit
        (.ofFlags flags) = .ok ((Literal.escape t).toList, .ofFlags flags) := by
    rw [hescape]
    exact toPlain_escapeList tokens hescape
  have hvalid : Flags.validate g.dialect.flags flags = .ok () :=
    Flags.validate_eq_ok_iff.mpr ⟨distinct, fun c hc => by
      rcases List.mem_append.mp (known c hc) with hc | hc <;> simp [Flags.isKnown, hc]⟩
  have hcompile (subpatterns : Option Subpatterns) :
      ((compileWith (Literal.escape t) flags subpatterns).run.run g).1 = Matcher.ofCompiled
        (Literal.escape t) (.ofList flags.toList) [] (Literal.escape t) flags := by
    obtain ⟨trace, hrun⟩ := exists_run_compileWith idle (Literal.escape t) flags subpatterns
    rw [hrun, compile_of_toPlain hvalid (hplain subpatterns _), String.ofList_toList]
    rfl
  exact ⟨hplain, hcompile none, fun subpatterns => hcompile _,
    by rw [hescape, Literal.unescape_escapeList], Literal.escape_append t, Literal.isPlain_iff⟩

/-- Neither a mode, a blank, a name in braces nor a reference is read in escaped text. -/
theorem compile_escape_spaced :
    let t := "(?i)\u00a0\x7b\x7bs\x7d\x7d\\1"
    let source := "\\(\\?i\\)\\x\x7bA0\x7d\\\x7b\\\x7bs\\\x7d\\\x7d\\\\1"
    "nx".toList.Nodup ∧ (∀ c ∈ "nx".toList, c ∈ PlainFlags.letters ++ Flags.extended) ∧
    Literal.escape t = source ∧ Literal.unescape source.toList = t.toList ∧
    ∃ m, ((build source [("s", .text "b")] "nx").run.run {}).1 = .ok m ∧ m.source = source ∧
      m.names = [] := by
  intro t source
  have hescape : Literal.escape t = source := by decide +kernel
  have distinct : "nx".toList.Nodup := by decide
  have known : ∀ c ∈ "nx".toList, c ∈ PlainFlags.letters ++ Flags.extended := by
    simp [PlainFlags.letters, Flags.extended]
  obtain ⟨-, -, hbuild, hback, -⟩ :=
    compile_escape (g := {}) (t := t) rfl rfl distinct known
  obtain ⟨m, hm⟩ : ∃ m, Matcher.ofCompiled source (.ofList "nx".toList) [] source "nx" = .ok m :=
    Matcher.exists_ofCompiled source "nx" (by decide +kernel)
  rw [hescape] at hbuild hback
  obtain ⟨hsource, hnames⟩ := Matcher.eq_of_ofCompiled hm
  exact ⟨distinct, known, hescape, hback, m, (hbuild _).trans hm, hsource, hnames⟩

end Engine

end Patterns
