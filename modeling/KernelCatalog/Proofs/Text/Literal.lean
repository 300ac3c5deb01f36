import KernelCatalog.Text.Quoted
import Mathlib.Tactic.IntervalCases

/-!
# Reading quoted text

`Text.unquote` reads a literal up to the quote that closes it and undoes its escapes: those of one
letter, a number below 128 in two hexadecimal digits behind `x`, and a number of up to six
hexadecimal digits between braces behind `u`. What `Text.quote` writes is read back, whatever
characters the text holds.

* `unquote_quoteChars`: a quoted text is read back and ends at its own quote.
* `newline_not_mem_quote`: a quoted text stands on one line.
-/

namespace KernelCatalog.Text

/-- Where the reader of a literal stands. -/
inductive LiteralMode where
  | plain
  /-- Behind a backslash. -/
  | escape
  /-- Behind `x`, with the first digit once it is read. -/
  | byte (high : Option Nat)
  /-- Behind `u`. -/
  | brace
  /-- Between the braces, with the number and the count of the digits that are read. -/
  | number (value count : Nat)
  deriving DecidableEq, Repr

/-- The character that a letter behind a backslash stands for. -/
def letterEscape? (c : Char) : Option Char :=
  [('0', '\x00'), ('t', '\t'), ('r', '\r'), ('n', '\n'), ('"', '"'), ('\x27', '\x27'),
    ('\\', '\\')].lookup c

/-- The characters of a literal up to its closing quote, and what follows the quote. -/
def unquote : LiteralMode → List Char → Option (List Char × List Char)
  | _, [] => none
  | .plain, c :: rest =>
    if c = '"' then some ([], rest)
    else if c = '\\' then unquote .escape rest
    else if c = '\r' then none
    else (unquote .plain rest).map fun (cs, left) => (c :: cs, left)
  | .escape, c :: rest =>
    if c = 'x' then unquote (.byte none) rest
    else if c = 'u' then unquote .brace rest
    else
      match letterEscape? c with
      | none => none
      | some meant => (unquote .plain rest).map fun (cs, left) => (meant :: cs, left)
  | .byte high, c :: rest =>
    match high, hexDigit? c with
    | none, some digit => unquote (.byte (some digit)) rest
    | some high, some digit =>
      if high < 8 then
        (unquote .plain rest).map fun (cs, left) => (Char.ofNat (high * 16 + digit) :: cs, left)
      else none
    | _, none => none
  | .brace, c :: rest => if c = '\x7b' then unquote (.number 0 0) rest else none
  | .number value count, c :: rest =>
    if c = '\x7d' then
      if 0 < count ∧ value.isValidChar then
        (unquote .plain rest).map fun (cs, left) => (Char.ofNat value :: cs, left)
      else none
    else if c = '_' ∧ 0 < count then unquote (.number value count) rest
    else
      match hexDigit? c with
      | none => none
      | some digit =>
        if count < 6 then unquote (.number (value * 16 + digit) (count + 1)) rest else none

/-! ## Hexadecimal digits -/

theorem hexDigit?_digitChar {d : Nat} (h : d < 16) : hexDigit? d.digitChar = some d := by
  interval_cases d <;> rfl

theorem digitChar_ne {d : Nat} (h : d < 16) :
    d.digitChar ≠ '\x7d' ∧ d.digitChar ≠ '_' ∧ d.digitChar ≠ '\n' := by
  interval_cases d <;> decide

/-- One digit more is read. -/
theorem unquote_digitChar {d value count : Nat} (hd : d < 16) (hcount : count < 6)
    (rest : List Char) :
    unquote (.number value count) (d.digitChar :: rest) =
      unquote (.number (value * 16 + d) (count + 1)) rest := by
  obtain ⟨hbrace, hunderscore, -⟩ := digitChar_ne hd
  rw [unquote, if_neg hbrace, if_neg fun h => hunderscore h.1, hexDigit?_digitChar hd]
  exact if_pos hcount

/-- The digits of a number are read as the number. -/
theorem unquote_toDigits (n : Nat) (h : (Nat.toDigits 16 n).length ≤ 6) (rest : List Char) :
    unquote (.number 0 0) (Nat.toDigits 16 n ++ rest) =
      unquote (.number n (Nat.toDigits 16 n).length) rest := by
  induction n using Nat.strongRecOn generalizing rest with
  | ind n ih =>
    rcases Nat.lt_or_ge n 16 with hn | hn
    · rw [Nat.toDigits_of_lt_base hn, List.singleton_append, unquote_digitChar hn (by decide),
        Nat.zero_mul, Nat.zero_add]
      rfl
    · rw [Nat.toDigits_of_base_le (by decide) hn] at h ⊢
      rw [List.length_append, List.length_singleton] at h ⊢
      rw [List.append_assoc, List.singleton_append, ih (n / 16) (by omega) (by omega),
        unquote_digitChar (Nat.mod_lt _ (by decide)) (by omega), Nat.div_add_mod']

/-- The characters of the digits of a number. -/
theorem newline_not_mem_toDigits (n : Nat) : '\n' ∉ Nat.toDigits 16 n := by
  induction n using Nat.strongRecOn with
  | ind n ih =>
    rcases Nat.lt_or_ge n 16 with hn | hn
    · rw [Nat.toDigits_of_lt_base hn, List.mem_singleton]
      exact (digitChar_ne hn).2.2.symm
    · rw [Nat.toDigits_of_base_le (by decide) hn, List.mem_append, List.mem_singleton, not_or]
      exact ⟨ih (n / 16) (by omega), (digitChar_ne (Nat.mod_lt _ (by decide))).2.2.symm⟩

/-! ## Quoted text -/

/-- A character that is escaped by a letter is read back. -/
theorem unquote_letter {c letter : Char} (h : letterEscape? letter = some c) (hx : letter ≠ 'x')
    (hu : letter ≠ 'u') (rest : List Char) :
    unquote .plain ('\\' :: letter :: rest) =
      (unquote .plain rest).map fun (cs, left) => (c :: cs, left) := by
  rw [unquote, if_neg (by decide), if_pos rfl, unquote, if_neg hx, if_neg hu, h]

/-- A character that is escaped by its number is read back. -/
theorem unquote_escaped_number (c : Char) (rest : List Char) :
    unquote .plain ('\\' :: 'u' :: '\x7b' :: (Nat.toDigits 16 c.toNat ++ ['\x7d']) ++ rest) =
      (unquote .plain rest).map fun (cs, left) => (c :: cs, left) := by
  have hvalid : c.toNat.isValidChar := c.valid
  have hlength : (Nat.toDigits 16 c.toNat).length ≤ 6 := by
    rw [Nat.length_toDigits_le_iff (by decide) (by decide)]
    have hlt : c.toNat < 0x110000 := by
      rcases hvalid with h | h
      · omega
      · exact h.2
    omega
  have hpos : 0 < (Nat.toDigits 16 c.toNat).length := Nat.length_toDigits_pos
  rw [List.cons_append, List.cons_append, List.cons_append, List.append_assoc,
    List.singleton_append, unquote, if_neg (by decide), if_pos rfl, unquote, if_neg (by decide),
    if_pos rfl, unquote, if_pos rfl, unquote_toDigits _ hlength, unquote, if_pos rfl,
    if_pos ⟨hpos, hvalid⟩, Char.ofNat_toNat]

/-- A quoted character is read back. -/
theorem unquote_quoteChar (c : Char) (rest : List Char) :
    unquote .plain (quoteChar c ++ rest) =
      (unquote .plain rest).map fun (cs, left) => (c :: cs, left) := by
  unfold quoteChar
  split_ifs with hzero htab hreturn hnewline hquote hbackslash hhidden
  · exact unquote_letter (by rw [hzero]; rfl) (by decide) (by decide) rest
  · exact unquote_letter (by rw [htab]; rfl) (by decide) (by decide) rest
  · exact unquote_letter (by rw [hreturn]; rfl) (by decide) (by decide) rest
  · exact unquote_letter (by rw [hnewline]; rfl) (by decide) (by decide) rest
  · exact unquote_letter (by rw [hquote]; rfl) (by decide) (by decide) rest
  · exact unquote_letter (by rw [hbackslash]; rfl) (by decide) (by decide) rest
  · exact unquote_escaped_number c rest
  · rw [List.singleton_append, unquote, if_neg hquote, if_neg hbackslash, if_neg hreturn]

/-- **A quoted text is read back** and ends at its own quote. -/
theorem unquote_quoteChars (cs rest : List Char) :
    unquote .plain (quoteChars cs ++ '"' :: rest) = some (cs, rest) := by
  induction cs with
  | nil => rfl
  | cons c cs ih =>
    rw [quoteChars, List.flatMap_cons, List.append_assoc, unquote_quoteChar, ← quoteChars, ih]
    rfl

/-- **A quoted text stands on one line.** -/
theorem newline_not_mem_quote (text : String) : '\n' ∉ (quote text).toList := by
  have hchar : ∀ c, '\n' ∉ quoteChar c := by
    intro c
    unfold quoteChar
    split_ifs with hzero htab hreturn hnewline hquote hbackslash hhidden
    all_goals try decide
    · simp [newline_not_mem_toDigits]
    · exact fun h => hnewline (List.mem_singleton.mp h).symm
  rw [quote, String.toList_ofList]
  simp [quoteChars, hchar]

end KernelCatalog.Text
