/-!
# Bytes and text

A text is stored as its UTF-8 bytes. Reading it back is strict, or, for messages of other programs,
lenient: each longest piece that starts no character is read as one replacement character.
-/

namespace KernelCatalog

/-- The contents of a file or of a section. -/
abbrev Bytes := List UInt8

namespace Text

/-- The UTF-8 bytes of a text. -/
def toBytes (text : String) : Bytes := text.toUTF8.data.toList

/-- The text with the given UTF-8 bytes, if they are well formed. -/
def ofBytes? (bytes : Bytes) : Option String := String.fromUTF8? ⟨bytes.toArray⟩

@[simp] theorem ofBytes?_toBytes (text : String) : ofBytes? (toBytes text) = some text := by
  have valid : ByteArray.IsValidUTF8 ⟨text.toByteArray.data.toList.toArray⟩ := text.isValidUTF8
  exact dif_pos valid

/-- What stands for a piece that is no character. -/
def replacement : Char := '\ufffd'

/-- Whether `b` continues a character. -/
def isTail (b : UInt8) : Bool := 0x80 ≤ b && b ≤ 0xbf

/-- The low six bits of a byte that continues a character. -/
def tailBits (b : UInt8) : Nat := b.toNat % 64

/-- Whether `t` can stand second in a character of three or four bytes that starts with `b`; this
rules out surrogates, numbers that a shorter form could write, and numbers past the last one. -/
def follows (b t : UInt8) : Bool :=
  (if b = 0xe0 then 0xa0 else if b = 0xf0 then 0x90 else 0x80) ≤ t &&
    t ≤ (if b = 0xed then 0x9f else if b = 0xf4 then 0x8f else 0xbf)

/-- The character that starts with `b`, and the bytes behind it; without a character, the bytes
behind the longest piece that could have started one. -/
def leadingChar (b : UInt8) (rest : Bytes) : Option Char × Bytes :=
  if b < 0x80 then (some (Char.ofNat b.toNat), rest)
  else if 0xc2 ≤ b && b ≤ 0xdf then
    match rest with
    | t :: more =>
      if isTail t then (some (Char.ofNat (b.toNat % 32 * 64 + tailBits t)), more) else (none, rest)
    | [] => (none, rest)
  else if 0xe0 ≤ b && b ≤ 0xef then
    match rest with
    | t :: u :: more =>
      if follows b t then
        if isTail u then
          (some (Char.ofNat (b.toNat % 16 * 4096 + tailBits t * 64 + tailBits u)), more)
        else (none, u :: more)
      else (none, rest)
    | [t] => if follows b t then (none, []) else (none, rest)
    | [] => (none, rest)
  else if 0xf0 ≤ b && b ≤ 0xf4 then
    match rest with
    | t :: u :: v :: more =>
      if follows b t then
        if isTail u then
          if isTail v then
            (some (Char.ofNat
              (b.toNat % 8 * 262144 + tailBits t * 4096 + tailBits u * 64 + tailBits v)), more)
          else (none, v :: more)
        else (none, u :: v :: more)
      else (none, rest)
    | [t, u] =>
      if follows b t then
        if isTail u then (none, []) else (none, [u])
      else (none, rest)
    | [t] => if follows b t then (none, []) else (none, rest)
    | [] => (none, rest)
  else (none, rest)

theorem length_leadingChar_le (b : UInt8) (rest : Bytes) :
    (leadingChar b rest).2.length ≤ rest.length := by
  unfold leadingChar
  repeat' split
  all_goals simp <;> omega

/-- The characters of bytes read leniently. -/
def lenientChars : Bytes → List Char
  | [] => []
  | b :: rest =>
    have := length_leadingChar_le b rest
    match _h : leadingChar b rest with
    | (some c, more) => c :: lenientChars more
    | (none, more) => replacement :: lenientChars more
termination_by bytes => bytes.length
decreasing_by all_goals
  rw [_h] at this
  exact Nat.lt_succ_of_le this

/-- The text of bytes read leniently. -/
def ofBytesLenient (bytes : Bytes) : String := String.ofList (lenientChars bytes)

end Text

end KernelCatalog
