/-!
# Blank characters and letter case

Names and options are compared after their surrounding blanks are dropped and their ASCII capitals
are lowered. A blank is a character with the Unicode property `White_Space`.
-/

namespace KernelCatalog.Text

/-- The characters with the Unicode property `White_Space`. -/
def isBlank (c : Char) : Bool :=
  let n := c.toNat
  (0x09 ≤ n && n ≤ 0x0d) || n == 0x20 || n == 0x85 || n == 0xa0 || n == 0x1680 ||
    (0x2000 ≤ n && n ≤ 0x200a) || n == 0x2028 || n == 0x2029 || n == 0x202f || n == 0x205f ||
    n == 0x3000

/-- A list of characters without the blanks at its two ends. -/
def trimChars (cs : List Char) : List Char :=
  ((cs.dropWhile isBlank).reverse.dropWhile isBlank).reverse

/-- A text without the blanks at its two ends. -/
def trim (text : String) : String := String.ofList (trimChars text.toList)

/-- A text with `A` to `Z` lowered and every other character kept. -/
def lower (text : String) : String := String.ofList (text.toList.map Char.toLower)

end KernelCatalog.Text
