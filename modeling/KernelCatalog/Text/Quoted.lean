import KernelCatalog.Text.Decimal
import KernelCatalog.Text.Hidden

/-!
# Quoted text

A text stands in generated source between double quotes. Quotes and backslashes are escaped by a
backslash, the common control characters by a letter, and every other character without a mark of
its own by its number in hexadecimal between braces.
-/

namespace KernelCatalog.Text

/-- How one character is written between quotes. -/
def quoteChar (c : Char) : List Char :=
  if c = '\x00' then ['\\', '0']
  else if c = '\t' then ['\\', 't']
  else if c = '\r' then ['\\', 'r']
  else if c = '\n' then ['\\', 'n']
  else if c = '"' then ['\\', '"']
  else if c = '\\' then ['\\', '\\']
  else if isHidden c then '\\' :: 'u' :: '\x7b' :: (Nat.toDigits 16 c.toNat ++ ['\x7d'])
  else [c]

/-- The characters of a text as they are written between quotes. -/
def quoteChars (cs : List Char) : List Char := cs.flatMap quoteChar

/-- A text between double quotes, with its escapes. -/
def quote (text : String) : String :=
  String.ofList ('"' :: (quoteChars text.toList ++ ['"']))

end KernelCatalog.Text
