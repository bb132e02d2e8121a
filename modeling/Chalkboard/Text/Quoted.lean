import Chalkboard.Text.Printable

/-!
# Quoted text

How a text is shown inside a message: between double quotes, with a backslash before a quote or a
backslash, short escapes for the common controls, and a code point in braces for whatever could not
be seen on its own.
-/

namespace Chalkboard.Text

/-- The hexadecimal digits of `n` in lower case, none of them a leading zero. -/
def hexDigits (n : Nat) : List Char :=
  Nat.toDigits 16 n

/-- The last `width` hexadecimal digits of `n`, with zeros in front where `n` is shorter. -/
def hexFixed (width n : Nat) : List Char :=
  let digits := hexDigits (n % Nat.pow 16 width)
  List.replicate (width - digits.length) '0' ++ digits

/-- One character of a quoted text. -/
def quoteChar (c : Char) : List Char :=
  if c = '"' then ['\\', '"']
  else if c = '\\' then ['\\', '\\']
  else if c = '\n' then ['\\', 'n']
  else if c = '\r' then ['\\', 'r']
  else if c = '\t' then ['\\', 't']
  else if c.toNat = 0 then ['\\', '0']
  else if isPrintable c && !extendsGrapheme c then [c]
  else ['\\', 'u', Char.ofNat 0x7b] ++ hexDigits c.toNat ++ [Char.ofNat 0x7d]

/-- The text between double quotes. -/
def quote (s : String) : String :=
  String.ofList ('"' :: s.toList.flatMap quoteChar ++ ['"'])

end Chalkboard.Text
