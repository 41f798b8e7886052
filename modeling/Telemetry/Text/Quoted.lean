import Telemetry.Text.Printable

/-!
# Quoted texts

A quoted text stands between two quotes of one sort. Single quotes are used unless the text holds a
single quote and no double quote. A backslash, the quote in use and every character that is not printable
are written as escapes, so the closing quote is the first one that no backslash precedes.

## Main definitions

* `Text.hexDigits`: a number in so many hexadecimal digits
* `Text.quoteFor`: the quote in use
* `Text.escape`: one character between quotes
* `Text.quoted`: a text between quotes
-/

namespace Telemetry.Text

/-- The last `width` hexadecimal digits of a number. -/
def hexDigits : (width number : Nat) → List Char
  | 0, _ => []
  | width + 1, number => hexDigits width (number / 16) ++ [Nat.digitChar (number % 16)]

@[simp] theorem length_hexDigits (width number : Nat) : (hexDigits width number).length = width := by
  induction width generalizing number with
  | zero => rfl
  | succ width ih => simp [hexDigits, ih]

/-- **The quote in use**: single, unless the text holds a single quote and no double quote. -/
def quoteFor (chars : List Char) : Char :=
  if chars.contains '\'' && !chars.contains '"' then '"' else '\''

/-- The escape of a character by its code point: two, four or eight hexadecimal digits. -/
def codeEscape (c : Char) : List Char :=
  if c.toNat < 0x100 then '\\' :: 'x' :: hexDigits 2 c.toNat
  else if c.toNat < 0x10000 then '\\' :: 'u' :: hexDigits 4 c.toNat
  else '\\' :: 'U' :: hexDigits 8 c.toNat

/-- **One character between quotes**. Line feed, carriage return and tabulator have escapes of their
own. -/
def escape (quote c : Char) : List Char :=
  if c = '\\' ∨ c = quote then ['\\', c]
  else if c = '\n' then ['\\', 'n']
  else if c = '\r' then ['\\', 'r']
  else if c = '\t' then ['\\', 't']
  else if isPrintable c then [c]
  else codeEscape c

/-- **A text between quotes.** -/
def quoted (chars : List Char) : List Char :=
  let quote := quoteFor chars
  quote :: (chars.flatMap (escape quote) ++ [quote])

end Telemetry.Text
