import Telemetry.Decimal
import Telemetry.Text.Blank
import Telemetry.Text.Digit

/-!
# Numerals

A numeral is a text that names a binary64 number: an optional sign, then `inf`, `infinity` or `nan` in
any case, or decimal digits with an optional point and an optional exponent. Blanks around it do not
count, the four separator controls excepted; a single underscore may stand between two digits, and the
digits may be of any script.

## Main definitions

* `Numeral.Scientific`: the parts of a decimal numeral
* `Numeral.read?`: the number that a text names
-/

namespace Telemetry.Numeral

/-- A decimal numeral: the digits in front of the point, those behind it, and the exponent. -/
structure Scientific where
  whole : List Char
  fraction : List Char
  exponent : Int

/-- The number that decimal digits name, continuing one that has been read. -/
def digitsValue (start : Nat) (digits : List Char) : Nat :=
  digits.foldl (fun value c => value * 10 + (c.toNat - '0'.toNat)) start

def splitDigits (chars : List Char) : List Char × List Char :=
  chars.span Char.isDigit

/-- A sign at the front of a text: whether it is a minus, and the rest. -/
def splitSign : List Char → Bool × List Char
  | '-' :: rest => (true, rest)
  | '+' :: rest => (false, rest)
  | rest => (false, rest)

/-- The exponent at the end of a numeral: nothing, or a mark, an optional sign and digits. -/
def exponent? : List Char → Option Int
  | [] => some 0
  | mark :: rest =>
    if mark = 'e' ∨ mark = 'E' then
      let (negative, rest) := splitSign rest
      let (digits, rest) := splitDigits rest
      if digits.isEmpty ∨ ¬rest.isEmpty then none
      else some (if negative then -(digitsValue 0 digits : Int) else digitsValue 0 digits)
    else
      none

/-- The parts of an unsigned decimal numeral. There is a digit before or behind the point. -/
def scientific? (chars : List Char) : Option Scientific :=
  let (whole, rest) := splitDigits chars
  let (fraction, rest) :=
    match rest with
    | '.' :: rest => splitDigits rest
    | rest => ([], rest)
  if whole.isEmpty ∧ fraction.isEmpty then none
  else (exponent? rest).map fun exponent => ⟨whole, fraction, exponent⟩

/-- An exponent brought near to zero. Beyond these bounds every numeral of the given length is zero or
too large, so its value does not change. -/
def clampExponent (length : Nat) (exponent : Int) : Int :=
  max (-(length + 400 : Int)) (min (length + 400 : Int) exponent)

def Scientific.value (negative : Bool) (s : Scientific) : Binary64 :=
  let digits := digitsValue (digitsValue 0 s.whole) s.fraction
  let length := s.whole.length + s.fraction.length
  .ofDecimal negative digits (clampExponent length s.exponent - s.fraction.length)

/-- A text without the underscores that stand between two digits; `none` if there are others. -/
def dropUnderscores? : (afterDigit : Bool) → List Char → Option (List Char)
  | _, [] => some []
  | afterDigit, '_' :: next :: rest =>
    if afterDigit ∧ next.isDigit then (dropUnderscores? true rest).map (next :: ·) else none
  | _, ['_'] => none
  | _, c :: rest => (dropUnderscores? c.isDigit rest).map (c :: ·)

/-- Digits of every script as ASCII digits. -/
def asciiDigit (c : Char) : Char :=
  match Text.digitValue? c with
  | some value => Nat.digitChar value
  | none => c

/-- The number that a text of ASCII digits without blanks and underscores names. -/
def plain? (chars : List Char) : Option Binary64 :=
  let (negative, magnitude) := splitSign chars
  let word := String.ofList (magnitude.map Char.toLower)
  if word = "inf" ∨ word = "infinity" then some (.infinite negative)
  else if word = "nan" then some .nan
  else (scientific? magnitude).map (Scientific.value negative)

/-- Blanks that may surround a numeral: all but the four separator controls. -/
def isMargin (c : Char) : Bool :=
  Text.isBlank c && !(0x1c ≤ c.toNat && c.toNat < 0x20)

/-- **The number that a text names.** -/
def read? (text : String) : Option Binary64 :=
  (dropUnderscores? false ((Text.trim isMargin text.toList).map asciiDigit)).bind plain?

end Telemetry.Numeral
