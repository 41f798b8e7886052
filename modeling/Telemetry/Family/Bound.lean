import Telemetry.Decimal

/-!
# Bounds in sample labels

Bucket bounds and quantiles appear as texts in sample labels. Numbers with up to six digits before the point
are written as elsewhere; larger ones are written with an exponent.

## Main definitions

* `Binary64.boundChars`, `Binary64.boundText`: the text of a bound
-/

namespace Telemetry

/-- Characters without the zeros and points at their end. -/
def trimDigits (chars : List Char) : List Char :=
  (chars.reverse.dropWhile fun c => c == '0' || c == '.').reverse

/-- The digits before and behind the point with an exponent of two digits at least: one digit is left before the point. -/
def exponentBound (whole fraction : List Char) : List Char :=
  match whole with
  | [] => []
  | first :: rest =>
    trimDigits (first :: '.' :: (rest ++ fraction)) ++ 'e' :: Decimal.exponentChars 2 rest.length

namespace Binary64

/-- The text of a finite bound, from its sign and its written form. Only positive numbers with more than six
digits before the point get an exponent. -/
def finiteBoundChars (negative : Bool) (chars : List Char) : List Char :=
  let whole := chars.takeWhile (· != '.')
  match chars.dropWhile (· != '.') with
  | [] => chars
  | _ :: fraction => if !negative && whole.length > 6 then exponentBound whole fraction else chars

/-- The text of a bound as a list of characters. -/
def boundChars (x : Binary64) : List Char :=
  match x with
  | .nan => ['N', 'a', 'N']
  | .infinite false => ['+', 'I', 'n', 'f']
  | .infinite true => ['-', 'I', 'n', 'f']
  | .finite negative _ _ => finiteBoundChars negative x.chars

/-- **The text of a bound.** -/
def boundText (x : Binary64) : String :=
  String.ofList x.boundChars

end Binary64

end Telemetry
