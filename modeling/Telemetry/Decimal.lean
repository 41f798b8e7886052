import Telemetry.Binary64

/-!
# Shortest decimals

The written form of a binary64 number is the shortest decimal that reads back as that number; of the
decimals of that length the nearest, and of two equally near ones the one with an even last digit.

The candidates of a length are the two neighbours of the number on the decimal grid of that length.
They are tried by reading them back, so what is written always reads back; a number that no candidate
of up to 17 digits gives back is written in full.

## Main definitions

* `Decimal`: a whole number of digits times a power of ten
* `Decimal.shortest`: the decimal that is written for a magnitude
* `Layout`, `Decimal.chars`: positional and scientific notation
* `Binary64.text`: the written form

## Main results

* `Decimal.round_shortest`: the decimal that is written reads back
-/

namespace Telemetry

-- Powers are those of whole numbers in the core library, whatever else is in scope.
attribute [local instance (2000)] instPowNat

/-- The number `digits * 10 ^ exponent`. -/
structure Decimal where
  digits : Nat
  exponent : Int
  deriving DecidableEq

namespace Decimal

/-- The magnitude, in units, that a decimal reads back as. -/
def round (d : Decimal) : Nat :=
  roundUnits (d.digits * 10 ^ d.exponent.toNat * Binary64.unitsPerOne) (10 ^ (-d.exponent).toNat)

/-- The greatest `k` with `10 ^ k ≤ n`, and `0` for `n = 0`. A binary digit is worth `0.30103`
decimal digits, so the estimate from below is short by one at most. -/
def log10 (n : Nat) : Nat :=
  let estimate := n.log2 * 1233 / 4096
  if 10 ^ (estimate + 1) ≤ n then estimate + 1 else estimate

/-- The exponent of the first significant digit of a magnitude. The smallest magnitude is above
`10 ^ -324`. -/
def leadingExponent (units : Nat) : Int :=
  (log10 (units * 10 ^ (324 : Nat) / Binary64.unitsPerOne) : Int) - 324

/-- The two neighbours of a magnitude on the decimal grid with `length` digits, the nearer one first.
Of two equally near ones the even one is first. -/
def neighbours (units length : Nat) : Decimal × Decimal :=
  let exponent := leadingExponent units - length + 1
  let num := units * 10 ^ (-exponent).toNat
  let den := Binary64.unitsPerOne * 10 ^ exponent.toNat
  let below : Decimal := ⟨num / den, exponent⟩
  let above : Decimal := ⟨num / den + 1, exponent⟩
  let rest := num % den
  if 2 * rest < den ∨ 2 * rest = den ∧ below.digits % 2 = 0 then (below, above) else (above, below)

/-- **The candidate of a length**: the nearer of the two neighbours that reads back. -/
def candidate? (units length : Nat) : Option Decimal :=
  let pair := neighbours units length
  [pair.1, pair.2].find? fun d => d.round = units

/-- The decimal equal to a magnitude: `2 ^ -n` is `5 ^ n * 10 ^ -n`. -/
def full (units : Nat) : Decimal :=
  ⟨units * 5 ^ Binary64.unitExponent, -Binary64.unitExponent⟩

/-- **The decimal that is written**: the candidate of the least length that has one. -/
def shortest (units : Nat) : Decimal :=
  ((List.range' 1 17).findSome? (candidate? units)).getD (full units)

theorem round_candidate {units length : Nat} {d : Decimal} (h : candidate? units length = some d) :
    d.round = units := by
  simpa using List.find?_some h

/-- A magnitude over one is rounded as its multiples over their factor. -/
theorem roundUnits_mul_left {factor units : Nat} (hfactor : 0 < factor) (h : Representable units) :
    roundUnits (factor * units) factor = units := by
  obtain ⟨quotient, hk⟩ := h.2
  have hshift : 0 < 2 ^ (units.log2 - 52) := Nat.two_pow_pos _
  simp only [roundUnits, Nat.mul_div_cancel_left _ hfactor]
  generalize 2 ^ (units.log2 - 52) = shift at hk hshift ⊢
  rw [hk, ← Nat.mul_assoc, divEven_mul_left (Nat.mul_pos hfactor hshift), Nat.mul_comm]

theorem round_full {units : Nat} (h : Representable units) : (full units).round = units := by
  simp only [round, full, Binary64.unitsPerOne, Int.neg_neg, Int.toNat_natCast]
  generalize Binary64.unitExponent = n
  have hnum : units * 5 ^ n * 10 ^ (-(n : Int)).toNat * 2 ^ n = 10 ^ n * units := by
    rw [Int.toNat_neg_natCast, Nat.pow_zero, Nat.mul_one, Nat.mul_assoc, ← Nat.mul_pow, Nat.mul_comm]
  -- Fives and twos cancel against the tens of the divisor.
  rw [hnum, roundUnits_mul_left (Nat.pow_pos (by decide)) h]

theorem round_shortest {units : Nat} (h : Representable units) : (shortest units).round = units := by
  unfold shortest
  cases hfound : (List.range' 1 17).findSome? (candidate? units) with
  | none => exact round_full h
  | some d =>
    obtain ⟨length, _, hlength⟩ := List.exists_of_findSome?_eq_some hfound
    exact round_candidate hlength

end Decimal

/-! ## Notation -/

/-- **How a decimal is laid out**: positional while the exponent of the first digit lies between two
bounds, else with an exponent of at least so many digits. -/
structure Layout where
  positionalFrom : Int
  positionalTo : Int
  exponentDigits : Nat

/-- Numbers are written positionally from `0.0001` up to `9999999999999998.0`, and their exponents
have two digits at least. -/
def Layout.standard : Layout := ⟨-4, 15, 2⟩

namespace Decimal

/-- The digits of a whole number, without the zeros at the end. -/
def significantDigits (digits : Nat) : List Char :=
  ((Nat.toDigits 10 digits).reverse.dropWhile (· == '0')).reverse

/-- The exponent of the first digit as written: sign and at least `width` digits. -/
def exponentChars (width : Nat) (exponent : Int) : List Char :=
  let digits := Nat.toDigits 10 exponent.natAbs
  (if exponent < 0 then '-' else '+') :: (List.replicate (width - digits.length) '0' ++ digits)

/-- Digits with the point after the first `point` of them, filled up with zeros on either side. -/
def positionalChars (digits : List Char) (point : Int) : List Char :=
  if point ≤ 0 then
    '0' :: '.' :: (List.replicate point.natAbs '0' ++ digits)
  else if digits.length ≤ point.toNat then
    digits ++ List.replicate (point.toNat - digits.length) '0' ++ ['.', '0']
  else
    digits.take point.toNat ++ '.' :: digits.drop point.toNat

/-- Digits with the point after the first of them, and the exponent. No point is written behind a
single digit. -/
def scientificChars (width : Nat) (digits : List Char) (exponent : Int) : List Char :=
  match digits with
  | [] => []
  | [first] => first :: 'e' :: exponentChars width exponent
  | first :: rest => first :: '.' :: (rest ++ 'e' :: exponentChars width exponent)

/-- **A decimal as written** in a layout. -/
def chars (layout : Layout) (d : Decimal) : List Char :=
  if d.digits = 0 then
    ['0', '.', '0']
  else
    let digits := significantDigits d.digits
    let leading : Int := (log10 d.digits : Int) + d.exponent
    if layout.positionalFrom ≤ leading ∧ leading ≤ layout.positionalTo then
      positionalChars digits (leading + 1)
    else
      scientificChars layout.exponentDigits digits leading

end Decimal

namespace Binary64

/-- The written form of a number as a list of characters. -/
def chars : Binary64 → List Char
  | .nan => ['n', 'a', 'n']
  | .infinite false => ['i', 'n', 'f']
  | .infinite true => ['-', 'i', 'n', 'f']
  | .finite negative units _ =>
    let magnitude := (if units = 0 then ⟨0, 0⟩ else Decimal.shortest units).chars .standard
    if negative then '-' :: magnitude else magnitude

/-- **The written form** of a number. -/
def text (x : Binary64) : String :=
  String.ofList x.chars

end Binary64

end Telemetry
