/-!
# Binary64 numbers

A binary64 number is not a number, an infinity, or a sign with a magnitude. Magnitudes are counted in
units of `2 ^ -1074`, the smallest positive binary64 number, so that every finite number is a whole
number of units and every operation is an exact computation followed by one rounding.

## Main definitions

* `Representable`: the magnitudes that fit into 53 binary digits below `2 ^ 1024`
* `Binary64`: the numbers
* `divEven`, `roundUnits`: rounding to the nearest, a half going to the even neighbour
* `Extended`: whole numbers of units between two infinities, on which numbers are compared
* `Binary64.add`, `Binary64.mul`, `Binary64.div`: the arithmetic

## Main results

* `roundUnits_dvd`: a rounded magnitude has at most 53 significant binary digits
* `roundUnits_of_representable`: rounding leaves a representable magnitude alone
-/

namespace Telemetry

-- Powers are those of whole numbers in the core library, whatever else is in scope.
attribute [local instance (2000)] instPowNat

/-- **Representable magnitudes**, in units of `2 ^ -1074`: below `2 ^ 1024`, with nothing beyond the
first 53 binary digits. -/
def Representable (units : Nat) : Prop :=
  units.log2 < 2098 ∧ 2 ^ (units.log2 - 52) ∣ units

instance (units : Nat) : Decidable (Representable units) :=
  inferInstanceAs (Decidable (_ ∧ _))

/-- **A binary64 number**: all that are not numbers are one value; the two zeros are told apart by
their sign. -/
inductive Binary64 where
  | nan
  | infinite (negative : Bool)
  | finite (negative : Bool) (units : Nat) (representable : Representable units)
  deriving DecidableEq

/-! ## Rounding -/

/-- The quotient rounded to the nearest whole number, a half to the even neighbour. -/
def divEven (num den : Nat) : Nat :=
  let quotient := num / den
  let rest := num % den
  if 2 * rest < den then quotient
  else if den < 2 * rest then quotient + 1
  else quotient + quotient % 2

/-- **Rounding a magnitude** of `num / den` units to 53 binary digits. Magnitudes below `2 ^ 53`
units are rounded to whole units. -/
def roundUnits (num den : Nat) : Nat :=
  let shift := (num / den).log2 - 52
  divEven num (den * 2 ^ shift) * 2 ^ shift

theorem divEven_le_succ (num den : Nat) : divEven num den ≤ num / den + 1 := by
  unfold divEven
  dsimp only
  split
  · omega
  · split <;> omega

/-- A multiple of the divisor is divided without rounding. -/
theorem divEven_mul_left {den : Nat} (h : 0 < den) (quotient : Nat) :
    divEven (den * quotient) den = quotient := by
  unfold divEven
  simp [Nat.mul_div_cancel_left _ h, h]

/-- Rounding leaves a representable magnitude alone. -/
theorem roundUnits_of_representable {units : Nat} (h : Representable units) :
    roundUnits units 1 = units := by
  obtain ⟨quotient, hq⟩ := h.2
  have hpos : 0 < 2 ^ (units.log2 - 52) := Nat.two_pow_pos _
  have : divEven units (2 ^ (units.log2 - 52)) = quotient := by
    conv => lhs; arg 1; rw [hq]
    exact divEven_mul_left hpos quotient
  simp only [roundUnits, Nat.div_one, Nat.one_mul, this]
  rw [Nat.mul_comm]
  exact hq.symm

/-- A rounded magnitude has at most 53 significant binary digits. -/
theorem roundUnits_dvd (num den : Nat) :
    2 ^ ((roundUnits num den).log2 - 52) ∣ roundUnits num den := by
  have hshift : num / (den * 2 ^ ((num / den).log2 - 52)) < 2 ^ 53 := by
    rw [← Nat.div_div_eq_div_mul]
    rw [Nat.div_lt_iff_lt_mul (Nat.two_pow_pos _), ← Nat.pow_add]
    exact Nat.lt_of_lt_of_le Nat.lt_log2_self (Nat.pow_le_pow_right (by decide) (by omega))
  have hle : divEven num (den * 2 ^ ((num / den).log2 - 52)) ≤ 2 ^ 53 :=
    Nat.le_trans (divEven_le_succ _ _) hshift
  generalize hs : (num / den).log2 - 52 = shift at hle
  have hr : roundUnits num den = divEven num (den * 2 ^ shift) * 2 ^ shift := by
    simp only [roundUnits, hs]
  rw [hr]
  generalize divEven num (den * 2 ^ shift) = k at hle
  -- Either the rounded quotient has at most 53 digits, or it was rounded up to `2 ^ 53`.
  rcases Nat.lt_or_ge k (2 ^ 53) with hk | hk
  · refine Nat.dvd_trans (Nat.pow_dvd_pow 2 ?_) (Nat.dvd_mul_left _ _)
    rcases Nat.eq_zero_or_pos k with rfl | hkpos
    · simp
    · have : (k * 2 ^ shift).log2 < 53 + shift := by
        rw [Nat.log2_lt (Nat.ne_of_gt (Nat.mul_pos hkpos (Nat.two_pow_pos _))), Nat.pow_add]
        exact Nat.mul_lt_mul_of_pos_right hk (Nat.two_pow_pos _)
      omega
  · have hk' : k = 2 ^ 53 := Nat.le_antisymm hle hk
    subst hk'
    rw [← Nat.pow_add, Nat.log2_two_pow]
    exact Nat.pow_dvd_pow 2 (by omega)

namespace Binary64

/-- The number of `num / den` units with the given sign, rounded; too large a magnitude becomes an
infinity. -/
def ofRatio (negative : Bool) (num den : Nat) : Binary64 :=
  if h : Representable (roundUnits num den) then
    .finite negative (roundUnits num den) h
  else
    .infinite negative

/-- One is `2 ^ unitExponent` units. -/
def unitExponent : Nat := 1074

def unitsPerOne : Nat := 2 ^ unitExponent

/-- A zero of the given sign. -/
def zero (negative : Bool) : Binary64 :=
  .finite negative 0 ⟨by decide, by simp⟩

instance : Inhabited Binary64 := ⟨zero false⟩

def notInfinite? : Binary64 → Option Binary64
  | .infinite _ => none
  | x => some x

/-- The whole number as a binary64 number, if rounding keeps it finite. -/
def ofInt? (n : Int) : Option Binary64 :=
  (ofRatio (decide (n < 0)) (n.natAbs * unitsPerOne) 1).notInfinite?

/-- `digits * 10 ^ exponent` with the given sign, rounded. -/
def ofDecimal (negative : Bool) (digits : Nat) (exponent : Int) : Binary64 :=
  ofRatio negative (digits * 10 ^ exponent.toNat * unitsPerOne) (10 ^ (-exponent).toNat)

def isNaN : Binary64 → Bool
  | .nan => true
  | _ => false

end Binary64

/-! ## Order -/

/-- **A place on the number line**: a whole number of units, or one of its two ends. -/
inductive Extended where
  | bottom
  | units (count : Int)
  | top
  deriving DecidableEq

namespace Extended

/-- The ends are told from the places between them first. -/
def rank : Extended → Nat
  | .bottom => 0
  | .units _ => 1
  | .top => 2

def count : Extended → Int
  | .units count => count
  | _ => 0

def order : Extended → Extended → Ordering :=
  compareLex (compareOn rank) (compareOn count)

instance : Ord Extended := ⟨order⟩

instance : Std.TransOrd Extended :=
  inferInstanceAs (Std.TransCmp (compareLex (compareOn rank) (compareOn count)))

theorem eq_of_order_eq {a b : Extended} (h : order a b = .eq) : a = b := by
  simp only [order, compareLex, Ordering.then_eq_eq, compareOn, Std.LawfulEqCmp.compare_eq_iff_eq] at h
  cases a <;> cases b <;> simp_all [rank, count]

instance : Std.LawfulEqOrd Extended where
  eq_of_compare := eq_of_order_eq

/-- Whether a place comes before another. -/
def lt (a b : Extended) : Bool := order a b == .lt

/-- Whether a place does not come after another. -/
def le (a b : Extended) : Bool := (order a b).isLE

/-- Between the ends, the order is that of the whole numbers. -/
theorem order_units (m n : Int) : order (.units m) (.units n) = compare m n := rfl

theorem lt_units (m n : Int) : lt (.units m) (.units n) = decide (m < n) := by
  rw [lt, order_units, Bool.eq_iff_iff, beq_iff_eq, decide_eq_true_iff]
  simp only [compare, compareOfLessAndEq]
  split
  · simp [*]
  · split <;> simp [*]

end Extended

namespace Binary64

/-- The place of a number on the number line; `nan` has none, and both zeros have one. -/
def place? : Binary64 → Option Extended
  | .nan => none
  | .infinite negative => some (if negative then .bottom else .top)
  | .finite negative units _ => some (.units (if negative then -(units : Int) else units))

/-! ## Arithmetic -/

/-- The finite number of `total` units, a zero total taking the given sign. -/
def ofTotal (total : Int) (zeroNegative : Bool) (den : Nat) : Binary64 :=
  ofRatio (if total = 0 then zeroNegative else decide (total < 0)) total.natAbs den

/-- The sum. Opposite infinities have none, and a zero sum is negative only if both terms are. -/
def add : Binary64 → Binary64 → Binary64
  | .nan, _ => .nan
  | _, .nan => .nan
  | .infinite a, .infinite b => if a = b then .infinite a else .nan
  | .infinite a, .finite .. => .infinite a
  | .finite .., .infinite b => .infinite b
  | .finite a u _, .finite b v _ =>
    ofTotal ((if a then -(u : Int) else u) + (if b then -(v : Int) else v)) (a && b) 1

/-- The product. An infinity times zero is not a number. -/
def mul : Binary64 → Binary64 → Binary64
  | .nan, _ => .nan
  | _, .nan => .nan
  | .infinite a, .infinite b => .infinite (a != b)
  | .infinite a, .finite b v _ => if v = 0 then .nan else .infinite (a != b)
  | .finite a u _, .infinite b => if u = 0 then .nan else .infinite (a != b)
  | .finite a u _, .finite b v _ => ofRatio (a != b) (u * v) unitsPerOne

/-- The quotient. Zero by zero and infinity by infinity are not numbers. -/
def div : Binary64 → Binary64 → Binary64
  | .nan, _ => .nan
  | _, .nan => .nan
  | .infinite _, .infinite _ => .nan
  | .infinite a, .finite b .. => .infinite (a != b)
  | .finite a .., .infinite b => zero (a != b)
  | .finite a u _, .finite b v _ =>
    if v = 0 then
      if u = 0 then .nan else .infinite (a != b)
    else
      ofRatio (a != b) (u * unitsPerOne) v

end Binary64

end Telemetry
