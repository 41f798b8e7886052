import Telemetry.Decimal

/-!
# Numbers as recorded

A recorded number is a whole number of any size, a binary64 number, or a truth value that stands for one
or zero. The three are written differently and compared by value, exactly.

## Main definitions

* `Number`: the three sorts of number
* `Number.place?`: the place of a number on the number line
* `Number.order`, `Number.lt`, `Number.eq`: comparison by value
* `Number.toBinary64?`: conversion, which fails on whole numbers that are too large
* `Number.add?`: the sum

## Main results

* `Number.place?_eq_none_iff`: every number has a place, `nan` excepted
* `Number.lt_eq_order`, `Number.eq_eq_order`: apart from `nan`, numbers are compared by their order
-/

namespace Telemetry

/-- **A number as recorded.** -/
inductive Number where
  | whole (n : Int)
  | real (x : Binary64)
  | truth (b : Bool)
  deriving DecidableEq

namespace Number

instance : Inhabited Number := ⟨whole 0⟩

def zeroReal : Number := .real (.zero false)

/-- The digits of a whole number, with a minus if it is negative. -/
def wholeChars (n : Int) : List Char :=
  if n < 0 then '-' :: Nat.toDigits 10 n.natAbs else Nat.toDigits 10 n.natAbs

/-- The written form as a list of characters. -/
def chars : Number → List Char
  | .whole n => wholeChars n
  | .real x => x.chars
  | .truth true => ['T', 'r', 'u', 'e']
  | .truth false => ['F', 'a', 'l', 's', 'e']

/-- **The written form.** -/
def text (n : Number) : String :=
  String.ofList n.chars

/-- The whole number that a number is by its sort: a truth value counts one or zero. -/
def whole? : Number → Option Int
  | .whole n => some n
  | .truth b => some (if b then 1 else 0)
  | .real _ => none

/-- The place of a number on the number line, exactly. -/
def place? : Number → Option Extended
  | .whole n => some (.units (n * Binary64.unitsPerOne))
  | .truth b => some (.units ((if b then 1 else 0) * Binary64.unitsPerOne))
  | .real x => x.place?

/-- Every number has a place, `nan` excepted. -/
theorem place?_eq_none_iff {n : Number} : n.place? = none ↔ n = .real .nan := by
  refine ⟨fun h => ?_, fun h => h ▸ rfl⟩
  cases n with
  | whole n => exact absurd h (Option.some_ne_none _)
  | truth b => exact absurd h (Option.some_ne_none _)
  | real x =>
    cases x with
    | nan => rfl
    | infinite negative => exact absurd h (Option.some_ne_none _)
    | finite negative units => exact absurd h (Option.some_ne_none _)

/-- **The order of numbers** by value, `nan` first. -/
def order : Number → Number → Ordering :=
  compareOn place?

instance : Std.TransCmp order :=
  inferInstanceAs (Std.TransCmp (compareOn place?))

/-- **Less than**, by value. Nothing is less than `nan` or greater. -/
def lt (a b : Number) : Bool :=
  match a.place?, b.place? with
  | some p, some q => p.lt q
  | _, _ => false

/-- At most, by value. -/
def le (a b : Number) : Bool :=
  match a.place?, b.place? with
  | some p, some q => p.le q
  | _, _ => false

/-- **Equality by value.** No `nan` equals anything. -/
def eq (a b : Number) : Bool :=
  match a.place?, b.place? with
  | some p, some q => p == q
  | _, _ => false

def isNaN : Number → Bool
  | .real x => x.isNaN
  | _ => false

theorem isNaN_eq_false_iff {n : Number} : n.isNaN = false ↔ ∃ p, n.place? = some p := by
  rw [← Option.isSome_iff_exists, Option.isSome_iff_ne_none, ne_eq, place?_eq_none_iff]
  cases n with
  | whole n => simp [isNaN]
  | truth b => simp [isNaN]
  | real x => cases x <;> simp [isNaN, Binary64.isNaN]

/-- Between numbers that have a place, less than is their order. -/
theorem lt_eq_order {a b : Number} (ha : a.isNaN = false) (hb : b.isNaN = false) :
    a.lt b = (order a b == .lt) := by
  obtain ⟨p, hp⟩ := isNaN_eq_false_iff.1 ha
  obtain ⟨q, hq⟩ := isNaN_eq_false_iff.1 hb
  simp only [lt, order, compareOn, hp, hq]
  rfl

/-- Between numbers that have a place, equality is a tie in their order. -/
theorem eq_eq_order {a b : Number} (ha : a.isNaN = false) (hb : b.isNaN = false) :
    a.eq b = (order a b == .eq) := by
  obtain ⟨p, hp⟩ := isNaN_eq_false_iff.1 ha
  obtain ⟨q, hq⟩ := isNaN_eq_false_iff.1 hb
  have hcompare : compare (some p) (some q) = compare p q := rfl
  simp only [eq, order, compareOn, hp, hq, hcompare]
  rw [Bool.eq_iff_iff, beq_iff_eq, beq_iff_eq, Std.LawfulEqOrd.compare_eq_iff_eq]

theorem eq_comm (a b : Number) : a.eq b = b.eq a := by
  unfold eq
  cases a.place? <;> cases b.place? <;> simp [Bool.beq_comm]

/-- No number is less than one that is less than it. -/
theorem lt_asymm {a b : Number} (h : a.lt b = true) : b.lt a = false := by
  unfold lt at h ⊢
  cases ha : a.place? with
  | none => simp [ha] at h
  | some p =>
    cases hb : b.place? with
    | none => rfl
    | some q =>
      simp only [ha, hb, Extended.lt, beq_iff_eq] at h ⊢
      have hswap : compare q p = (compare p q).swap := Std.OrientedOrd.eq_swap
      have hpq : compare p q = .lt := h
      rw [hpq] at hswap
      show (compare q p == .lt) = false
      rw [hswap]
      rfl

def isNegative (n : Number) : Bool :=
  n.lt (.whole 0)

theorem lt_whole (m n : Int) : lt (.whole m) (.whole n) = decide (m < n) := by
  have hpos : (0 : Int) < Binary64.unitsPerOne :=
    Int.natCast_pos.2 (Nat.two_pow_pos Binary64.unitExponent)
  rw [lt, place?, place?]
  simp only [Extended.lt_units]
  exact decide_eq_decide.2 (Int.mul_lt_mul_right hpos)

theorem isNegative_whole (n : Int) : isNegative (.whole n) = decide (n < 0) :=
  lt_whole n 0

/-- Whether a number counts as true: all do but the zeros. -/
def isTruthy (n : Number) : Bool :=
  !n.eq (.whole 0)

/-- The nearest binary64 number; whole numbers that are too large have none. -/
def toBinary64? : Number → Option Binary64
  | .real x => some x
  | .whole n => Binary64.ofInt? n
  | .truth b => Binary64.ofInt? (if b then 1 else 0)

/-- **The sum**: whole if both terms are, else of binary64 numbers. -/
def add? (a b : Number) : Option Number :=
  match a.whole?, b.whole? with
  | some m, some n => some (.whole (m + n))
  | _, _ => do
    let x ← a.toBinary64?
    let y ← b.toBinary64?
    return .real (x.add y)

end Number

end Telemetry
