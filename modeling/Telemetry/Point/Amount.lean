import Telemetry.Argument

/-!
# Amounts

Counts and timestamps are numbers that are not below zero.

## Main definitions

* `Amount`: numbers not below zero
* `Amount.ofDatum`: the amount that a datum is
* `Amount.ofTimestamp`: the timestamp that a datum is
* `Amount.earlier?`: which of two moments comes first
-/

namespace Telemetry

/-- **A number that is not below zero.** -/
@[ext]
structure Amount where
  number : Number
  notNegative : number.isNegative = false
  deriving DecidableEq

namespace Amount

/-- The amount zero, a whole number. -/
def zero : Amount :=
  ⟨.whole 0, Number.isNegative_whole 0⟩

instance : Inhabited Amount := ⟨zero⟩

def ofNat (n : Nat) : Amount :=
  ⟨.whole n, by simp [Number.isNegative_whole]⟩

def order : Amount → Amount → Ordering :=
  compareOn fun a => a.number.place?

instance : Std.TransCmp order :=
  inferInstanceAs (Std.TransCmp (compareOn fun (a : Amount) => a.number.place?))

/-- **What two moments say about which comes first**: nothing if they are equal. A moment that is no number
differs from every moment and comes before none. -/
def earlier? (a b : Amount) : Option Bool :=
  if a.number.eq b.number then none else some (a.number.lt b.number)

/-- Moments that say which comes first say so in either order. -/
theorem earlier?_eq_none_comm {a b : Amount} : earlier? a b = none ↔ earlier? b a = none := by
  simp [earlier?, Number.eq_comm a.number]

theorem earlier?_asymm {a b : Amount} (h : earlier? a b = some true) : earlier? b a = some false := by
  simp only [earlier?, Option.ite_none_left_eq_some, Option.some.injEq] at h ⊢
  exact ⟨by rw [Number.eq_comm]; exact h.1, Number.lt_asymm h.2⟩

/-- Moments that are numbers are compared by their order. -/
theorem earlier?_eq_order {a b : Amount} (ha : a.number.isNaN = false) (hb : b.number.isNaN = false) :
    earlier? a b = match order a b with
      | .lt => some true
      | .eq => none
      | .gt => some false := by
  have horder : order a b = Number.order a.number b.number := rfl
  rw [earlier?, Number.eq_eq_order ha hb, Number.lt_eq_order ha hb, horder]
  cases Number.order a.number b.number <;> rfl

/-- **The amount that a datum is.** Only numbers can be compared with zero. -/
def ofDatum (ifNegative : Number → Error) : Datum → Except Error Amount
  | .number n =>
    if h : n.isNegative = false then .ok ⟨n, h⟩ else .error (ifNegative n)
  | d => .error (.argument (.notOrdered d.typeName "int"))

/-- **The timestamp that a datum is**, in milliseconds. -/
def ofTimestamp (moment : Moment) : Datum → Except Error Amount
  | .null => .error (.point (.negativeTimestamp moment))
  | d => ofDatum (fun _ => .point (.negativeTimestamp moment)) d

/-- Whether a timestamp is there: zero stands for none. -/
def isPresent (a : Amount) : Bool :=
  a.number.isTruthy

def display (a : Amount) : Display :=
  .word a.number.chars

theorem ofDatum_number (ifNegative : Number → Error) (a : Amount) :
    ofDatum ifNegative (.number a.number) = .ok a := by
  simp [ofDatum, a.notNegative]

theorem ofTimestamp_number (moment : Moment) (a : Amount) :
    ofTimestamp moment (.number a.number) = .ok a := by
  simp [ofTimestamp, ofDatum_number]

end Amount

end Telemetry
