import Telemetry.Arrangement
import Telemetry.Numeral
import Telemetry.Point.Amount

/-!
# Buckets

A histogram counts observations in buckets. Each bucket has an upper bound and counts the observations up to
it and above the bound before; the last bound is the positive infinity, so that nothing is lost.

## Main definitions

* `Bucket`, `Buckets`: one bucket, and the buckets of a histogram in the order of their bounds
* `Buckets.make`: buckets from unchecked bounds and counts
* `Buckets.cumulative?`, `Buckets.total?`: the counts up to each bound, and the count of everything

## Main results

* `Buckets.ofBuckets_toList`: buckets are made again from their list
-/

namespace Telemetry

/-- **One bucket**: an upper bound, which is a number, and a count. -/
@[ext]
structure Bucket where
  bound : Binary64
  count : Amount
  deriving DecidableEq

def Bucket.order : Bucket → Bucket → Ordering :=
  compareOn fun b => b.bound.place?

instance : Std.TransCmp Bucket.order :=
  inferInstanceAs (Std.TransCmp (compareOn fun (b : Bucket) => b.bound.place?))

/-- **The buckets of a histogram**: their bounds are increasing numbers and end with the positive
infinity. -/
@[ext]
structure Buckets where
  toList : List Bucket
  bounded : ∀ b ∈ toList, b.bound.isNaN = false
  increasing : Increasing Bucket.order toList
  endsOpen : toList.getLast?.map (·.bound) = some (.infinite false)
  deriving DecidableEq

namespace Buckets

/-! ## Construction -/

/-- A bound as a binary64 number. Texts are read as numerals. -/
def readBound : Datum → Except Error Binary64
  | .number n =>
    match n.toBinary64? with
    | some x => .ok x
    | none => .error (.argument .tooLarge)
  | .text s =>
    match Numeral.read? s with
    | some x => .ok x
    | none => .error (.argument (.badNumeral (Datum.text s).written))
  | .bytes octets =>
    match Numeral.read? (String.ofList (octets.map fun octet => Char.ofNat octet.toNat)) with
    | some x => .ok x
    | none => .error (.argument (.badNumeral (Datum.bytes octets).written))
  | d => .error (.argument (.notConvertible d.typeName))

def readBounds : List Datum → Except Error (List Binary64)
  | [] => .ok []
  | d :: rest => do
    let bound ← readBound d
    let bounds ← readBounds rest
    return bound :: bounds

/-- A count, which has to be a number not below zero. -/
def readCount : Datum → Except Error Amount
  | .null => .error (.point .bucketCountNegative)
  | d => Amount.ofDatum (fun _ => .point .bucketCountNegative) d

def readCounts : List Datum → Except Error (List Amount)
  | [] => .ok []
  | d :: rest => do
    let count ← readCount d
    let counts ← readCounts rest
    return count :: counts

def ofBuckets (buckets : List Bucket) : Except Error Buckets :=
  let sorted := arrange Bucket.order buckets
  if hnan : ∀ b ∈ sorted, b.bound.isNaN = false then
    match htie : firstTie? Bucket.order sorted with
    | some (first, _) => .error (.point (.bucketDuplicate first.bound))
    | none =>
      if hlast : sorted.getLast?.map (·.bound) = some (.infinite false) then
        .ok ⟨sorted, hnan, increasing_arrange htie, hlast⟩
      else
        .error (.point .bucketTopMissing)
  else
    .error (.point .bucketNaN)

/-- **Buckets from bounds and counts** of any sort, in any order. -/
def make (bounds counts : List Datum) : Except Error Buckets := do
  let bounds ← readBounds bounds
  if bounds.length ≠ counts.length then
    .error (.point (.bucketLengths bounds.length counts.length))
  else if bounds.isEmpty then
    .error (.point .bucketTopMissing)
  else if bounds.any Binary64.isNaN then
    .error (.point .bucketNaN)
  else do
    let counts ← readCounts counts
    ofBuckets (bounds.zipWith Bucket.mk counts)

theorem ofBuckets_toList (b : Buckets) : ofBuckets b.toList = .ok b := by
  unfold ofBuckets
  dsimp only
  rw [dif_pos (by rw [b.increasing.arrange_eq]; exact b.bounded)]
  split
  · next first _ htie =>
    rw [b.increasing.arrange_eq, b.increasing.firstTie?_eq_none] at htie
    exact absurd htie (by simp)
  · rw [dif_pos (by rw [b.increasing.arrange_eq]; exact b.endsOpen)]
    congr 1
    exact Buckets.ext b.increasing.arrange_eq

/-! ## Views -/

def size (b : Buckets) : Nat :=
  b.toList.length

def bounds (b : Buckets) : List Binary64 :=
  b.toList.map (·.bound)

/-- The counts, in the order of their bounds. -/
def counts (b : Buckets) : List Number :=
  b.toList.map (·.count.number)

/-- The sums of a total with each of the numbers in turn; `none` where a sum cannot be formed. -/
def runningTotals? (total : Number) : List Number → Option (List Number)
  | [] => some []
  | n :: rest => do
    let total ← total.add? n
    let totals ← runningTotals? total rest
    return total :: totals

/-- **The counts up to each bound.** -/
def cumulative? (b : Buckets) : Option (List Number) :=
  runningTotals? (.whole 0) b.counts

/-- The sum of a total with all of the numbers. -/
def total? (total : Number) : List Number → Option Number
  | [] => some total
  | n :: rest => do
    let total ← total.add? n
    total? total rest

/-- **The count of everything.** -/
def count? (b : Buckets) : Option Number :=
  total? (.whole 0) b.counts

def eq (a b : Buckets) : Bool :=
  a.size == b.size &&
    (a.toList.zip b.toList).all fun (x, y) =>
      (Number.real x.bound).eq (.real y.bound) && x.count.number.eq y.count.number

def display (b : Buckets) : Display :=
  .record "ClassicBuckets" [
    ("upper_bounds", .tuple (b.bounds.map fun bound => .word bound.chars)),
    ("counts", .tuple (b.counts.map fun count => .word count.chars))]

end Buckets

end Telemetry
