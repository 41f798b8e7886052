import Telemetry.Point.Field

/-!
# Measurements

What a point measures depends on its class.

## Main definitions

* `CounterValue`: the values of counters
* `Measurement`: what a point measures
* `Measurement.ofFields`: the measurement in the fields of a point
* `Measurement.fields`: the fields of a measurement
* `Measurement.data`: the parts of a measurement that may be of any sort
* `Measurement.eq`, `Measurement.displayFields`: equality by value, and the form in records
-/

namespace Telemetry

/-- **The value of a counter**: a number not below zero within the range of binary64 numbers. -/
@[ext]
structure CounterValue where
  amount : Amount
  isNumber : amount.number.isNaN = false
  inRange : amount.number.toBinary64?.isSome = true
  deriving DecidableEq

namespace CounterValue

/-- **The counter value that a datum is.** -/
def ofDatum : Datum → Except Error CounterValue
  | .number n =>
    if hrange : n.toBinary64?.isSome = true then
      if hnumber : n.isNaN = false then
        if hnegative : n.isNegative = false then .ok ⟨⟨n, hnegative⟩, hnumber, hrange⟩
        else .error (.point (.counterNegative n))
      else .error (.point .counterNaN)
    else .error (.argument .tooLarge)
  | d => .error (.argument (.notReal d.typeName))

def number (v : CounterValue) : Number :=
  v.amount.number

theorem ofDatum_number (v : CounterValue) : ofDatum (.number v.number) = .ok v := by
  simp [ofDatum, number, v.inRange, v.isNumber, v.amount.notNegative]

end CounterValue

/-- **What a point measures.** Values, sums and exemplars may be missing or of any sort where nothing is
said about them. -/
inductive Measurement where
  | base
  | info
  | counter (value : CounterValue) (exemplar : Option Exemplar)
  | gauge (value : Datum) (exemplar : Option Exemplar)
  | unknown (value : Datum) (exemplar : Option Exemplar)
  | histogram (buckets : Buckets) (sum : Datum) (exemplars : List (Option Exemplar))
  | summary (count : Option Amount) (sum : Datum) (quantiles : Quantiles)
      (exemplars : List (Option Exemplar))
  | stateSet (states : StateSet)

namespace Measurement

def pointClass : Measurement → PointClass
  | .base => .base
  | .info => .info
  | .counter .. => .counter
  | .gauge .. => .gauge
  | .unknown .. => .unknown
  | .histogram .. => .histogram
  | .summary .. => .summary
  | .stateSet .. => .stateSet

/-! ## From fields -/

/-- The value among fields, or the real number zero. -/
def valueIn (fields : List Field) : Datum :=
  (fields.findSome? fun | .value d => some d | _ => none).getD (.number .zeroReal)

def exemplarIn (fields : List Field) : Option Exemplar :=
  (fields.findSome? fun | .exemplar e => some e | _ => none).getD none

def bucketsIn (fields : List Field) : Except Error Buckets :=
  match (fields.findSome? fun | .buckets b => some b | _ => none).getD none with
  | some buckets => .ok buckets
  | none => .error (.point .missingBuckets)

def sumIn (fields : List Field) : Datum :=
  (fields.findSome? fun | .sum d => some d | _ => none).getD .null

/-- The count among fields, which may be missing and is not below zero. -/
def countIn (fields : List Field) : Except Error (Option Amount) :=
  match (fields.findSome? fun | .count d => some d | _ => none).getD .null with
  | .null => .ok none
  | d => (Amount.ofDatum (fun n => .point (.countNegative n)) d).map some

def exemplarsIn (fields : List Field) : Except Error (List (Option Exemplar)) :=
  match (fields.findSome? fun | .exemplars es => some es | _ => none).getD (some []) with
  | some exemplars => .ok exemplars
  | none => .error (.argument (.notIterable Datum.null.typeName))

def quantilesIn (fields : List Field) : Except Error Quantiles :=
  match (fields.findSome? fun | .quantiles qs => some qs | _ => none).getD (some []) with
  | some quantiles => Quantiles.ofList quantiles
  | none => .error (.argument (.notIterable Datum.null.typeName))

def statesIn (fields : List Field) : Except Error StateSet :=
  StateSet.ofSource
    ((fields.findSome? fun | .states s => some s | _ => none).getD (.states []))

/-- **The measurement in the fields of a point** of a class. -/
def ofFields (c : PointClass) (fields : List Field) : Except Error Measurement :=
  match c with
  | .base => .ok .base
  | .info => .ok .info
  | .counter => do return .counter (← CounterValue.ofDatum (valueIn fields)) (exemplarIn fields)
  | .gauge => .ok (.gauge (valueIn fields) (exemplarIn fields))
  | .unknown => .ok (.unknown (valueIn fields) (exemplarIn fields))
  | .histogram => do
    let buckets ← bucketsIn fields
    let exemplars ← exemplarsIn fields
    return .histogram buckets (sumIn fields) exemplars
  | .summary => do
    let count ← countIn fields
    let quantiles ← quantilesIn fields
    let exemplars ← exemplarsIn fields
    return .summary count (sumIn fields) quantiles exemplars
  | .stateSet => do return .stateSet (← statesIn fields)

/-- **The fields of a measurement.** -/
def fields : Measurement → List Field
  | .base | .info => []
  | .counter value exemplar => [.value (.number value.number), .exemplar exemplar]
  | .gauge value exemplar | .unknown value exemplar => [.value value, .exemplar exemplar]
  | .histogram buckets sum exemplars =>
    [.buckets (some buckets), .sum sum, .exemplars (some exemplars)]
  | .summary count sum quantiles exemplars =>
    [.count ((count.map fun n => .number n.number).getD .null), .sum sum,
      .quantiles (some quantiles.toList), .exemplars (some exemplars)]
  | .stateSet states => [.states (.states states.toList)]

/-- **The parts of a measurement that may be of any sort**, field by field. -/
def data : Measurement → List Datum
  | .base | .info | .stateSet _ => []
  | .counter _ exemplar => exemplar.toList.map (·.value)
  | .gauge value exemplar | .unknown value exemplar => value :: exemplar.toList.map (·.value)
  | .histogram _ sum exemplars => sum :: exemplars.filterMap (·.map (·.value))
  | .summary _ sum quantiles exemplars =>
    sum :: quantiles.toList.map (·.value) ++ exemplars.filterMap (·.map (·.value))

/-! ## Comparison and written form -/

def countDatum (count : Option Amount) : Datum :=
  (count.map fun n => Datum.number n.number).getD .null

/-- **Equality by value.** -/
def eq : Measurement → Measurement → Bool
  | .base, .base => true
  | .info, .info => true
  | .counter v e, .counter w f => v.number.eq w.number && Exemplar.eqOption e f
  | .gauge v e, .gauge w f => v.eq w && Exemplar.eqOption e f
  | .unknown v e, .unknown w f => v.eq w && Exemplar.eqOption e f
  | .histogram b s es, .histogram c t fs => b.eq c && s.eq t && Exemplar.eqList es fs
  | .summary m s q es, .summary n t r fs =>
    (countDatum m).eq (countDatum n) && s.eq t && q.eq r && Exemplar.eqList es fs
  | .stateSet s, .stateSet t => s == t
  | _, _ => false

/-- The fields of a measurement as records show them. -/
def displayFields : Measurement → List (String × Display)
  | .base | .info => []
  | .counter value exemplar =>
    [("value", .word value.number.chars), ("exemplar", Exemplar.displayOption exemplar)]
  | .gauge value exemplar | .unknown value exemplar =>
    [("value", value.display), ("exemplar", Exemplar.displayOption exemplar)]
  | .histogram buckets sum exemplars =>
    [("buckets", buckets.display), ("sum", sum.display),
      ("exemplars", .tuple (exemplars.map Exemplar.displayOption))]
  | .summary count sum quantiles exemplars =>
    [("count", (countDatum count).display), ("sum", sum.display), ("quantiles", quantiles.display),
      ("exemplars", .tuple (exemplars.map Exemplar.displayOption))]
  | .stateSet states => [("states", states.display)]

end Measurement

end Telemetry
