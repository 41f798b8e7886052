import Telemetry.Point

/-!
# Kinds of metrics

The kind of a metric decides which class of points it holds and whether it may have a unit.

## Main definitions

* `Kind`: the kinds
* `Kind.word`, `Kind.constant`, `Kind.title`: the ways in which a kind is written
* `Kind.ofDatum`, `Kind.ofDatum?`: the kind of a word
* `Kind.pointClass`, `Kind.allowsUnit`: what a kind decides

## Main results

* `Kind.ofDatum?_word`: a kind is found by its word
-/

namespace Telemetry

/-- **The kinds of metrics.** -/
inductive Kind where
  | info
  | counter
  | gauge
  | histogram
  | summary
  | stateSet
  | unknown
  deriving DecidableEq

namespace Kind

def all : List Kind :=
  [.info, .counter, .gauge, .histogram, .summary, .stateSet, .unknown]

def word : Kind → String
  | .info => "info"
  | .counter => "counter"
  | .gauge => "gauge"
  | .histogram => "histogram"
  | .summary => "summary"
  | .stateSet => "stateset"
  | .unknown => "unknown"

def constant : Kind → String
  | .info => "INFO"
  | .counter => "COUNTER"
  | .gauge => "GAUGE"
  | .histogram => "HISTOGRAM"
  | .summary => "SUMMARY"
  | .stateSet => "STATE_SET"
  | .unknown => "UNKNOWN"

/-- The word for a kind at the beginning of a sentence. -/
def title : Kind → String
  | .info => "Info"
  | .counter => "Counter"
  | .gauge => "Gauge"
  | .histogram => "Histogram"
  | .summary => "Summary"
  | .stateSet => "Stateset"
  | .unknown => "Unknown"

/-- The class of points that a metric of a kind holds. -/
def pointClass : Kind → PointClass
  | .info => .info
  | .counter => .counter
  | .gauge => .gauge
  | .histogram => .histogram
  | .summary => .summary
  | .stateSet => .stateSet
  | .unknown => .unknown

/-- Whether a metric of a kind may have a unit. Infos and state sets measure nothing. -/
def allowsUnit : Kind → Bool
  | .info | .stateSet => false
  | _ => true

/-- **The kind of a word.** -/
def ofDatum? (d : Datum) : Option Kind :=
  all.find? fun k => d.eq (.text k.word)

/-- The kind of a word, or what is wrong with it. -/
def ofDatum (d : Datum) : Except Error Kind :=
  match ofDatum? d with
  | some k => .ok k
  | none => .error (.argument (.unknownKind d.written))

theorem ofDatum?_word (k : Kind) : ofDatum? (.text k.word) = some k := by
  cases k <;> decide

end Kind

end Telemetry
