import Telemetry.Arrangement
import Telemetry.Point.Amount

/-!
# Quantiles

A summary gives the values below which given shares of the observations lie.

## Main definitions

* `Quantile`, `Quantiles`: one quantile, and the quantiles of a summary in the order of their shares
* `Quantile.make`: a quantile from unchecked parts
* `Quantiles.ofList`: quantiles in order

## Main results

* `Quantiles.ofList_toList`: quantiles are made again from their list
-/

namespace Telemetry

/-- Whether a number lies between zero and one. -/
def Number.isShare (n : Number) : Bool :=
  Number.le (.whole 0) n && n.le (.whole 1)

/-- **One quantile**: a share between zero and one, and a value, which is not checked. -/
structure Quantile where
  share : Number
  value : Datum
  isShare : share.isShare = true

namespace Quantile

/-- **A quantile from unchecked parts**, both of which have to be given. -/
def make (share value : Option Datum) : Except Error Quantile :=
  match share, value with
  | none, none => .error (.argument (.missingFields "Quantile" ["quantile", "value"]))
  | none, some _ => .error (.argument (.missingFields "Quantile" ["quantile"]))
  | some _, none => .error (.argument (.missingFields "Quantile" ["value"]))
  | some (.number share), some value =>
    if share.toBinary64?.isNone then .error (.argument .tooLarge)
    else if h : share.isShare = true then .ok ⟨share, value, h⟩
    else .error (.point (.illegalQuantile share))
  | some d, some _ => .error (.argument (.notReal d.typeName))

def order : Quantile → Quantile → Ordering :=
  compareOn fun q => q.share.place?

instance : Std.TransCmp order :=
  inferInstanceAs (Std.TransCmp (compareOn fun (q : Quantile) => q.share.place?))

def eq (a b : Quantile) : Bool :=
  a.share.eq b.share && a.value.eq b.value

/-- The form in which records show a quantile. -/
def display (q : Quantile) : Display :=
  .record "Quantile" [("quantile", .word q.share.chars), ("value", q.value.display)]

end Quantile

/-- **The quantiles of a summary**, with increasing shares. -/
@[ext]
structure Quantiles where
  toList : List Quantile
  increasing : Increasing Quantile.order toList

namespace Quantiles

def empty : Quantiles :=
  ⟨[], increasing_nil⟩

/-- **Quantiles in order**, from a list in any order. -/
def ofList (quantiles : List Quantile) : Except Error Quantiles :=
  match h : firstTie? Quantile.order (arrange Quantile.order quantiles) with
  | some (first, _) => .error (.point (.quantileDuplicate first.share))
  | none => .ok ⟨arrange Quantile.order quantiles, increasing_arrange h⟩

/-- Quantiles are made again from their list. -/
theorem ofList_toList (q : Quantiles) : ofList q.toList = .ok q := by
  unfold ofList
  split
  · next first _ htie =>
    rw [q.increasing.arrange_eq, q.increasing.firstTie?_eq_none] at htie
    exact absurd htie (by simp)
  · congr 1
    exact Quantiles.ext q.increasing.arrange_eq

def eq (a b : Quantiles) : Bool :=
  a.toList.length == b.toList.length && (a.toList.zip b.toList).all fun (x, y) => x.eq y

def display (q : Quantiles) : Display :=
  .tuple (q.toList.map Quantile.display)

end Quantiles

end Telemetry
