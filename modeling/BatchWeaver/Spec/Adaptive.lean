import BatchWeaver.Lib.Run
import BatchWeaver.Lib.Table
import BatchWeaver.Spec.Strings

/-!
# Stored histograms and the decision log

`HistogramData.Decode` (`internal/adaptive/histencode.go`) and `DecisionLog` (`internal/adaptive/decision.go`).
`F` stands for `float64`, with nothing assumed of its arithmetic. Of a decision, the log reads the ID.
-/

namespace BatchWeaver.Adaptive

/-! ## Histograms -/

structure HistogramData (F : Type) where
  accuracy : F
  count : UInt64
  sum : F
  min : F
  max : F
  zeroCount : UInt64
  overflow : Bool
  bucketIndex : List ℤ
  bucketCounts : List UInt64

structure Histogram (F : Type) where
  gamma : F
  logGamma : F
  maxBuckets : ℕ
  buckets : Table ℤ UInt64
  zeroCount : UInt64
  count : UInt64
  sum : F
  min : F
  max : F
  overflow : Bool

def histogramMaxBuckets : ℕ := 2048

section

variable {F : Type} [Zero F] [One F] [Add F] [LT F] [DecidableLT F] (log : F → F) (defaultHistogramAccuracy : F)

def newHistogram (accuracy : F) : Histogram F :=
  let gamma := 1 + if 0 < accuracy ∧ accuracy < 1 then accuracy else defaultHistogramAccuracy
  ⟨gamma, log gamma, histogramMaxBuckets, ∅, 0, 0, 0, 0, 0, false⟩

/-- The loop of `Decode`: the buckets, and their total in 64 bits. -/
def fillBuckets : List (ℤ × UInt64) → Table ℤ UInt64 → UInt64 → Except GoString (Table ℤ UInt64 × UInt64)
  | [], buckets, total => .ok (buckets, total)
  | (k, n) :: rest, buckets, total =>
    if (buckets.lookup k).isSome then
      .error (str "adaptive: histogram has duplicate bucket index " ++ formatInt k)
    else fillBuckets rest (buckets.insert k n) (total + n)

def HistogramData.decode (d : HistogramData F) : Except GoString (Histogram F) :=
  if d.bucketIndex.length ≠ d.bucketCounts.length then
    .error (str "adaptive: histogram bucket arrays have mismatched lengths (" ++ itoa d.bucketIndex.length ++
      str " vs " ++ itoa d.bucketCounts.length ++ str ")")
  else if histogramMaxBuckets < d.bucketIndex.length then
    .error (str "adaptive: histogram exceeds bucket bound (" ++ itoa d.bucketIndex.length ++ str " > " ++
      itoa histogramMaxBuckets ++ str ")")
  else if ¬d.bucketIndex.Pairwise (· ≤ ·) then
    .error (str "adaptive: histogram bucket indices are not sorted")
  else
    let h := newHistogram log defaultHistogramAccuracy d.accuracy
    match fillBuckets (d.bucketIndex.zip d.bucketCounts) h.buckets 0 with
    | .error err => .error err
    | .ok (buckets, bucketTotal) =>
      if bucketTotal + d.zeroCount ≠ d.count then
        .error (str "adaptive: histogram count " ++ itoa d.count.toNat ++
          str " does not match bucket totals " ++ itoa (bucketTotal + d.zeroCount).toNat)
      else
        .ok { h with buckets := buckets, zeroCount := d.zeroCount, count := d.count, sum := d.sum, min := d.min,
                     max := d.max, overflow := d.overflow }

end

/-! ## The decision log -/

structure Decision (B : Type) where
  id : GoString
  body : B
  deriving DecidableEq

structure DecisionLog (B : Type) where
  max : ℤ
  items : List (Decision B) := []
  byID : Table GoString (Decision B) := ∅

variable {B : Type}

def newDecisionLog (max : ℤ) : DecisionLog B := { max := if max ≤ 0 then 256 else max }

/-- `Record`: the oldest decision goes when the bound is passed, and its ID from the index with it. -/
def DecisionLog.record (l : DecisionLog B) (d : Decision B) : DecisionLog B :=
  let items := l.items ++ [d]
  let byID := l.byID.insert d.id d
  if l.max < items.length then
    { l with items := items.tail, byID := (items.head?.map fun evicted => byID.erase evicted.id).getD byID }
  else { l with items := items, byID := byID }

def DecisionLog.get (l : DecisionLog B) (id : GoString) : Option (Decision B) := l.byID.lookup id

/-- The log under any decisions. -/
def decisionLog (max : ℤ) : System (DecisionLog B) (Decision B) where
  init := newDecisionLog max
  ok _ _ _ := True
  next := DecisionLog.record

end BatchWeaver.Adaptive
