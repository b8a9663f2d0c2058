import Chimaera.Base.Weighted
import Mathlib.Algebra.Order.Field.Rat

/-! The run-level task metrics of the benchmark: each command interval is weighted by
the part of it that lies after the warmup, and the errors are averaged with those weights.
The arithmetic is exact, over an ordered field. -/

namespace Chimaera.Benchmark.Analysis
open Base.Weighted

/-- The columns of a sample that the summary reads; `none` is a NaN entry. -/
structure Row (K : Type) where
  elapsed : K
  gtError : Option K
  wallElapsed : Option K
  pathM : Option K

/-- Library functions: the square root, and linear interpolation at a point of a table of
abscissae and ordinates. -/
structure Library (K : Type) where
  sqrt : K → K
  interp : K → List K → List (Option K) → Option K

inductive Exception where
  | indexError
  deriving DecidableEq, Repr

/-- A metric that is not defined is `none`; a path of `some none` is a NaN. -/
structure Metrics (K : Type) where
  rmseM : Option K
  maeM : Option K
  maxAbsErrorM : Option K
  gtCoverage : Option K
  pathM : Option (Option K)
  realTimeFactor : Option K
  deriving DecidableEq, Repr

section Summary

variable {K : Type} [Field K] [LinearOrder K]

def weight (warmup t next : K) : K := max 0 (next - t - max 0 (warmup - t))

/-- One weight for each sample; the last time is appended once more. -/
def weights (warmup : K) (times : List K) : List K :=
  List.zipWith (weight warmup) times (times.tail ++ times.getLast?.toList)

def entries (warmup : K) (rows : List (Row K)) : List (K × Option K) :=
  (weights warmup (rows.map Row.elapsed)).zip (rows.map Row.gtError)

def keep (entries : List (K × Option K)) : List (K × Option K) :=
  entries.filter fun entry => decide (0 < entry.1)

def measured (entries : List (K × Option K)) : List (K × K) :=
  (keep entries).filterMap fun entry => entry.2.map fun error => (entry.1, error)

def weighted (samples : List (K × K)) (values : K → K) : Option K :=
  if total samples = 0 then none else some (moment values samples / total samples)

def maxAbsError (samples : List (K × K)) : Option K :=
  if total samples = 0 then none else (samples.map fun sample => |sample.2|).max?

def coverage (total covered : K) : Option K := if total = 0 then none else some (covered / total)

def difference : Option K → Option K → Option K
  | some a, some b => some (a - b)
  | _, _ => none

def realTimeFactor (first last : Row K) : Option K :=
  match first.wallElapsed, last.wallElapsed with
  | some began, some ended =>
    if began < ended then some ((last.elapsed - first.elapsed) / (ended - began)) else none
  | _, _ => none

def summarize (lib : Library K) (rows : List (Row K)) (warmup : K) :
    Except Exception (Metrics K) :=
  match rows.head?, rows.getLast? with
  | some first, some last =>
    let kept := total (keep (entries warmup rows))
    let samples := measured (entries warmup rows)
    .ok {
      rmseM := (weighted samples fun error => error ^ 2).map lib.sqrt
      maeM := weighted samples fun error => |error|
      maxAbsErrorM := maxAbsError samples
      gtCoverage := coverage kept (total samples)
      pathM := if kept = 0 then none else some (difference last.pathM
        (lib.interp (max warmup first.elapsed) (rows.map Row.elapsed) (rows.map Row.pathM)))
      realTimeFactor := realTimeFactor first last }
  | _, _ => .error .indexError

end Summary

/-- Two intervals of one and three seconds: the first half second is warmup. -/
example :
    ((summarize (⟨id, fun _ _ _ => none⟩ : Library ℚ)
      [⟨0, some 1, none, none⟩, ⟨1, some 3, none, none⟩, ⟨4, some 100, none, none⟩]
      (1 / 2)).toOption.map fun out => (out.maeM, out.gtCoverage)) =
      some (some (19 / 7), some 1) := by
  decide +kernel

end Chimaera.Benchmark.Analysis
