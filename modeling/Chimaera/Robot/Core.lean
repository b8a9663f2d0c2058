import Chimaera.Base.Checked
import Mathlib.Algebra.Order.Field.Basic
import Mathlib.Algebra.Order.Field.Rat

/-! The wall follower's controller: one laser scan in, one velocity command out. The
numbers are those of an ordered field, so that the reals are one reading and the
rationals an executable one; the functions of the mathematical library are given. An
access out of range and a division by zero are faults. -/

namespace Chimaera.Robot
open Base.Checked Base.Unsigned

structure Parameters (K : Type) where
  controlHz : K
  targetDistance : K
  speed : K
  kp : K
  headingGain : K
  maxYawRate : K
  frontStop : K
  scanTimeout : K
  sectorStart : K
  sectorEnd : K
  fitThreshold : K
  beamStride : Int64
  minPoints : Int64

structure Trigonometry (K : Type) where
  cos : K → K
  sin : K → K
  atan2 : K → K → K

inductive Reading (K : Type) where
  | finite (distance : K)
  | nan
  | infinity
  | negativeInfinity
  deriving DecidableEq, Repr

structure Scan (K : Type) where
  ranges : List (Reading K)
  angleMin : K
  increment : K
  rangeMin : K
  rangeMax : K

inductive Mode where
  | waitingScan
  | invalidFront
  | corner
  | lostWall
  | tracking
  deriving DecidableEq, Repr

/-- The command's NaN is `none` in `distance` and `heading`; in `clearance`, `none` is
the infinity of a scan with no valid return ahead. -/
structure Command (K : Type) where
  speed : K
  yaw : K
  distance : Option K
  heading : Option K
  state : Mode
  clearance : Option K

structure Point (K : Type) where
  x : K
  y : K
  deriving DecidableEq, Repr

structure Survey (K : Type) where
  clearance : Option K
  frontKnown : Bool
  points : List (Point K)
  validSector : Nat

def size (count : Int64) : Nat := count.toUInt64.toNat

section Controller

variable {K : Type} [Field K] [LinearOrder K]

def pi : K := 314159265358979323846 / 100000000000000000000

def Parameters.initial : Parameters K where
  controlHz := 20
  targetDistance := 8 / 10
  speed := 35 / 100
  kp := 18 / 10
  headingGain := 2
  maxYawRate := 12 / 10
  frontStop := 65 / 100
  scanTimeout := 3 / 10
  sectorStart := -110
  sectorEnd := -40
  fitThreshold := 4 / 100
  beamStride := 1
  minPoints := 6

/-- Over a field every parameter is finite, so only the bounds remain to be checked. -/
def Parameters.validate (p : Parameters K) : Except String Unit :=
  if [p.controlHz, p.targetDistance, p.speed, p.maxYawRate, p.frontStop, p.scanTimeout,
      p.fitThreshold].any (fun v => decide (v ≤ 0)) then
    .error "positive finite parameters required"
  else if p.kp < 0 ∨ p.headingGain < 0 ∨ p.controlHz < 1 ∨ 500 < p.controlHz ∨
      p.sectorStart < -175 ∨ -5 < p.sectorEnd ∨ p.sectorEnd ≤ p.sectorStart ∨
      p.beamStride < 1 ∨ p.minPoints < 3 then
    .error "invalid controller parameters"
  else .ok ()

namespace Scan

def angle (scan : Scan K) (index : Nat) : K := scan.angleMin + index * scan.increment

def valid (scan : Scan K) : Reading K → Option K
  | .finite r => if scan.rangeMin ≤ r ∧ r ≤ scan.rangeMax then some r else none
  | _ => none

end Scan

def Ahead (a : K) : Prop := |a| < 20 * pi / 180

instance (a : K) : Decidable (Ahead a) := inferInstanceAs (Decidable (_ < _))

def Scan.known (scan : Scan K) (r : Reading K) : Bool :=
  (scan.valid r).isSome || decide (r = .infinity)

def nearer : Option K → Option K → Option K
  | clearance, none => clearance
  | none, some r => some r
  | some clearance, some r => some (min clearance r)

def Survey.front (scan : Scan K) (survey : Survey K) (a : K) (r : Reading K) : Survey K :=
  if Ahead a then
    { survey with
      frontKnown := survey.frontKnown || scan.known r
      clearance := nearer survey.clearance (scan.valid r) }
  else survey

/-- One iteration of the loop over the scan. The valid returns of the sector are
counted, and every `beam_stride`-th of them becomes a point. -/
def Survey.beam (trig : Trigonometry K) (p : Parameters K) (scan : Scan K)
    (survey : Survey K) (item : Reading K × Nat) : Except Fault (Survey K) :=
  let a := scan.angle item.2
  let survey := survey.front scan a item.1
  match scan.valid item.1 with
  | some r =>
    if p.sectorStart * pi / 180 ≤ a ∧ a ≤ p.sectorEnd * pi / 180 then do
      let turn ← remainder survey.validSector (size p.beamStride)
      let points := if turn = 0 then survey.points ++ [⟨r * trig.cos a, r * trig.sin a⟩]
        else survey.points
      .ok { survey with validSector := survey.validSector + 1, points := points }
    else .ok survey
  | none => .ok survey

def Scan.survey (trig : Trigonometry K) (p : Parameters K) (scan : Scan K) :
    Except Fault (Survey K) :=
  scan.ranges.zipIdx.foldlM (Survey.beam trig p scan) ⟨none, false, [], 0⟩

def samples (points : List (Point K)) : Nat := min 10 points.length

def sample (points : List (Point K)) (i : Nat) : Except Fault (Point K) := do
  let index ← quotient (i * (points.length - 1)) (samples points - 1)
  fetch points index

/-- The pairs `i < j < n` in the order of the two nested loops. -/
def pairs (n : Nat) : List (Nat × Nat) :=
  (List.range n).flatMap fun i => (List.range' (i + 1) (n - (i + 1))).map fun j => (i, j)

def cross (first second point : Point K) : K :=
  -(point.x - first.x) * (second.y - first.y) + (point.y - first.y) * (second.x - first.x)

def collect (p : Parameters K) (points : List (Point K)) (first second : Point K) (length : K)
    (inliers : List Nat) (k : Nat) : Except Fault (List Nat) := do
  let point ← fetch points k
  let offset ← quotient |cross first second point| length
  .ok (if offset ≤ p.fitThreshold then inliers ++ [k] else inliers)

def baseline : K := 5 / 100

def consider (hypot : K → K → K) (p : Parameters K) (points : List (Point K))
    (best : List Nat) (pair : Nat × Nat) : Except Fault (List Nat) := do
  let first ← sample points pair.1
  let second ← sample points pair.2
  let length := hypot (second.x - first.x) (second.y - first.y)
  if length < baseline then .ok best
  else do
    let inliers ← (List.range points.length).foldlM (collect p points first second length) []
    .ok (if best.length < inliers.length then inliers else best)

def consensus (hypot : K → K → K) (p : Parameters K) (points : List (Point K)) :
    Except Fault (List Nat) :=
  (pairs (samples points)).foldlM (consider hypot p points) []

def total (points : List (Point K)) (sum : Point K) (i : Nat) : Except Fault (Point K) := do
  let point ← fetch points i
  .ok ⟨sum.x + point.x, sum.y + point.y⟩

structure Moments (K : Type) where
  xx : K
  xy : K
  yy : K

def Moments.add (points : List (Point K)) (mean : Point K) (moments : Moments K) (i : Nat) :
    Except Fault (Moments K) := do
  let point ← fetch points i
  let dx := point.x - mean.x
  let dy := point.y - mean.y
  .ok ⟨moments.xx + dx * dx, moments.xy + dx * dy, moments.yy + dy * dy⟩

structure Fit (K : Type) where
  heading : K
  distance : K

def fit (trig : Trigonometry K) (points : List (Point K)) (best : List Nat) :
    Except Fault (Fit K) := do
  let sum ← best.foldlM (total points) ⟨0, 0⟩
  let x ← quotient sum.x (best.length : K)
  let y ← quotient sum.y (best.length : K)
  let moments ← best.foldlM (Moments.add points ⟨x, y⟩) ⟨0, 0, 0⟩
  let heading := 5 / 10 * trig.atan2 (2 * moments.xy) (moments.xx - moments.yy)
  .ok ⟨heading, |trig.cos heading * y - trig.sin heading * x|⟩

def steer (p : Parameters K) (clearance : Option K) (line : Fit K) :
    Except Fault (Command K) := do
  let yaw ← clamp (-p.kp * (line.distance - p.targetDistance) + p.headingGain * line.heading)
    (-p.maxYawRate) p.maxYawRate
  let share ← quotient |yaw| p.maxYawRate
  .ok { speed := p.speed * max (2 / 10) (1 - share), yaw := yaw, distance := some line.distance,
        heading := some line.heading, state := .tracking, clearance := clearance }

def halted (state : Mode) (yaw : K) (clearance : Option K) : Command K :=
  { speed := 0, yaw := yaw, distance := none, heading := none, state := state,
    clearance := clearance }

def blocked (p : Parameters K) : Option K → Bool
  | some clearance => decide (clearance < p.frontStop)
  | none => false

def command (trig : Trigonometry K) (hypot : K → K → K) (scan : Scan K) (p : Parameters K) :
    Except Fault (Command K) := do
  let survey ← scan.survey trig p
  if !survey.frontKnown then .ok (halted .invalidFront 0 survey.clearance)
  else if blocked p survey.clearance then .ok (halted .corner p.maxYawRate survey.clearance)
  else if survey.points.length < size p.minPoints then
    .ok (halted .lostWall 0 survey.clearance)
  else do
    let best ← consensus hypot p survey.points
    if best.length < size p.minPoints then .ok (halted .lostWall 0 survey.clearance)
    else do
      let line ← fit trig survey.points best
      steer p survey.clearance line

end Controller

/-- Seven beams on a straight wall and four free ones ahead, over the rationals with
stand-ins for the trigonometric functions. -/
example :
    ((command (⟨fun a => a, fun _ => -1, fun _ _ => 0⟩ : Trigonometry ℚ)
      (fun dx dy => |dx| + |dy|)
      ⟨List.replicate 8 (.finite 1) ++ List.replicate 4 .infinity, -3 / 2, 1 / 8, 0, 20⟩
      .initial).toOption.map fun out => (out.state, out.yaw)) =
      some (.tracking, -117 / 200) := by
  decide +kernel

end Chimaera.Robot
