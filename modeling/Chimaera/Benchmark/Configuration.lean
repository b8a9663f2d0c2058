import Chimaera.Session.Values

/-! `configuration.py`: the parameters of the wall follower, their defaults and `validate`. -/

namespace Chimaera.Benchmark
open Base.Text Session

inductive Parameter where
  | controlHz | targetDistance | speed | kp | headingGain | maxYawRate | frontStop | scanTimeout
  | beamStride | sectorStart | sectorEnd | minPoints | fitThreshold
  deriving DecidableEq, Repr

namespace Parameter

def all : List Parameter :=
  [controlHz, targetDistance, speed, kp, headingGain, maxYawRate, frontStop, scanTimeout,
    beamStride, sectorStart, sectorEnd, minPoints, fitThreshold]

def name : Parameter → Line
  | controlHz => text "control_hz"
  | targetDistance => text "target_distance"
  | speed => text "speed"
  | kp => text "kp"
  | headingGain => text "heading_gain"
  | maxYawRate => text "max_yaw_rate"
  | frontStop => text "front_stop"
  | scanTimeout => text "scan_timeout"
  | beamStride => text "beam_stride"
  | sectorStart => text "sector_start"
  | sectorEnd => text "sector_end"
  | minPoints => text "min_points"
  | fitThreshold => text "fit_threshold"

def ofName (name : Line) : Option Parameter := all.find? fun parameter => parameter.name = name

end Parameter

abbrev Parameters := Parameter → Json

def real (value : Rat) : Json := .float (.finite value)

def defaults : Parameters
  | .controlHz => real 20
  | .targetDistance => real (4 / 5)
  | .speed => real (7 / 20)
  | .kp => real (9 / 5)
  | .headingGain => real 2
  | .maxYawRate => real (6 / 5)
  | .frontStop => real (13 / 20)
  | .scanTimeout => real (3 / 10)
  | .beamStride => .int 1
  | .sectorStart => real (-110)
  | .sectorEnd => real (-40)
  | .minPoints => .int 6
  | .fitThreshold => real (1 / 25)

/-- The value of an `int` or `float` that is finite; `bool` is a kind of `int`. -/
def finiteNumber : Json → Option Rat
  | .bool value => some (if value then 1 else 0)
  | .int value => some value
  | .float (.finite value) => some value
  | _ => none

def Parameters.value (p : Parameters) (parameter : Parameter) : Rat :=
  (finiteNumber (p parameter)).getD 0

def isInt : Json → Bool
  | .int _ => true
  | _ => false

def require (condition : Bool) (what : Line) : Except Line Unit :=
  if condition then .ok () else .error what

theorem require_eq_ok {condition : Bool} {what : Line} {done : Unit} :
    require condition what = .ok done ↔ condition = true := by
  cases condition with
  | false => simp [require]
  | true => simp [require]

def positives : List Parameter :=
  [.controlHz, .targetDistance, .speed, .maxYawRate, .frontStop, .scanTimeout, .fitThreshold]

def validate (p : Parameters) : Except Line Unit := do
  Parameter.all.forM fun k =>
    require (finiteNumber (p k)).isSome (k.name ++ text " must be finite")
  positives.forM fun k => require (0 < p.value k) (k.name ++ text " must be positive")
  require (0 ≤ p.value .kp && 0 ≤ p.value .headingGain) (text "gains must be nonnegative")
  require (1 ≤ p.value .controlHz && p.value .controlHz ≤ 500)
    (text "control_hz must be in [1, 500]")
  require (-175 ≤ p.value .sectorStart && p.value .sectorStart < p.value .sectorEnd &&
      p.value .sectorEnd ≤ -5)
    (text "wall sector must lie on the right: [-175, -5] degrees")
  require (isInt (p .beamStride) && 1 ≤ p.value .beamStride)
    (text "beam_stride must be a positive integer")
  require (isInt (p .minPoints) && 3 ≤ p.value .minPoints)
    (text "min_points must be an integer >= 3")

theorem validate_defaults : validate defaults = .ok () := by decide +kernel

end Chimaera.Benchmark
