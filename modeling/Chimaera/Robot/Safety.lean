import Chimaera.Robot.Core
import Mathlib.Analysis.Real.Pi.Bounds
import Mathlib.Analysis.Real.Sqrt
import Mathlib.Analysis.SpecialFunctions.Complex.Arg
import Mathlib.Analysis.SpecialFunctions.Trigonometric.Bounds
import Mathlib.Tactic.Linarith
import Mathlib.Tactic.FieldSimp
import Mathlib.Tactic.Ring
import Mathlib.Tactic.Positivity

/-! The controller is safe on every scan: with accepted parameters it commits no fault,
stays within its speed and yaw limits, and moves forward only along a wall it has fitted
with a free way ahead. In front of a straight wall it does move. -/

namespace Chimaera.Robot
open Base.Checked Base.Unsigned

section Parameters

variable {K : Type} [Field K] [LinearOrder K]

structure Parameters.Sound (p : Parameters K) : Prop where
  speed : 0 < p.speed
  maxYawRate : 0 < p.maxYawRate
  beamStride : 0 < size p.beamStride
  minPoints : 3 ≤ size p.minPoints
  minPoints_exact : (size p.minPoints : Int) = p.minPoints.toInt

theorem size_exact {count : Int64} (nonnegative : 0 ≤ count.toInt) :
    (size count : Int) = count.toInt := by
  have signed : count.toInt = count.toBitVec.toInt := rfl
  have unsigned : size count = count.toBitVec.toNat := rfl
  have cond := BitVec.toInt_eq_toNat_cond count.toBitVec
  have bound := count.toBitVec.isLt
  rw [unsigned, signed]
  rw [signed] at nonnegative
  split at cond <;> omega

theorem size_bound {count : Int64} {bound : Nat} (atLeast : (bound : Int) ≤ count.toInt) :
    bound ≤ size count := by
  have exact := size_exact (le_trans (Int.natCast_nonneg bound) atLeast)
  omega

theorem Parameters.validate_eq_ok {p : Parameters K} :
    p.validate = .ok () ↔
      (0 < p.controlHz ∧ 0 < p.targetDistance ∧ 0 < p.speed ∧ 0 < p.maxYawRate ∧
        0 < p.frontStop ∧ 0 < p.scanTimeout ∧ 0 < p.fitThreshold) ∧
      (0 ≤ p.kp ∧ 0 ≤ p.headingGain ∧ 1 ≤ p.controlHz ∧ p.controlHz ≤ 500 ∧
        -175 ≤ p.sectorStart ∧ p.sectorEnd ≤ -5 ∧ p.sectorStart < p.sectorEnd ∧
        1 ≤ p.beamStride.toInt ∧ 3 ≤ p.minPoints.toInt) := by
  have one : (1 : Int64).toInt = 1 := rfl
  have three : (3 : Int64).toInt = 3 := rfl
  unfold validate
  split
  · rename_i negative
    refine iff_of_false (fun refused => by cases refused) fun accepted => ?_
    revert negative
    simpa only [List.any_cons, List.any_nil, Bool.or_false, Bool.or_eq_true, decide_eq_true_eq,
      imp_false, not_or, not_le] using accepted.1
  · rename_i positive
    simp only [List.any_cons, List.any_nil, Bool.or_false, Bool.or_eq_true, decide_eq_true_eq,
      not_or, not_le] at positive
    split
    · rename_i outside
      refine iff_of_false (fun refused => by cases refused) fun accepted => ?_
      revert outside
      simpa only [imp_false, not_or, not_lt, not_le, Int64.lt_iff_toInt_lt, one, three]
        using accepted.2
    · rename_i inside
      simp only [not_or, not_lt, not_le, Int64.lt_iff_toInt_lt, one, three] at inside
      exact iff_of_true rfl ⟨positive, inside⟩

theorem Parameters.sound_of_validate {p : Parameters K} (accepted : p.validate = .ok ()) :
    p.Sound := by
  obtain ⟨⟨_, _, speed, yaw, _⟩, _, _, _, _, _, _, _, stride, enough⟩ :=
    validate_eq_ok.mp accepted
  exact ⟨speed, yaw, size_bound stride, size_bound enough, size_exact (by omega)⟩

theorem Parameters.initial_accepted [IsStrictOrderedRing K] :
    (initial : Parameters K).validate = .ok () := by
  have stride : (1 : Int64).toInt = 1 := rfl
  have enough : (6 : Int64).toInt = 6 := rfl
  rw [validate_eq_ok]
  simp only [initial, stride, enough]
  norm_num

end Parameters

section Scanning

variable {K : Type} [LinearOrder K]

theorem nearer_le_left {clearance r : Option K} {c : K} (found : clearance = some c) :
    ∃ least, nearer clearance r = some least ∧ least ≤ c := by
  subst found
  cases r with
  | none => exact ⟨c, rfl, le_rfl⟩
  | some r => exact ⟨min c r, rfl, min_le_left c r⟩

theorem nearer_le_right (clearance : Option K) (r : K) :
    ∃ least, nearer clearance (some r) = some least ∧ least ≤ r := by
  cases clearance with
  | none => exact ⟨r, rfl, le_rfl⟩
  | some c => exact ⟨min c r, rfl, min_le_right c r⟩

variable [Field K] {scan : Scan K} {p : Parameters K}

structure Surveyed (scan : Scan K) (done : List (Reading K × Nat)) (survey : Survey K) :
    Prop where
  known : survey.frontKnown = true →
    ∃ item ∈ done, Ahead (scan.angle item.2) ∧ scan.known item.1 = true
  clear : ∀ item ∈ done, Ahead (scan.angle item.2) → ∀ r, scan.valid item.1 = some r →
    ∃ clearance, survey.clearance = some clearance ∧ clearance ≤ r

theorem Surveyed.front {done : List (Reading K × Nat)} {survey : Survey K}
    (surveyed : Surveyed scan done survey) (item : Reading K × Nat) :
    Surveyed scan (done ++ [item]) (survey.front scan (scan.angle item.2) item.1) := by
  unfold Survey.front
  by_cases ahead : Ahead (scan.angle item.2)
  · rw [if_pos ahead]
    refine ⟨fun found => ?_, fun other member before r valid => ?_⟩
    · rcases Bool.or_eq_true_iff.mp found with earlier | now
      · obtain ⟨other, member, rest⟩ := surveyed.known earlier
        exact ⟨other, List.mem_append_left _ member, rest⟩
      · exact ⟨item, List.mem_append_right _ List.mem_cons_self, ahead, now⟩
    · rcases List.mem_append.mp member with earlier | now
      · obtain ⟨c, found, below⟩ := surveyed.clear other earlier before r valid
        obtain ⟨least, still, under⟩ := nearer_le_left found
        exact ⟨least, still, le_trans under below⟩
      · rw [List.mem_singleton.mp now] at valid
        obtain ⟨least, found, below⟩ := nearer_le_right survey.clearance r
        exact ⟨least, by rw [← found, ← valid], below⟩
  · rw [if_neg ahead]
    refine ⟨fun found => ?_, fun other member before r valid => ?_⟩
    · obtain ⟨other, member, rest⟩ := surveyed.known found
      exact ⟨other, List.mem_append_left _ member, rest⟩
    · rcases List.mem_append.mp member with earlier | now
      · exact surveyed.clear other earlier before r valid
      · rw [List.mem_singleton.mp now] at before
        exact absurd before ahead

theorem Survey.beam_returns (trig : Trigonometry K) (sound : p.Sound)
    {done : List (Reading K × Nat)} {survey : Survey K} (surveyed : Surveyed scan done survey)
    (item : Reading K × Nat) :
    Returns (survey.beam trig p scan item) (Surveyed scan (done ++ [item])) := by
  have passed := surveyed.front item
  unfold beam
  cases scan.valid item.1 with
  | none => exact Returns.ok passed
  | some r =>
    dsimp only
    by_cases sector : p.sectorStart * pi / 180 ≤ scan.angle item.2 ∧
        scan.angle item.2 ≤ p.sectorEnd * pi / 180
    · rw [if_pos sector]
      refine (remainder_returns sound.beamStride).bind fun turn _ _ => ?_
      exact Returns.ok ⟨passed.known, passed.clear⟩
    · rw [if_neg sector]
      exact Returns.ok passed

theorem Scan.survey_returns (trig : Trigonometry K) (scan : Scan K) (sound : p.Sound) :
    Returns (scan.survey trig p) (Surveyed scan scan.ranges.zipIdx) := by
  apply Returns.fold
  · exact ⟨fun found => absurd found Bool.false_ne_true, fun item member => absurd member (by simp)⟩
  · intro done item survey _ surveyed
    exact Survey.beam_returns trig sound surveyed item

end Scanning

section Consensus

variable {K : Type} {points : List (Point K)}

theorem sample_index {i size n : Nat} (inside : i < n) (several : 2 ≤ n) (enough : n ≤ size) :
    i * (size - 1) / (n - 1) < size := by
  have bounded : i * (size - 1) ≤ (n - 1) * (size - 1) := Nat.mul_le_mul_right _ (by omega)
  have divided : i * (size - 1) / (n - 1) ≤ (n - 1) * (size - 1) / (n - 1) :=
    Nat.div_le_div_right bounded
  rw [Nat.mul_div_cancel_left _ (by omega : 0 < n - 1)] at divided
  omega

theorem sample_returns {i : Nat} (enough : 2 ≤ points.length) (inside : i < samples points) :
    Returns (sample points i) (fun _ => True) := by
  have several : 2 ≤ samples points := by unfold samples; omega
  have index := sample_index inside several (min_le_right 10 points.length)
  unfold sample
  refine (quotient_returns (by omega)).bind fun found _ exactly => ?_
  rw [exactly]
  exact (fetch_returns index).mono fun _ _ => trivial

theorem mem_pairs {n : Nat} {pair : Nat × Nat} (member : pair ∈ pairs n) :
    pair.1 < n ∧ pair.2 < n := by
  obtain ⟨i, outer, inner⟩ := List.mem_flatMap.mp member
  obtain ⟨j, range, rfl⟩ := List.mem_map.mp inner
  have first := List.mem_range.mp outer
  have second := List.mem_range'_1.mp range
  exact ⟨first, by omega⟩

variable [Field K] [LinearOrder K] {p : Parameters K}

structure Inliers (p : Parameters K) (points : List (Point K)) (first second : Point K)
    (length : K) (done found : List Nat) : Prop where
  examined : found.Sublist done
  close : ∀ k ∈ found, ∃ point, points[k]? = some point ∧
    |cross first second point| / length ≤ p.fitThreshold

theorem collect_returns {first second : Point K} {length : K} {done found : List Nat} {k : Nat}
    (inliers : Inliers p points first second length done found) (nonzero : length ≠ 0)
    (inside : k < points.length) :
    Returns (collect p points first second length found k)
      (Inliers p points first second length (done ++ [k])) := by
  unfold collect
  refine (fetch_returns inside).bind fun point _ there => ?_
  refine (quotient_returns nonzero).bind fun offset _ exactly => ?_
  apply Returns.ok
  by_cases near : offset ≤ p.fitThreshold
  · rw [if_pos near]
    refine ⟨inliers.examined.append (List.Sublist.refl [k]), fun other member => ?_⟩
    rcases List.mem_append.mp member with earlier | now
    · exact inliers.close other earlier
    · rw [List.mem_singleton.mp now]
      exact ⟨point, there, exactly ▸ near⟩
  · rw [if_neg near]
    exact ⟨inliers.examined.trans (List.sublist_append_left done [k]), inliers.close⟩

theorem collected_returns (p : Parameters K) {first second : Point K} {length : K}
    (nonzero : length ≠ 0) :
    Returns ((List.range points.length).foldlM (collect p points first second length) [])
      (Inliers p points first second length (List.range points.length)) := by
  apply Returns.fold
  · exact ⟨List.Sublist.refl [], fun k member => absurd member List.not_mem_nil⟩
  · intro done k found member inliers
    exact collect_returns inliers nonzero (List.mem_range.mp member)

/-- A consensus set: the inliers of the line through two sampled points that are far
enough apart. -/
def Agreed (hypot : K → K → K) (p : Parameters K) (points : List (Point K))
    (best : List Nat) : Prop :=
  ∃ i j first second, sample points i = .ok first ∧ sample points j = .ok second ∧
    baseline ≤ hypot (second.x - first.x) (second.y - first.y) ∧
    Inliers p points first second (hypot (second.x - first.x) (second.y - first.y))
      (List.range points.length) best

variable [IsStrictOrderedRing K]

theorem baseline_pos : (0 : K) < baseline := by
  unfold baseline
  positivity

theorem consider_returns {hypot : K → K → K} {best : List Nat} {pair : Nat × Nat}
    (agreed : best = [] ∨ Agreed hypot p points best) (enough : 2 ≤ points.length)
    (inside : pair ∈ pairs (samples points)) :
    Returns (consider hypot p points best pair)
      (fun best => best = [] ∨ Agreed hypot p points best) := by
  have places := mem_pairs inside
  unfold consider
  refine (sample_returns enough places.1).bind fun first sampled _ => ?_
  refine (sample_returns enough places.2).bind fun second sampled' _ => ?_
  dsimp only
  by_cases short : hypot (second.x - first.x) (second.y - first.y) < baseline
  · rw [if_pos short]
    exact Returns.ok agreed
  · rw [if_neg short]
    have apart := not_lt.mp short
    have nonzero : hypot (second.x - first.x) (second.y - first.y) ≠ 0 :=
      (lt_of_lt_of_le baseline_pos apart).ne'
    refine (collected_returns p nonzero).bind fun inliers _ found => ?_
    apply Returns.ok
    split
    · exact .inr ⟨pair.1, pair.2, first, second, sampled, sampled', apart, found⟩
    · exact agreed

theorem consensus_returns (hypot : K → K → K) (p : Parameters K) (enough : 2 ≤ points.length) :
    Returns (consensus hypot p points) (fun best => best = [] ∨ Agreed hypot p points best) := by
  apply Returns.loop
  · exact .inl rfl
  · intro pair best member agreed
    exact consider_returns agreed enough member

end Consensus

section Fitting

variable {K : Type} [Field K] [LinearOrder K] {points : List (Point K)} {best : List Nat}

theorem fit_returns [CharZero K] (trig : Trigonometry K) (nonempty : best ≠ [])
    (inside : ∀ k ∈ best, k < points.length) : Returns (fit trig points best) (fun _ => True) := by
  have summed : Returns (best.foldlM (total points) ⟨0, 0⟩) (fun _ => True) := by
    apply Returns.loop trivial
    intro k sum member _
    exact (fetch_returns (inside k member)).bind fun point _ _ => Returns.ok trivial
  have spread : ∀ mean, Returns (best.foldlM (Moments.add points mean) ⟨0, 0, 0⟩)
      (fun _ => True) := by
    intro mean
    apply Returns.loop trivial
    intro k sum member _
    exact (fetch_returns (inside k member)).bind fun point _ _ => Returns.ok trivial
  have counted : (best.length : K) ≠ 0 := by
    exact Nat.cast_ne_zero.mpr (List.length_pos_iff.mpr nonempty).ne'
  unfold fit
  refine summed.bind fun sum _ _ => ?_
  refine (quotient_returns counted).bind fun x _ _ => ?_
  refine (quotient_returns counted).bind fun y _ _ => ?_
  exact (spread ⟨x, y⟩).bind fun moments _ _ => Returns.ok trivial

structure Command.Limited (p : Parameters K) (out : Command K) : Prop where
  yaw : |out.yaw| ≤ p.maxYawRate
  forward : 0 ≤ out.speed
  speed : out.speed ≤ p.speed

variable {p : Parameters K}

variable [IsStrictOrderedRing K]

theorem steer_returns (sound : p.Sound) (clearance : Option K) (line : Fit K) :
    Returns (steer p clearance line) (fun out => out.Limited p ∧ out.state = .tracking ∧
      out.heading = some line.heading ∧ out.distance = some line.distance) := by
  have ordered : -p.maxYawRate ≤ p.maxYawRate := by linarith [sound.maxYawRate]
  unfold steer
  refine (clamp_returns ordered).bind fun yaw _ bounds => ?_
  refine (quotient_returns sound.maxYawRate.ne').bind fun share _ exactly => ?_
  refine Returns.ok ⟨⟨abs_le.mpr bounds, ?_, ?_⟩, rfl, rfl, rfl⟩
  · exact mul_nonneg sound.speed.le (le_trans (by positivity) (le_max_left _ _))
  · have share_nonneg : 0 ≤ share := by
      rw [exactly]
      exact div_nonneg (abs_nonneg yaw) sound.maxYawRate.le
    have factor : max (2 / 10) (1 - share) ≤ 1 := max_le (by norm_num) (by linarith)
    exact mul_le_of_le_one_right sound.speed.le factor

end Fitting

section Commands

variable {K : Type} [Field K] [LinearOrder K]

def Scan.Clear (scan : Scan K) (p : Parameters K) : Prop :=
  (∃ i r, scan.ranges[i]? = some r ∧ Ahead (scan.angle i) ∧
    ((scan.valid r).isSome = true ∨ r = .infinity)) ∧
  ∀ i r d, scan.ranges[i]? = some r → Ahead (scan.angle i) → scan.valid r = some d →
    p.frontStop ≤ d

theorem Surveyed.scan_clear {scan : Scan K} {p : Parameters K} {survey : Survey K}
    (surveyed : Surveyed scan scan.ranges.zipIdx survey) (known : survey.frontKnown = true)
    (free : blocked p survey.clearance = false) : scan.Clear p := by
  refine ⟨?_, fun i r d there ahead valid => ?_⟩
  · obtain ⟨⟨r, i⟩, member, ahead, informative⟩ := surveyed.known known
    refine ⟨i, r, List.mk_mem_zipIdx_iff_getElem?.mp member, ahead, ?_⟩
    rcases Bool.or_eq_true_iff.mp informative with valid | infinite
    · exact .inl valid
    · exact .inr (of_decide_eq_true infinite)
  · have member := List.mk_mem_zipIdx_iff_getElem?.mpr there
    obtain ⟨c, found, below⟩ := surveyed.clear (r, i) member ahead d valid
    rw [found] at free
    exact le_trans (not_lt.mp (of_decide_eq_false free)) below

def Command.Fitted (trig : Trigonometry K) (hypot : K → K → K) (scan : Scan K)
    (p : Parameters K) (out : Command K) : Prop :=
  ∃ survey best line, scan.survey trig p = .ok survey ∧
    consensus hypot p survey.points = .ok best ∧ fit trig survey.points best = .ok line ∧
    out.heading = some line.heading ∧ out.distance = some line.distance ∧
    p.minPoints.toInt ≤ best.length ∧ Agreed hypot p survey.points best

structure Command.Safe (trig : Trigonometry K) (hypot : K → K → K) (scan : Scan K)
    (p : Parameters K) (out : Command K) : Prop where
  limited : out.Limited p
  still : out.state ≠ .tracking → out.speed = 0
  clear : out.state = .tracking → scan.Clear p
  fitted : out.state = .tracking → out.Fitted trig hypot scan p

theorem halted_safe {trig : Trigonometry K} {hypot : K → K → K} {scan : Scan K}
    {p : Parameters K} (sound : p.Sound) {state : Mode} {yaw : K} (clearance : Option K)
    (bounded : |yaw| ≤ p.maxYawRate) (other : state ≠ .tracking) :
    (halted state yaw clearance).Safe trig hypot scan p where
  limited := ⟨bounded, le_rfl, sound.speed.le⟩
  still _ := rfl
  clear tracks := absurd tracks other
  fitted tracks := absurd tracks other

variable [IsStrictOrderedRing K]

theorem command_returns (trig : Trigonometry K) (hypot : K → K → K) (scan : Scan K)
    {p : Parameters K} (sound : p.Sound) :
    Returns (command trig hypot scan p) (Command.Safe trig hypot scan p) := by
  have straight : |(0 : K)| ≤ p.maxYawRate := by
    rw [abs_zero]
    exact sound.maxYawRate.le
  have turning : |p.maxYawRate| ≤ p.maxYawRate := (abs_of_pos sound.maxYawRate).le
  unfold command
  refine (scan.survey_returns trig sound).bind fun survey surveys surveyed => ?_
  -- the early returns of the source, in its order
  cases known : survey.frontKnown with
  | false => exact Returns.ok (halted_safe sound _ straight (by decide))
  | true =>
    cases free : blocked p survey.clearance with
    | true => exact Returns.ok (halted_safe sound _ turning (by decide))
    | false =>
      have clear := surveyed.scan_clear known free
      by_cases few : survey.points.length < size p.minPoints
      · simp only [Bool.not_true, Bool.false_eq_true, if_false, if_pos few]
        exact Returns.ok (halted_safe sound _ straight (by decide))
      · simp only [Bool.not_true, Bool.false_eq_true, if_false, if_neg few]
        have enough := not_lt.mp few
        have several := le_trans sound.minPoints enough
        refine (consensus_returns hypot p (by omega)).bind fun best agrees agreed => ?_
        by_cases small : best.length < size p.minPoints
        · rw [if_pos small]
          exact Returns.ok (halted_safe sound _ straight (by decide))
        · rw [if_neg small]
          have large := le_trans sound.minPoints (not_lt.mp small)
          have nonempty : best ≠ [] := by
            intro empty
            rw [empty] at large
            exact absurd large (by decide)
          obtain ⟨i, j, first, second, sampled, sampled', apart, inliers⟩ :=
            agreed.resolve_left nonempty
          have inside : ∀ k ∈ best, k < survey.points.length := fun k member =>
            List.mem_range.mp (inliers.examined.subset member)
          refine (fit_returns trig nonempty inside).bind fun line fits _ => ?_
          refine (steer_returns sound survey.clearance line).mono fun out steered => ?_
          obtain ⟨limited, tracks, heading, distance⟩ := steered
          refine ⟨limited, fun other => absurd tracks other, fun _ => clear, fun _ => ?_⟩
          refine ⟨survey, best, line, surveys, agrees, fits, heading, distance, ?_,
            i, j, first, second, sampled, sampled', apart, inliers⟩
          rw [← sound.minPoints_exact]
          exact Int.ofNat_le.mpr (not_lt.mp small)

end Commands

section Walls

variable {K : Type} [Field K] [LinearOrder K] {trig : Trigonometry K} {hypot : K → K → K}
  {scan : Scan K} {p : Parameters K} {points : List (Point K)}

theorem survey_wall (range : Nat → K) (stride : size p.beamStride = 1) (indices : List Nat)
    (survey : Survey K) (seen : ∀ i ∈ indices, scan.rangeMin ≤ range i ∧ range i ≤ scan.rangeMax)
    (sector : ∀ i ∈ indices, p.sectorStart * pi / 180 ≤ scan.angle i ∧
      scan.angle i ≤ p.sectorEnd * pi / 180) (aside : ∀ i ∈ indices, ¬Ahead (scan.angle i)) :
    (indices.map fun i => (Reading.finite (range i), i)).foldlM (Survey.beam trig p scan) survey =
      .ok { survey with
        points := survey.points ++ indices.map fun i =>
          ⟨range i * trig.cos (scan.angle i), range i * trig.sin (scan.angle i)⟩
        validSector := survey.validSector + indices.length } := by
  induction indices generalizing survey with
  | nil =>
    simp only [List.map_nil, List.append_nil]
    rfl
  | cons i indices ih =>
    rw [List.forall_mem_cons] at seen sector aside
    rw [List.map_cons, List.foldlM_cons, Survey.beam]
    simp only [Survey.front, if_neg aside.1, Scan.valid, if_pos seen.1, if_pos sector.1, remainder,
      stride, Nat.mod_one, if_neg one_ne_zero, ok_bind, if_pos, ih _ seen.2 sector.2 aside.2]
    simp [Nat.add_right_comm, Nat.add_assoc]

theorem survey_free (indices : List Nat) (survey : Survey K) :
    (indices.map fun i => (Reading.infinity, i)).foldlM (Survey.beam trig p scan) survey =
      .ok { survey with
        frontKnown := survey.frontKnown || indices.any fun i => decide (Ahead (scan.angle i)) } := by
  induction indices generalizing survey with
  | nil =>
    simp only [List.any_nil, Bool.or_false]
    rfl
  | cons i indices ih =>
    rw [List.map_cons, List.foldlM_cons, Survey.beam]
    simp only [Scan.valid, ok_bind, ih, List.any_cons, Survey.front]
    split_ifs with ahead
    · simp [ahead, Scan.known, nearer]
    · simp [ahead]

def Straight (hypot : K → K → K) (p : Parameters K) (points : List (Point K)) : Prop :=
  ∃ i j first second, (i, j) ∈ pairs (samples points) ∧ sample points i = .ok first ∧
    sample points j = .ok second ∧ baseline ≤ hypot (second.x - first.x) (second.y - first.y) ∧
    ∀ point ∈ points, |cross first second point| /
      hypot (second.x - first.x) (second.y - first.y) ≤ p.fitThreshold

theorem collect_all {first second : Point K} {length : K} (nonzero : length ≠ 0)
    (close : ∀ point ∈ points, |cross first second point| / length ≤ p.fitThreshold)
    (rest found : List Nat) (inside : ∀ k ∈ rest, k < points.length) :
    rest.foldlM (collect p points first second length) found = .ok (found ++ rest) := by
  induction rest generalizing found with
  | nil =>
    rw [List.append_nil]
    rfl
  | cons k rest ih =>
    obtain ⟨here, later⟩ := List.forall_mem_cons.mp inside
    obtain ⟨point, fetched, there⟩ := fetch_returns here
    have near := close point (List.mem_of_getElem? there)
    rw [List.foldlM_cons, collect, fetched, ok_bind, quotient, if_neg nonzero, ok_bind,
      if_pos near, ok_bind, ih _ later, List.append_assoc]
    rfl

theorem consider_grows {best later : List Nat} {pair : Nat × Nat}
    (considered : consider hypot p points best pair = .ok later) :
    best.length ≤ later.length := by
  obtain ⟨first, -, considered⟩ := bind_eq_ok.mp considered
  obtain ⟨second, -, considered⟩ := bind_eq_ok.mp considered
  dsimp only at considered
  split_ifs at considered
  · cases considered
    exact le_rfl
  · obtain ⟨inliers, -, chosen⟩ := bind_eq_ok.mp considered
    cases chosen
    split_ifs with more
    · exact more.le
    · exact le_rfl

variable [IsStrictOrderedRing K]

theorem Straight.consensus {best : List Nat} (straight : Straight hypot p points)
    (agreed : consensus hypot p points = .ok best) : points.length ≤ best.length := by
  obtain ⟨i, j, first, second, member, sampled, sampled', apart, close⟩ := straight
  have nonzero := (lt_of_lt_of_le baseline_pos apart).ne'
  obtain ⟨front, rest, split⟩ := List.append_of_mem member
  rw [Robot.consensus, split, List.foldlM_append] at agreed
  obtain ⟨early, -, agreed⟩ := bind_eq_ok.mp agreed
  rw [List.foldlM_cons] at agreed
  obtain ⟨middle, considered, agreed⟩ := bind_eq_ok.mp agreed
  have all : points.length ≤ middle.length := by
    rw [consider, sampled, ok_bind, sampled', ok_bind] at considered
    dsimp only at considered
    rw [if_neg (not_lt.mpr apart), collect_all nonzero close _ _ fun k => List.mem_range.mp,
      ok_bind, List.nil_append, List.length_range] at considered
    cases considered
    split_ifs with more
    · rw [List.length_range]
    · exact not_lt.mp more
  have kept : ∀ (best : List Nat) (pair : Nat × Nat) (later : List Nat),
      points.length ≤ best.length → consider hypot p points best pair = .ok later →
      points.length ≤ later.length := fun _ _ _ enough later => enough.trans (consider_grows later)
  exact foldlM_preserves kept all agreed

/-- In front of a straight wall, with a free way ahead, the controller tracks. -/
theorem command_tracks {survey : Survey K} {out : Command K} (sound : p.Sound)
    (surveys : scan.survey trig p = .ok survey) (known : survey.frontKnown = true)
    (free : blocked p survey.clearance = false) (straight : Straight hypot p survey.points)
    (enough : size p.minPoints ≤ survey.points.length)
    (ran : command trig hypot scan p = .ok out) : out.state = .tracking := by
  rw [command, surveys, ok_bind, known, free] at ran
  simp only [Bool.not_true, Bool.false_eq_true, if_false, if_neg (not_lt.mpr enough)] at ran
  obtain ⟨best, agreed, ran⟩ := bind_eq_ok.mp ran
  rw [if_neg (not_lt.mpr (enough.trans (straight.consensus agreed)))] at ran
  obtain ⟨line, -, ran⟩ := bind_eq_ok.mp ran
  obtain ⟨steered, taken, -, tracks, -⟩ := steer_returns sound survey.clearance line
  rw [taken] at ran
  cases ran
  exact tracks

end Walls

section Reals

noncomputable def hypotenuse (dx dy : ℝ) : ℝ := √(dx ^ 2 + dy ^ 2)

noncomputable def Point.distance (a b : Point ℝ) : ℝ := hypotenuse (b.x - a.x) (b.y - a.y)

def Point.along (first second : Point ℝ) (s : ℝ) : Point ℝ :=
  ⟨first.x + s * (second.x - first.x), first.y + s * (second.y - first.y)⟩

/-- The quotient the consensus search compares is the distance to the foot of the
perpendicular. -/
theorem distance_foot (first second point : Point ℝ) (apart : 0 < first.distance second) :
    ∃ s, point.distance (first.along second s) =
      |cross first second point| / first.distance second := by
  have square : first.distance second ^ 2 =
      (second.x - first.x) ^ 2 + (second.y - first.y) ^ 2 := Real.sq_sqrt (by positivity)
  have positive : 0 < (second.x - first.x) ^ 2 + (second.y - first.y) ^ 2 := by
    rw [← square]
    positivity
  let s := ((point.x - first.x) * (second.x - first.x) +
    (point.y - first.y) * (second.y - first.y)) /
      ((second.x - first.x) ^ 2 + (second.y - first.y) ^ 2)
  have squares : ((first.along second s).x - point.x) ^ 2 +
      ((first.along second s).y - point.y) ^ 2 =
      (|cross first second point| / first.distance second) ^ 2 := by
    rw [div_pow, sq_abs, square]
    simp only [s, Point.along, cross]
    field_simp
    ring
  refine ⟨s, ?_⟩
  calc point.distance (first.along second s)
      = √((|cross first second point| / first.distance second) ^ 2) := by rw [← squares]; rfl
    _ = |cross first second point| / first.distance second := Real.sqrt_sq (by positivity)

/-- Over the reals, for every scan and every accepted parameter set: the controller
returns; its yaw and speed are limited; it moves only while tracking; and it tracks only
with the front known and clear, along a line through two sampled points at least five
centimetres apart that passes within the threshold of each of the fitted points. -/
theorem command_safe (trig : Trigonometry ℝ) (scan : Scan ℝ) (p : Parameters ℝ)
    (accepted : p.validate = .ok ()) :
    ∃ out, command trig hypotenuse scan p = .ok out ∧
      |out.yaw| ≤ p.maxYawRate ∧ 0 ≤ out.speed ∧ out.speed ≤ p.speed ∧
      (0 < out.speed → out.state = .tracking) ∧
      (out.state = .tracking →
        (∃ i r, scan.ranges[i]? = some r ∧ Ahead (scan.angle i) ∧
          ((scan.valid r).isSome = true ∨ r = .infinity)) ∧
        (∀ i r d, scan.ranges[i]? = some r → Ahead (scan.angle i) → scan.valid r = some d →
          p.frontStop ≤ d) ∧
        ∃ survey best line, scan.survey trig p = .ok survey ∧
          consensus hypotenuse p survey.points = .ok best ∧
          fit trig survey.points best = .ok line ∧
          out.heading = some line.heading ∧ out.distance = some line.distance ∧
          best.Nodup ∧ p.minPoints.toInt ≤ best.length ∧
          ∃ i j first second, sample survey.points i = .ok first ∧
            sample survey.points j = .ok second ∧ 0.05 ≤ first.distance second ∧
            ∀ k ∈ best, ∃ point, survey.points[k]? = some point ∧
              ∃ s, point.distance (first.along second s) ≤ p.fitThreshold) := by
  have sound := Parameters.sound_of_validate accepted
  obtain ⟨out, ran, safe⟩ := command_returns trig hypotenuse scan sound
  refine ⟨out, ran, safe.limited.yaw, safe.limited.forward, safe.limited.speed, ?_, ?_⟩
  · intro moves
    by_contra other
    exact absurd (safe.still other) moves.ne'
  · intro tracks
    obtain ⟨informative, free⟩ := safe.clear tracks
    obtain ⟨survey, best, line, surveys, agrees, fits, heading, distance, enough,
      i, j, first, second, sampled, sampled', apart, inliers⟩ := safe.fitted tracks
    have apart : 5 / 100 ≤ first.distance second := apart
    have distinct : best.Nodup := List.nodup_range.sublist inliers.examined
    refine ⟨informative, free, survey, best, line, surveys, agrees, fits, heading, distance,
      distinct, enough, i, j, first, second, sampled, sampled', by linarith, ?_⟩
    intro k member
    obtain ⟨point, there, close⟩ := inliers.close k member
    obtain ⟨s, foot⟩ := distance_foot first second point (by linarith)
    exact ⟨point, there, s, foot.trans_le close⟩

noncomputable def trigonometry : Trigonometry ℝ :=
  ⟨Real.cos, Real.sin, fun y x => Complex.arg ⟨x, y⟩⟩

/-- The beams look from the right hand to straight ahead, and the first six of them end on a wall
at the target distance. -/
noncomputable def wallScan : Scan ℝ where
  ranges := (List.range 6).map (fun i => .finite (Parameters.initial.targetDistance /
      -Real.sin (-(Real.pi / (2 : ℕ)) + i * (Real.pi / (20 : ℕ))))) ++ List.replicate 5 .infinity
  angleMin := -(Real.pi / (2 : ℕ))
  increment := Real.pi / (20 : ℕ)
  rangeMin := 0
  rangeMax := (20 : ℕ)

theorem wallScan_angle (i : Nat) :
    wallScan.angle i = -(Real.pi / 2) + i * (Real.pi / 20) := by
  simp only [Scan.angle, wallScan, Nat.cast_ofNat]

theorem wallScan_items : wallScan.ranges.zipIdx =
    (List.range 6).map (fun i => (.finite (8 / 10 / -Real.sin (wallScan.angle i)), i)) ++
      (List.range' 6 5).map fun i => (.infinity, i) := rfl

theorem wall_angle {i : Nat} (wall : i < 6) :
    -(Real.pi / 2) ≤ wallScan.angle i ∧ wallScan.angle i ≤ -(Real.pi / 4) := by
  have few : (i : ℝ) ≤ 5 := by exact_mod_cast Nat.le_of_lt_succ wall
  have positive := Real.pi_pos
  have turned : (0 : ℝ) ≤ i * (Real.pi / 20) := by positivity
  rw [wallScan_angle]
  constructor
  · linarith
  · nlinarith

theorem wall_side {i : Nat} (wall : i < 6) : 1 / 2 ≤ -Real.sin (wallScan.angle i) := by
  obtain ⟨low, high⟩ := wall_angle wall
  have positive := Real.pi_pos
  rw [← Real.sin_neg]
  calc (1 : ℝ) / 2 = 2 / Real.pi * (Real.pi / 4) := by field_simp; norm_num
    _ ≤ 2 / Real.pi * -wallScan.angle i := by gcongr; linarith
    _ ≤ Real.sin (-wallScan.angle i) := Real.mul_le_sin (by linarith) (by linarith)

noncomputable def wallPoints : List (Point ℝ) := (List.range 6).map fun i =>
  ⟨Parameters.initial.targetDistance / -Real.sin (wallScan.angle i) * Real.cos (wallScan.angle i),
    -Parameters.initial.targetDistance⟩

theorem wallPoints_eq : wallPoints = (List.range 6).map fun i =>
    ⟨8 / 10 / -Real.sin (wallScan.angle i) * Real.cos (wallScan.angle i), -(8 / 10)⟩ := rfl

theorem wallPoints_seen : ((List.range 6).map fun i =>
    (⟨8 / 10 / -Real.sin (wallScan.angle i) * Real.cos (wallScan.angle i),
      8 / 10 / -Real.sin (wallScan.angle i) * Real.sin (wallScan.angle i)⟩ : Point ℝ)) =
    wallPoints := by
  rw [wallPoints_eq]
  refine List.map_congr_left fun i member => ?_
  have side := wall_side (List.mem_range.mp member)
  have nonzero : Real.sin (wallScan.angle i) ≠ 0 := by linarith
  congr 1
  field_simp

theorem wallScan_survey :
    wallScan.survey trigonometry .initial = .ok ⟨none, true, wallPoints, 6⟩ := by
  have wide := Real.pi_lt_d2
  have narrow := Real.pi_gt_d2
  rw [Scan.survey, wallScan_items, List.foldlM_append, survey_wall _ rfl, ok_bind, survey_free]
  · have ahead : Ahead (wallScan.angle 10) := by
      have zero : wallScan.angle 10 = 0 := by
        rw [wallScan_angle]
        push_cast
        ring
      rw [Ahead, zero, abs_zero]
      norm_num [pi]
    have front : (List.range' 6 5).any (fun i => decide (Ahead (wallScan.angle i))) = true :=
      List.any_eq_true.mpr ⟨10, by decide, decide_eq_true ahead⟩
    rw [front, ← wallPoints_seen]
    rfl
  all_goals
    intro i member
    obtain ⟨low, high⟩ := wall_angle (List.mem_range.mp member)
  · have side := wall_side (List.mem_range.mp member)
    have most := Real.neg_one_le_sin (wallScan.angle i)
    constructor
    · change 0 ≤ _
      rw [le_div_iff₀ (by linarith)]
      linarith
    · change _ ≤ ((20 : ℕ) : ℝ)
      rw [Nat.cast_ofNat, div_le_iff₀ (by linarith)]
      linarith
  · simp only [Parameters.initial, pi]
    constructor <;> norm_num at low high ⊢ <;> linarith
  · rw [Ahead, not_lt, le_abs]
    refine .inr ?_
    norm_num [pi] at low high ⊢
    linarith

theorem wallPoints_straight : Straight hypotenuse .initial wallPoints := by
  have first : wallScan.angle 0 = -(Real.pi / 2) := by
    simp [wallScan_angle]
  have last : wallScan.angle 5 = -(Real.pi / 4) := by
    rw [wallScan_angle]
    push_cast
    ring
  have near : 8 / 10 / -Real.sin (wallScan.angle 0) * Real.cos (wallScan.angle 0) = 0 := by
    rw [first, Real.cos_neg, Real.cos_pi_div_two, mul_zero]
  have far : 8 / 10 / -Real.sin (wallScan.angle 5) * Real.cos (wallScan.angle 5) = 8 / 10 := by
    have positive : 0 < Real.sqrt 2 := by positivity
    rw [last, Real.sin_neg, neg_neg, Real.cos_neg, Real.cos_pi_div_four, Real.sin_pi_div_four]
    field_simp
  rw [wallPoints_eq]
  refine ⟨0, 5, _, _, by decide, rfl, rfl, ?_, ?_⟩
  · dsimp only
    rw [near, far, hypotenuse, sub_self]
    refine Real.le_sqrt_of_sq_le ?_
    norm_num [baseline]
  · intro point member
    obtain ⟨i, -, rfl⟩ := List.mem_map.mp member
    simp [cross, Parameters.initial]
    norm_num

/-- On that scan the controller tracks the wall, so each of its promises is met. -/
theorem command_safe_wall :
    ∃ out, command trigonometry hypotenuse wallScan .initial = .ok out ∧ out.state = .tracking ∧
      |out.yaw| ≤ 12 / 10 ∧ 0 ≤ out.speed ∧ out.speed ≤ 35 / 100 ∧
      ∃ survey best line, wallScan.survey trigonometry .initial = .ok survey ∧
        consensus hypotenuse .initial survey.points = .ok best ∧
        fit trigonometry survey.points best = .ok line ∧
        out.heading = some line.heading ∧ out.distance = some line.distance ∧
        (6 : Int) ≤ best.length := by
  have accepted : (Parameters.initial : Parameters ℝ).validate = .ok () :=
    Parameters.initial_accepted
  obtain ⟨out, ran, yaw, forward, speed, -, tracked⟩ :=
    command_safe trigonometry wallScan .initial accepted
  have tracks : out.state = .tracking :=
    command_tracks (Parameters.sound_of_validate accepted) wallScan_survey rfl rfl
      wallPoints_straight (by decide) ran
  obtain ⟨-, -, survey, best, line, surveys, agrees, fits, heading, distance, -, enough, -⟩ :=
    tracked tracks
  exact ⟨out, ran, tracks, yaw, forward, speed, survey, best, line, surveys, agrees, fits, heading,
    distance, enough⟩

end Reals

end Chimaera.Robot
