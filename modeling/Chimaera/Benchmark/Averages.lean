import Chimaera.Benchmark.Analysis
import Mathlib.Analysis.Real.Sqrt
import Mathlib.MeasureTheory.Measure.Lebesgue.Basic

/-! The task metrics are time averages. The weights are the lengths of the command
intervals after the warmup, they add up to the length of the whole run after the warmup,
and cutting an interval in two changes no average. -/

namespace Chimaera.Benchmark.Analysis
open Base.Weighted

section Structure

variable {K : Type} [Field K] [LinearOrder K] {warmup : K}

theorem weight_nonneg (warmup t next : K) : 0 ≤ weight warmup t next := le_max_left 0 _

theorem weights_single (warmup t : K) : weights warmup [t] = [weight warmup t t] := rfl

theorem weights_cons (warmup t u : K) (rest : List K) :
    weights warmup (t :: u :: rest) = weight warmup t u :: weights warmup (u :: rest) := by
  simp only [weights, List.tail_cons, List.cons_append, List.zipWith_cons_cons,
    List.getLast?_cons_cons]

theorem length_weights (warmup : K) (times : List K) :
    (weights warmup times).length = times.length := by
  cases times with
  | nil => rfl
  | cons t rest => simp [weights, List.getLast?_cons]

theorem weights_nonneg {times : List K} {w : K} (member : w ∈ weights warmup times) : 0 ≤ w := by
  induction times with
  | nil => cases member
  | cons t rest ih =>
    cases rest with
    | nil =>
      rw [weights_single, List.mem_singleton] at member
      rw [member]
      exact weight_nonneg warmup t t
    | cons u rest =>
      rw [weights_cons, List.mem_cons] at member
      rcases member with here | later
      · rw [here]
        exact weight_nonneg warmup t u
      · exact ih later

theorem weights_getElem {times : List K} {i : Nat} {a b : K} (here : times[i]? = some a)
    (next : times[i + 1]? = some b) : (weights warmup times)[i]? = some (weight warmup a b) := by
  induction times generalizing i with
  | nil => cases here
  | cons t rest ih =>
    cases rest with
    | nil => cases next
    | cons u rest =>
      rw [weights_cons]
      cases i with
      | zero =>
        cases here
        cases next
        rfl
      | succ i => exact ih here next

theorem entries_cons (warmup : K) (a b : Row K) (rest : List (Row K)) :
    entries warmup (a :: b :: rest) =
      (weight warmup a.elapsed b.elapsed, a.gtError) :: entries warmup (b :: rest) := by
  simp only [entries, List.map_cons, weights_cons, List.zip_cons_cons]

theorem entries_append (warmup : K) (before : List (Row K)) (row : Row K) :
    ∃ leading, ∀ rest, entries warmup (before ++ row :: rest) =
      leading ++ entries warmup (row :: rest) := by
  induction before with
  | nil => exact ⟨[], fun _ => rfl⟩
  | cons a before ih =>
    obtain ⟨leading, split⟩ := ih
    cases before with
    | nil =>
      exact ⟨[(weight warmup a.elapsed row.elapsed, a.gtError)],
        fun rest => entries_cons warmup a row rest⟩
    | cons b before =>
      refine ⟨(weight warmup a.elapsed b.elapsed, a.gtError) :: leading, fun rest => ?_⟩
      have tail := split rest
      rw [List.cons_append] at tail
      rw [List.cons_append, List.cons_append, entries_cons, tail, List.cons_append]

theorem map_fst_entries (warmup : K) (rows : List (Row K)) :
    (entries warmup rows).map Prod.fst = weights warmup (rows.map Row.elapsed) := by
  apply List.map_fst_zip
  rw [length_weights, List.length_map, List.length_map]

theorem entries_nonneg {rows : List (Row K)} {entry : K × Option K}
    (member : entry ∈ entries warmup rows) : 0 ≤ entry.1 := by
  have inside : entry.1 ∈ weights warmup (rows.map Row.elapsed) := by
    rw [← map_fst_entries]
    exact List.mem_map_of_mem member
  exact weights_nonneg inside

theorem measured_append (before after : List (K × Option K)) :
    measured (before ++ after) = measured before ++ measured after := by
  simp only [measured, keep, List.filter_append, List.filterMap_append]

theorem measured_cons_none (w : K) (rest : List (K × Option K)) :
    measured ((w, none) :: rest) = measured rest := by
  by_cases positive : 0 < w <;> simp [measured, keep, positive]

theorem measured_cons_zero (error : Option K) (rest : List (K × Option K)) :
    measured ((0, error) :: rest) = measured rest := by
  simp [measured, keep]

theorem measured_cons_pos {w : K} (positive : 0 < w) (error : K) (rest : List (K × Option K)) :
    measured ((w, some error) :: rest) = (w, error) :: measured rest := by
  simp [measured, keep, positive]

theorem measured_pos {entries : List (K × Option K)} {sample : K × K}
    (member : sample ∈ measured entries) : 0 < sample.1 := by
  obtain ⟨entry, kept, paired⟩ := List.mem_filterMap.mp member
  obtain ⟨error, _, rfl⟩ := Option.map_eq_some_iff.mp paired
  exact of_decide_eq_true (List.mem_filter.mp kept).2

theorem total_keep {entries : List (K × Option K)} (nonneg : ∀ entry ∈ entries, 0 ≤ entry.1) :
    total (keep entries) = total entries := total_filter_pos nonneg

theorem total_entries (warmup : K) (rows : List (Row K)) :
    total (keep (entries warmup rows)) = (weights warmup (rows.map Row.elapsed)).sum := by
  rw [total_keep fun entry member => entries_nonneg member, total, map_fst_entries]

end Structure

section Sums

variable {K : Type} [Field K] [LinearOrder K] [IsStrictOrderedRing K] {warmup : K}

theorem weight_eq (warmup t next : K) : weight warmup t next = max 0 (next - max t warmup) := by
  unfold weight
  rcases le_total t warmup with early | late
  · rw [max_eq_right (sub_nonneg.mpr early), max_eq_right early]
    congr 1
    ring
  · rw [max_eq_left (sub_nonpos.mpr late), max_eq_left late, sub_zero]

theorem getLast?_weights {times : List K} (nonempty : times ≠ []) :
    (weights warmup times).getLast? = some 0 := by
  induction times with
  | nil => exact absurd rfl nonempty
  | cons t rest ih =>
    cases rest with
    | nil =>
      have empty : weight warmup t t = 0 := by
        rw [weight_eq]
        exact max_eq_left (sub_nonpos.mpr (le_max_left t warmup))
      rw [weights_single, List.getLast?_singleton, empty]
    | cons u rest =>
      have later := ih (List.cons_ne_nil u rest)
      rw [weights_cons, List.getLast?_cons, later, Option.getD_some]

theorem weight_split {a x b : K} (first : a ≤ x) (second : x ≤ b) :
    weight warmup a x + weight warmup x b = weight warmup a b := by
  rw [weight_eq, weight_eq, weight_eq]
  rcases le_total x warmup with early | late
  · have before : a ≤ warmup := le_trans first early
    rw [max_eq_right before, max_eq_right early, max_eq_left (sub_nonpos.mpr early), zero_add]
  · have inside : max a warmup ≤ x := max_le first late
    rw [max_eq_left late, max_eq_right (sub_nonneg.mpr inside),
      max_eq_right (sub_nonneg.mpr second),
      max_eq_right (sub_nonneg.mpr (le_trans inside second))]
    ring

theorem sum_weights {t last : K} {rest : List K} (ordered : (t :: rest).Pairwise (· ≤ ·))
    (final : (t :: rest).getLast? = some last) :
    t ≤ last ∧ (weights warmup (t :: rest)).sum = weight warmup t last := by
  induction rest generalizing t with
  | nil =>
    rw [List.getLast?_singleton, Option.some.injEq] at final
    rw [final, weights_single, List.sum_singleton]
    exact ⟨le_rfl, rfl⟩
  | cons u rest ih =>
    rw [List.getLast?_cons_cons] at final
    have next := List.rel_of_pairwise_cons ordered List.mem_cons_self
    obtain ⟨below, telescoped⟩ := ih ordered.of_cons final
    refine ⟨le_trans next below, ?_⟩
    rw [weights_cons, List.sum_cons, telescoped, weight_split next below]

theorem total_measured_nonneg (entries : List (K × Option K)) : 0 ≤ total (measured entries) := by
  apply List.sum_nonneg
  intro w member
  obtain ⟨sample, inside, rfl⟩ := List.mem_map.mp member
  exact (measured_pos inside).le

theorem total_measured_le {entries : List (K × Option K)}
    (nonneg : ∀ entry ∈ entries, 0 ≤ entry.1) : total (measured entries) ≤ total entries := by
  induction entries with
  | nil => exact le_rfl
  | cons entry rest ih =>
    have others := ih fun other member => nonneg other (List.mem_cons_of_mem _ member)
    have here := nonneg entry List.mem_cons_self
    obtain ⟨w, error⟩ := entry
    cases error with
    | none =>
      rw [measured_cons_none]
      simp only [total, List.map_cons, List.sum_cons] at others here ⊢
      linarith
    | some error =>
      rcases here.lt_or_eq with positive | zero
      · rw [measured_cons_pos positive]
        simp only [total, List.map_cons, List.sum_cons] at others ⊢
        linarith
      · have zero : 0 = w := zero
        subst zero
        rw [measured_cons_zero]
        simp only [total, List.map_cons, List.sum_cons, zero_add] at others ⊢
        exact others

end Sums

section Averages

variable {K : Type} [Field K] [LinearOrder K]

structure Alike (xs ys : List (K × K)) : Prop where
  total : total xs = total ys
  moment : ∀ f, moment f xs = moment f ys
  largest : (xs.map fun sample => |sample.2|).max? = (ys.map fun sample => |sample.2|).max?

theorem Alike.refl (xs : List (K × K)) : Alike xs xs := ⟨rfl, fun _ => rfl, rfl⟩

theorem alike_split (before after : List (K × K)) (u v value : K) :
    Alike (before ++ (u, value) :: (v, value) :: after)
      (before ++ (u + v, value) :: after) := by
  refine ⟨total_split before after u v value, fun f => moment_split f before after u v value, ?_⟩
  apply max?_congr
  intro magnitude
  simp

theorem Alike.weighted {xs ys : List (K × K)} (alike : Alike xs ys) (values : K → K) :
    weighted xs values = weighted ys values := by
  unfold Analysis.weighted
  rw [alike.total, alike.moment]

theorem Alike.maxAbsError {xs ys : List (K × K)} (alike : Alike xs ys) :
    maxAbsError xs = maxAbsError ys := by
  unfold Analysis.maxAbsError
  rw [alike.total, alike.largest]

variable [IsStrictOrderedRing K]

theorem measured_split (before after : List (K × Option K)) {u v : K} (first : 0 ≤ u)
    (second : 0 ≤ v) (error : Option K) :
    Alike (measured (before ++ (u, error) :: (v, error) :: after))
      (measured (before ++ (u + v, error) :: after)) := by
  rw [measured_append, measured_append]
  cases error with
  | none =>
    rw [measured_cons_none, measured_cons_none, measured_cons_none]
    exact Alike.refl _
  | some error =>
    rcases first.lt_or_eq with firstPositive | firstZero
    · rcases second.lt_or_eq with secondPositive | secondZero
      · rw [measured_cons_pos firstPositive, measured_cons_pos secondPositive,
          measured_cons_pos (add_pos firstPositive secondPositive)]
        exact alike_split (measured before) (measured after) u v error
      · rw [← secondZero, add_zero, measured_cons_pos firstPositive, measured_cons_zero,
          measured_cons_pos firstPositive]
        exact Alike.refl _
    · rw [← firstZero, zero_add, measured_cons_zero]
      exact Alike.refl _

theorem averages_ordered (entries : List (K × Option K)) (covered : total (measured entries) ≠ 0) :
    ∃ mae mse largest, weighted (measured entries) (fun error => |error|) = some mae ∧
      weighted (measured entries) (fun error => error ^ 2) = some mse ∧
      maxAbsError (measured entries) = some largest ∧
      0 ≤ mse ∧ mae ^ 2 ≤ mse ∧ mse ≤ largest ^ 2 := by
  have positive := lt_of_le_of_ne (total_measured_nonneg entries) covered.symm
  have nonneg : ∀ sample ∈ measured entries, 0 ≤ sample.1 := fun sample member =>
    (measured_pos member).le
  obtain ⟨largest, found⟩ : ∃ largest,
      ((measured entries).map fun sample => |sample.2|).max? = some largest := by
    apply Option.ne_none_iff_exists'.mp
    intro empty
    rw [List.max?_eq_none_iff, List.map_eq_nil_iff] at empty
    rw [empty] at covered
    exact covered rfl
  have bound : ∀ sample ∈ measured entries, sample.2 ^ 2 ≤ largest ^ 2 := by
    intro sample member
    have below := (List.max?_eq_some_iff.mp found).2 _ (List.mem_map_of_mem member)
    exact sq_le_sq.mpr (le_trans below (le_abs_self largest))
  have jensen := mean_sq_le (f := fun error : K => |error|) nonneg positive
  simp only [sq_abs] at jensen
  refine ⟨_, _, largest, if_neg covered, if_neg covered, ?_, ?_, jensen,
    mean_le nonneg bound positive⟩
  · rw [maxAbsError, if_neg covered, found]
  · exact le_trans (sq_nonneg _) jensen

end Averages

section Runs

variable {K : Type} [Field K] [LinearOrder K]

structure Averaged (lib : Library K) (warmup : K) (rows : List (Row K)) (metrics : Metrics K) :
    Prop where
  rmse : metrics.rmseM =
    (weighted (measured (entries warmup rows)) fun error => error ^ 2).map lib.sqrt
  mae : metrics.maeM = weighted (measured (entries warmup rows)) fun error => |error|
  largest : metrics.maxAbsErrorM = maxAbsError (measured (entries warmup rows))
  coverage : metrics.gtCoverage =
    coverage (total (keep (entries warmup rows))) (total (measured (entries warmup rows)))

theorem summarize_averaged (lib : Library K) (warmup : K) {rows : List (Row K)}
    (nonempty : rows ≠ []) :
    ∃ metrics, summarize lib rows warmup = .ok metrics ∧ Averaged lib warmup rows metrics := by
  unfold summarize
  rw [List.head?_eq_some_head nonempty, List.getLast?_eq_some_getLast nonempty]
  exact ⟨_, rfl, rfl, rfl, rfl, rfl⟩

variable [IsStrictOrderedRing K] {warmup : K}

theorem total_window {rows : List (Row K)} {first last : Row K} (starts : rows.head? = some first)
    (ends : rows.getLast? = some last) (ordered : (rows.map Row.elapsed).Pairwise (· ≤ ·)) :
    total (keep (entries warmup rows)) = max 0 (last.elapsed - max first.elapsed warmup) := by
  rw [total_entries, ← weight_eq]
  cases rows with
  | nil => cases starts
  | cons row rest =>
    cases starts
    rw [List.map_cons] at ordered ⊢
    refine (sum_weights ordered ?_).2
    rw [← List.map_cons, List.getLast?_map, ends, Option.map_some]

theorem coverage_bounds {rows : List (Row K)} {share : K}
    (defined : coverage (total (keep (entries warmup rows)))
      (total (measured (entries warmup rows))) = some share) : 0 ≤ share ∧ share ≤ 1 := by
  have nonneg : ∀ entry ∈ entries warmup rows, 0 ≤ entry.1 := fun entry member =>
    entries_nonneg member
  rw [total_keep nonneg] at defined
  have covered := total_measured_nonneg (entries warmup rows)
  have within := total_measured_le nonneg
  unfold coverage at defined
  split at defined
  · cases defined
  · cases defined
    have whole := le_trans covered within
    exact ⟨div_nonneg covered whole, div_le_one_of_le₀ within whole⟩

/-- A sample inserted inside an interval, with the error that holds there, cuts one entry
in two. -/
theorem entries_insert (warmup : K) (before after : List (Row K)) {a inserted b : Row K}
    (early : a.elapsed ≤ inserted.elapsed) (late : inserted.elapsed ≤ b.elapsed)
    (same : inserted.gtError = a.gtError) :
    ∃ leading u v following, 0 ≤ u ∧ 0 ≤ v ∧
      entries warmup (before ++ a :: inserted :: b :: after) =
        leading ++ (u, a.gtError) :: (v, a.gtError) :: following ∧
      entries warmup (before ++ a :: b :: after) =
        leading ++ (u + v, a.gtError) :: following := by
  obtain ⟨leading, split⟩ := entries_append warmup before a
  refine ⟨leading, weight warmup a.elapsed inserted.elapsed,
    weight warmup inserted.elapsed b.elapsed, entries warmup (b :: after),
    weight_nonneg _ _ _, weight_nonneg _ _ _, ?_, ?_⟩
  · rw [split, entries_cons, entries_cons, same]
  · rw [split, entries_cons, weight_split early late]

theorem averages_insert (warmup : K) (before after : List (Row K)) {a inserted b : Row K}
    (early : a.elapsed ≤ inserted.elapsed) (late : inserted.elapsed ≤ b.elapsed)
    (same : inserted.gtError = a.gtError) :
    Alike (measured (entries warmup (before ++ a :: inserted :: b :: after)))
        (measured (entries warmup (before ++ a :: b :: after))) ∧
      total (keep (entries warmup (before ++ a :: inserted :: b :: after))) =
        total (keep (entries warmup (before ++ a :: b :: after))) := by
  rw [total_keep fun entry member => entries_nonneg member,
    total_keep fun entry member => entries_nonneg member]
  obtain ⟨leading, u, v, following, first, second, resampled, sampled⟩ :=
    entries_insert warmup before after early late same
  rw [resampled, sampled]
  exact ⟨measured_split leading following first second a.gtError,
    total_split leading following u v a.gtError⟩

end Runs

section Reals
open MeasureTheory

theorem weight_volume (warmup a b : ℝ) :
    weight warmup a b = (volume (Set.Icc a b ∩ Set.Ici warmup)).toReal := by
  have clipped : Set.Icc a b ∩ Set.Ici warmup = Set.Icc (max a warmup) b := by
    ext t
    simp only [Set.mem_inter_iff, Set.mem_Icc, Set.mem_Ici, max_le_iff]
    tauto
  rw [clipped, Real.volume_Icc, ENNReal.toReal_ofReal', weight_eq, max_comm]

noncomputable def observations (warmup : ℝ) : List (Row ℝ) → List (ℝ × ℝ)
  | a :: b :: rest =>
      a.gtError.toList.map (fun error =>
        ((volume (Set.Icc a.elapsed b.elapsed ∩ Set.Ici warmup)).toReal, error)) ++
      observations warmup (b :: rest)
  | _ => []

theorem observations_nonneg {warmup : ℝ} {rows : List (Row ℝ)} {sample : ℝ × ℝ}
    (member : sample ∈ observations warmup rows) : 0 ≤ sample.1 := by
  induction rows with
  | nil => cases member
  | cons a rest ih =>
    cases rest with
    | nil => cases member
    | cons b rest =>
      rcases List.mem_append.mp member with here | later
      · obtain ⟨error, -, rfl⟩ := List.mem_map.mp here
        exact ENNReal.toReal_nonneg
      · exact ih later

theorem measured_entries (warmup : ℝ) (rows : List (Row ℝ)) :
    measured (entries warmup rows) =
      (observations warmup rows).filter fun sample => decide (0 < sample.1) := by
  induction rows with
  | nil => rfl
  | cons a rest ih =>
    cases rest with
    | nil =>
      have still : entries warmup [a] = [(0, a.gtError)] := by
        rw [entries, List.map_singleton, weights_single, weight_eq,
          max_eq_left (sub_nonpos.mpr (le_max_left _ _))]
        rfl
      rw [still, measured_cons_zero]
      rfl
    | cons b rest =>
      rw [entries_cons, weight_volume, observations, List.filter_append, ← ih]
      cases a.gtError with
      | none => rw [measured_cons_none]; rfl
      | some error =>
        have held : 0 ≤ (volume (Set.Icc a.elapsed b.elapsed ∩ Set.Ici warmup)).toReal :=
          ENNReal.toReal_nonneg
        rcases held.lt_or_eq with positive | zero
        · rw [measured_cons_pos positive]
          simp only [Option.toList_some, List.map_singleton, List.filter_singleton,
            decide_eq_true positive, cond_true, List.singleton_append]
        · rw [← zero, measured_cons_zero]
          simp only [Option.toList_some, List.map_singleton, List.filter_singleton, lt_irrefl,
            decide_false, cond_false, List.nil_append]

/-- The metrics are the averages over the observed time; without any they are not defined, and the
coverage is not without a window. -/
structure TimeAverages (warmup : ℝ) (rows : List (Row ℝ)) (window : ℝ) (metrics : Metrics ℝ) :
    Prop where
  undefined : total (observations warmup rows) = 0 →
    metrics.maeM = none ∧ metrics.rmseM = none ∧ metrics.maxAbsErrorM = none
  mae : total (observations warmup rows) ≠ 0 → metrics.maeM =
    some (moment (fun error => |error|) (observations warmup rows) /
      total (observations warmup rows))
  rmse : total (observations warmup rows) ≠ 0 → metrics.rmseM =
    some (√(moment (fun error => error ^ 2) (observations warmup rows) /
      total (observations warmup rows)))
  largest : total (observations warmup rows) ≠ 0 → ∃ largest, metrics.maxAbsErrorM = some largest ∧
    IsGreatest {size | ∃ sample ∈ observations warmup rows, 0 < sample.1 ∧ size = |sample.2|} largest
  uncovered : window = 0 → metrics.gtCoverage = none
  coverage : window ≠ 0 →
    metrics.gtCoverage = some (total (observations warmup rows) / window)

theorem Averaged.timeAverages {interp : ℝ → List ℝ → List (Option ℝ) → Option ℝ} {warmup : ℝ}
    {rows : List (Row ℝ)} {metrics : Metrics ℝ}
    (averaged : Averaged ⟨Real.sqrt, interp⟩ warmup rows metrics) :
    TimeAverages warmup rows (total (keep (entries warmup rows))) metrics := by
  have weights : ∀ sample ∈ observations warmup rows, 0 ≤ sample.1 :=
    fun _ member => observations_nonneg member
  have covered : total (measured (entries warmup rows)) = total (observations warmup rows) := by
    rw [measured_entries, total_filter_pos weights]
  have sums (f : ℝ → ℝ) : moment f (measured (entries warmup rows)) =
      moment f (observations warmup rows) := by
    rw [measured_entries, moment_filter_pos f weights]
  constructor
  · intro none
    rw [averaged.mae, averaged.rmse, averaged.largest, weighted, weighted, maxAbsError, covered,
      if_pos none, if_pos none, if_pos none]
    exact ⟨rfl, rfl, rfl⟩
  · intro some
    rw [averaged.mae, weighted, covered, sums, if_neg some]
  · intro some
    rw [averaged.rmse, weighted, covered, sums, if_neg some]
    rfl
  · intro some
    rw [← covered] at some
    obtain ⟨-, -, largest, -, -, found, -⟩ := averages_ordered (entries warmup rows) some
    refine ⟨largest, averaged.largest.trans found, ?_⟩
    rw [maxAbsError, if_neg some, measured_entries] at found
    obtain ⟨member, bound⟩ := List.max?_eq_some_iff.mp found
    constructor
    · obtain ⟨sample, kept, same⟩ := List.mem_map.mp member
      obtain ⟨observed, positive⟩ := List.mem_filter.mp kept
      exact ⟨sample, observed, of_decide_eq_true positive, same.symm⟩
    · rintro size ⟨sample, observed, positive, rfl⟩
      exact bound _ (List.mem_map_of_mem (List.mem_filter.mpr ⟨observed, decide_eq_true positive⟩))
  · intro none
    rw [averaged.coverage, Analysis.coverage, if_pos none]
  · intro some
    rw [averaged.coverage, Analysis.coverage, if_neg some, covered]

/-- For every nonempty run of samples in time order, over the reals: each weight is the
length of its interval after the warmup, the weights add up to the run's length after the
warmup, the metrics are the averages over the observed time of that window and defined where there
is any, the coverage is a share, the averages are in order, and a sample inserted between
two others with the error that holds there changes none of them. -/
theorem summarize_time_average (interp : ℝ → List ℝ → List (Option ℝ) → Option ℝ)
    (rows : List (Row ℝ)) (warmup : ℝ) (first last : Row ℝ) (starts : rows.head? = some first)
    (ends : rows.getLast? = some last) (ordered : (rows.map Row.elapsed).Pairwise (· ≤ ·)) :
    ∃ metrics : Metrics ℝ, summarize ⟨Real.sqrt, interp⟩ rows warmup = .ok metrics ∧
      (∀ (i : Nat) (a b : Row ℝ), rows[i]? = some a → rows[i + 1]? = some b →
        (weights warmup (rows.map Row.elapsed))[i]? =
          some (volume (Set.Icc a.elapsed b.elapsed ∩ Set.Ici warmup)).toReal) ∧
      (weights warmup (rows.map Row.elapsed)).getLast? = some 0 ∧
      total (keep (entries warmup rows)) = max 0 (last.elapsed - max first.elapsed warmup) ∧
      Averaged ⟨Real.sqrt, interp⟩ warmup rows metrics ∧
      TimeAverages warmup rows (max 0 (last.elapsed - max first.elapsed warmup)) metrics ∧
      (∀ share, metrics.gtCoverage = some share → 0 ≤ share ∧ share ≤ 1) ∧
      ((metrics.maeM = none ∧ metrics.rmseM = none ∧ metrics.maxAbsErrorM = none) ∨
        ∃ mae rmse largest, metrics.maeM = some mae ∧ metrics.rmseM = some rmse ∧
          metrics.maxAbsErrorM = some largest ∧
          mae ^ 2 ≤ rmse ^ 2 ∧ rmse ^ 2 ≤ largest ^ 2) ∧
      ∀ (before after : List (Row ℝ)) (a inserted b : Row ℝ),
        rows = before ++ a :: b :: after →
        a.elapsed ≤ inserted.elapsed → inserted.elapsed ≤ b.elapsed →
        inserted.gtError = a.gtError →
        ∃ resampled : Metrics ℝ,
          summarize ⟨Real.sqrt, interp⟩ (before ++ a :: inserted :: b :: after) warmup =
            .ok resampled ∧
          resampled.rmseM = metrics.rmseM ∧ resampled.maeM = metrics.maeM ∧
          resampled.maxAbsErrorM = metrics.maxAbsErrorM ∧
          resampled.gtCoverage = metrics.gtCoverage := by
  have nonempty : rows ≠ [] := by
    intro empty
    rw [empty] at starts
    cases starts
  obtain ⟨metrics, ran, averaged⟩ := summarize_averaged ⟨Real.sqrt, interp⟩ warmup nonempty
  have window : total (keep (entries warmup rows)) =
      max 0 (last.elapsed - max first.elapsed warmup) := total_window starts ends ordered
  refine ⟨metrics, ran, ?_, ?_, window, averaged, window ▸ averaged.timeAverages, ?_, ?_, ?_⟩
  · intro i a b here next
    rw [← weight_volume]
    apply weights_getElem
    · rw [List.getElem?_map, here, Option.map_some]
    · rw [List.getElem?_map, next, Option.map_some]
  · exact getLast?_weights fun empty => nonempty (List.map_eq_nil_iff.mp empty)
  · intro share defined
    exact coverage_bounds (averaged.coverage.symm.trans defined)
  · rw [averaged.mae, averaged.rmse, averaged.largest]
    by_cases covered : total (measured (entries warmup rows)) = 0
    · left
      simp only [weighted, maxAbsError, if_pos covered, Option.map_none, and_self]
    · right
      obtain ⟨mae, mse, largest, isMae, isMse, isLargest, nonneg, below, above⟩ :=
        averages_ordered (entries warmup rows) covered
      refine ⟨mae, √mse, largest, isMae, ?_, isLargest, ?_, ?_⟩
      · rw [isMse, Option.map_some]
      · rwa [Real.sq_sqrt nonneg]
      · rwa [Real.sq_sqrt nonneg]
  · intro before after a inserted b rowsEq early late same
    have filled : before ++ a :: inserted :: b :: after ≠ [] := by simp
    obtain ⟨resampled, reran, again⟩ := summarize_averaged ⟨Real.sqrt, interp⟩ warmup filled
    obtain ⟨alike, sameTotal⟩ := averages_insert warmup before after early late same
    subst rowsEq
    refine ⟨resampled, reran, ?_, ?_, ?_, ?_⟩
    · rw [again.rmse, averaged.rmse, alike.weighted]
    · rw [again.mae, averaged.mae, alike.weighted]
    · rw [again.largest, averaged.largest, alike.maxAbsError]
    · rw [again.coverage, averaged.coverage, sameTotal, alike.total]

def clippedRows (error last : ℝ) : List (Row ℝ) :=
  [⟨0, some error, none, none⟩, ⟨1, none, none, none⟩, ⟨last, some 0, none, none⟩]

theorem summarize_time_average_clipped :
    ∃ metrics, summarize ⟨Real.sqrt, fun _ _ _ => none⟩ (clippedRows 3 4) (1 / 2) = .ok metrics ∧
      metrics.maeM = some 3 ∧ metrics.gtCoverage = some (1 / 7) := by
  have observed : observations (1 / 2) (clippedRows 3 4) = [(1 / 2, 3)] := by
    have half : weight (1 / 2 : ℝ) 0 1 = 1 / 2 := by norm_num [weight]
    simp only [clippedRows, observations, ← weight_volume, half, Option.toList_some,
      Option.toList_none, List.map_singleton, List.map_nil, List.append_nil]
  obtain ⟨metrics, ran, _, _, _, _, averages, _⟩ := summarize_time_average (fun _ _ _ => none)
    (clippedRows 3 4) (1 / 2) ⟨0, some 3, none, none⟩ ⟨4, some 0, none, none⟩ rfl rfl
    (by norm_num [clippedRows])
  have covered : total (observations (1 / 2) (clippedRows 3 4)) = 1 / 2 := by
    rw [observed]
    simp [total]
  refine ⟨metrics, ran, ?_, ?_⟩
  · rw [averages.mae (by rw [covered]; norm_num), covered, observed]
    norm_num [moment]
  · rw [averages.coverage (by norm_num), covered]
    norm_num

end Reals

end Chimaera.Benchmark.Analysis
