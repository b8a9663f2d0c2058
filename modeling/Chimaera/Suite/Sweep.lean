import Mathlib.Data.List.ProdSigma
import Chimaera.Suite.Planning

/-! A plan is the Cartesian product of the dimensions, times the repetitions. Dimensions set
different parameters, so the order of the bundles of a case is of no account; the ids of the
runs tell cases and repetitions apart at any width. -/

namespace Chimaera.Suite.Sweep
open Base.Text Base.Dictionary Base.Cartesian Base.Unsigned Session Benchmark

/-! ## Dimensions -/

def Dimension.Even (dimension : Dimension) : Prop :=
  ∀ bundle ∈ dimension.bundles, ∀ key, bundle.lookup key ≠ none → key ∈ dimension.parameters

theorem mem_names_of_lookup {entries : Entries} {key : Line} (found : entries.lookup key ≠ none) :
    key ∈ names entries := by
  obtain ⟨value, there⟩ := Option.ne_none_iff_exists'.mp found
  exact List.mem_map_of_mem (mem_of_lookup there)

theorem readDimension_ok {defaults : Entries} {used : List Line} {name : Line} {choices : Json}
    {dimension : Dimension} (read : readDimension defaults used name choices = .ok dimension) :
    dimension.Even ∧ ∀ key ∈ dimension.parameters, key ∉ used := by
  unfold readDimension at read
  split at read
  next first rest =>
    dsimp only at read
    split at read
    next bundle bundles _ =>
      split_ifs at read with uneven unknown repeated
      cases read
      simp only [Bool.not_eq_true, Bool.or_eq_false_iff, Bool.not_eq_false', List.all_eq_true]
        at uneven
      refine ⟨?_, ?_⟩
      · intro other member key found
        have same := uneven.2 other member
        simp only [sameNames, Bool.and_eq_true, List.all_eq_true, List.contains_iff_mem] at same
        exact same.1 key (mem_names_of_lookup found)
      · intro key member inside
        apply repeated
        rw [List.any_eq_true]
        exact ⟨key, member, List.contains_iff_mem.mpr inside⟩
    next => cases read
  next => cases read

theorem readDimensions_ok {defaults : Entries} {used : List Line} {sweep : Entries}
    {dimensions : List Dimension} (read : readDimensions defaults used sweep = .ok dimensions) :
    (∀ dimension ∈ dimensions, dimension.Even) ∧
      dimensions.Pairwise (fun first second => ∀ key ∈ first.parameters, key ∉ second.parameters) ∧
      ∀ dimension ∈ dimensions, ∀ key ∈ used, key ∉ dimension.parameters := by
  induction sweep generalizing used dimensions with
  | nil =>
    cases read
    exact ⟨nofun, List.Pairwise.nil, nofun⟩
  | cons entry rest ih =>
    obtain ⟨dimension, first, read⟩ := bind_eq_ok.mp read
    obtain ⟨others, later, read⟩ := bind_eq_ok.mp read
    cases read
    obtain ⟨even, fresh⟩ := readDimension_ok first
    obtain ⟨evens, apart, unused⟩ := ih later
    refine ⟨List.forall_mem_cons.mpr ⟨even, evens⟩, List.pairwise_cons.mpr ⟨?_, apart⟩,
      List.forall_mem_cons.mpr ⟨?_, ?_⟩⟩
    · intro other member key inside
      exact unused other member key (List.mem_append_right _ inside)
    · intro key inside member
      exact fresh key member inside
    · intro other member key inside
      exact unused other member key (List.mem_append_left _ inside)

theorem apart_of_dimensions {dimensions : List Dimension}
    (even : ∀ dimension ∈ dimensions, dimension.Even)
    (apart : dimensions.Pairwise fun first second =>
      ∀ key ∈ first.parameters, key ∉ second.parameters)
    {values : List Entries}
    (taken : List.Forall₂ (· ∈ ·) values (dimensions.map Dimension.bundles)) : Apart values := by
  induction dimensions generalizing values with
  | nil =>
    cases taken
    exact List.Pairwise.nil
  | cons dimension rest ih =>
    obtain ⟨bundle, others, member, related, rfl⟩ := List.forall₂_cons_right_iff.mp taken
    obtain ⟨first, evens⟩ := List.forall_mem_cons.mp even
    obtain ⟨across, later⟩ := List.pairwise_cons.mp apart
    refine List.pairwise_cons.mpr ⟨?_, ih evens later related⟩
    intro other inside key
    obtain ⟨second, found, among⟩ : ∃ second ∈ rest, other ∈ second.bundles := by
      obtain ⟨place, bound, rfl⟩ := List.getElem_of_mem inside
      have chosen := related.get bound (by rw [← related.length_eq]; exact bound)
      simp only [List.get_eq_getElem, List.getElem_map] at chosen
      exact ⟨_, List.getElem_mem _, chosen⟩
    by_contra both
    obtain ⟨one, two⟩ := not_or.mp both
    exact across second found key (first bundle member key one) (evens second found other among key two)

theorem readInput_ok {defaults : Entries} {config : Json} {input : Input}
    (read : readInput defaults config = .ok input) :
    ∀ values ∈ product (input.dimensions.map Dimension.bundles), Apart values := by
  cases config with
  | object entries =>
    simp only [readInput] at read
    split_ifs at read with unknown
    obtain ⟨repetitions, -, read⟩ := bind_eq_ok.mp read
    split at read
    next fixed sweep _ _ =>
      split_ifs at read with strange
      obtain ⟨dimensions, found, read⟩ := bind_eq_ok.mp read
      cases read
      obtain ⟨even, apart, -⟩ := readDimensions_ok found
      exact fun values member => apart_of_dimensions even apart (mem_product.mp member)
    next => cases read
  | _ => cases read

/-! ## Parameters -/

def isReal : Json → Bool
  | .bool _ | .int _ | .string _ => false
  | _ => true

inductive Coerced (conversion : Conversion) (default value : Json) : Json → Prop where
  | same : Coerced conversion default value value
  | float {n : Int} {x : Rat} (real : isReal default = true) (whole : value = .int n)
      (converted : conversion.ofInt n = some x) :
      Coerced conversion default value (.float (.finite x))

variable {conversion : Conversion} {isFile : Line → Bool} {options : Options}

theorem coerced_of_coerce {key : Line} {default value result : Json}
    (computed : coerce conversion key default value = .ok result) :
    Coerced conversion default value result := by
  unfold coerce at computed
  split at computed
  · split at computed
    · cases computed; exact .same
    · cases computed
  · split at computed
    · cases computed; exact .same
    · cases computed
  · split at computed
    · cases computed; exact .same
    · cases computed
  next other boolean integer string =>
    split at computed
    · split at computed
      next converted =>
        cases computed
        refine .float ?_ rfl converted
        cases default with
        | bool _ => exact absurd rfl (boolean _)
        | int _ => exact absurd rfl (integer _)
        | string _ => exact absurd rfl (string _)
        | _ => rfl
      next => cases computed
    · cases computed; exact .same
    · cases computed

/-- The defaults overridden by `fixed` and the bundles, and nothing else. -/
structure Follows (conversion : Conversion) (gem5 : Bool) (defaults fixed : Entries)
    (values : List Entries) (parameters : Entries) : Prop where
  keys : names parameters = names defaults
  swept : ∀ key default, defaults.lookup key = some default → ∀ bundle ∈ values, ∀ value,
    bundle.lookup key = some value →
      ∃ result, parameters.lookup key = some result ∧ Coerced conversion default value result
  unswept : ∀ key default, defaults.lookup key = some default →
    (∀ bundle ∈ values, bundle.lookup key = none) →
      ∃ result, parameters.lookup key = some result ∧
        Coerced conversion default ((fixed.lookup key).getD default) result
  order : ∀ order, order.Perm values →
    caseParameters conversion gem5 defaults fixed order = .ok parameters

theorem caseParameters_follows {gem5 : Bool} {defaults fixed : Entries} {values : List Entries}
    {parameters : Entries} (apart : Apart values)
    (computed : caseParameters conversion gem5 defaults fixed values = .ok parameters) :
    Follows conversion gem5 defaults fixed values parameters := by
  have order : ∀ order, order.Perm values →
      caseParameters conversion gem5 defaults fixed order = .ok parameters := by
    intro order same
    rw [← computed, caseParameters, caseParameters, apart.perm same]
  obtain ⟨params, coerced, computed⟩ := bind_eq_ok.mp computed
  obtain ⟨-, -, computed⟩ := bind_eq_ok.mp computed
  cases computed
  obtain ⟨keys, found⟩ := mapM_entries coerced
  refine ⟨keys, ?_, ?_, order⟩
  · intro key default present bundle member value given
    obtain ⟨result, converted, stored⟩ := found key default present
    rw [coerceFrom, lookup_foldl_changed apart member given, lookup_override, present] at converted
    exact ⟨result, stored, coerced_of_coerce converted⟩
  · intro key default present none
    obtain ⟨result, converted, stored⟩ := found key default present
    rw [coerceFrom, lookup_foldl_unchanged none, lookup_override, present] at converted
    exact ⟨result, stored, coerced_of_coerce converted⟩

/-! ## Runs -/

def Describes (conversion : Conversion) (gem5 : Bool) (input : Input) (run : Run)
    (label : List Nat × Nat) : Prop :=
  ∃ values, Picks (input.dimensions.map Dimension.bundles) label.1 values ∧
    run.sweep = (input.dimensions.map Dimension.name).zip values ∧ run.repetition = label.2 ∧
    Follows conversion gem5 (defaultsFor gem5) input.fixed values run.parameters

theorem planCases_ok {gem5 : Bool} {input : Input} {case : Nat} {combinations : List (List Entries)}
    {tuples : List (List Nat)} {runs : List Run} (apart : ∀ values ∈ combinations, Apart values)
    (picks : List.Forall₂ (Picks (input.dimensions.map Dimension.bundles)) tuples combinations)
    (planned : planCases conversion gem5 input case combinations = .ok runs) :
    List.Forall₂ (Describes conversion gem5 input) runs (tuples ×ˢ repetitionsOf input) ∧
      runs.map Run.id = (List.range' case combinations.length ×ˢ repetitionsOf input).map
        fun (case, repetition) => runId case repetition := by
  induction picks generalizing case runs with
  | nil =>
    cases planned
    exact ⟨.nil, rfl⟩
  | @cons tuple values tuples others picked later ih =>
    obtain ⟨params, computed, planned⟩ := bind_eq_ok.mp planned
    obtain ⟨rest, remaining, planned⟩ := bind_eq_ok.mp planned
    cases planned
    obtain ⟨first, disjoint⟩ := List.forall_mem_cons.mp apart
    obtain ⟨described, ids⟩ := ih disjoint remaining
    have follows := caseParameters_follows first computed
    refine ⟨?_, ?_⟩
    · rw [List.product_cons]
      apply List.rel_append _ described
      rw [runsOf, List.forall₂_map_left_iff, List.forall₂_map_right_iff, List.forall₂_same]
      intro repetition _
      exact ⟨values, picked, rfl, rfl, follows⟩
    · rw [List.map_append, ids, List.length_cons, List.range'_succ, List.product_cons,
        List.map_append, runsOf, List.map_map, List.map_map]
      rfl

/-! ## Ids -/

theorem number_replicate_zero (count : Nat) (digits : Line) :
    number (List.replicate count '0' ++ digits) = number digits := by
  induction count with
  | zero => rfl
  | succ count ih =>
    rw [List.replicate_succ, List.cons_append, number, Nat.ofDigitChars_cons]
    exact ih

theorem padded_injective {width m n : Nat} (same : padded width m = padded width n) : m = n := by
  have numbers := congrArg number same
  simpa only [padded, number_replicate_zero, number_decimal] using numbers

theorem padded_unmarked (width n : Nat) : '_' ∉ padded width n := by
  intro member
  rcases List.mem_append.mp member with zero | digit
  · exact absurd (List.eq_of_mem_replicate zero) (by decide)
  · exact absurd (isDigit_of_mem_decimal digit) (by decide)

theorem runId_injective {case other repetition second : Nat}
    (same : runId case repetition = runId other second) : case = other ∧ repetition = second := by
  have parts : ∀ case repetition, runId case repetition =
      text "case_" ++ (padded 3 case ++ '_' :: (text "rep_" ++ padded 2 repetition)) := by
    intro case repetition
    rw [runId, List.append_assoc, List.append_assoc]
    rfl
  rw [parts, parts] at same
  obtain ⟨first, rest⟩ := append_mark_inj (padded_unmarked 3 case) (padded_unmarked 3 other)
    (List.append_cancel_left same)
  exact ⟨padded_injective first, padded_injective (List.append_cancel_left rest)⟩

theorem ids_nodup (case count : Nat) (input : Input) :
    ((List.range' case count ×ˢ repetitionsOf input).map
      fun (case, repetition) => runId case repetition).Nodup := by
  have repetitions : (repetitionsOf input).Nodup :=
    List.nodup_range.map fun _ _ same => Nat.succ.inj same
  apply List.Nodup.map _ (List.Nodup.product List.nodup_range' repetitions)
  rintro ⟨first, second⟩ ⟨other, third⟩ same
  obtain ⟨rfl, rfl⟩ := runId_injective same
  rfl

/-! ## Selection -/

theorem filter_mem_sublist {ids all : List Line} (distinct : all.Nodup) (within : ids.Sublist all) :
    all.filter ids.contains = ids := by
  induction within with
  | slnil => rfl
  | @cons ids all id within ih =>
    obtain ⟨fresh, rest⟩ := List.nodup_cons.mp distinct
    have absent : ¬ids.contains id = true := by
      rw [List.contains_iff_mem]
      exact fun member => fresh (within.subset member)
    rw [List.filter_cons_of_neg absent, ih rest]
  | @cons_cons ids all id within ih =>
    obtain ⟨fresh, rest⟩ := List.nodup_cons.mp distinct
    have present : (id :: ids).contains id = true := List.contains_iff_mem.mpr List.mem_cons_self
    rw [List.filter_cons_of_pos present]
    have others : all.filter (id :: ids).contains = all.filter ids.contains := by
      apply List.filter_congr
      intro other member
      have different : other ≠ id := fun same => fresh (same ▸ member)
      simp [different]
    rw [others, ih rest]

theorem map_filter_id (runs : List Run) (ids : List Line) :
    (runs.filter fun run => ids.contains run.id).map Run.id =
      (runs.map Run.id).filter ids.contains := by
  rw [List.filter_map]
  rfl

/-- A list of ids is accepted where it goes through the plan in order without a repetition. -/
theorem select_ok_iff {plan : Plan} (distinct : (plan.runs.map Run.id).Nodup) {ids : List Line}
    (given : ids ≠ []) {chosen : Plan} :
    select plan ids = .ok chosen ↔ ids.Sublist (plan.runs.map Run.id) ∧
      chosen = { plan with runs := plan.runs.filter fun run => ids.contains run.id } := by
  have filled : ids.isEmpty = false := by simpa using given
  simp only [select, filled, Bool.false_eq_true, if_false]
  by_cases same : (plan.runs.filter fun run => ids.contains run.id).map Run.id = ids
  · rw [if_neg (not_not.mpr same)]
    have within : ids.Sublist (plan.runs.map Run.id) := by
      rw [map_filter_id] at same
      rw [← same]
      exact List.filter_sublist
    simp only [Except.ok.injEq, within, true_and]
    exact eq_comm
  · rw [if_pos same]
    simp only [reduceCtorEq, false_iff, not_and]
    intro within
    rw [map_filter_id] at same
    exact absurd (filter_mem_sublist distinct within) same

theorem filter_single {runs : List Run} (distinct : (runs.map Run.id).Nodup) {run : Run}
    (member : run ∈ runs) : (runs.filter fun other => [run.id].contains other.id) = [run] := by
  obtain ⟨before, after, rfl⟩ := List.append_of_mem member
  rw [List.map_append, List.map_cons, List.nodup_middle, List.nodup_cons] at distinct
  have absent : ∀ other ∈ before ++ after, ¬[run.id].contains other.id = true := by
    intro other inside same
    apply distinct.1
    rw [← List.map_append]
    have equal : other.id = run.id := by simpa using same
    exact equal ▸ List.mem_map_of_mem inside
  have front := List.filter_eq_nil_iff.mpr fun other inside =>
    absent other (List.mem_append_left _ inside)
  have back := List.filter_eq_nil_iff.mpr fun other inside =>
    absent other (List.mem_append_right _ inside)
  rw [List.filter_append, front, List.filter_cons_of_pos (by simp), back]
  rfl

theorem select_single {plan : Plan} (distinct : (plan.runs.map Run.id).Nodup) {run : Run}
    (member : run ∈ plan.runs) : select plan [run.id] = .ok { plan with runs := [run] } := by
  rw [select_ok_iff distinct (List.cons_ne_nil _ _)]
  refine ⟨List.singleton_sublist.mpr (List.mem_map_of_mem member), ?_⟩
  rw [filter_single distinct member]

/-! ## The plan as a whole -/

structure Exact (conversion : Conversion) (gem5 : Bool) (input : Input) (plan : Plan) : Prop where
  count : plan.runs.length =
    (input.dimensions.map fun dimension => dimension.bundles.length).prod * input.repetitions
  ids : (plan.runs.map Run.id).Nodup
  labels : ∃ labels : List (List Nat × Nat), labels.Nodup ∧
    (∀ tuple repetition, (tuple, repetition) ∈ labels ↔
      List.Forall₂ (fun place dimension => place < dimension.bundles.length) tuple input.dimensions ∧
        1 ≤ repetition ∧ repetition ≤ input.repetitions) ∧
    List.Forall₂ (Describes conversion gem5 input) plan.runs labels

theorem mem_repetitionsOf {input : Input} {repetition : Nat} :
    repetition ∈ repetitionsOf input ↔ 1 ≤ repetition ∧ repetition ≤ input.repetitions := by
  rw [repetitionsOf, List.mem_map]
  constructor
  · rintro ⟨before, member, rfl⟩
    have below := List.mem_range.mp member
    omega
  · rintro ⟨low, high⟩
    exact ⟨repetition - 1, List.mem_range.mpr (by omega), by omega⟩

theorem makePlan_exact {config : Json} {architecture : Line} {gem5 : Bool} {plan : Plan}
    (made : makePlan conversion config architecture gem5 = .ok plan) :
    ∃ input, readInput (defaultsFor gem5) config = .ok input ∧ Exact conversion gem5 input plan := by
  obtain ⟨input, read, made⟩ := bind_eq_ok.mp made
  obtain ⟨runs, planned, made⟩ := bind_eq_ok.mp made
  cases made
  have apart := readInput_ok read
  obtain ⟨described, ids⟩ := planCases_ok apart (picks_product _) planned
  have repetitions : (repetitionsOf input).Nodup :=
    List.nodup_range.map fun _ _ same => Nat.succ.inj same
  refine ⟨input, read, ?_, ?_, ?_⟩
  · have places := (picks_product (input.dimensions.map Dimension.bundles)).length_eq
    rw [described.length_eq, List.length_product, places, length_product, List.map_map,
      repetitionsOf, List.length_map, List.length_range]
    rfl
  · exact ids ▸ ids_nodup 1 _ input
  · refine ⟨_, List.Nodup.product (nodup_places _) repetitions, ?_, described⟩
    intro tuple repetition
    rw [List.mem_product, mem_places, mem_repetitionsOf, List.forall₂_map_right_iff]

/-- What `main` asks of its options and of the runs that are to be executed. -/
structure Options.Admits (options : Options) (conversion : Conversion) (isFile : Line → Bool)
    (runs : List Run) : Prop where
  label : isLabel options.label = true
  warmup : isWarmup options.warmup = true
  timing : options.gem5 = true → 0 < options.pollUs ∧ options.pollUs < options.intervalUs ∧
    options.intervalUs ≤ 3600000000 ∧ 0 < options.startupTimeout
  steps : options.gem5 = true →
    ∀ run ∈ runs, wholeSteps conversion options.intervalUs run.parameters = true
  resources : options.gem5 = true → options.dryRun = false →
    ∀ path ∈ options.resources, isFile path = true

theorem checkResources_ok_iff {done : Unit} :
    checkResources isFile options = .ok done ↔
      (options.dryRun = false → ∀ path ∈ options.resources, isFile path = true) := by
  unfold checkResources
  cases options.dryRun with
  | true => simp
  | false =>
    cases found : options.resources.find? fun path => !isFile path with
    | none => simpa using found
    | some path =>
      have absent := List.find?_some found
      simp only [Bool.false_eq_true, if_false, reduceCtorEq, true_implies, false_iff]
      intro present
      rw [present path (List.mem_of_find?_eq_some found)] at absent
      cases absent

theorem checkGem5_ok_iff {runs : List Run} {done : Unit} :
    checkGem5 conversion isFile options runs = .ok done ↔
      (0 < options.pollUs ∧ options.pollUs < options.intervalUs ∧
        options.intervalUs ≤ 3600000000 ∧ 0 < options.startupTimeout) ∧
      (∀ run ∈ runs, wholeSteps conversion options.intervalUs run.parameters = true) ∧
      (options.dryRun = false → ∀ path ∈ options.resources, isFile path = true) := by
  simp only [checkGem5, bind_eq_ok, require_eq_ok, checkResources_ok_iff, Bool.and_eq_true,
    decide_eq_true_iff, List.all_eq_true, exists_const, and_assoc]

theorem plannedRuns_ok_iff {config : Json} {plan chosen : Plan} {ids : List Line}
    (made : makePlan conversion config options.label options.gem5 = .ok plan) :
    plannedRuns conversion isFile config options ids = .ok chosen ↔
      select plan ids = .ok chosen ∧ options.Admits conversion isFile chosen.runs := by
  simp only [plannedRuns, made, ok_bind, bind_eq_ok, require_eq_ok, exists_const]
  constructor
  · rintro ⟨label, warmup, other, selected, _, checked, same⟩
    cases same
    refine ⟨selected, label, warmup, ?_, ?_, ?_⟩
    all_goals
      intro gem5
      rw [if_pos gem5] at checked
      obtain ⟨timing, steps, resources⟩ := checkGem5_ok_iff.mp checked
      assumption
  · rintro ⟨selected, label, warmup, timing, steps, resources⟩
    refine ⟨label, warmup, chosen, selected, (), ?_, rfl⟩
    split
    · next gem5 => exact checkGem5_ok_iff.mpr ⟨timing gem5, steps gem5, resources gem5⟩
    · rfl

theorem Options.Admits.mono {runs fewer : List Run} (admits : options.Admits conversion isFile runs)
    (among : ∀ run ∈ fewer, run ∈ runs) : options.Admits conversion isFile fewer :=
  { admits with steps := fun gem5 run member => admits.steps gem5 run (among run member) }

theorem jobs_selected {config : Json} {plan : Plan}
    (made : makePlan conversion config options.label options.gem5 = .ok plan)
    (distinct : (plan.runs.map Run.id).Nodup) (admits : options.Admits conversion isFile plan.runs)
    {jobs : List (Line × List Line)} (exported : jobsOf plan = .ok jobs) :
    jobs.map (fun job => plannedRuns conversion isFile config options (runIds job.2)) =
      plan.runs.map fun run => .ok { plan with runs := [run] } := by
  unfold jobsOf at exported
  split_ifs at exported
  cases exported
  rw [List.map_map]
  apply List.map_congr_left
  intro run member
  rw [Function.comp_apply]
  refine (plannedRuns_ok_iff made).mpr ⟨select_single distinct member, admits.mono ?_⟩
  intro other single
  rwa [List.mem_singleton.mp single]

/-- An accepted configuration is planned as the exact product of its choices. Ids select a
subsequence of the runs, and an invocation takes them if `main` admits them. If it admits all runs
of a plan, its jobs, one id each, execute every run once. -/
theorem sweep_exact (isFile : Line → Bool) {conversion : Conversion} {config : Json}
    {options : Options} {plan : Plan}
    (made : makePlan conversion config options.label options.gem5 = .ok plan) :
    (∃ input, readInput (defaultsFor options.gem5) config = .ok input ∧
      Exact conversion options.gem5 input plan) ∧
    (∀ ids, ids ≠ [] →
      ((∃ chosen, select plan ids = .ok chosen) ↔
        ids.Nodup ∧ ids.Sublist (plan.runs.map Run.id)) ∧
      ∀ chosen, select plan ids = .ok chosen → chosen.runs.map Run.id = ids ∧
        chosen.runs = plan.runs.filter fun run => ids.contains run.id) ∧
    (∀ ids chosen, plannedRuns conversion isFile config options ids = .ok chosen ↔
      select plan ids = .ok chosen ∧ options.Admits conversion isFile chosen.runs) ∧
    ∀ jobs, jobsOf plan = .ok jobs → options.Admits conversion isFile plan.runs →
      plannedRuns conversion isFile config options [] = .ok plan ∧
      jobs.map (fun job => plannedRuns conversion isFile config options (runIds job.2)) =
        plan.runs.map fun run => .ok { plan with runs := [run] } := by
  obtain ⟨input, read, complete⟩ := makePlan_exact made
  refine ⟨⟨input, read, complete⟩, ?_, fun ids chosen => plannedRuns_ok_iff made, ?_⟩
  · intro ids given
    have accepted : ∀ chosen, select plan ids = .ok chosen ↔ _ :=
      fun chosen => select_ok_iff complete.ids given
    refine ⟨⟨?_, ?_⟩, ?_⟩
    · rintro ⟨chosen, selected⟩
      obtain ⟨within, -⟩ := (accepted chosen).mp selected
      exact ⟨complete.ids.sublist within, within⟩
    · rintro ⟨-, within⟩
      exact ⟨_, (accepted _).mpr ⟨within, rfl⟩⟩
    · intro chosen selected
      obtain ⟨within, rfl⟩ := (accepted chosen).mp selected
      refine ⟨?_, rfl⟩
      rw [map_filter_id]
      exact filter_mem_sublist complete.ids within
  · intro jobs exported admits
    exact ⟨(plannedRuns_ok_iff made).mpr ⟨rfl, admits⟩,
      jobs_selected made complete.ids admits exported⟩

def exactConversion : Conversion where
  ofInt n := some n
  ofDigits digits := number digits
  nanoseconds seconds := seconds * 1000000000

def cacheSweep : Json :=
  let size (value : String) : Json := .string (text value)
  .object [(text "repetitions", .int 2), (text "fixed", .object [(text "speed", .int 1)]),
    (text "sweep", .object [
      (text "l1", .array [
        .object [(text "l1i_size", size "8KiB"), (text "l1d_size", size "16KiB")],
        .object [(text "l1i_size", size "32KiB"), (text "l1d_size", size "64KiB")]]),
      (text "l2_size", .array [size "128KiB", size "1MiB"])])]

def cacheOptions : Options := { architecture := text "timing", gem5 := true }

theorem sweep_exact_caches : ∃ plan,
    makePlan exactConversion cacheSweep cacheOptions.label true = .ok plan ∧
      plan.runs.length = 8 ∧ (plan.runs.map Run.id).Nodup ∧
      plannedRuns exactConversion (fun _ => true) cacheSweep cacheOptions [] = .ok plan := by
  have planned : (makePlan exactConversion cacheSweep cacheOptions.label true).toOption.map
      (fun plan => (plan.runs.length,
        plan.runs.all fun run => wholeSteps exactConversion 50000 run.parameters)) =
      some (8, true) := by decide +kernel
  obtain ⟨plan, found, shown⟩ := Option.map_eq_some_iff.mp planned
  obtain ⟨eight, steps⟩ := Prod.mk.inj shown
  have made := eq_ok_of_toOption found
  obtain ⟨⟨input, -, complete⟩, -, taken, -⟩ := sweep_exact (fun _ => true) made
  refine ⟨plan, made, eight, complete.ids, (taken [] plan).mpr ⟨rfl, ?_⟩⟩
  exact ⟨by decide, by decide, fun _ => by decide, fun _ => List.all_eq_true.mp steps,
    fun _ _ path member => by cases member⟩

def stepSweep (milliseconds : List Rat) : Json :=
  .object [(text "repetitions", .int 1), (text "sweep", .object [(text "physics_step",
    .array (milliseconds.map fun step => .float (.finite (step / 1000))))])]

def jobOutcomes (config : Json) : Option (List Bool) := do
  let plan ← (makePlan exactConversion config cacheOptions.label true).toOption
  let jobs ← (jobsOf plan).toOption
  some (jobs.map fun job =>
    (plannedRuns exactConversion (fun _ => true) config cacheOptions (runIds job.2)).isOk)

/-- Steps of 7 ms do not divide the interval of 50 ms, which `make_plan` does not look at: the job
is exported and executes nothing, and next to a run with steps of 1 ms the whole suite is refused
while the job of the other run is executed. -/
theorem jobs_refused_later :
    jobOutcomes (stepSweep [7]) = some [false] ∧ jobOutcomes (stepSweep [1, 7]) = some [true, false] ∧
      (plannedRuns exactConversion (fun _ => true) (stepSweep [1, 7]) cacheOptions []).isOk =
        false := by
  decide +kernel

end Chimaera.Suite.Sweep
