import Chimaera.Base.Checked
import Chimaera.Benchmark.Flattening

/-! Which runs are pooled. The text of a flattened record with sorted names determines the nested
record up to the order of its names; so runs share a group just when they record the same
experiment with the same outcome. -/

namespace Chimaera.Benchmark.Comparison
open Base.Text Base.Unsigned Base.Dictionary Base.Buckets Base.JsonText Base.JsonText.Json
open Base.Checked

section

variable {F μ σ : Type}

/-! ## Identities -/

theorem identity_ok (python : Python F) (run : Run F μ) :
    identity python run = .ok ((clean python.finite run.signature).render python.repr) := by
  have whole : (clean python.finite run.signature).finite python.toFloatText = true :=
    every_clean (every_true _)
  rw [identity, dumps, if_pos whole]

def measurable (python : Python F) : Json F → Bool
  | .float value => python.finite value
  | .int value => python.inRange value
  | _ => false

structure Recorded (python : Python F) (run : Run F μ) : Prop where
  config : Nested python run.config
  provenance : Nested python run.provenance
  events : run.events.distinct = true
  arena : ∃ entries width height, run.arena = .object entries ∧
    entries.lookup (text "arena_width") = some width ∧ measurable python width = true ∧
    entries.lookup (text "arena_height") = some height ∧ measurable python height = true

structure Alike (python : Python F) (first second : Run F μ) : Prop where
  config : Same (.object first.config) (.object second.config)
  provenance : Same (.object first.provenance) (.object second.provenance)
  events : Same (clean python.finite first.events) (clean python.finite second.events)
  completed : first.completed = second.completed

def described (config provenance : Entries F) (events : Json F) (completed : Bool) : Json F :=
  .object [(text "config", .object config), (text "provenance", .object provenance),
    (text "events", events), (text "completed", .bool completed)]

theorem same_described_iff {config others provenance origin : Entries F} {events other : Json F}
    {completed outcome : Bool} :
    Same (described config provenance events completed) (described others origin other outcome) ↔
      Same (.object config) (.object others) ∧ Same (.object provenance) (.object origin) ∧
        Same events other ∧ completed = outcome := by
  constructor
  · rintro ⟨-, ⟨a, first, configs⟩, ⟨b, second, origins⟩, ⟨c, third, happened⟩, ⟨d, last, ends⟩, -⟩
    cases first
    cases second
    cases third
    cases last
    exact ⟨configs, origins, happened, ends⟩
  · rintro ⟨configs, origins, happened, ends⟩
    exact ⟨rfl, ⟨_, rfl, configs⟩, ⟨_, rfl, origins⟩, ⟨_, rfl, happened⟩, ⟨_, rfl, ends⟩, trivial⟩

variable {python : Python F}

theorem Recorded.signature {run : Run F μ} (recorded : Recorded python run) :
    clean python.finite run.flat.signature =
      described (flatten run.config []) (flatten run.provenance [])
        (clean python.finite run.events) run.completed := by
  have config := clean_finite (finite_of_wellFormed recorded.config.flatten_wellFormed)
  have provenance := clean_finite (finite_of_wellFormed recorded.provenance.flatten_wellFormed)
  have shape : clean python.finite run.flat.signature = .object
      [(text "config", clean python.finite (.object (flatten run.config []))),
        (text "provenance", clean python.finite (.object (flatten run.provenance []))),
        (text "events", clean python.finite run.events),
        (text "completed", .bool run.completed)] := rfl
  rw [shape, config, provenance]
  rfl

theorem Recorded.signature_wellFormed {run : Run F μ} (recorded : Recorded python run) :
    (clean python.finite run.flat.signature).wellFormed python.toFloatText = true := by
  rw [recorded.signature, described, wellFormed_object]
  have names : [text "config", text "provenance", text "events", text "completed"].Nodup := by
    decide
  refine ⟨names, ?_⟩
  simp only [List.forall_mem_cons]
  exact ⟨recorded.config.flatten_wellFormed, recorded.provenance.flatten_wellFormed,
    every_clean recorded.events, rfl, fun _ member => absurd member List.not_mem_nil⟩

theorem identity_eq_iff {first second : Run F μ}
    (recorded : Recorded python first) (other : Recorded python second) :
    identity python first.flat = identity python second.flat ↔ Alike python first second := by
  rw [identity_ok, identity_ok, Except.ok.injEq,
    render_eq_iff recorded.signature_wellFormed other.signature_wellFormed, recorded.signature,
    other.signature, same_described_iff, same_flatten_iff recorded.config other.config,
    same_flatten_iff recorded.provenance other.provenance]
  constructor
  · rintro ⟨config, provenance, events, completed⟩
    exact ⟨config, provenance, events, completed⟩
  · intro alike
    exact ⟨alike.config, alike.provenance, alike.events, alike.completed⟩

/-! ## Groups -/

def Run.key (python : Python F) (run : Run F μ) : Line :=
  (clean python.finite run.signature).render python.repr

theorem key_eq_iff {first second : Run F μ}
    (recorded : Recorded python first) (other : Recorded python second) :
    first.flat.key python = second.flat.key python ↔ Alike python first second := by
  rw [← identity_eq_iff recorded other, identity_ok, identity_ok, Except.ok.injEq]
  rfl

theorem grouping_ok (python : Python F) (runs : List (Run F μ)) :
    grouping python runs = .ok (sortByName (buckets (Run.key python) runs)) := by
  have loop : ∀ entries : List (Line × List (Run F μ)),
      runs.foldlM (fun entries run => do
        let signature ← identity python run
        .ok (collect entries signature run)) entries =
      (.ok (runs.foldl (fun entries run => collect entries (run.key python) run) entries) :
        Except Failure _) := by
    induction runs with
    | nil => exact fun entries => rfl
    | cons run rest ih =>
      intro entries
      rw [List.foldlM_cons, identity_ok, ok_bind, ok_bind, ih, List.foldl_cons]
      rfl
  rw [grouping, loop, ok_bind]
  rfl

structure Reports (bucket : Line × List (Run F μ)) (group : Group F μ σ) : Prop where
  count : group.count = bucket.2.length
  members : group.members = bucket.2.map Run.member
  completed : bucket.2.head?.map Run.completed = some group.completed

theorem general_ok {value : Json F} (fine : measurable python value = true) :
    ∃ line, python.general value = .ok line := by
  cases value with
  | float f => exact python.general_float f fine
  | int n => exact python.general_int n fine
  | _ => cases fine

theorem group_returns (pool : List μ → σ) {run : Run F μ}
    (recorded : Recorded python run) (signature : Line) (rest : List (Run F μ)) :
    Returns (group python pool (signature, run.flat :: rest))
      (Reports (signature, run.flat :: rest)) := by
  obtain ⟨entries, width, height, arena, wide, fine, high, good⟩ := recorded.arena
  obtain ⟨first, shown⟩ := general_ok fine
  obtain ⟨second, printed⟩ := general_ok good
  have across : subscript run.flat.arena (text "arena_width") = .ok width := by
    change subscript run.arena _ = _
    rw [arena, subscript, wide]
  have along : subscript run.flat.arena (text "arena_height") = .ok height := by
    change subscript run.arena _ = _
    rw [arena, subscript, high]
  simp only [group, across, along, shown, printed, ok_bind]
  exact Returns.ok ⟨rfl, rfl, rfl⟩

/-- Every run is in one bucket, each bucket has its group, and runs are together just when they
are alike. -/
structure Pooled (python : Python F) (runs : List (Run F μ))
    (buckets : List (Line × List (Run F μ))) (groups : List (Group F μ σ)) : Prop where
  reported : List.Forall₂ Reports buckets groups
  complete : (buckets.flatMap Prod.snd).Perm (runs.map Run.flat)
  once : ∀ run ∈ runs, ∃! bucket, bucket ∈ buckets ∧ run.flat ∈ bucket.2
  counted : (groups.map Group.count).sum = runs.length
  identical : ∀ first ∈ runs, ∀ second ∈ runs,
    (∃ bucket ∈ buckets, first.flat ∈ bucket.2 ∧ second.flat ∈ bucket.2) ↔
      Alike python first second
  outcome : ∀ bucket ∈ buckets, ∀ first ∈ bucket.2, ∀ second ∈ bucket.2,
    first.completed = second.completed

section Buckets

variable (python : Python F) {runs : List (Run F μ)}

def sorted (runs : List (Run F μ)) : List (Line × List (Run F μ)) :=
  sortByName (buckets (Run.key python) runs)

variable {python} {bucket : Line × List (Run F μ)}

theorem mem_bucket {run : Run F μ} (present : bucket ∈ sorted python runs) :
    run ∈ bucket.2 ↔ run ∈ runs ∧ run.key python = bucket.1 := by
  rw [mem_buckets ((sortByName_perm _).mem_iff.mp present), List.mem_filter, decide_eq_true_eq]

theorem unique_bucket {run : Run F μ} (member : run ∈ runs) :
    ∃! bucket, bucket ∈ sorted python runs ∧ run ∈ bucket.2 := by
  obtain ⟨bucket, present, name, inside⟩ := exists_bucket (Run.key python) member
  refine ⟨bucket, ⟨(sortByName_perm _).mem_iff.mpr present, inside⟩, ?_⟩
  rintro other ⟨there, also⟩
  have names : other.1 = bucket.1 := by
    rw [← ((mem_bucket there).mp also).2, name]
  exact List.inj_on_of_nodup_map (buckets_distinct _ _) ((sortByName_perm _).mem_iff.mp there)
    present names

theorem sorted_complete : ((sorted python runs).flatMap Prod.snd).Perm runs :=
  ((sortByName_perm _).flatMap_right Prod.snd).trans (buckets_perm _ _)

variable (recorded : ∀ run ∈ runs, Recorded python run)
include recorded

theorem together_iff {first second : Run F μ} (known : first ∈ runs) (other : second ∈ runs) :
    (∃ bucket ∈ sorted python (runs.map Run.flat), first.flat ∈ bucket.2 ∧ second.flat ∈ bucket.2) ↔
      Alike python first second := by
  rw [← key_eq_iff (recorded first known) (recorded second other)]
  have inside : first.flat ∈ runs.map Run.flat := List.mem_map_of_mem known
  have within : second.flat ∈ runs.map Run.flat := List.mem_map_of_mem other
  constructor
  · rintro ⟨bucket, present, here, there⟩
    rw [((mem_bucket present).mp here).2, ((mem_bucket present).mp there).2]
  · intro same
    obtain ⟨bucket, ⟨present, here⟩, -⟩ := unique_bucket inside
    refine ⟨bucket, present, here, (mem_bucket present).mpr ⟨within, ?_⟩⟩
    rw [← same, ((mem_bucket present).mp here).2]

theorem same_outcome (present : bucket ∈ sorted python (runs.map Run.flat)) {first second : Run F μ}
    (here : first ∈ bucket.2) (there : second ∈ bucket.2) : first.completed = second.completed := by
  obtain ⟨run, known, rfl⟩ := List.mem_map.mp ((mem_bucket present).mp here).1
  obtain ⟨other, familiar, rfl⟩ := List.mem_map.mp ((mem_bucket present).mp there).1
  exact ((together_iff recorded known familiar).mp ⟨bucket, present, here, there⟩).completed

theorem group_bucket (pool : List μ → σ) (present : bucket ∈ sorted python (runs.map Run.flat)) :
    Returns (group python pool bucket) (Reports bucket) := by
  obtain ⟨signature, members⟩ := bucket
  cases members with
  | nil => exact absurd rfl (buckets_filled _ _ _ ((sortByName_perm _).mem_iff.mp present))
  | cons first rest =>
    obtain ⟨inside, -⟩ := (mem_bucket present).mp List.mem_cons_self
    obtain ⟨run, known, rfl⟩ := List.mem_map.mp inside
    exact group_returns pool (recorded run known) signature rest

end Buckets

theorem counts_sum {buckets : List (Line × List (Run F μ))} {groups : List (Group F μ σ)}
    (reported : List.Forall₂ Reports buckets groups) :
    (groups.map Group.count).sum = (buckets.flatMap Prod.snd).length := by
  induction reported with
  | nil => rfl
  | cons report rest ih =>
    rw [List.map_cons, List.sum_cons, report.count, ih, List.flatMap_cons, List.length_append]

theorem aggregate_pooled (pool : List μ → σ) {runs : List (Run F μ)}
    (recorded : ∀ run ∈ runs, Recorded python run) :
    ∃ groups, aggregateRuns python pool (runs.map Run.flat) = .ok groups ∧
      Pooled python runs (sorted python (runs.map Run.flat)) groups := by
  obtain ⟨groups, made, reports⟩ := Returns.mapM fun bucket member =>
    group_bucket recorded pool member
  have named : List.Forall₂ Reports (sorted python (runs.map Run.flat))
      (groups.map fun group => { group with
        name := label python (varying python groups) group }) := by
    rw [List.forall₂_map_right_iff]
    exact reports.imp fun bucket group report => ⟨report.count, report.members, report.completed⟩
  refine ⟨_, ?_, named, sorted_complete, ?_, ?_, ?_, ?_⟩
  · rw [aggregateRuns, grouping_ok, ok_bind]
    change (do
      let groups ← (sorted python (runs.map Run.flat)).mapM (group python pool)
      _) = _
    rw [made, ok_bind]
  · exact fun run known => unique_bucket (List.mem_map_of_mem known)
  · rw [counts_sum named, sorted_complete.length_eq, List.length_map]
  · exact fun first known second other => together_iff recorded known other
  · exact fun bucket present first here second there => same_outcome recorded present here there

/-- Only runs of the same experiment with the same outcome are pooled. Every run is in one group,
and a different order of the runs changes no more than the order within the groups. -/
theorem only_identical_runs_pooled (python : Python F) (pool : List μ → σ)
    {files : List (Files F μ)} {runs : List (Run F μ)}
    (gathered : List.Forall₂ (fun file run => gather python file = .ok run) files runs)
    (recorded : ∀ run ∈ runs, Recorded python run) :
    List.Forall₂ (fun file run => loadRun python file = .ok run.flat) files runs ∧
    (∀ run ∈ runs, run.events.finite python.toFloatText = true →
      clean python.finite run.events = run.events) ∧
    ∃ buckets groups, grouping python (runs.map Run.flat) = .ok buckets ∧
      aggregateRuns python pool (runs.map Run.flat) = .ok groups ∧
      Pooled python runs buckets groups ∧
      ∀ order, order.Perm runs → ∃ others regrouped,
        grouping python (order.map Run.flat) = .ok others ∧
        aggregateRuns python pool (order.map Run.flat) = .ok regrouped ∧
        Pooled python order others regrouped ∧
        List.Forall₂ (fun bucket other => bucket.1 = other.1 ∧ bucket.2.Perm other.2)
          buckets others := by
  refine ⟨?_, fun run _ good => clean_finite good, ?_⟩
  · refine gathered.imp fun file run ran => ?_
    rw [loadRun, ran, ok_bind]
  · obtain ⟨groups, aggregated, pooling⟩ := aggregate_pooled pool recorded
    refine ⟨_, groups, grouping_ok _ _, aggregated, pooling, ?_⟩
    intro order same
    obtain ⟨regrouped, again, pooled⟩ := aggregate_pooled pool fun run member =>
      recorded run (same.mem_iff.mp member)
    exact ⟨_, regrouped, grouping_ok _ _, again, pooled,
      buckets_reorder (Run.key python) (same.map Run.flat)⟩

end

/-! A success and a failure of one experiment. -/

def tenths (n : Nat) : Line := decimal n ++ text ".0"

theorem dot_not_numeral_of_int (n : Int) : '.' ∉ Base.Quoted.signed n := by
  have digits : ∀ m : Nat, '.' ∉ decimal m := fun m member =>
    absurd (isDigit_of_mem_decimal member) (by decide)
  unfold Base.Quoted.signed
  split_ifs with negative
  · intro member
    rcases List.mem_cons.mp member with impossible | inside
    · exact absurd impossible (by decide)
    · exact digits _ inside
  · exact digits _

def wholeFloats : Python Nat where
  repr := tenths
  finite _ := true
  filled f _ := List.append_ne_nil_of_left_ne_nil (decimal_ne_nil f) _
  numerals f _ c member := by
    rcases List.mem_append.mp member with digit | point
    · exact Base.Quoted.numeral_of_digit (isDigit_of_mem_decimal digit)
    · exact List.all_eq_true.mp (rfl : (text ".0").all Base.Quoted.numeral = true) c point
  injective f g _ _ same := Base.Quoted.decimal_injective (List.append_cancel_right same)
  apart f n _ same := dot_not_numeral_of_int n
    (same ▸ List.mem_append_right _ List.mem_cons_self)
  ofNat n := n
  inRange _ := true
  equals first second := first.render tenths = second.render tenths
  str value := value.render tenths
  general
    | .float value => .ok (decimal value)
    | .int value => .ok (Base.Quoted.signed value)
    | _ => .error .typeError
  sha256 line := line
  finite_ofNat _ _ := rfl
  general_float f _ := ⟨_, rfl⟩
  general_int n _ := ⟨_, rfl⟩

def wallFollowing : Entries Nat :=
  [(text "schema_version", .int 3),
    (text "parameters", .object [(text "control_hz", .float 20)]),
    (text "duration", .float 4),
    (text "completed", .bool true),
    (text "provenance", .object [(text "core.hpp", .string (text "same-core"))]),
    (text "host_source_sha256", .object [(text "recording.py", .string (text "same-host"))]),
    (text "host", .object [(text "machine", .string (text "test"))])]

def attempt (status : Line) : Files Nat Unit where
  name := status
  path := '/' :: status
  metadata := .object wallFollowing
  experiment := some (.object [(text "architecture", .string (text "test-cpu"))])
  attempt := some (.object [(text "status", .string status)])
  samples := .ok fun _ => .ok { sampleCount := 4, taskNote := none, metrics := () }

def testConfig : Entries Nat :=
  [(text "architecture", .string (text "test-cpu")),
    (text "controller", .object [(text "control_hz", .float 20)]),
    (text "arena", defaultArena wholeFloats), (text "duration", .float 4)]

def testProvenance : Entries Nat :=
  [(text "robot_source", .object [(text "core.hpp", .string (text "same-core"))]),
    (text "host_source", .object [(text "recording.py", .string (text "same-host"))]),
    (text "host", .object [(text "machine", .string (text "test"))])]

def outcome (status : Line) (completed : Bool) : Run Nat Unit where
  name := status
  path := '/' :: status
  completed := completed
  config := testConfig
  sweep := .object []
  provenance := testProvenance
  events := .array []
  arena := defaultArena wholeFloats
  finalParameters := .object []
  measured := { sampleCount := 4, taskNote := none, metrics := () }

theorem testConfig_nested : Nested wholeFloats testConfig :=
  ⟨by decide +kernel, by decide +kernel, by decide +kernel, by decide +kernel⟩

theorem testProvenance_nested : Nested wholeFloats testProvenance :=
  ⟨by decide +kernel, by decide +kernel, by decide +kernel, by decide +kernel⟩

theorem outcome_recorded (status : Line) (completed : Bool) :
    Recorded wholeFloats (outcome status completed) where
  config := testConfig_nested
  provenance := testProvenance_nested
  events := rfl
  arena := ⟨_, _, _, rfl, rfl, rfl, rfl, rfl⟩

theorem failedAttempt_alone : ∃ buckets groups,
    grouping wholeFloats ([outcome (text "completed") true, outcome (text "failed") false].map
      Run.flat) = .ok buckets ∧
    aggregateRuns wholeFloats (fun _ => ()) ([outcome (text "completed") true,
      outcome (text "failed") false].map Run.flat) = .ok groups ∧
    (groups.map Group.count).sum = 2 ∧
    ¬ ∃ bucket ∈ buckets, (outcome (text "completed") true).flat ∈ bucket.2 ∧
      (outcome (text "failed") false).flat ∈ bucket.2 := by
  have gathered : List.Forall₂ (fun file run => gather wholeFloats file = .ok run)
      [attempt (text "completed"), attempt (text "failed")]
      [outcome (text "completed") true, outcome (text "failed") false] :=
    .cons rfl (.cons rfl .nil)
  have recorded : ∀ run ∈ [outcome (text "completed") true, outcome (text "failed") false],
      Recorded wholeFloats run := by
    simp only [List.forall_mem_cons]
    exact ⟨outcome_recorded _ _, outcome_recorded _ _, fun _ member =>
      absurd member List.not_mem_nil⟩
  obtain ⟨-, -, buckets, groups, grouped, aggregated, pooled, -⟩ :=
    only_identical_runs_pooled wholeFloats (fun _ => ()) gathered recorded
  refine ⟨buckets, groups, grouped, aggregated, pooled.counted, ?_⟩
  rintro ⟨bucket, present, here, there⟩
  cases pooled.outcome bucket present _ here _ there

end Chimaera.Benchmark.Comparison
