import Chimaera.Base.Dictionary
import Chimaera.Suite.Runner

/-! `gem5_stats.py`: the last complete dump of `stats.txt` and its summary, with the two
callers that handle a failure. Floats are those of the interpreter; of their arithmetic only
matters what raises. -/

namespace Chimaera.Benchmark.Statistics
open Base.Text Base.Dictionary

inductive Exception where
  | osError (what : Line)
  | valueError (what : Line)
  | typeError (what : Line)
  | zeroDivisionError (what : Line)
  deriving DecidableEq, Repr

/-- What Python does with numbers, and the digits that `\d` matches. -/
structure Runtime (F : Type) where
  isDecimal : Char → Bool
  float : Line → Option F
  isFinite : F → Bool
  isZero : F → Bool
  isPositive : F → Bool
  sum : List F → F
  quotient : F → F → F
  thousandfold : F → F
  nonzero_of_positive : ∀ value, isPositive value = true → isZero value = false

def isSpace (c : Char) : Bool :=
  let code := c.toNat
  (9 ≤ code && code ≤ 13) || (28 ≤ code && code ≤ 32) || code = 0x85 || code = 0xa0 ||
    code = 0x1680 || (0x2000 ≤ code && code ≤ 0x200a) || code = 0x2028 || code = 0x2029 ||
    code = 0x202f || code = 0x205f || code = 0x3000

def isBoundary (c : Char) : Bool :=
  let code := c.toNat
  (10 ≤ code && code ≤ 13) || (28 ≤ code && code ≤ 30) || code = 0x85 || code = 0x2028 ||
    code = 0x2029

def splitLinesFrom : Line → Line → List Line
  | current, [] => if current = [] then [] else [current]
  | current, '\r' :: '\n' :: rest => current :: splitLinesFrom [] rest
  | current, c :: rest =>
      if isBoundary c then current :: splitLinesFrom [] rest
      else splitLinesFrom (current ++ [c]) rest

theorem splitLinesFrom_nil (current : Line) :
    splitLinesFrom current [] = if current = [] then [] else [current] := rfl

theorem splitLinesFrom_pair (current rest : Line) :
    splitLinesFrom current ('\r' :: '\n' :: rest) = current :: splitLinesFrom [] rest := rfl

theorem splitLinesFrom_cons (current : Line) {c : Char} {rest : Line}
    (single : c = '\r' → rest.head? ≠ some '\n') :
    splitLinesFrom current (c :: rest) =
      if isBoundary c then current :: splitLinesFrom [] rest
      else splitLinesFrom (current ++ [c]) rest := by
  rw [splitLinesFrom]
  rintro later rfl rfl
  exact single rfl rfl

def splitLines (content : Line) : List Line := splitLinesFrom [] content

def begins (line : Line) : Bool := decide (text "Begin Simulation Statistics" <:+: line)

/-- The other marker; a line with both begins a dump. -/
def ends (line : Line) : Bool :=
  !begins line && decide (text "End Simulation Statistics" <:+: line)

section Reading

variable {F : Type} (runtime : Runtime F)

abbrev Readings (F : Type) := List (Line × F)

def reading (line : Line) : Option (Line × F) :=
  match words isSpace line with
  | name :: value :: _ =>
      match runtime.float value with
      | some number => if runtime.isFinite number then some (name, number) else none
      | none => none
  | _ => none

def keep (counters : Readings F) (line : Line) : Readings F :=
  match reading runtime line with
  | some (name, value) => assign counters name value
  | none => counters

structure Scan (F : Type) where
  current : Option (Readings F) := none
  last : Option (Readings F) := none

def Scan.next (scan : Scan F) (line : Line) : Scan F :=
  if begins line then { scan with current := some [] }
  else
    match scan.current with
    | none => scan
    | some counters =>
        if ends line then { current := none, last := some counters }
        else { scan with current := some (keep runtime counters line) }

def lastDump (lines : List Line) : Option (Readings F) :=
  (lines.foldl (Scan.next runtime) {}).last

def fullmatch (head tail : String) (name : Line) : Bool :=
  let rest := name.drop (text head).length
  (text head).isPrefixOf name && (text tail).isSuffixOf rest &&
    (rest.take (rest.length - (text tail).length)).all runtime.isDecimal

def total (last : Readings F) (head tail : String) : Option F :=
  let values := (last.filter fun entry => fullmatch runtime head tail entry.1).map Prod.snd
  if values.isEmpty then none else some (runtime.sum values)

def cyclesOf (last : Readings F) : Option F :=
  total runtime last "board.processor.switch" ".core.numCycles"

/-- The operator `/`, whose left operand may be `None`. -/
def divide (dividend : Option F) (divisor : F) : Except Exception F :=
  match dividend with
  | none => .error (.typeError (text "unsupported operand type(s) for /: 'NoneType' and 'float'"))
  | some value =>
      if runtime.isZero divisor then .error (.zeroDivisionError (text "float division by zero"))
      else .ok (runtime.quotient value divisor)

def truthy : Option F → Option F
  | some value => if runtime.isZero value then none else some value
  | none => none

structure Summary (F : Type) where
  simSeconds : Option F
  instructions : Option F
  instructionsPerSimSecond : Option F
  cycles : Option F
  ipc : Option F
  l1dMisses : Option F
  l1iMisses : Option F
  l2Misses : Option F
  l1iMpki : Option F
  l1dMpki : Option F
  l2Mpki : Option F

def throughput (instructions seconds : Option F) : Except Exception (Option F) :=
  match instructions, seconds with
  | some count, some time =>
      if runtime.isPositive time then (divide runtime (some count) time).map some else .ok none
  | _, _ => .ok none

def perCycle (instructions cycles : Option F) : Except Exception (Option F) :=
  match truthy runtime cycles with
  | some count => (divide runtime instructions count).map some
  | none => .ok none

def mpki (instructions misses : Option F) : Except Exception (Option F) :=
  match truthy runtime instructions, misses with
  | some count, some missed =>
      (divide runtime (some (runtime.thousandfold missed)) count).map some
  | _, _ => .ok none

def summarizeDump (last : Readings F) : Except Exception (Summary F) := do
  let cycles := cyclesOf runtime last
  let instructions := last.lookup (text "simInsts")
  let simSeconds := last.lookup (text "simSeconds")
  let instructionsPerSimSecond ← throughput runtime instructions simSeconds
  let ipc ← perCycle runtime instructions cycles
  let l1dMisses := total runtime last "board.cache_hierarchy.ruby_system.l1_controllers"
    ".L1Dcache.m_demand_misses"
  let l1iMisses := total runtime last "board.cache_hierarchy.ruby_system.l1_controllers"
    ".L1Icache.m_demand_misses"
  let l2Misses := total runtime last "board.cache_hierarchy.ruby_system.l2_controllers"
    ".L2cache.m_demand_misses"
  let l1iMpki ← mpki runtime instructions l1iMisses
  let l1dMpki ← mpki runtime instructions l1dMisses
  let l2Mpki ← mpki runtime instructions l2Misses
  .ok { simSeconds, instructions, instructionsPerSimSecond, cycles, ipc, l1dMisses, l1iMisses,
        l2Misses, l1iMpki, l1dMpki, l2Mpki }

def summarize (content : Line) : Except Exception (Summary F) :=
  match lastDump runtime (splitLines content) with
  | none => .error (.valueError (text "No complete gem5 statistics dump"))
  | some last => summarizeDump runtime last

/-! ## The callers -/

/-- `except (OSError, ValueError) as exc`, with `str(exc)`. -/
def Exception.caught : Exception → Option Line
  | .osError what | .valueError what => some what
  | .typeError _ | .zeroDivisionError _ => none

/-- What the suite runner does behind `summarize_gem5`: it notes the failure, or ends by the
exception. -/
def statsEvent (outcome : Except Exception (Summary F)) : Suite.Event :=
  match outcome with
  | .ok _ => .summarize none
  | .error raised =>
      match raised.caught with
      | some what => .summarize (some what)
      | none => .stop false

/-- The metrics of `load_run` with `gem5_error`, for a run directory and its `stats.txt`, if it
has one. Without metrics all of them are `None`. -/
def gem5Metrics (path : Line) (stats : Option Line) :
    Except Exception (Option (Summary F) × Option Line) :=
  match stats with
  | none => .ok (none, none)
  | some content =>
      match summarize runtime content with
      | .ok summary => .ok (some summary, none)
      | .error raised =>
          match raised.caught with
          | some what => .ok (none, some (path ++ text ": gem5 statistics unavailable: " ++ what))
          | none => .error raised

end Reading

/-! ## The last complete dump -/

/-- No dump that has begun in these lines ends in them. -/
def Unfinished (lines : List Line) : Prop :=
  ∀ front opening middle closing rest, lines = front ++ opening :: (middle ++ closing :: rest) →
    begins opening = true → ends closing = false

/-- The lines between the markers of the last complete dump. -/
def LastDump (lines body : List Line) : Prop :=
  ∃ front opening closing rest, lines = front ++ opening :: (body ++ closing :: rest) ∧
    begins opening = true ∧ ends closing = true ∧
    (∀ line ∈ body, begins line = false ∧ ends line = false) ∧ Unfinished rest

theorem Unfinished.of_append {front rest : List Line} (unfinished : Unfinished (front ++ rest)) :
    Unfinished rest := by
  intro before opening middle closing after split
  apply unfinished (front ++ before) opening middle closing after
  rw [split, List.append_assoc]

theorem unfinished_nil : Unfinished [] := by
  intro front opening middle closing rest split
  exact absurd (congrArg List.length split) (by simp)

theorem exists_first_end {lines : List Line} (closed : ∃ line ∈ lines, ends line = true) :
    ∃ body closing rest, lines = body ++ closing :: rest ∧ ends closing = true ∧
      ∀ line ∈ body, ends line = false := by
  induction lines with
  | nil => simp at closed
  | cons line rest ih =>
    cases marker : ends line with
    | true => exact ⟨[], line, rest, rfl, marker, nofun⟩
    | false =>
      have later : ∃ other ∈ rest, ends other = true := by
        obtain ⟨other, member, closing⟩ := closed
        rcases List.mem_cons.mp member with rfl | member
        · rw [marker] at closing
          cases closing
        · exact ⟨other, member, closing⟩
      obtain ⟨body, closing, tail, rfl, closes, clear⟩ := ih later
      exact ⟨line :: body, closing, tail, rfl, closes, List.forall_mem_cons.mpr ⟨marker, clear⟩⟩

theorem exists_lastDump {lines : List Line} (finished : ¬Unfinished lines) :
    ∃ body, LastDump lines body := by
  induction lines with
  | nil => exact absurd unfinished_nil finished
  | cons line rest ih =>
    by_cases later : Unfinished rest
    · have opened : begins line = true ∧ ∃ other ∈ rest, ends other = true := by
        by_contra neither
        apply finished
        intro front opening middle closing tail split starts
        cases front with
        | nil =>
          obtain ⟨rfl, rfl⟩ := List.cons.inj split
          apply Bool.eq_false_iff.mpr
          intro closes
          exact neither ⟨starts, closing, by simp, closes⟩
        | cons first front =>
          obtain ⟨rfl, rfl⟩ := List.cons.inj split
          exact later front opening middle closing tail rfl starts
      obtain ⟨body, closing, tail, rfl, closes, clear⟩ := exists_first_end opened.2
      refine ⟨body, [], line, closing, tail, rfl, opened.1, closes, ?_, ?_⟩
      · intro other member
        refine ⟨?_, clear other member⟩
        apply Bool.eq_false_iff.mpr
        intro starts
        obtain ⟨before, after, rfl⟩ := List.append_of_mem member
        have running := later before other after closing tail (by simp) starts
        rw [closes] at running
        cases running
      · rw [List.append_cons] at later
        exact later.of_append
    · obtain ⟨body, front, opening, closing, tail, rfl, starts, closes, clear, last⟩ := ih later
      exact ⟨body, line :: front, opening, closing, tail, rfl, starts, closes, clear, last⟩

section Scanning

variable {F : Type} (runtime : Runtime F)

def readings (body : List Line) : Readings F := body.foldl (keep runtime) []

theorem scan_body {body : List Line}
    (clear : ∀ line ∈ body, begins line = false ∧ ends line = false) (counters : Readings F)
    (last : Option (Readings F)) :
    body.foldl (Scan.next runtime) ⟨some counters, last⟩ =
      ⟨some (body.foldl (keep runtime) counters), last⟩ := by
  induction body generalizing counters with
  | nil => rfl
  | cons line rest ih =>
    obtain ⟨⟨starts, closes⟩, others⟩ := List.forall_mem_cons.mp clear
    have first : Scan.next runtime ⟨some counters, last⟩ line =
        ⟨some (keep runtime counters line), last⟩ := by
      simp only [Scan.next, starts, closes, Bool.false_eq_true, if_false]
    rw [List.foldl_cons, List.foldl_cons, first, ih others]

theorem scan_unclosed {lines : List Line} (unclosed : ∀ line ∈ lines, ends line = false)
    (scan : Scan F) : (lines.foldl (Scan.next runtime) scan).last = scan.last := by
  induction lines generalizing scan with
  | nil => rfl
  | cons line rest ih =>
    obtain ⟨closes, others⟩ := List.forall_mem_cons.mp unclosed
    rw [List.foldl_cons, ih others, Scan.next]
    by_cases starts : begins line = true
    · rw [if_pos starts]
    · rw [if_neg starts]
      cases scan.current with
      | none => rfl
      | some counters => simp only [closes, Bool.false_eq_true, if_false]

theorem scan_unfinished {lines : List Line} (unfinished : Unfinished lines)
    (last : Option (Readings F)) :
    (lines.foldl (Scan.next runtime) ⟨none, last⟩).last = last := by
  induction lines with
  | nil => rfl
  | cons line rest ih =>
    rw [List.foldl_cons]
    cases starts : begins line with
    | true =>
      have unclosed : ∀ other ∈ rest, ends other = false := by
        intro other member
        obtain ⟨before, after, rfl⟩ := List.append_of_mem member
        exact unfinished [] line before other after rfl starts
      rw [scan_unclosed runtime unclosed, Scan.next, if_pos starts]
    | false =>
      have same : Scan.next runtime ⟨none, last⟩ line = ⟨none, last⟩ := by
        simp only [Scan.next, starts, Bool.false_eq_true, if_false]
      have whole : Unfinished ([line] ++ rest) := unfinished
      rw [same]
      exact ih whole.of_append

theorem lastDump_unfinished {lines : List Line} (unfinished : Unfinished lines) :
    lastDump runtime lines = none := scan_unfinished runtime unfinished none

theorem lastDump_eq {lines body : List Line} (dump : LastDump lines body) :
    lastDump runtime lines = some (readings runtime body) := by
  obtain ⟨front, opening, closing, rest, rfl, starts, closes, clear, unfinished⟩ := dump
  generalize before : front.foldl (Scan.next runtime) {} = scan
  have opened : Scan.next runtime scan opening = ⟨some [], scan.last⟩ := by
    rw [Scan.next, if_pos starts]
  have other : begins closing = false := by
    simp only [ends, Bool.and_eq_true, Bool.not_eq_true'] at closes
    exact closes.1
  have closed : Scan.next runtime ⟨some (readings runtime body), scan.last⟩ closing =
      ⟨none, some (readings runtime body)⟩ := by
    simp only [Scan.next, other, Bool.false_eq_true, if_false, closes, if_true]
  rw [lastDump, List.foldl_append, before, List.foldl_cons, opened, List.foldl_append,
    scan_body runtime clear, List.foldl_cons]
  change (rest.foldl (Scan.next runtime)
    (Scan.next runtime ⟨some (readings runtime body), scan.last⟩ closing)).last = _
  rw [closed, scan_unfinished runtime unfinished]

/-- A counter is missing where no line of the dump reports a finite value of it. -/
theorem lookup_readings {body : List Line} {name : Line} :
    (readings runtime body).lookup name = none ↔
      ∀ line ∈ body, ∀ value, reading runtime line ≠ some (name, value) := by
  have general : ∀ counters : Readings F, (body.foldl (keep runtime) counters).lookup name = none ↔
      counters.lookup name = none ∧
        ∀ line ∈ body, ∀ value, reading runtime line ≠ some (name, value) := by
    induction body with
    | nil => simp
    | cons line rest ih =>
      intro counters
      rw [List.foldl_cons, ih, List.forall_mem_cons, ← and_assoc]
      apply and_congr_left
      intro _
      cases report : reading runtime line with
      | none => simp [keep, report]
      | some entry =>
        obtain ⟨other, value⟩ := entry
        simp only [keep, report, lookup_assign]
        by_cases same : name = other
        · simp [same]
        · simp [same, Ne.symm same]
  rw [readings, general]
  simp

/-! ## What raises -/

theorem divide_ok {divisor : F} (nonzero : runtime.isZero divisor = false) (dividend : F) :
    divide runtime (some dividend) divisor = .ok (runtime.quotient dividend divisor) := by
  simp only [divide, nonzero, Bool.false_eq_true, if_false]

theorem truthy_some {counter : Option F} {value : F} (found : truthy runtime counter = some value) :
    counter = some value ∧ runtime.isZero value = false := by
  cases counter with
  | none => cases found
  | some number =>
    rw [truthy] at found
    split_ifs at found with zero
    obtain rfl := Option.some.inj found
    exact ⟨rfl, Bool.eq_false_iff.mpr zero⟩

theorem throughput_ok (instructions seconds : Option F) :
    ∃ rate, throughput runtime instructions seconds = .ok rate := by
  unfold throughput
  split
  · split_ifs with positive
    · rw [divide_ok runtime (runtime.nonzero_of_positive _ positive)]
      exact ⟨_, rfl⟩
    · exact ⟨_, rfl⟩
  · exact ⟨_, rfl⟩

theorem mpki_ok (instructions misses : Option F) :
    ∃ rate, mpki runtime instructions misses = .ok rate := by
  unfold mpki
  cases counted : truthy runtime instructions with
  | none => exact ⟨_, rfl⟩
  | some count =>
    cases misses with
    | none => exact ⟨_, rfl⟩
    | some missed =>
      simp only [divide_ok runtime (truthy_some runtime counted).2]
      exact ⟨_, rfl⟩

theorem perCycle_eq (instructions cycles : Option F) :
    (∃ rate, perCycle runtime instructions cycles = .ok rate) ∧
        (instructions ≠ none ∨ truthy runtime cycles = none) ∨
      perCycle runtime instructions cycles = .error (.typeError
          (text "unsupported operand type(s) for /: 'NoneType' and 'float'")) ∧
        instructions = none ∧ truthy runtime cycles ≠ none := by
  unfold perCycle
  cases counted : truthy runtime cycles with
  | none => exact .inl ⟨⟨_, rfl⟩, .inr rfl⟩
  | some count =>
    cases instructions with
    | none => exact .inr ⟨rfl, rfl, by simp⟩
    | some value =>
      simp only [divide_ok runtime (truthy_some runtime counted).2]
      exact .inl ⟨⟨_, rfl⟩, .inl (by simp)⟩

theorem summarizeDump_eq (last : Readings F) :
    (∃ summary, summarizeDump runtime last = .ok summary) ∧
        (last.lookup (text "simInsts") ≠ none ∨ truthy runtime (cyclesOf runtime last) = none) ∨
      summarizeDump runtime last = .error (.typeError
          (text "unsupported operand type(s) for /: 'NoneType' and 'float'")) ∧
        last.lookup (text "simInsts") = none ∧ truthy runtime (cyclesOf runtime last) ≠ none := by
  unfold summarizeDump
  obtain ⟨rate, first⟩ := throughput_ok runtime (last.lookup (text "simInsts"))
    (last.lookup (text "simSeconds"))
  simp only [first, Base.Unsigned.ok_bind]
  rcases perCycle_eq runtime (last.lookup (text "simInsts")) (cyclesOf runtime last) with
    ⟨⟨ipc, second⟩, guarded⟩ | ⟨raised, missing⟩
  · left
    refine ⟨?_, guarded⟩
    simp only [second, Base.Unsigned.ok_bind]
    obtain ⟨l1i, third⟩ := mpki_ok runtime (last.lookup (text "simInsts")) (total runtime last
      "board.cache_hierarchy.ruby_system.l1_controllers" ".L1Icache.m_demand_misses")
    obtain ⟨l1d, fourth⟩ := mpki_ok runtime (last.lookup (text "simInsts")) (total runtime last
      "board.cache_hierarchy.ruby_system.l1_controllers" ".L1Dcache.m_demand_misses")
    obtain ⟨l2, fifth⟩ := mpki_ok runtime (last.lookup (text "simInsts")) (total runtime last
      "board.cache_hierarchy.ruby_system.l2_controllers" ".L2cache.m_demand_misses")
    simp only [third, fourth, fifth, Base.Unsigned.ok_bind]
    exact ⟨_, rfl⟩
  · right
    refine ⟨?_, missing⟩
    simp only [raised, Base.Unsigned.error_bind]

end Scanning

/-! ## Failures and their handlers -/

section Handling

variable {F : Type} (runtime : Runtime F)

def Countable (content : Line) : Prop :=
  ∀ body, LastDump (splitLines content) body →
    (∃ line ∈ body, ∃ value, reading runtime line = some (text "simInsts", value)) ∨
      ∀ cycles, cyclesOf runtime (readings runtime body) = some cycles →
        runtime.isZero cycles = true

def Recorded (outcome : Except Exception (Summary F)) : Prop :=
  ∀ (world : Suite.World) (runner : Suite.Invocation) (key : Suite.Key) (rest : List Suite.RunId)
    (verdict : Suite.Verdict), world.runner = some runner →
    runner.location = .stats key rest verdict →
    ∃ after next record, world.step (statsEvent outcome) = some after ∧
      after.runner = some next ∧ next.location = .closing key rest record

structure Handled (content : Line) : Prop where
  raised : ∀ exception, summarize runtime content = .error exception →
    ∃ what, exception = .valueError what
  recorded : Recorded (summarize runtime content)
  kept : ∀ path, ∃ metrics, gem5Metrics runtime path (some content) = .ok metrics

theorem truthy_eq_none {counter : Option F} :
    truthy runtime counter = none ↔ ∀ value, counter = some value → runtime.isZero value = true := by
  cases counter with
  | none => simp [truthy]
  | some number => simp [truthy]

theorem recorded_of_summarize {outcome : Except Exception (Summary F)} (failure : Option Line)
    (event : statsEvent outcome = .summarize failure) : Recorded outcome := by
  intro world runner key rest verdict under here
  let record : Suite.Verdict := { verdict with record := verdict.record.counted failure }
  refine ⟨world.put (runner.goto (.closing key rest record)), _, record, ?_, rfl, rfl⟩
  rw [event]
  simp only [Suite.World.step, under, Suite.World.act, Suite.World.summarize, here, record]

theorem handled_of {content : Line}
    (fine : ∀ exception, summarize runtime content = .error exception →
      ∃ what, exception = .valueError what) : Handled runtime content := by
  cases outcome : summarize runtime content with
  | ok summary =>
    refine ⟨fine, ?_, ?_⟩
    · rw [outcome]
      exact recorded_of_summarize none rfl
    · intro path
      simp only [gem5Metrics, outcome]
      exact ⟨_, rfl⟩
  | error exception =>
    obtain ⟨what, rfl⟩ := fine exception outcome
    refine ⟨fine, ?_, ?_⟩
    · rw [outcome]
      exact recorded_of_summarize (some what) rfl
    · intro path
      simp only [gem5Metrics, outcome, Exception.caught]
      exact ⟨_, rfl⟩

/-- `summarize` fails only as its callers expect exactly where the last complete dump has a
finite `simInsts` or no cycles of the switched cores. -/
theorem statistics_handled_iff (content : Line) :
    Handled runtime content ↔ Countable runtime content := by
  by_cases unfinished : Unfinished (splitLines content)
  · -- Without a complete dump both sides hold: the failure is a `ValueError`.
    have failed : summarize runtime content =
        .error (.valueError (text "No complete gem5 statistics dump")) := by
      rw [summarize, lastDump_unfinished runtime unfinished]
    constructor
    · rintro - body ⟨front, opening, closing, rest, split, starts, closes, -⟩
      have running := unfinished front opening body closing rest split starts
      rw [closes] at running
      cases running
    · intro _
      apply handled_of
      intro exception raised
      rw [failed] at raised
      exact ⟨_, (Except.error.inj raised).symm⟩
  · obtain ⟨body, dump⟩ := exists_lastDump unfinished
    have summed : summarize runtime content = summarizeDump runtime (readings runtime body) := by
      rw [summarize, lastDump_eq runtime dump]
    rcases summarizeDump_eq runtime (readings runtime body) with
      ⟨⟨summary, returned⟩, guarded⟩ | ⟨raised, missing, cycles⟩
    · constructor
      · rintro - other found
        have same : readings runtime body = readings runtime other :=
          Option.some.inj ((lastDump_eq runtime dump).symm.trans (lastDump_eq runtime found))
        rw [same] at guarded
        rcases guarded with present | uncounted
        · left
          by_contra missing
          apply present
          apply (lookup_readings runtime).mpr
          intro line member value report
          exact missing ⟨line, member, value, report⟩
        · exact .inr ((truthy_eq_none runtime).mp uncounted)
      · intro _
        apply handled_of
        intro exception raised
        rw [summed, returned] at raised
        cases raised
    · constructor
      · intro handled
        obtain ⟨what, other⟩ := handled.raised _ (summed.trans raised)
        cases other
      · intro countable
        exfalso
        rcases countable body dump with ⟨line, member, value, report⟩ | zero
        · exact (lookup_readings runtime).mp missing line member value report
        · exact cycles ((truthy_eq_none runtime).mpr zero)

def exactRuntime : Runtime Rat where
  isDecimal := Char.isDigit
  float value := if value ≠ [] ∧ value.all Char.isDigit then some (number value) else none
  isFinite _ := true
  isZero value := value = 0
  isPositive value := 0 < value
  sum := List.sum
  quotient a b := a / b
  thousandfold value := 1000 * value
  nonzero_of_positive value positive := by
    have above : 0 < value := of_decide_eq_true positive
    exact decide_eq_false above.ne'

def uncountedDump : Line :=
  text "---------- Begin Simulation Statistics ----------\n" ++
    text "board.processor.switch.core.numCycles 100\n" ++
    text "---------- End Simulation Statistics   ----------\n"

/-- The exception gets past both handlers. -/
theorem uncounted_dump_raises :
    ¬Handled exactRuntime uncountedDump ∧
      statsEvent (summarize exactRuntime uncountedDump) = .stop false := by
  have raised : (match summarize exactRuntime uncountedDump with
      | .error (.typeError _) => true
      | _ => false) = true := by decide +kernel
  cases outcome : summarize exactRuntime uncountedDump with
  | ok summary => simp only [outcome, Bool.false_eq_true] at raised
  | error exception =>
    rw [outcome] at raised
    cases exception with
    | typeError what =>
      refine ⟨fun handled => ?_, rfl⟩
      obtain ⟨_, other⟩ := handled.raised _ outcome
      cases other
    | _ => cases raised

end Handling

end Chimaera.Benchmark.Statistics
