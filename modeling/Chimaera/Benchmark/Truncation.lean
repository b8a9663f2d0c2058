import Chimaera.Base.Characters
import Chimaera.Benchmark.Statistics

/-! A statistics file that a crash cut short. What follows the last complete line of a text
counts only if a line of it closes a dump, and of the lines before it the loop keeps the
reports of one dump. -/

namespace Chimaera.Benchmark.Statistics
open Base Base.Text Base.Dictionary

def Complete (content : Line) : Prop := ∀ c, content.getLast? = some c → isBoundary c = true

def Unclosed (content : Line) : Prop :=
  ∀ line ∈ splitLines content, ¬text "End Simulation Statistics" <:+: line

/-! ## Translated line ends -/

theorem splitLinesFrom_translate (content current : Line) :
    splitLinesFrom current (Characters.translate false content) = splitLinesFrom current content ∧
      splitLinesFrom current (Characters.translate false ('\r' :: content)) =
        splitLinesFrom current ('\r' :: content) := by
  -- The second half looks one character further, at the line feed of a pair.
  induction content generalizing current with
  | nil => exact ⟨rfl, rfl⟩
  | cons c rest ih =>
    have here : ∀ current, splitLinesFrom current (Characters.translate false (c :: rest)) =
        splitLinesFrom current (c :: rest) := by
      intro current
      by_cases isReturn : c = '\r'
      · rw [isReturn]
        exact (ih current).2
      · have kept : Characters.translate false (c :: rest) =
            c :: Characters.translate false rest := by
          rw [Characters.translate_kept isReturn]
        rw [kept, splitLinesFrom_cons current (fun same => absurd same isReturn),
          splitLinesFrom_cons current (fun same => absurd same isReturn), (ih []).1,
          (ih (current ++ [c])).1]
    refine ⟨here current, ?_⟩
    rw [Characters.translate_return, splitLinesFrom_cons current (by simp), if_pos (by decide)]
    by_cases lineFeed : c = '\n'
    · rw [lineFeed, Characters.translate_pair, (ih []).1, splitLinesFrom_pair]
    · rw [Characters.translate_true lineFeed, here []]
      rw [splitLinesFrom_cons current (by simp [lineFeed]), if_pos (by decide)]

/-- The line ends that reading the file translates are those `splitlines` knows. -/
theorem splitLines_universal (content : Line) :
    splitLines (Characters.universal content) = splitLines content :=
  (splitLinesFrom_translate content []).1

/-! ## Lines of a continued text -/

theorem Complete.tail {c d : Char} {rest : Line} (complete : Complete (c :: d :: rest)) :
    Complete (d :: rest) := by
  intro last found
  apply complete last
  rwa [List.getLast?_cons_cons]

theorem boundary_of_complete {c : Char} (complete : Complete [c]) : isBoundary c = true :=
  complete c rfl

/-- Behind a line end the lines of the continuation follow. A line feed that completes the pair
of a carriage return is not a line of its own any more. -/
theorem splitLinesFrom_append {content : Line} (complete : Complete content) (current more : Line)
    (started : content = [] → current = []) :
    ∃ rest, splitLinesFrom current (content ++ more) = splitLinesFrom current content ++ rest ∧
      ∀ line ∈ rest, line ∈ splitLines more := by
  induction content using List.twoStepInduction generalizing current with
  | nil =>
    rw [started rfl]
    exact ⟨splitLines more, rfl, fun line member => member⟩
  | singleton c =>
    have boundary := boundary_of_complete complete
    have alone : splitLinesFrom current [c] = [current] := by
      rw [splitLinesFrom_cons current (by simp), if_pos boundary, splitLinesFrom_nil, if_pos rfl]
    rw [alone, List.singleton_append]
    by_cases pair : c = '\r' ∧ more.head? = some '\n'
    · obtain ⟨rfl, head⟩ := pair
      obtain ⟨later, rfl⟩ := List.head?_eq_some_iff.mp head
      refine ⟨splitLines later, splitLinesFrom_pair current later, ?_⟩
      intro line member
      rw [splitLines, splitLinesFrom_cons [] (by simp), if_pos (by decide)]
      exact List.mem_cons_of_mem _ member
    · refine ⟨splitLines more, ?_, fun line member => member⟩
      rw [splitLinesFrom_cons current (fun back head => pair ⟨back, head⟩), if_pos boundary]
      rfl
  | cons_cons c d rest ih second =>
    by_cases pair : c = '\r' ∧ d = '\n'
    · obtain ⟨rfl, rfl⟩ := pair
      have later : Complete rest := by
        cases rest with
        | nil => simp [Complete]
        | cons e rest => exact complete.tail.tail
      obtain ⟨tail, split, among⟩ := ih later [] (fun _ => rfl)
      refine ⟨tail, ?_, among⟩
      rw [List.cons_append, List.cons_append, splitLinesFrom_pair, splitLinesFrom_pair, split,
        List.cons_append]
    · have single : ∀ after : Line, c = '\r' → (d :: after).head? ≠ some '\n' := by
        intro after back head
        exact pair ⟨back, Option.some.inj head⟩
      rw [List.cons_append, List.cons_append, splitLinesFrom_cons current (single _),
        splitLinesFrom_cons current (single _)]
      by_cases boundary : isBoundary c = true
      · obtain ⟨tail, split, among⟩ := second d complete.tail [] (fun _ => rfl)
        refine ⟨tail, ?_, among⟩
        rw [if_pos boundary, if_pos boundary, List.cons_append, ← split, List.cons_append]
      · obtain ⟨tail, split, among⟩ := second d complete.tail (current ++ [c]) (by simp)
        refine ⟨tail, ?_, among⟩
        rw [if_neg boundary, if_neg boundary, ← split, List.cons_append]

theorem splitLines_append {content : Line} (complete : Complete content) (more : Line) :
    ∃ rest, splitLines (content ++ more) = splitLines content ++ rest ∧
      ∀ line ∈ rest, line ∈ splitLines more :=
  splitLinesFrom_append complete [] more (fun _ => rfl)

/-! ## The reports of one dump -/

section Reports

variable {F : Type} (runtime : Runtime F)

theorem lastDump_append {lines rest : List Line} (unclosed : ∀ line ∈ rest, ends line = false) :
    lastDump runtime (lines ++ rest) = lastDump runtime lines := by
  rw [lastDump, List.foldl_append, scan_unclosed runtime unclosed, lastDump]

/-- What is written behind the last line end changes nothing before a dump is closed in it. -/
theorem summarize_append {content more : Line} (complete : Complete content)
    (unclosed : Unclosed more) :
    summarize runtime (content ++ more) = summarize runtime content := by
  obtain ⟨rest, split, among⟩ := splitLines_append complete more
  have none : ∀ line ∈ rest, ends line = false := by
    intro line member
    have unmarked := unclosed line (among line member)
    rw [ends, decide_eq_false unmarked, Bool.and_false]
  rw [summarize, summarize, split, lastDump_append runtime none]

theorem summarize_universal (content : Line) :
    summarize runtime (Characters.universal content) = summarize runtime content := by
  rw [summarize, summarize, splitLines_universal]

def reports (body : List Line) : List (Line × F) := body.filterMap (reading runtime)

/-- An entry is a line whose second word is a number, and a finite one; its name is the first. -/
theorem mem_reports {body : List Line} {name : Line} {value : F} :
    (name, value) ∈ reports runtime body ↔ ∃ line ∈ body, ∃ written rest,
      words isSpace line = name :: written :: rest ∧ runtime.float written = some value ∧
      runtime.isFinite value = true := by
  rw [reports, List.mem_filterMap]
  refine exists_congr fun line => and_congr_right fun _ => ?_
  constructor
  · intro report
    unfold reading at report
    split at report
    · next name written rest split =>
      split at report
      · next number converted =>
        split_ifs at report with finite
        cases report
        exact ⟨written, rest, split, converted, finite⟩
      · cases report
    · cases report
  · rintro ⟨written, rest, split, converted, finite⟩
    simp only [reading, split, converted, finite, if_true]

theorem readings_eq (body : List Line) :
    readings runtime body =
      (reports runtime body).foldl (fun counters entry => assign counters entry.1 entry.2) [] := by
  have general : ∀ counters : Readings F, body.foldl (keep runtime) counters =
      (reports runtime body).foldl (fun counters entry => assign counters entry.1 entry.2)
        counters := by
    induction body with
    | nil => exact fun _ => rfl
    | cons line rest ih =>
      intro counters
      rw [List.foldl_cons, ih, reports, reports]
      cases report : reading runtime line with
      | none => rw [List.filterMap_cons_none report, keep, report]
      | some entry => rw [List.filterMap_cons_some report, List.foldl_cons, keep, report]
  exact general []

theorem lookup_assigned (entries : List (Line × F)) (name : Line) :
    (entries.foldl (fun counters entry => assign counters entry.1 entry.2) []).lookup name =
      entries.reverse.lookup name := by
  induction entries using List.reverseRecOn with
  | nil => rfl
  | append_singleton front entry ih =>
    obtain ⟨other, value⟩ := entry
    rw [List.foldl_append, List.foldl_cons, List.foldl_nil, lookup_assign, ih,
      List.reverse_append, List.reverse_singleton, List.singleton_append, lookup_cons]

theorem summarize_unfinished {content : Line} (unfinished : Unfinished (splitLines content)) :
    summarize runtime content =
      .error (.valueError (text "No complete gem5 statistics dump")) := by
  rw [summarize, lastDump_unfinished runtime unfinished]

theorem summarize_lastDump {content : Line} {body : List Line}
    (dump : LastDump (splitLines content) body) :
    summarize runtime content = summarizeDump runtime (readings runtime body) := by
  rw [summarize, lastDump_eq runtime dump]

/-- The counters that the summary of these lines is made of: the reports between the markers of
the last complete dump, the last one of each name. -/
structure OfLastDump (lines : List Line) (counters : Readings F) (body : List Line) : Prop where
  dump : LastDump lines body
  entries : ∀ name value, (name, value) ∈ reports runtime body ↔ ∃ line ∈ body, ∃ written rest,
    words isSpace line = name :: written :: rest ∧ runtime.float written = some value ∧
    runtime.isFinite value = true
  assigned : counters =
    (reports runtime body).foldl (fun counters entry => assign counters entry.1 entry.2) []
  latest : ∀ name, counters.lookup name = (reports runtime body).reverse.lookup name

theorem ofLastDump_readings {lines body : List Line} (dump : LastDump lines body) :
    OfLastDump runtime lines (readings runtime body) body where
  dump := dump
  entries _ _ := mem_reports runtime
  assigned := readings_eq runtime body
  latest name := by rw [readings_eq, lookup_assigned]

/-- A dump cut short leaves the summary as it was. The summary of any text is that of the reports
between the last marker that closes an open dump and the nearest one before it that opens a
dump. -/
theorem summary_of_last_closed_dump :
    (∀ content more, Complete content → Unclosed more →
      summarize runtime (content ++ more) = summarize runtime content) ∧
    ∀ content,
      (Unfinished (splitLines content) ∧
        summarize runtime content =
          .error (.valueError (text "No complete gem5 statistics dump"))) ∨
      ∃ body counters, OfLastDump runtime (splitLines content) counters body ∧
        summarize runtime content = summarizeDump runtime counters := by
  constructor
  · intro content more complete unclosed
    exact summarize_append runtime complete unclosed
  · intro content
    by_cases unfinished : Unfinished (splitLines content)
    · exact .inl ⟨unfinished, summarize_unfinished runtime unfinished⟩
    · right
      obtain ⟨body, dump⟩ := exists_lastDump unfinished
      exact ⟨body, readings runtime body, ofLastDump_readings runtime dump,
        summarize_lastDump runtime dump⟩

end Reports

def countedDump : Line :=
  text "---------- Begin Simulation Statistics ----------\n" ++
    text "simInsts 50 # (Count)\nboard.processor.switch.core.numCycles 100\n" ++
    text "---------- End Simulation Statistics   ----------\n"

def cutDump : Line :=
  text "---------- Begin Simulation Statistics ----------\nsimInsts 7"

theorem summary_of_cut_dump :
    Complete countedDump ∧ Unclosed cutDump ∧
      summarize exactRuntime (countedDump ++ cutDump) = summarize exactRuntime countedDump ∧
      ∃ body counters,
        OfLastDump exactRuntime (splitLines (countedDump ++ cutDump)) counters body ∧
        (summarizeDump exactRuntime counters).toOption.map Summary.ipc = some (some (1 / 2)) := by
  have complete : Complete countedDump := by
    intro c last
    have feed : countedDump.getLast? = some '\n' := by decide +kernel
    rw [← Option.some.inj (feed.symm.trans last)]
    decide
  have unclosed : Unclosed cutDump := by
    unfold Unclosed
    decide +kernel
  have value : (summarize exactRuntime countedDump).toOption.map Summary.ipc =
      some (some (1 / 2)) := by decide +kernel
  obtain ⟨same, whole⟩ := summary_of_last_closed_dump exactRuntime
  have kept := same _ _ complete unclosed
  refine ⟨complete, unclosed, kept, ?_⟩
  rw [← kept] at value
  rcases whole (countedDump ++ cutDump) with ⟨-, failed⟩ | ⟨body, counters, dump, summed⟩
  · rw [failed] at value
    cases value
  · exact ⟨body, counters, dump, summed ▸ value⟩

end Chimaera.Benchmark.Statistics
