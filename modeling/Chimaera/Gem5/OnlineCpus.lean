import Chimaera.Base.Characters
import Chimaera.Base.Regex

/-! The check of the booted guest before the measured region: the serial console must report
the requested number of online CPUs. The kernel writes to the same console, and its messages
can land in the middle of the boot script's report; the check takes them out first. -/

namespace Chimaera.Gem5
open Base.Text Base.Characters Base.Regex

def isDigit (classes : Classes) (c : Char) : Bool := (classes.digit c).isSome

def inLine (c : Char) : Bool := c != '\r' && c != '\n'

/-- `\[\s*\d+\.\d+\] [^\r\n]*(?:\r?\n|$)` -/
def kernelMessage (classes : Classes) : Pattern :=
  .seq (.char '[') <| .seq (.many classes.space) <| .seq (.plus (isDigit classes)) <|
  .seq (.char '.') <| .seq (.plus (isDigit classes)) <| .seq (.literal (text "] ")) <|
  .seq (.many inLine) <|
  .either (.seq (Pattern.char '\r').optional (.char '\n')) .textEnd

def mark : Line := text "CHIMAERA_ONLINE_CPUS="

/-- `^CHIMAERA_ONLINE_CPUS=(\d+)\r?$` -/
def onlineMarker (classes : Classes) : Pattern :=
  .seq .lineStart <| .seq (.literal mark) <| .seq (.group (.plus (isDigit classes))) <|
  .seq (Pattern.char '\r').optional .lineEnd

def judge (classes : Classes) (serial : Line) (requested : Nat) :
    Option Line → Except Line Line
  | none => .error (text "Guest online CPU count missing from " ++ serial)
  | some digits =>
    let online := classes.value digits
    if online ≠ requested then
      .error (text "Guest has " ++ decimal online ++ text " online CPUs; requested " ++
        decimal requested ++ text ". Check the SMP boot errors in " ++ serial)
    else .ok (text "[host] Verified " ++ decimal online ++ text " guest CPUs online")

/-- `verify_online_cpus` on the content of the serial file; `read_text` translates line ends. -/
def verifyOnlineCpus (classes : Classes) (serial content : Line) (requested : Nat) :
    Except Line Line :=
  let content := universal content
  let content := delete (kernelMessage classes) content
  let counts := findall (onlineMarker classes) content
  judge classes serial requested counts.getLast?

/-! ## What the console holds -/

def marked (classes : Classes) (line : Line) : Option Line :=
  if line = mark ++ line.drop mark.length ∧ line.drop mark.length ≠ [] ∧
      (line.drop mark.length).all (isDigit classes) = true then
    some (line.drop mark.length)
  else none

def reports (classes : Classes) (content : Line) : List Line :=
  (fileLines content).filterMap (marked classes)

structure Message (classes : Classes) where
  blanks : Line
  seconds : Line
  fraction : Line
  body : Line
  withReturn : Bool
  blanks_blank : ∀ c ∈ blanks, classes.space c = true ∧ inLine c = true
  seconds_nonempty : seconds ≠ []
  seconds_digits : ∀ c ∈ seconds, isDigit classes c = true
  fraction_nonempty : fraction ≠ []
  fraction_digits : ∀ c ∈ fraction, isDigit classes c = true
  body_inLine : ∀ c ∈ body, inLine c = true

namespace Message
variable {classes : Classes}

def stamp (message : Message classes) : Line :=
  message.blanks ++ (message.seconds ++ '.' :: (message.fraction ++ (text "] " ++ message.body)))

def ending (message : Message classes) : Line :=
  if message.withReturn then ['\r', '\n'] else ['\n']

def line (message : Message classes) : Line := '[' :: (message.stamp ++ message.ending)

end Message

/-- The second text is the first with kernel messages inserted at any places. -/
inductive Interrupted (classes : Classes) : Line → Line → Prop
  | done : Interrupted classes [] []
  | char (c : Char) {written console : Line} (later : Interrupted classes written console) :
    Interrupted classes (c :: written) (c :: console)
  | message (message : Message classes) {written console : Line}
    (later : Interrupted classes written console) :
    Interrupted classes written (message.line ++ console)

/-! ## Messages are deleted -/

section
variable {classes : Classes}

theorem inLine_iff {c : Char} : inLine c = true ↔ c ≠ '\r' ∧ c ≠ '\n' := by
  simp [inLine]

theorem isDigit_inLine {c : Char} (digit : isDigit classes c = true) : c ≠ '\r' ∧ c ≠ '\n' :=
  classes.digit_inLine digit

theorem isDigit_ascii {c : Char} (ascii : c.toNat < 128) :
    isDigit classes c = (asciiDigit c).isSome := by
  rw [isDigit, classes.digit_ascii c ascii]

theorem Message.stamp_inLine (message : Message classes) :
    ∀ c ∈ message.stamp, c ≠ '\r' ∧ c ≠ '\n' := by
  have close : ∀ c ∈ text "] ", inLine c = true := List.all_eq_true.mp rfl
  intro c member
  simp only [Message.stamp, List.mem_append, List.mem_cons] at member
  rcases member with blank | second | rfl | fraction | closing | body
  · exact inLine_iff.mp (message.blanks_blank c blank).2
  · exact isDigit_inLine (message.seconds_digits c second)
  · decide
  · exact isDigit_inLine (message.fraction_digits c fraction)
  · exact inLine_iff.mp (close c closing)
  · exact inLine_iff.mp (message.body_inLine c body)

/-- Either line end of a message is read as one line feed, and no return is left pending. -/
theorem translate_message (message : Message classes) (flag : Bool) (rest : Line) :
    translate flag (message.line ++ rest) =
      '[' :: (message.stamp ++ '\n' :: translate false rest) := by
  rw [Message.line, List.cons_append, translate_char (by decide), List.append_assoc,
    translate_word message.stamp_inLine, Message.ending]
  cases message.withReturn with
  | false => rw [if_neg Bool.false_ne_true, List.singleton_append, translate_lineFeed]
  | true =>
    rw [if_pos rfl, List.cons_append, List.singleton_append, translate_return, translate_pair]

/-- The pattern takes a message up to its line end: no part of it can stop earlier, since the
longest run of each class is followed by a character outside the class. -/
theorem first_message (message : Message classes) (before : Option Char) (rest : Line) :
    ∃ last, first (kernelMessage classes) ⟨before, '[' :: (message.stamp ++ '\n' :: rest)⟩ =
      some (none, ⟨last, rest⟩) := by
  have dot : isDigit classes '.' = false := by rw [isDigit_ascii (by decide)]; decide
  have bracket : isDigit classes ']' = false := by rw [isDigit_ascii (by decide)]; decide
  have stop : Stops classes.space
      (message.seconds ++ '.' :: (message.fraction ++ (text "] " ++
        (message.body ++ '\n' :: rest)))) := by
    intro c tail same
    obtain ⟨first, later, seconds⟩ := List.exists_cons_of_ne_nil message.seconds_nonempty
    have digit := message.seconds_digits first (seconds ▸ List.mem_cons_self)
    rw [seconds, List.cons_append] at same
    rw [← (List.cons.inj same).1]
    exact classes.apart first digit
  have ending : first (.either (.seq (Pattern.char '\r').optional (.char '\n')) .textEnd)
      ⟨passed (passed (passed (some '.') message.fraction) (text "] ")) message.body,
        '\n' :: rest⟩ = some (none, ⟨some '\n', rest⟩) := by
    apply first_either
    exact first_then (first_optional_skip (run_one_nil rfl)) (first_one rfl)
  refine ⟨some '\n', ?_⟩
  simp only [Message.stamp, List.append_assoc, List.cons_append]
  refine first_then (first_one rfl) ?_
  refine first_then (first_many message.blanks
    (fun c member => (message.blanks_blank c member).1) stop) ?_
  refine first_then (first_plus message.seconds_nonempty message.seconds_digits
    (stops_cons dot _)) ?_
  refine first_then (first_one rfl) ?_
  refine first_then (first_plus message.fraction_nonempty message.fraction_digits
    (stops_cons bracket _)) ?_
  refine first_then (first_literal _) ?_
  exact first_then (first_many message.body message.body_inLine (stops_cons rfl _)) ending

theorem delete_message (message : Message classes) (before : Option Char) (rest : Line) :
    ∃ last, deleteFrom (kernelMessage classes)
      ⟨before, '[' :: (message.stamp ++ '\n' :: rest)⟩ =
        deleteFrom (kernelMessage classes) ⟨last, rest⟩ := by
  obtain ⟨last, matched⟩ := first_message message before rest
  refine ⟨last, deleteFrom_found matched ?_⟩
  simp only [List.length_cons, List.length_append]
  omega

theorem delete_char {c : Char} (plain : c ≠ '[') (before : Option Char) (rest : Line) :
    deleteFrom (kernelMessage classes) ⟨before, c :: rest⟩ =
      c :: deleteFrom (kernelMessage classes) ⟨some c, rest⟩ := by
  apply deleteFrom_char
  apply first_none_of_run
  exact run_seq_nil (run_one_nil (beq_eq_false_iff_ne.mpr plain))

/-! ## The marker is found line by line -/

theorem marked_eq_some {line digits : Line} :
    marked classes line = some digits ↔
      line = mark ++ digits ∧ digits ≠ [] ∧ ∀ c ∈ digits, isDigit classes c = true := by
  rw [marked, ← List.all_eq_true]
  constructor
  · intro found
    split_ifs at found with fits
    rw [← Option.some.inj found]
    exact fits
  · rintro ⟨rfl, nonempty, all⟩
    rw [List.drop_left, if_pos ⟨rfl, nonempty, all⟩]

theorem mark_inLine : '\n' ∉ mark := by decide

theorem line_unique {line other tail rest : Line} (clear : '\n' ∉ line) (plain : '\n' ∉ other)
    (ends : Place.endsLine ⟨none, tail⟩ = true) (closes : Place.endsLine ⟨none, rest⟩ = true)
    (same : line ++ tail = other ++ rest) : line = other := by
  have stops : ∀ text : Line, Place.endsLine ⟨none, text⟩ = true → Stops (· != '\n') text := by
    rintro text ended c later rfl
    simpa [Place.endsLine] using ended
  have inside : ∀ word : Line, '\n' ∉ word → ∀ c ∈ word, (c != '\n') = true := by
    intro word absent c member
    exact bne_iff_ne.mpr fun lineFeed => absent (lineFeed ▸ member)
  rw [← (takeWhile_run (inside line clear) (stops tail ends)).1, same,
    (takeWhile_run (inside other plain) (stops rest closes)).1]

theorem first_marker {digits tail : Line} {before : Option Char} (nonempty : digits ≠ [])
    (all : ∀ c ∈ digits, isDigit classes c = true)
    (starts : Place.startsLine ⟨before, mark ++ (digits ++ tail)⟩ = true)
    (ends : Place.endsLine ⟨none, tail⟩ = true) :
    first (onlineMarker classes) ⟨before, mark ++ (digits ++ tail)⟩ =
      some (some digits, ⟨passed before (mark ++ digits), tail⟩) := by
  have clear : ∀ c, classes.space c = true → isDigit classes c = false := by
    intro c blank
    rw [isDigit, classes.digit_none blank]
    rfl
  have stop : Stops (isDigit classes) tail := by
    rintro c later rfl
    have lineFeed : c = '\n' := by simpa [Place.endsLine] using ends
    rw [lineFeed]
    exact clear '\n' classes.space_lineFeed
  have closing : first (.seq (Pattern.char '\r').optional .lineEnd)
      ⟨passed before (mark ++ digits), tail⟩ =
        some (none, ⟨passed before (mark ++ digits), tail⟩) := by
    refine first_then (first_optional_skip ?_) (first_lineEnd ends)
    cases tail with
    | nil => rfl
    | cons c later =>
      have lineFeed : c = '\n' := by simpa [Place.endsLine] using ends
      rw [lineFeed]
      exact run_one_nil rfl
  refine first_then (first_lineStart starts) ?_
  refine first_then (first_literal mark) ?_
  rw [passed_append] at closing ⊢
  exact first_seq (first_group digits (first_plus nonempty all stop)) closing

theorem run_marker_nil {line tail : Line} {before : Option Char} (clear : '\n' ∉ line)
    (plain : '\r' ∉ line) (ends : Place.endsLine ⟨none, tail⟩ = true)
    (unmarked : marked classes line = none) :
    run (onlineMarker classes) ⟨before, line ++ tail⟩ = [] := by
  rw [List.eq_nil_iff_forall_not_mem]
  intro found member
  obtain ⟨start, started, afterStart, member, -⟩ := mem_run_seq member
  obtain ⟨word, matched, afterWord, member, -⟩ := mem_run_seq member
  obtain ⟨group, grouped, afterGroup, member, -⟩ := mem_run_seq member
  obtain ⟨skip, skipped, closed, ended, -⟩ := mem_run_seq member
  obtain ⟨inner, ran, same⟩ := mem_run_group grouped
  obtain ⟨digits, nonempty, all, digitsRead⟩ := mem_run_plus ran
  have markRead := mem_run_literal matched
  rw [mem_run_lineStart started, digitsRead, ← same] at markRead
  have closes := (mem_run_lineEnd ended).1
  have digitsClear : '\n' ∉ mark ++ digits := by
    rw [List.mem_append]
    exact not_or.mpr ⟨mark_inLine, fun inside => (isDigit_inLine (all _ inside)).2 rfl⟩
  rcases mem_run_optional skipped with returned | unmoved
  · -- A return would stand in the line.
    rw [returned, ← List.append_assoc, List.append_cons] at markRead
    have whole : line = mark ++ digits ++ ['\r'] := by
      refine line_unique clear ?_ ends closes ?_
      · rw [List.mem_append, List.mem_singleton]
        exact not_or.mpr ⟨digitsClear, by decide⟩
      · exact markRead
    rw [whole] at plain
    exact plain (List.mem_append_right _ List.mem_cons_self)
  · rw [unmoved] at closes
    rw [← List.append_assoc] at markRead
    have whole : line = mark ++ digits := line_unique clear digitsClear ends closes markRead
    rw [marked_eq_some.mpr ⟨whole, nonempty, all⟩] at unmarked
    cases unmarked

theorem groups_inside {before : Char} {word : Line} (inside : before ≠ '\n')
    (clear : '\n' ∉ word) (rest : Line) :
    groupsFrom (onlineMarker classes) ⟨some before, word ++ rest⟩ =
      groupsFrom (onlineMarker classes) ⟨passed (some before) word, rest⟩ := by
  induction word generalizing before with
  | nil => rfl
  | cons c word ih =>
    obtain ⟨first, later⟩ := List.ne_and_not_mem_of_not_mem_cons clear
    have middle : Place.startsLine ⟨some before, c :: (word ++ rest)⟩ = false := by
      simp [Place.startsLine, inside]
    have refused : run (onlineMarker classes) ⟨some before, c :: (word ++ rest)⟩ = [] :=
      run_seq_nil (run_lineStart_nil middle)
    rw [List.cons_append, groupsFrom_char (first_none_of_run refused), ih (Ne.symm first) later]
    rfl

theorem groups_line {line tail : Line} {before : Option Char} (clear : '\n' ∉ line)
    (plain : '\r' ∉ line) (starts : Place.startsLine ⟨before, line ++ tail⟩ = true)
    (ends : Place.endsLine ⟨none, tail⟩ = true) :
    groupsFrom (onlineMarker classes) ⟨before, line ++ tail⟩ =
      (marked classes line).toList ++
        groupsFrom (onlineMarker classes) ⟨passed before line, tail⟩ := by
  cases found : marked classes line with
  | none =>
    cases line with
    | nil => rfl
    | cons c line =>
      have refused : run (onlineMarker classes) ⟨before, c :: (line ++ tail)⟩ = [] :=
        run_marker_nil clear plain ends found
      rw [List.cons_append, groupsFrom_char (first_none_of_run refused),
        groups_inside (Ne.symm (List.ne_and_not_mem_of_not_mem_cons clear).1)
          (List.ne_and_not_mem_of_not_mem_cons clear).2]
      rfl
  | some digits =>
    obtain ⟨rfl, nonempty, all⟩ := marked_eq_some.mp found
    rw [List.append_assoc] at starts ⊢
    rw [groupsFrom_found (first_marker nonempty all starts ends)]
    · rfl
    · have positive := List.length_pos_iff.mpr nonempty
      simp only [List.length_append]
      omega

theorem groups_lineFeed (before : Option Char) (rest : Line) :
    groupsFrom (onlineMarker classes) ⟨before, '\n' :: rest⟩ =
      groupsFrom (onlineMarker classes) ⟨some '\n', rest⟩ := by
  have refused : run (onlineMarker classes) ⟨before, [] ++ '\n' :: rest⟩ = [] :=
    run_marker_nil List.not_mem_nil List.not_mem_nil rfl rfl
  exact groupsFrom_char (first_none_of_run refused)

theorem filterMap_marked_cons (line : Line) (lines : List Line) :
    (line :: lines).filterMap (marked classes) =
      (marked classes line).toList ++ lines.filterMap (marked classes) := by
  rw [List.filterMap_cons]
  cases marked classes line <;> rfl

/-- `findall` reads a text without returns line by line. -/
theorem findall_lines {content : Line} (plain : '\r' ∉ content) :
    findall (onlineMarker classes) content =
      (linesFrom [] content).filterMap (marked classes) := by
  suffices started : ∀ before, Place.startsLine ⟨before, content⟩ = true →
      groupsFrom (onlineMarker classes) ⟨before, content⟩ =
        (linesFrom [] content).filterMap (marked classes) from started none rfl
  induction content using lines_induction with
  | last line clear =>
    intro before starts
    rw [← List.append_nil line] at starts ⊢
    rw [groups_line clear plain starts rfl, List.append_nil, linesFrom_last clear,
      filterMap_marked_cons]
    rfl
  | line line rest clear ih =>
    intro before starts
    rw [List.mem_append, List.mem_cons] at plain
    obtain ⟨lineOk, restOk⟩ := not_or.mp plain
    have later := ih (not_or.mp restOk).2 (some '\n') rfl
    rw [groups_line clear lineOk starts rfl, groups_lineFeed, later, linesFrom_line clear,
      filterMap_marked_cons]

/-! ## The verdict -/

/-- Deleting the messages from the translated console leaves the lines of what was written, up
to empty lines: a message between a return and its line feed makes two line ends of one.
`flag` and `seen` are the pending returns of the two texts, and `line` is the line begun in
both; after a return it is empty. -/
theorem interrupted_lines {written console : Line}
    (interrupted : Interrupted classes written console)
    (plain : '[' ∉ written) (line : Line) (flag seen : Bool) (before : Option Char)
    (begun : flag = true → line = []) (pending : seen = flag ∨ seen = false) :
    (linesFrom line (deleteFrom (kernelMessage classes)
        ⟨before, translate seen console⟩)).filterMap (marked classes) =
      (linesFrom line (translate flag written)).filterMap (marked classes) := by
  induction interrupted generalizing line flag seen before with
  | done => rfl
  | message message later ih =>
    rw [translate_message]
    obtain ⟨last, deleted⟩ := delete_message message before (translate false _)
    rw [deleted]
    exact ih plain line flag false last begun (Or.inr rfl)
  | @char c written console later ih =>
    obtain ⟨unmarked, rest⟩ := List.ne_and_not_mem_of_not_mem_cons plain
    by_cases isReturn : c = '\r'
    · rw [isReturn, translate_return, translate_return, delete_char (by decide),
        linesFrom_lineFeed, linesFrom_lineFeed, filterMap_marked_cons, filterMap_marked_cons,
        ih rest [] true true _ (fun _ => rfl) (Or.inl rfl)]
    · by_cases lineFeed : c = '\n'
      · rw [lineFeed]
        have step : ∀ line : Line, (linesFrom line (deleteFrom (kernelMessage classes)
            ⟨before, translate false ('\n' :: console)⟩)).filterMap (marked classes) =
            (line :: linesFrom [] (translate false written)).filterMap (marked classes) := by
          intro line
          rw [translate_lineFeed, delete_char (by decide), linesFrom_lineFeed,
            filterMap_marked_cons, filterMap_marked_cons,
            ih rest [] false false _ (fun _ => rfl) (Or.inl rfl)]
        cases flag with
        | false =>
          obtain rfl : seen = false := pending.elim id id
          rw [step line, translate_lineFeed, linesFrom_lineFeed]
        | true =>
          rw [begun rfl, translate_pair]
          cases seen with
          | true =>
            rw [translate_pair]
            exact ih rest [] false false _ (fun _ => rfl) (Or.inl rfl)
          | false => exact step []
      · rw [translate_char ⟨isReturn, lineFeed⟩, translate_char ⟨isReturn, lineFeed⟩,
          delete_char (Ne.symm unmarked), linesFrom_char lineFeed, linesFrom_char lineFeed]
        exact ih rest (line ++ [c]) false false _ (fun absurd => by cases absurd) (Or.inl rfl)

theorem verify_interrupted (serial : Line) {written console : Line} (requested : Nat)
    (interrupted : Interrupted classes written console) (plain : '[' ∉ written) :
    verifyOnlineCpus classes serial console requested =
      judge classes serial requested (reports classes written).getLast? := by
  have clean : '\r' ∉ delete (kernelMessage classes) (universal console) := fun member =>
    return_not_mem_translate false console (mem_of_mem_delete member)
  have lines := interrupted_lines interrupted plain [] false false none (fun _ => rfl) (Or.inl rfl)
  have counts : findall (onlineMarker classes) (delete (kernelMessage classes)
      (universal console)) = reports classes written := by
    rw [findall_lines clean]
    exact lines
  rw [verifyOnlineCpus, counts]

theorem interrupted_refl (classes : Classes) (written : Line) :
    Interrupted classes written written := by
  induction written with
  | nil => exact .done
  | cons c written ih => exact .char c ih

theorem judge_ok (serial : Line) (requested : Nat) (digits : Line) :
    (∃ report, judge classes serial requested (some digits) = .ok report) ↔
      classes.value digits = requested := by
  simp only [judge]
  by_cases same : classes.value digits = requested
  · rw [if_neg (not_not.mpr same)]
    exact ⟨fun _ => same, fun _ => ⟨_, rfl⟩⟩
  · rw [if_pos same]
    constructor
    · rintro ⟨report, accepted⟩
      cases accepted
    · intro equal
      exact absurd equal same

/-- Messages of the kernel, wherever they interrupt the console, do not change the outcome of the
check. -/
theorem online_check_ignores_messages (classes : Classes) (serial written console : Line)
    (requested : Nat) (digits : Line) (plain : '[' ∉ written)
    (last : (reports classes written).getLast? = some digits)
    (interrupted : Interrupted classes written console) :
    verifyOnlineCpus classes serial console requested =
        verifyOnlineCpus classes serial written requested ∧
      ((∃ report, verifyOnlineCpus classes serial console requested = .ok report) ↔
        classes.value digits = requested) := by
  have quiet := verify_interrupted serial requested
    (interrupted_refl classes written) plain
  have noisy := verify_interrupted serial requested interrupted plain
  refine ⟨noisy.trans quiet.symm, ?_⟩
  rw [noisy, last]
  exact judge_ok serial requested digits

end

def smpboot : Message ascii where
  blanks := text "    "
  seconds := text "0"
  fraction := text "25"
  body := text "smpboot: [1]"
  withReturn := true
  blanks_blank c member :=
    have both := List.all_eq_true.mp (rfl : (text "    ").all fun c =>
      asciiSpace c && inLine c) c member
    (Bool.and_eq_true _ _).mp both
  seconds_nonempty := List.cons_ne_nil _ _
  seconds_digits := List.all_eq_true.mp rfl
  fraction_nonempty := List.cons_ne_nil _ _
  fraction_digits := List.all_eq_true.mp rfl
  body_inLine := List.all_eq_true.mp rfl

/-- A report of sixteen CPUs, with two messages between its digits and one between the return and
the line feed. -/
theorem sixteen_interrupted :
    verifyOnlineCpus ascii (text "board")
        (mark ++ '1' :: (smpboot.line ++ (smpboot.line ++ '6' :: '\r' :: (smpboot.line ++ ['\n']))))
        16 =
      verifyOnlineCpus ascii (text "board") (mark ++ text "16\r\n") 16 ∧
    ∃ report, verifyOnlineCpus ascii (text "board")
        (mark ++ '1' :: (smpboot.line ++ (smpboot.line ++ '6' :: '\r' :: (smpboot.line ++ ['\n']))))
        16 = .ok report := by
  have interrupted : ∀ word : Line, Interrupted ascii (word ++ text "16\r\n")
      (word ++ '1' :: (smpboot.line ++ (smpboot.line ++ '6' :: '\r' :: (smpboot.line ++ ['\n'])))) := by
    intro word
    induction word with
    | nil =>
      exact .char '1' (.message smpboot (.message smpboot (.char '6' (.char '\r'
        (.message smpboot (.char '\n' .done))))))
    | cons c word ih => exact .char c ih
  have checked := online_check_ignores_messages ascii (text "board") (mark ++ text "16\r\n") _ 16
    (text "16") (by decide +kernel) rfl (interrupted mark)
  exact ⟨checked.1, checked.2.mpr rfl⟩

end Chimaera.Gem5
