import Chimaera.Base.Text

/-! Regular expressions under the priorities of a backtracking matcher. A pattern lists its
matches at a place in the order in which the matcher tries them, and the first one counts.
A text is scanned from left to right for matches that do not overlap. -/

namespace Chimaera.Base.Regex
open Text

/-- A place in a text: the character before it and the text after it. -/
structure Place where
  before : Option Char
  rest : Line
deriving DecidableEq

/-- `many` is the greedy repetition of one class. `lineStart` and `lineEnd` are `^` and `$` of
the multi-line mode, and `textEnd` is `$` outside it. -/
inductive Pattern
  | nothing
  | one (accepts : Char → Bool)
  | many (accepts : Char → Bool)
  | seq (first second : Pattern)
  | either (first second : Pattern)
  | group (inner : Pattern)
  | lineStart
  | lineEnd
  | textEnd

abbrev Match := Option Line × Place

def greedy (accepts : Char → Bool) : Option Char → Line → List Place
  | before, [] => [⟨before, []⟩]
  | before, c :: rest =>
    if accepts c then greedy accepts (some c) rest ++ [⟨before, c :: rest⟩]
    else [⟨before, c :: rest⟩]

def Place.startsLine (place : Place) : Bool :=
  place.before = none || place.before = some '\n'

def Place.endsLine (place : Place) : Bool :=
  place.rest.head? = none || place.rest.head? = some '\n'

def run : Pattern → Place → List Match
  | .nothing, place => [(none, place)]
  | .one accepts, place =>
    match place.rest with
    | [] => []
    | c :: rest => if accepts c then [(none, ⟨some c, rest⟩)] else []
  | .many accepts, place => (greedy accepts place.before place.rest).map fun next => (none, next)
  | .seq first second, place =>
    (run first place).flatMap fun found =>
      (run second found.2).map fun later => (later.1.or found.1, later.2)
  | .either first second, place => run first place ++ run second place
  | .group inner, place =>
    (run inner place).map fun found =>
      (some (place.rest.take (place.rest.length - found.2.rest.length)), found.2)
  | .lineStart, place => if place.startsLine then [(none, place)] else []
  | .lineEnd, place => if place.endsLine then [(none, place)] else []
  -- The end of the text is also before its last line feed.
  | .textEnd, place => if place.rest = [] ∨ place.rest = ['\n'] then [(none, place)] else []

def first (pattern : Pattern) (place : Place) : Option Match := (run pattern place).head?

def Pattern.sequence : List Pattern → Pattern
  | [] => .nothing
  | pattern :: later => .seq pattern (sequence later)

def Pattern.char (c : Char) : Pattern := .one (· == c)

def Pattern.literal (word : Line) : Pattern := Pattern.sequence (word.map Pattern.char)

def Pattern.plus (accepts : Char → Bool) : Pattern := .seq (.one accepts) (.many accepts)

def Pattern.optional (pattern : Pattern) : Pattern := .either pattern .nothing

/-! ## Matches at one place -/

def passed : Option Char → Line → Option Char
  | before, [] => before
  | _, c :: rest => passed (some c) rest

theorem passed_append (before : Option Char) (word later : Line) :
    passed before (word ++ later) = passed (passed before word) later := by
  induction word generalizing before with
  | nil => rfl
  | cons c word ih => exact ih (some c)

section
variable {pattern later : Pattern} {place next : Place} {before : Option Char} {rest : Line}
  {accepts : Char → Bool} {found : Match}

theorem run_nothing : run .nothing place = [(none, place)] := rfl

theorem run_one {c : Char} :
    run (.one accepts) ⟨before, c :: rest⟩ = if accepts c then [(none, ⟨some c, rest⟩)] else [] := rfl

theorem run_many : run (.many accepts) place =
    (greedy accepts place.before place.rest).map fun next => (none, next) := rfl

theorem run_seq : run (.seq pattern later) place =
    (run pattern place).flatMap fun found =>
      (run later found.2).map fun late => (late.1.or found.1, late.2) := rfl

theorem run_either : run (.either pattern later) place = run pattern place ++ run later place := rfl

theorem run_group : run (.group pattern) place =
    (run pattern place).map fun found =>
      (some (place.rest.take (place.rest.length - found.2.rest.length)), found.2) := rfl

theorem run_lineStart :
    run .lineStart place = if place.startsLine then [(none, place)] else [] := rfl

theorem run_lineEnd : run .lineEnd place = if place.endsLine then [(none, place)] else [] := rfl

theorem run_textEnd : run .textEnd place =
    if place.rest = [] ∨ place.rest = ['\n'] then [(none, place)] else [] := rfl

theorem first_seq {group : Option Line} (here : first pattern place = some (group, next))
    (there : first later next = some found) :
    first (.seq pattern later) place = some (found.1.or group, found.2) := by
  unfold first at here there ⊢
  rw [List.head?_eq_some_iff] at here there
  obtain ⟨others, ran⟩ := here
  obtain ⟨more, continued⟩ := there
  rw [run_seq, ran, List.flatMap_cons, continued]
  rfl

theorem first_then (here : first pattern place = some (none, next))
    (there : first later next = some found) : first (.seq pattern later) place = some found := by
  rw [first_seq here there, Option.or_none]

theorem first_none_of_run (refused : run pattern place = []) : first pattern place = none := by
  rw [first, refused]
  rfl

theorem run_seq_nil (refused : run pattern place = []) :
    run (.seq pattern later) place = [] := by
  rw [run_seq, refused]
  rfl

theorem mem_run_seq (member : found ∈ run (.seq pattern later) place) :
    ∃ early ∈ run pattern place, ∃ late ∈ run later early.2, found.2 = late.2 := by
  rw [run_seq, List.mem_flatMap] at member
  obtain ⟨early, ran, continued⟩ := member
  obtain ⟨late, matched, rfl⟩ := List.mem_map.mp continued
  exact ⟨early, ran, late, matched, rfl⟩

theorem first_one {c : Char} (accepted : accepts c = true) :
    first (.one accepts) ⟨before, c :: rest⟩ = some (none, ⟨some c, rest⟩) := by
  simp [first, run_one, accepted]

theorem run_one_nil {c : Char} (refused : accepts c = false) :
    run (.one accepts) ⟨before, c :: rest⟩ = [] := by
  simp [run_one, refused]

theorem mem_run_one (member : found ∈ run (.one accepts) place) :
    ∃ c, accepts c = true ∧ place.rest = c :: found.2.rest := by
  obtain ⟨before, rest⟩ := place
  cases rest with
  | nil => cases member
  | cons c rest =>
    rw [run_one] at member
    split_ifs at member with accepted
    · rw [List.mem_singleton] at member
      exact ⟨c, accepted, by rw [member]⟩
    · cases member

theorem greedy_head (word : Line) (all : ∀ c ∈ word, accepts c = true)
    (stop : Stops accepts rest) (before : Option Char) :
    (greedy accepts before (word ++ rest)).head? = some ⟨passed before word, rest⟩ := by
  induction word generalizing before with
  | nil =>
    cases rest with
    | nil => rfl
    | cons c rest => simp [greedy, stop c rest rfl, passed]
  | cons c word ih =>
    have longest := ih (fun d member => all d (List.mem_cons_of_mem c member)) (some c)
    rw [List.cons_append, greedy, if_pos (all c List.mem_cons_self), List.head?_append, longest]
    rfl

theorem mem_greedy {text : Line} (member : next ∈ greedy accepts before text) :
    ∃ word : Line, (∀ c ∈ word, accepts c = true) ∧ text = word ++ next.rest := by
  induction text generalizing before with
  | nil =>
    rw [greedy, List.mem_singleton] at member
    exact ⟨[], fun c inside => absurd inside List.not_mem_nil, by rw [member]; rfl⟩
  | cons c text ih =>
    rw [greedy] at member
    split_ifs at member with accepted
    · rcases List.mem_append.mp member with longer | here
      · obtain ⟨word, all, rfl⟩ := ih longer
        exact ⟨c :: word, List.forall_mem_cons.mpr ⟨accepted, all⟩, rfl⟩
      · rw [List.mem_singleton] at here
        exact ⟨[], fun d inside => absurd inside List.not_mem_nil, by rw [here]; rfl⟩
    · rw [List.mem_singleton] at member
      exact ⟨[], fun d inside => absurd inside List.not_mem_nil, by rw [member]; rfl⟩

theorem first_many (word : Line) (all : ∀ c ∈ word, accepts c = true) (stop : Stops accepts rest) :
    first (.many accepts) ⟨before, word ++ rest⟩ = some (none, ⟨passed before word, rest⟩) := by
  rw [first, run_many, List.head?_map, greedy_head word all stop]
  rfl

theorem first_plus {word : Line} (nonempty : word ≠ []) (all : ∀ c ∈ word, accepts c = true)
    (stop : Stops accepts rest) :
    first (Pattern.plus accepts) ⟨before, word ++ rest⟩ =
      some (none, ⟨passed before word, rest⟩) := by
  cases word with
  | nil => exact absurd rfl nonempty
  | cons c word =>
    have later : ∀ d ∈ word, accepts d = true := fun d member =>
      all d (List.mem_cons_of_mem c member)
    exact first_then (first_one (all c List.mem_cons_self)) (first_many word later stop)

theorem mem_run_plus (member : found ∈ run (Pattern.plus accepts) place) :
    ∃ word : Line, word ≠ [] ∧ (∀ c ∈ word, accepts c = true) ∧
      place.rest = word ++ found.2.rest := by
  obtain ⟨early, ran, late, matched, same⟩ := mem_run_seq member
  obtain ⟨c, accepted, here⟩ := mem_run_one ran
  rw [run_many] at matched
  obtain ⟨next, more, rfl⟩ := List.mem_map.mp matched
  obtain ⟨word, all, there⟩ := mem_greedy more
  exact ⟨c :: word, List.cons_ne_nil c word, List.forall_mem_cons.mpr ⟨accepted, all⟩, by
    rw [here, there, same, List.cons_append]⟩

theorem first_literal (word : Line) :
    first (Pattern.literal word) ⟨before, word ++ rest⟩ =
      some (none, ⟨passed before word, rest⟩) := by
  induction word generalizing before with
  | nil => rfl
  | cons c word ih => exact first_then (first_one (beq_self_eq_true c)) ih

theorem mem_run_literal {word : Line} (member : found ∈ run (Pattern.literal word) place) :
    place.rest = word ++ found.2.rest := by
  induction word generalizing place found with
  | nil =>
    rw [Pattern.literal, List.map_nil, Pattern.sequence, run_nothing, List.mem_singleton] at member
    rw [member, List.nil_append]
  | cons c word ih =>
    obtain ⟨early, ran, late, matched, same⟩ := mem_run_seq member
    obtain ⟨d, equal, here⟩ := mem_run_one ran
    have there := ih matched
    rw [here, there, same, beq_iff_eq.mp equal, List.cons_append]

theorem first_group (word : Line) {last : Option Char}
    (inner : first pattern ⟨before, word ++ rest⟩ = some (none, ⟨last, rest⟩)) :
    first (.group pattern) ⟨before, word ++ rest⟩ = some (some word, ⟨last, rest⟩) := by
  unfold first at inner ⊢
  rw [run_group, List.head?_map, inner]
  simp

theorem mem_run_group (member : found ∈ run (.group pattern) place) :
    ∃ inner ∈ run pattern place, found.2 = inner.2 := by
  rw [run_group] at member
  obtain ⟨inner, ran, rfl⟩ := List.mem_map.mp member
  exact ⟨inner, ran, rfl⟩

theorem first_either (here : first pattern place = some found) :
    first (.either pattern later) place = some found := by
  unfold first at here ⊢
  rw [run_either, List.head?_append, here]
  rfl

theorem first_optional_skip (refused : run pattern place = []) :
    first pattern.optional place = some (none, place) := by
  rw [first, Pattern.optional, run_either, refused, List.nil_append]
  rfl

theorem mem_run_optional {c : Char} (member : found ∈ run (Pattern.char c).optional place) :
    place.rest = c :: found.2.rest ∨ found.2 = place := by
  rw [Pattern.optional, run_either] at member
  rcases List.mem_append.mp member with taken | skipped
  · obtain ⟨d, equal, here⟩ := mem_run_one taken
    exact Or.inl (by rw [here, beq_iff_eq.mp equal])
  · rw [run_nothing, List.mem_singleton] at skipped
    exact Or.inr (by rw [skipped])

theorem first_lineStart (starts : place.startsLine = true) :
    first .lineStart place = some (none, place) := by
  simp [first, run_lineStart, starts]

theorem run_lineStart_nil (inside : place.startsLine = false) : run .lineStart place = [] := by
  simp [run_lineStart, inside]

theorem mem_run_lineStart (member : found ∈ run .lineStart place) : found.2 = place := by
  rw [run_lineStart] at member
  split_ifs at member
  · rw [List.mem_singleton] at member
    rw [member]
  · cases member

theorem first_lineEnd (ends : place.endsLine = true) :
    first .lineEnd place = some (none, place) := by
  simp [first, run_lineEnd, ends]

theorem mem_run_lineEnd (member : found ∈ run .lineEnd place) :
    place.endsLine = true ∧ found.2 = place := by
  rw [run_lineEnd] at member
  split_ifs at member with ends
  · rw [List.mem_singleton] at member
    exact ⟨ends, by rw [member]⟩
  · cases member

theorem suffix_of_mem_run (member : found ∈ run pattern place) :
    found.2.rest <:+ place.rest := by
  induction pattern generalizing place found with
  | nothing =>
    rw [run_nothing, List.mem_singleton] at member
    exact member ▸ List.suffix_refl _
  | one accepts =>
    obtain ⟨c, accepted, taken⟩ := mem_run_one member
    rw [taken]
    exact List.suffix_cons c _
  | many accepts =>
    rw [run_many] at member
    obtain ⟨next, reached, rfl⟩ := List.mem_map.mp member
    obtain ⟨word, all, taken⟩ := mem_greedy reached
    rw [taken]
    exact List.suffix_append word next.rest
  | seq early late earlier later =>
    obtain ⟨middle, ran, last, matched, same⟩ := mem_run_seq member
    rw [same]
    exact (later matched).trans (earlier ran)
  | either left right leftEnds rightEnds =>
    rw [run_either] at member
    exact (List.mem_append.mp member).elim leftEnds rightEnds
  | group inner ends =>
    obtain ⟨found, ran, same⟩ := mem_run_group member
    rw [same]
    exact ends ran
  | lineStart => exact mem_run_lineStart member ▸ List.suffix_refl _
  | lineEnd => exact (mem_run_lineEnd member).2 ▸ List.suffix_refl _
  | textEnd =>
    rw [run_textEnd] at member
    split_ifs at member
    · rw [List.mem_singleton] at member
      exact member ▸ List.suffix_refl _
    · cases member

end

/-! ## Scanning a text -/

inductive Token
  | char (c : Char)
  | found (group : Option Line)

/-- The matches of a text from left to right, and the characters between them. A match that
takes nothing is passed by: the patterns scanned for here take at least one character. -/
def scan (pattern : Pattern) : Nat → Place → List Token
  | 0, _ => []
  | fuel + 1, place =>
    match place.rest with
    | [] => []
    | c :: rest =>
      match first pattern place with
      | some (group, next) =>
        if next.rest.length ≤ rest.length then .found group :: scan pattern fuel next
        else .char c :: scan pattern fuel ⟨some c, rest⟩
      | none => .char c :: scan pattern fuel ⟨some c, rest⟩

def tokens (pattern : Pattern) (place : Place) : List Token :=
  scan pattern place.rest.length place

def deleteFrom (pattern : Pattern) (place : Place) : Line :=
  (tokens pattern place).filterMap fun
    | .char c => some c
    | .found _ => none

/-- What `findall` collects after a place: the group of each match. -/
def groupsFrom (pattern : Pattern) (place : Place) : List Line :=
  (tokens pattern place).filterMap fun
    | .char _ => none
    | .found group => some (group.getD [])

def delete (pattern : Pattern) (content : Line) : Line := deleteFrom pattern ⟨none, content⟩

def findall (pattern : Pattern) (content : Line) : List Line := groupsFrom pattern ⟨none, content⟩

section
variable {pattern : Pattern} {before : Option Char} {c : Char} {rest : Line}

theorem scan_enough (pattern : Pattern) (fuel : Nat) (place : Place)
    (enough : place.rest.length ≤ fuel) : scan pattern fuel place = tokens pattern place := by
  -- Two fuels that both reach to the end of the text agree.
  suffices agree : ∀ (first second : Nat) (place : Place), place.rest.length ≤ first →
      place.rest.length ≤ second → scan pattern first place = scan pattern second place from
    agree fuel _ place enough le_rfl
  intro first
  induction first with
  | zero =>
    intro second place short _
    obtain ⟨before, rest⟩ := place
    obtain rfl : rest = [] := List.length_eq_zero_iff.mp (Nat.le_zero.mp short)
    cases second <;> rfl
  | succ first ih =>
    intro second place reached covered
    obtain ⟨before, rest⟩ := place
    cases rest with
    | nil => cases second <;> rfl
    | cons c rest =>
      cases second with
      | zero => cases covered
      | succ second =>
        have short : rest.length ≤ first := Nat.le_of_succ_le_succ reached
        have brief : rest.length ≤ second := Nat.le_of_succ_le_succ covered
        simp only [scan]
        cases Regex.first pattern ⟨before, c :: rest⟩ with
        | none => exact congrArg _ (ih second ⟨some c, rest⟩ short brief)
        | some found =>
          simp only
          split_ifs with advances
          · exact congrArg _ (ih second found.2 (advances.trans short) (advances.trans brief))
          · exact congrArg _ (ih second ⟨some c, rest⟩ short brief)

theorem tokens_char (refused : first pattern ⟨before, c :: rest⟩ = none) :
    tokens pattern ⟨before, c :: rest⟩ = .char c :: tokens pattern ⟨some c, rest⟩ := by
  rw [tokens, List.length_cons, scan, refused]
  rfl

theorem tokens_found {text : Line} {group : Option Line} {next : Place}
    (matched : first pattern ⟨before, text⟩ = some (group, next))
    (advances : next.rest.length < text.length) :
    tokens pattern ⟨before, text⟩ = .found group :: tokens pattern next := by
  cases text with
  | nil => cases advances
  | cons c text =>
    have shorter : next.rest.length ≤ text.length := Nat.le_of_lt_succ advances
    rw [tokens, List.length_cons, scan, matched]
    simp only [if_pos shorter]
    rw [scan_enough pattern _ next shorter]

theorem deleteFrom_char (refused : first pattern ⟨before, c :: rest⟩ = none) :
    deleteFrom pattern ⟨before, c :: rest⟩ = c :: deleteFrom pattern ⟨some c, rest⟩ := by
  rw [deleteFrom, tokens_char refused]
  rfl

theorem deleteFrom_found {text : Line} {group : Option Line} {next : Place}
    (matched : first pattern ⟨before, text⟩ = some (group, next))
    (advances : next.rest.length < text.length) :
    deleteFrom pattern ⟨before, text⟩ = deleteFrom pattern next := by
  rw [deleteFrom, tokens_found matched advances]
  rfl

theorem groupsFrom_char (refused : first pattern ⟨before, c :: rest⟩ = none) :
    groupsFrom pattern ⟨before, c :: rest⟩ = groupsFrom pattern ⟨some c, rest⟩ := by
  rw [groupsFrom, tokens_char refused]
  rfl

theorem groupsFrom_found {text group : Line} {next : Place}
    (matched : first pattern ⟨before, text⟩ = some (some group, next))
    (advances : next.rest.length < text.length) :
    groupsFrom pattern ⟨before, text⟩ = group :: groupsFrom pattern next := by
  rw [groupsFrom, tokens_found matched advances]
  rfl

theorem mem_of_char_mem_scan {fuel : Nat} {place : Place}
    (member : .char c ∈ scan pattern fuel place) : c ∈ place.rest := by
  induction fuel generalizing place with
  | zero => cases member
  | succ fuel ih =>
    obtain ⟨before, rest⟩ := place
    cases rest with
    | nil => cases member
    | cons d rest =>
      simp only [scan] at member
      cases matched : first pattern ⟨before, d :: rest⟩ with
      | none =>
        rw [matched] at member
        rcases List.mem_cons.mp member with here | later
        · exact Token.char.inj here ▸ List.mem_cons_self
        · exact List.mem_cons_of_mem d (ih later)
      | some found =>
        rw [matched] at member
        simp only at member
        split_ifs at member
        · rcases List.mem_cons.mp member with here | later
          · cases here
          · have ran : found ∈ run pattern ⟨before, d :: rest⟩ := List.mem_of_mem_head? matched
            exact (suffix_of_mem_run ran).subset (ih later)
        · rcases List.mem_cons.mp member with here | later
          · exact Token.char.inj here ▸ List.mem_cons_self
          · exact List.mem_cons_of_mem d (ih later)

theorem mem_of_mem_delete {content : Line} (member : c ∈ delete pattern content) :
    c ∈ content := by
  rw [delete, deleteFrom, List.mem_filterMap] at member
  obtain ⟨token, scanned, kept⟩ := member
  cases token with
  | char d => exact Option.some.inj kept ▸ mem_of_char_mem_scan scanned
  | found group => cases kept

end
end Chimaera.Base.Regex
