import Chimaera.Base.Text

/-! A fragment of the shell command language: lines of words and operators, with single and
double quotes and comments. The reader goes over a script one character at a time and gives up
on whatever is outside of the fragment, such as expansions, so that a script that it reads
means what its words say. Which characters stand for themselves is a parameter. -/

namespace Chimaera.Base.Shell
open Text

inductive Token where
  | word (value : Line)
  | pipe
  | redirect
  deriving DecidableEq, Repr

inductive Quoting where
  | unquoted
  | single
  | double
  | comment
  deriving DecidableEq, Repr

/-- The lines read so far, the tokens of the current line, and its last word if that is not yet
at its end. -/
structure Reader where
  lines : List (List Token) := []
  tokens : List Token := []
  word : Option Line := none
  quoting : Quoting := .unquoted
  deriving DecidableEq, Repr

namespace Reader

def push (reader : Reader) (value : Line) : Reader :=
  { reader with word := some (reader.word.getD [] ++ value) }

def endWord (reader : Reader) : Reader :=
  { reader with tokens := reader.tokens ++ (reader.word.map Token.word).toList, word := none }

def endLine (reader : Reader) : Reader :=
  let reader := reader.endWord
  { reader with
    lines := if reader.tokens = [] then reader.lines else reader.lines ++ [reader.tokens]
    tokens := [] }

def operator (reader : Reader) (token : Token) : Option Reader :=
  match reader.endWord.tokens.getLast? with
  | some (.word _) => some { reader.endWord with tokens := reader.endWord.tokens ++ [token] }
  | _ => none

def unquoted (plain : Char → Bool) (reader : Reader) (c : Char) : Option Reader :=
  if c = '\n' then some reader.endLine
  else if c = ' ' ∨ c = '\t' then some reader.endWord
  else if c = '\'' then some { reader.push [] with quoting := .single }
  else if c = '"' then some { reader.push [] with quoting := .double }
  else if c = '|' then reader.operator .pipe
  else if c = '>' then
    -- A number right before it would be a file descriptor.
    if reader.word = none then reader.operator .redirect else none
  else if c = '#' ∧ reader.word = none then some { reader with quoting := .comment }
  else if plain c then some (reader.push [c])
  else none

def step (plain : Char → Bool) (reader : Reader) (c : Char) : Option Reader :=
  if c = Char.ofNat 0 then none
  else
    match reader.quoting with
    | .unquoted => reader.unquoted plain c
    | .single => if c = '\'' then some { reader with quoting := .unquoted } else some (reader.push [c])
    | .double =>
        if c = '"' then some { reader with quoting := .unquoted }
        else if c = '$' ∨ c = Char.ofNat 96 ∨ c = '\\' ∨ c = '!' then none
        else some (reader.push [c])
    | .comment =>
        if c = '\n' then some { reader with quoting := .unquoted }.endLine else some reader

def read (plain : Char → Bool) (reader : Reader) (source : Line) : Option Reader :=
  source.foldlM (step plain) reader

end Reader

/-- The lines of a script; a last line need not end in a line feed. -/
def script (plain : Char → Bool) (source : Line) : Option (List (List Token)) :=
  (Reader.read plain {} source).bind fun reader =>
    match reader.quoting with
    | .unquoted => some reader.endLine.lines
    | .comment => some reader.endLine.lines
    | _ => none

/-- The usual way to write any word, as it is if it has only characters that stand for
themselves. -/
def quote (plain : Char → Bool) (value : Line) : Line :=
  if value = [] then text "''"
  else if value.all plain then value
  else text "'" ++ value.flatMap (fun c => if c = '\'' then text "'\"'\"'" else [c]) ++ text "'"

def join (plain : Char → Bool) (words : List Line) : Line :=
  [' '].intercalate (words.map (quote plain))

/-- No character with a meaning of its own stands for itself. -/
def Neutral (plain : Char → Bool) : Bool :=
  [Char.ofNat 0, '\n', ' ', '\t', '\'', '"', '|', '>', '#'].all fun c => !plain c

/-! ## Characters -/

namespace Reader

variable {plain : Char → Bool} {reader : Reader}

theorem push_push (first second : Line) :
    (reader.push first).push second = reader.push (first ++ second) := by
  simp only [push, Option.getD_some, List.append_assoc]

theorem read_append (first second : Line) :
    reader.read plain (first ++ second) = (reader.read plain first).bind (read plain · second) := by
  simp only [read, List.foldlM_append]
  rfl

theorem read_cons (c : Char) (rest : Line) :
    reader.read plain (c :: rest) = (reader.step plain c).bind (read plain · rest) := by
  simp only [read, List.foldlM_cons]
  rfl

theorem step_plain (neutral : Neutral plain = true) {c : Char} (stands : plain c = true)
    (open_ : reader.quoting = .unquoted) : reader.step plain c = some (reader.push [c]) := by
  have other : ∀ special ∈ [Char.ofNat 0, '\n', ' ', '\t', '\'', '"', '|', '>', '#'],
      c ≠ special := by
    intro special member same
    have never := List.all_eq_true.mp neutral special member
    rw [← same, stands] at never
    cases never
  simp only [List.mem_cons, List.not_mem_nil, or_false, forall_eq_or_imp, forall_eq] at other
  obtain ⟨nul, feed, blank, tab, single, double, pipe, greater, hash⟩ := other
  simp only [step, if_neg nul, open_, unquoted, if_neg feed, blank, tab, or_self, if_false,
    if_neg single, if_neg double, if_neg pipe, if_neg greater, hash, false_and, if_pos stands]

theorem step_blank (open_ : reader.quoting = .unquoted) :
    reader.step plain ' ' = some reader.endWord := by
  obtain ⟨lines, tokens, word, quoting⟩ := reader
  subst open_
  rfl

theorem step_feed (open_ : reader.quoting = .unquoted) :
    reader.step plain '\n' = some reader.endLine := by
  obtain ⟨lines, tokens, word, quoting⟩ := reader
  subst open_
  rfl

theorem step_pipe (open_ : reader.quoting = .unquoted) :
    reader.step plain '|' = reader.operator .pipe := by
  obtain ⟨lines, tokens, word, quoting⟩ := reader
  subst open_
  rfl

theorem step_redirect (open_ : reader.quoting = .unquoted) (ended : reader.word = none) :
    reader.step plain '>' = reader.operator .redirect := by
  obtain ⟨lines, tokens, word, quoting⟩ := reader
  subst open_ ended
  rfl

theorem step_single {c : Char} (nul : c ≠ Char.ofNat 0) (other : c ≠ '\'')
    (inside : reader.quoting = .single) : reader.step plain c = some (reader.push [c]) := by
  simp only [step, if_neg nul, inside, if_neg other]

theorem read_plain (neutral : Neutral plain = true) {value : Line} (filled : value ≠ [])
    (stands : value.all plain = true) (open_ : reader.quoting = .unquoted) :
    reader.read plain value = some (reader.push value) := by
  induction value generalizing reader with
  | nil => exact absurd rfl filled
  | cons c rest ih =>
    rw [List.all_cons, Bool.and_eq_true] at stands
    rw [read_cons, step_plain neutral stands.1 open_, Option.bind_some]
    cases rest with
    | nil => rfl
    | cons d others =>
      have later : (reader.push [c]).read plain (d :: others) = _ :=
        ih (List.cons_ne_nil _ _) stands.2 open_
      rw [later, push_push]
      rfl

theorem read_escaped {value : Line} (clear : Char.ofNat 0 ∉ value)
    (inside : reader.quoting = .single) (begun : reader.word ≠ none) :
    reader.read plain (value.flatMap fun c => if c = '\'' then text "'\"'\"'" else [c]) =
      some (reader.push value) := by
  induction value generalizing reader with
  | nil =>
    obtain ⟨word, known⟩ := Option.ne_none_iff_exists'.mp begun
    simp only [List.flatMap_nil, read, push, known, Option.getD_some, List.append_nil]
    rw [← known]
    rfl
  | cons c rest ih =>
    have nul : c ≠ Char.ofNat 0 := fun same => clear (same ▸ List.mem_cons_self)
    have later : Char.ofNat 0 ∉ rest := fun member => clear (List.mem_cons_of_mem _ member)
    have pushed : reader.read plain (if c = '\'' then text "'\"'\"'" else [c]) =
        some (reader.push [c]) := by
      by_cases same : c = '\''
      · rw [if_pos same, same]
        obtain ⟨lines, tokens, word, quoting⟩ := reader
        obtain ⟨known, rfl⟩ := Option.ne_none_iff_exists'.mp begun
        subst inside
        change some (Reader.mk lines tokens (some (((known ++ []) ++ ['\'']) ++ [])) .single) = _
        simp only [List.append_nil]
        rfl
      · rw [if_neg same, read_cons, step_single nul same inside]
        rfl
    have others : (reader.push [c]).read plain
        (rest.flatMap fun c => if c = '\'' then text "'\"'\"'" else [c]) = _ :=
      ih later inside (Option.some_ne_none _)
    rw [List.flatMap_cons, read_append, pushed, Option.bind_some, others, push_push]
    rfl

theorem read_quote (neutral : Neutral plain = true) {value : Line} (clear : Char.ofNat 0 ∉ value)
    (open_ : reader.quoting = .unquoted) :
    reader.read plain (quote plain value) = some (reader.push value) := by
  rw [quote]
  by_cases empty : value = []
  · rw [if_pos empty, empty]
    obtain ⟨lines, tokens, word, quoting⟩ := reader
    subst open_
    rfl
  by_cases stands : value.all plain = true
  · rw [if_neg empty, if_pos stands]
    exact read_plain neutral empty stands open_
  · rw [if_neg empty, if_neg stands]
    obtain ⟨lines, tokens, word, quoting⟩ := reader
    subst open_
    have start : Reader.read plain ⟨lines, tokens, word, .unquoted⟩ (text "'") =
        some ⟨lines, tokens, some (word.getD []), .single⟩ := by
      change some (Reader.mk lines tokens (some (word.getD [] ++ [])) .single) = _
      rw [List.append_nil]
    rw [read_append, read_append, start, Option.bind_some, read_escaped clear rfl (by simp),
      Option.bind_some]
    rfl

end Reader

/-! ## Words and lines -/

section Reading

variable (plain : Char → Bool)

/-- A text within a line that is read as these tokens; its last word may go on. -/
def Reads (source : Line) (tokens : List Token) : Prop :=
  ∀ reader : Reader, reader.quoting = .unquoted → reader.word = none →
    ∃ after, reader.read plain source = some after ∧ after.quoting = .unquoted ∧
      after.endWord = { reader with tokens := reader.tokens ++ tokens }

def Spells (source : Line) (lines : List (List Token)) : Prop :=
  ∀ done : List (List Token), Reader.read plain { lines := done } source =
    some { lines := done ++ lines }

end Reading

variable {plain : Char → Bool}

theorem reads_nil : Reads plain [] [] := by
  intro reader open_ ended
  refine ⟨reader, rfl, open_, ?_⟩
  simp [Reader.endWord, ended]

theorem reads_word {source value : Line}
    (pushes : ∀ reader : Reader, reader.quoting = .unquoted →
      reader.read plain source = some (reader.push value)) : Reads plain source [.word value] := by
  intro reader open_ ended
  refine ⟨_, pushes reader open_, open_, ?_⟩
  simp [Reader.endWord, Reader.push, ended]

theorem reads_plain (neutral : Neutral plain = true) {value : Line} (filled : value ≠ [])
    (stands : value.all plain = true) : Reads plain value [.word value] :=
  reads_word fun _ open_ => Reader.read_plain neutral filled stands open_

theorem reads_quote (neutral : Neutral plain = true) {value : Line} (clear : Char.ofNat 0 ∉ value) :
    Reads plain (quote plain value) [.word value] :=
  reads_word fun _ open_ => Reader.read_quote neutral clear open_

theorem reads_assignment (neutral : Neutral plain = true) {name value : Line} (filled : name ≠ [])
    (stands : name.all plain = true) (clear : Char.ofNat 0 ∉ value) :
    Reads plain (name ++ quote plain value) [.word (name ++ value)] := by
  apply reads_word
  intro reader open_
  have quoted : (reader.push name).read plain (quote plain value) = _ :=
    Reader.read_quote neutral clear open_
  rw [Reader.read_append, Reader.read_plain neutral filled stands open_, Option.bind_some, quoted,
    Reader.push_push]

variable {tokens others : List Token} {first second : Line}

theorem Reads.blank (given : Reads plain first tokens) (later : Reads plain second others) :
    Reads plain (first ++ ' ' :: second) (tokens ++ others) := by
  intro reader open_ ended
  obtain ⟨middle, reads, still, closing⟩ := given reader open_ ended
  have stepped : middle.step plain ' ' = some middle.endWord := Reader.step_blank still
  rw [closing] at stepped
  obtain ⟨after, rest, closed, done⟩ := later { reader with tokens := reader.tokens ++ tokens }
    open_ ended
  refine ⟨after, ?_, closed, ?_⟩
  · rw [Reader.read_append, reads, Option.bind_some, Reader.read_cons, stepped, Option.bind_some,
      rest]
  · rw [done, List.append_assoc]

theorem Reads.spaced (given : Reads plain first tokens) (later : Reads plain second others) :
    Reads plain (first ++ text " " ++ second) (tokens ++ others) := by
  rw [List.append_assoc]
  exact given.blank later

theorem Reads.operated {value : Line} {c : Char} {token : Token} (given : Reads plain first tokens)
    (behind : tokens.getLast? = some (.word value))
    (operates : ∀ reader : Reader, reader.quoting = .unquoted → reader.word = none →
      reader.step plain c = reader.operator token)
    (later : Reads plain second others) :
    Reads plain (first ++ ' ' :: c :: second) (tokens ++ token :: others) := by
  intro reader open_ ended
  obtain ⟨middle, reads, still, closing⟩ := given reader open_ ended
  have blank : middle.step plain ' ' = some middle.endWord := Reader.step_blank still
  rw [closing] at blank
  obtain ⟨after, rest, closed, done⟩ := later
    { reader with tokens := reader.tokens ++ tokens ++ [token] } open_ ended
  refine ⟨after, ?_, closed, ?_⟩
  · have operator : Reader.operator { reader with tokens := reader.tokens ++ tokens } token =
        some { reader with tokens := reader.tokens ++ tokens ++ [token] } := by
      simp [Reader.operator, Reader.endWord, ended, behind]
    rw [Reader.read_append, reads, Option.bind_some, Reader.read_cons, blank, Option.bind_some,
      Reader.read_cons, operates { reader with tokens := reader.tokens ++ tokens } open_ ended,
      operator, Option.bind_some, rest]
  · rw [done]
    simp only [List.append_assoc, List.cons_append, List.nil_append]

theorem Reads.pipe {value : Line} (given : Reads plain first tokens)
    (behind : tokens.getLast? = some (.word value)) (later : Reads plain second others) :
    Reads plain (first ++ ' ' :: '|' :: second) (tokens ++ .pipe :: others) := by
  apply given.operated behind ?_ later
  intro reader open_ _
  exact Reader.step_pipe open_

theorem Reads.redirect {value : Line} (given : Reads plain first tokens)
    (behind : tokens.getLast? = some (.word value)) (later : Reads plain second others) :
    Reads plain (first ++ ' ' :: '>' :: second) (tokens ++ .redirect :: others) := by
  apply given.operated behind ?_ later
  intro reader open_ ended
  exact Reader.step_redirect open_ ended

theorem reads_join (neutral : Neutral plain = true) {words : List Line}
    (clear : ∀ word ∈ words, Char.ofNat 0 ∉ word) :
    Reads plain (join plain words) (words.map .word) := by
  induction words with
  | nil => exact reads_nil
  | cons word rest ih =>
    have first := reads_quote neutral (clear word List.mem_cons_self)
    cases rest with
    | nil => simpa [join] using first
    | cons other others =>
      have later := ih fun word member => clear word (List.mem_cons_of_mem _ member)
      exact first.blank later

theorem spells_nil : Spells plain [] [] := by
  intro done
  simp [Reader.read]

theorem Spells.append {lines others : List (List Token)}
    (spells : Spells plain first lines) (later : Spells plain second others) :
    Spells plain (first ++ second) (lines ++ others) := by
  intro done
  rw [Reader.read_append, spells done, Option.bind_some, later, List.append_assoc]

theorem Reads.line {source : Line} {tokens : List Token} (given : Reads plain source tokens)
    (filled : tokens ≠ []) : Spells plain (source ++ ['\n']) [tokens] := by
  intro done
  obtain ⟨after, reads, still, closing⟩ := given { lines := done } rfl rfl
  have stepped : after.step plain '\n' = some after.endLine := Reader.step_feed still
  have ended : after.endLine = { lines := done ++ [tokens] } := by
    simp [Reader.endLine, closing, filled]
  rw [Reader.read_append, reads, Option.bind_some, Reader.read_cons, stepped, ended]
  rfl

theorem spells_flatMap {α : Type*} {source : α → Line} {lines : α → List (List Token)}
    {items : List α} (spells : ∀ item ∈ items, Spells plain (source item) (lines item)) :
    Spells plain (items.flatMap source) (items.flatMap lines) := by
  induction items with
  | nil => exact spells_nil
  | cons item rest ih =>
    rw [List.flatMap_cons, List.flatMap_cons]
    apply (spells item List.mem_cons_self).append
    exact ih fun item member => spells item (List.mem_cons_of_mem _ member)

theorem Spells.whole {source : Line} {lines : List (List Token)}
    (spells : Spells plain source lines) :
    script plain source = some lines := by
  have reads := spells []
  rw [Shell.script, reads]
  simp [Reader.endLine, Reader.endWord]

theorem Spells.unended {source last : Line} {lines : List (List Token)} {tokens : List Token}
    (spells : Spells plain source lines) (given : Reads plain last tokens) (filled : tokens ≠ []) :
    script plain (source ++ last) = some (lines ++ [tokens]) := by
  have reads := spells []
  obtain ⟨after, rest, still, closing⟩ := given { lines := lines } rfl rfl
  rw [List.nil_append] at reads
  rw [Shell.script, Reader.read_append, reads, Option.bind_some, rest, Option.bind_some, still]
  simp [Reader.endLine, closing, filled]

end Chimaera.Base.Shell
