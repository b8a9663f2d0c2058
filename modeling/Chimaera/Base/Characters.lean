import Mathlib.Data.Char

/-! The character classes of Python's `str` and of `re` on `str`: blanks and decimal digits of
all scripts. Beyond ASCII they are the tables of the interpreter. A text file is read with its
line ends translated. -/

namespace Chimaera.Base.Characters

def asciiSpace (c : Char) : Bool :=
  (9 ≤ c.toNat && c.toNat ≤ 13) || (28 ≤ c.toNat && c.toNat ≤ 32)

def asciiDigit (c : Char) : Option Nat := if c.isDigit then some (c.toNat - 48) else none

/-- What `isspace` and `\s` take for a blank, and what `\d` and `int` take for a digit. -/
structure Classes where
  space : Char → Bool
  digit : Char → Option Nat
  space_ascii : ∀ c : Char, c.toNat < 128 → space c = asciiSpace c
  digit_ascii : ∀ c : Char, c.toNat < 128 → digit c = asciiDigit c
  apart : ∀ c : Char, (digit c).isSome = true → space c = false

theorem asciiDigit_apart (c : Char) (digit : (asciiDigit c).isSome = true) :
    asciiSpace c = false := by
  unfold asciiDigit at digit
  split_ifs at digit with decimal
  · have bounds : 48 ≤ c.toNat ∧ c.toNat ≤ 57 := by
      simp only [Char.isDigit, Bool.and_eq_true, decide_eq_true_eq, ge_iff_le,
        UInt32.le_iff_toNat_le] at decimal
      exact decimal
    rw [asciiSpace, Bool.or_eq_false_iff, Bool.and_eq_false_iff, Bool.and_eq_false_iff,
      decide_eq_false_iff_not, decide_eq_false_iff_not, decide_eq_false_iff_not,
      decide_eq_false_iff_not]
    omega
  · cases digit

def ascii : Classes where
  space := asciiSpace
  digit := asciiDigit
  space_ascii _ _ := rfl
  digit_ascii _ _ := rfl
  apart := asciiDigit_apart

def Classes.value (classes : Classes) (digits : List Char) : Nat :=
  digits.foldl (fun total c => 10 * total + (classes.digit c).getD 0) 0

section
variable (classes : Classes) {c : Char}

theorem Classes.digit_none {c : Char} (blank : classes.space c = true) :
    classes.digit c = none := by
  by_contra digit
  have clear := classes.apart c (Option.isSome_iff_ne_none.mpr digit)
  rw [blank] at clear
  cases clear

theorem Classes.space_lineFeed : classes.space '\n' = true := classes.space_ascii '\n' (by decide)

theorem Classes.space_return : classes.space '\r' = true := classes.space_ascii '\r' (by decide)

theorem Classes.digit_inLine (digit : (classes.digit c).isSome = true) : c ≠ '\r' ∧ c ≠ '\n' := by
  have clear := classes.apart c digit
  refine ⟨fun same => ?_, fun same => ?_⟩
  · rw [same, classes.space_return] at clear
    cases clear
  · rw [same, classes.space_lineFeed] at clear
    cases clear

end

/-! ## Line ends of a text file -/

/-- `universal` newlines: a return, a line feed and a return before a line feed all end a line,
and are read as a line feed. The flag says that a return was just read. -/
def translate : Bool → List Char → List Char
  | _, [] => []
  | afterReturn, c :: rest =>
    if c = '\r' then '\n' :: translate true rest
    else if c = '\n' ∧ afterReturn = true then translate false rest
    else c :: translate false rest

def universal (content : List Char) : List Char := translate false content

theorem translate_return (flag : Bool) (rest : List Char) :
    translate flag ('\r' :: rest) = '\n' :: translate true rest := by
  rw [translate, if_pos rfl]

theorem translate_pair (rest : List Char) : translate true
    ('\n' :: rest) = translate false rest := by
  rw [translate, if_neg (by decide), if_pos ⟨rfl, rfl⟩]

theorem translate_kept {c : Char} (inside : c ≠ '\r') (rest : List Char) :
    translate false (c :: rest) = c :: translate false rest := by
  rw [translate, if_neg inside, if_neg fun pair => Bool.false_ne_true pair.2]

theorem translate_true {c : Char} (inside : c ≠ '\n') (rest : List Char) :
    translate true (c :: rest) = translate false (c :: rest) := by
  simp only [translate, inside, false_and]

theorem translate_lineFeed (rest : List Char) :
    translate false ('\n' :: rest) = '\n' :: translate false rest := translate_kept (by decide) rest

theorem translate_char {c : Char} (inside : c ≠ '\r' ∧ c ≠ '\n') (flag : Bool)
    (rest : List Char) : translate flag (c :: rest) = c :: translate false rest := by
  rw [translate, if_neg inside.1, if_neg fun lineFeed => inside.2 lineFeed.1]

theorem translate_word {word : List Char} (inside : ∀ c ∈ word, c ≠ '\r' ∧ c ≠ '\n')
    (rest : List Char) : translate false (word ++ rest) = word ++ translate false rest := by
  induction word with
  | nil => rfl
  | cons c word ih =>
    obtain ⟨first, later⟩ := List.forall_mem_cons.mp inside
    rw [List.cons_append, translate_char first, ih later, List.cons_append]

theorem return_not_mem_translate (flag : Bool) (content : List Char) :
    '\r' ∉ translate flag content := by
  induction content generalizing flag with
  | nil => exact List.not_mem_nil
  | cons c content ih =>
    rw [translate]
    split_ifs with isReturn skipped
    · exact List.not_mem_cons_of_ne_of_not_mem (by decide) (ih true)
    · exact ih false
    · exact List.not_mem_cons_of_ne_of_not_mem (Ne.symm isReturn) (ih false)

/-- The lines of a text, where a line is already begun. The last one may be empty. -/
def linesFrom : List Char → List Char → List (List Char)
  | line, [] => [line]
  | line, c :: rest =>
    if c = '\n' then line :: linesFrom [] rest else linesFrom (line ++ [c]) rest

def fileLines (content : List Char) : List (List Char) := linesFrom [] (universal content)

theorem linesFrom_lineFeed (line rest : List Char) :
    linesFrom line ('\n' :: rest) = line :: linesFrom [] rest := by
  rw [linesFrom, if_pos rfl]

theorem linesFrom_char {c : Char} (inside : c ≠ '\n') (line rest : List Char) :
    linesFrom line (c :: rest) = linesFrom (line ++ [c]) rest := by
  rw [linesFrom, if_neg inside]

theorem linesFrom_word {word : List Char} (clear : '\n' ∉ word) (line rest : List Char) :
    linesFrom line (word ++ rest) = linesFrom (line ++ word) rest := by
  induction word generalizing line with
  | nil => rw [List.nil_append, List.append_nil]
  | cons c word ih =>
    obtain ⟨first, later⟩ := List.ne_and_not_mem_of_not_mem_cons clear
    rw [List.cons_append, linesFrom_char (Ne.symm first), ih later, List.append_assoc,
      List.singleton_append]

theorem linesFrom_last {line : List Char} (clear : '\n' ∉ line) : linesFrom [] line = [line] := by
  have read := linesFrom_word clear [] []
  rwa [List.append_nil] at read

theorem linesFrom_line {line : List Char} (clear : '\n' ∉ line) (rest : List Char) :
    linesFrom [] (line ++ '\n' :: rest) = line :: linesFrom [] rest := by
  rw [linesFrom_word clear, linesFrom_lineFeed, List.nil_append]

/-- A property of texts that holds of every line by itself, and of a line before any text that
has it, holds of every text. -/
theorem lines_induction {property : List Char → Prop}
    (last : ∀ line : List Char, '\n' ∉ line → property line)
    (line : ∀ line rest : List Char, '\n' ∉ line → property rest → property (line ++ '\n' :: rest))
    (content : List Char) : property content := by
  suffices begun : ∀ rest started : List Char, '\n' ∉ started → property (started ++ rest) from
    begun content [] List.not_mem_nil
  intro rest
  induction rest with
  | nil =>
    intro started clear
    rw [List.append_nil]
    exact last started clear
  | cons c rest ih =>
    intro started clear
    by_cases lineFeed : c = '\n'
    · rw [lineFeed]
      exact line started rest clear (ih [] List.not_mem_nil)
    · rw [List.append_cons]
      apply ih
      rw [List.mem_append, List.mem_singleton]
      exact not_or.mpr ⟨clear, Ne.symm lineFeed⟩

end Chimaera.Base.Characters
