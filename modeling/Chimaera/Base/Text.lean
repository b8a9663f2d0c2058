import Mathlib.Data.Nat.Digits.Defs
import Chimaera.Base.Unsigned

/-! Line-based text protocols: decimal numbers, words separated by blanks, and the
formatted extraction of words and unsigned numbers from a stream. What counts as a blank
is a parameter. -/

namespace Chimaera.Base.Text
open Unsigned

abbrev Line := List Char

def text (literal : String) : Line := literal.toList

def decimal (n : Nat) : Line := Nat.toDigits 10 n

def number (digits : Line) : Nat := Nat.ofDigitChars 10 digits 0

theorem number_decimal (n : Nat) : number (decimal n) = n :=
  Nat.ofDigitChars_toDigits (by decide) (by decide)

theorem decimal_ne_nil (n : Nat) : decimal n ≠ [] := Nat.toDigits_ne_nil

theorem isDigit_of_mem_decimal {n : Nat} {c : Char} (member : c ∈ decimal n) :
    c.isDigit = true := Nat.isDigit_of_mem_toDigits (by decide) (by decide) member

theorem digit_range {c : Char} (digit : c.isDigit = true) : 48 ≤ c.toNat ∧ c.toNat ≤ 57 := by
  simp only [Char.isDigit, Bool.and_eq_true, decide_eq_true_eq, ge_iff_le,
    UInt32.le_iff_toNat_le] at digit
  exact digit

theorem decimal_length_le {n : Nat} (bound : n < modulus) : (decimal n).length ≤ 20 :=
  Nat.toDigits_length 10 n 20 (by decide) (lt_trans bound (by decide))

def Stops (continues : Char → Bool) (rest : Line) : Prop :=
  ∀ c tail, rest = c :: tail → continues c = false

theorem stops_nil (continues : Char → Bool) : Stops continues [] := fun _ _ same => by cases same

theorem stops_cons {continues : Char → Bool} {c : Char} (stop : continues c = false)
    (rest : Line) : Stops continues (c :: rest) := fun _ _ same => by
  obtain ⟨rfl, -⟩ := List.cons.inj same
  exact stop

theorem takeWhile_run {continues : Char → Bool} {run rest : Line}
    (all : ∀ c ∈ run, continues c = true) (stop : Stops continues rest) :
    (run ++ rest).takeWhile continues = run ∧ (run ++ rest).dropWhile continues = rest := by
  induction run with
  | nil =>
    cases rest with
    | nil => exact ⟨rfl, rfl⟩
    | cons c tail => simp [stop c tail rfl]
  | cons c run ih =>
    obtain ⟨taken, dropped⟩ := ih fun later member => all later (List.mem_cons_of_mem _ member)
    have first := all c List.mem_cons_self
    simp [first, taken, dropped]

theorem append_mark_inj {α : Type*} {mark : α} {first second rest other : List α}
    (unmarked : mark ∉ first) (clear : mark ∉ second)
    (same : first ++ mark :: rest = second ++ mark :: other) : first = second ∧ rest = other := by
  induction first generalizing second with
  | nil =>
    cases second with
    | nil => exact ⟨rfl, (List.cons.inj same).2⟩
    | cons c second => exact absurd ((List.cons.inj same).1 ▸ List.mem_cons_self) clear
  | cons c first ih =>
    cases second with
    | nil => exact absurd ((List.cons.inj same).1 ▸ List.mem_cons_self) unmarked
    | cons d second =>
      obtain ⟨rfl, later⟩ := List.cons.inj same
      obtain ⟨rfl, rests⟩ := ih (List.not_mem_of_not_mem_cons unmarked)
        (List.not_mem_of_not_mem_cons clear) later
      exact ⟨rfl, rests⟩

/-! ## Words -/

def wordsFrom (blank : Char → Bool) : Line → Line → List Line
  | current, [] => if current = [] then [] else [current]
  | current, c :: rest =>
      if blank c then
        if current = [] then wordsFrom blank [] rest else current :: wordsFrom blank [] rest
      else wordsFrom blank (current ++ [c]) rest

def words (blank : Char → Bool) (text : Line) : List Line := wordsFrom blank [] text

def strip (blank : Char → Bool) (text : Line) : Line :=
  ((text.dropWhile blank).reverse.dropWhile blank).reverse

structure Word (blank : Char → Bool) (word : Line) : Prop where
  filled : word ≠ []
  solid : ∀ c ∈ word, blank c = false

variable {blank : Char → Bool}

theorem Word.of_all {word : Line} (filled : word ≠ [])
    (all : (word.all fun c => !blank c) = true) : Word blank word where
  filled := filled
  solid c member := by simpa using List.all_eq_true.mp all c member

theorem wordsFrom_append (blank : Char → Bool) {word : Line}
    (solid : ∀ c ∈ word, blank c = false) (current rest : Line) :
    wordsFrom blank current (word ++ rest) = wordsFrom blank (current ++ word) rest := by
  induction word generalizing current with
  | nil => simp
  | cons c word ih =>
    have first := solid c List.mem_cons_self
    rw [List.cons_append, wordsFrom, first, if_neg Bool.false_ne_true,
      ih (fun later member => solid later (List.mem_cons_of_mem _ member)), List.append_assoc,
      List.singleton_append]

theorem words_single {word : Line} (one : Word blank word) :
    words blank word = [word] := by
  have whole := wordsFrom_append blank one.solid [] []
  rw [List.append_nil, List.nil_append] at whole
  rw [words, whole, wordsFrom, if_neg one.filled]

theorem words_pair {first second : Line} {separator : Char}
    (one : Word blank first) (two : Word blank second) (blankSeparator : blank separator = true) :
    words blank (first ++ separator :: second) = [first, second] := by
  rw [words, wordsFrom_append blank one.solid, List.nil_append, wordsFrom, blankSeparator,
    if_pos rfl, if_neg one.filled]
  exact congrArg (first :: ·) (words_single two)

theorem strip_eq {text : Line} (ending : Line) (filled : text ≠ [])
    (first : ∀ c ∈ text.head?, blank c = false) (last : ∀ c ∈ text.getLast?, blank c = false)
    (blanks : ∀ c ∈ ending, blank c = true) : strip blank (text ++ ending) = text := by
  obtain ⟨c, rest, rfl⟩ := List.exists_cons_of_ne_nil filled
  have front : ((c :: rest) ++ ending).dropWhile blank = (c :: rest) ++ ending := by
    rw [List.cons_append, List.dropWhile_cons_of_neg (by simp [first c rfl])]
  have stop : Stops blank (c :: rest).reverse := by
    intro d tail same
    apply last d
    rw [← List.head?_reverse, same]
    rfl
  have back := (takeWhile_run (fun d member => blanks d (List.mem_reverse.mp member)) stop).2
  rw [strip, front, List.reverse_append, back, List.reverse_reverse]

/-! ## Extraction from a stream -/

def token (blank : Char → Bool) (stream : Line) : Option (Line × Line) :=
  let stream := stream.dropWhile blank
  let word := stream.takeWhile fun c => !blank c
  if word = [] then none else some (word, stream.dropWhile fun c => !blank c)

/-- The next unsigned 64-bit number: a sign and digits, where a value out of range fails
and a negative one wraps. -/
def unsigned (blank : Char → Bool) (stream : Line) : Option (Nat × Line) :=
  let stream := stream.dropWhile blank
  let negative := stream.head? = some '-'
  let stream := if stream.head? = some '-' ∨ stream.head? = some '+' then stream.tail else stream
  let digits := stream.takeWhile Char.isDigit
  if digits = [] ∨ modulus ≤ number digits then none
  else
    some (if negative then (modulus - number digits) % modulus else number digits,
      stream.dropWhile Char.isDigit)

theorem dropWhile_blanks {blanks stream : Line} (all : ∀ c ∈ blanks, blank c = true) :
    (blanks ++ stream).dropWhile blank = stream.dropWhile blank :=
  List.dropWhile_append_of_pos all

theorem token_word {word rest : Line} (blanks : Line)
    (one : Word blank word) (all : ∀ c ∈ blanks, blank c = true)
    (stop : ∀ c tail, rest = c :: tail → blank c = true) :
    token blank (blanks ++ word ++ rest) = some (word, rest) := by
  obtain ⟨c, tail, rfl⟩ := List.exists_cons_of_ne_nil one.filled
  have front : (blanks ++ (c :: tail) ++ rest).dropWhile blank = (c :: tail) ++ rest := by
    rw [List.append_assoc, dropWhile_blanks all, List.cons_append,
      List.dropWhile_cons_of_neg (by simp [one.solid c List.mem_cons_self])]
  have solid : ∀ d ∈ c :: tail, (!blank d) = true := fun d member => by
    simp [one.solid d member]
  have stops : Stops (fun d => !blank d) rest := fun d later same => by simp [stop d later same]
  obtain ⟨taken, dropped⟩ := takeWhile_run solid stops
  simp only [token, front, taken, dropped, if_neg one.filled]

theorem token_nil (blank : Char → Bool) : token blank [] = none := rfl

theorem unsigned_decimal {n : Nat} {rest : Line} (blanks : Line)
    (bound : n < modulus) (all : ∀ c ∈ blanks, blank c = true)
    (solid : ∀ c, c.isDigit = true → blank c = false) (stop : Stops Char.isDigit rest) :
    unsigned blank (blanks ++ decimal n ++ rest) = some (n, rest) := by
  obtain ⟨c, tail, printed⟩ := List.exists_cons_of_ne_nil (decimal_ne_nil n)
  have digit : c.isDigit = true := isDigit_of_mem_decimal (by rw [printed]; exact List.mem_cons_self)
  have front : (blanks ++ decimal n ++ rest).dropWhile blank = decimal n ++ rest := by
    rw [List.append_assoc, dropWhile_blanks all, printed, List.cons_append,
      List.dropWhile_cons_of_neg (by simp [solid c digit])]
  have head : (decimal n ++ rest).head? = some c := by rw [printed]; rfl
  have unsigned : ¬(some c = some '-' ∨ some c = some '+') := by
    rintro (minus | plus)
    · cases minus
      exact absurd digit (by decide)
    · cases plus
      exact absurd digit (by decide)
  have positive : ¬some c = some '-' := fun minus => unsigned (.inl minus)
  obtain ⟨taken, dropped⟩ :=
    takeWhile_run (fun d (member : d ∈ decimal n) => isDigit_of_mem_decimal member) stop
  have accepted : ¬(decimal n = [] ∨ modulus ≤ n) := by
    rintro (empty | large)
    · exact decimal_ne_nil n empty
    · omega
  simp only [Text.unsigned, front, head, if_neg unsigned, taken, dropped, if_neg accepted,
    if_neg positive, number_decimal]

end Chimaera.Base.Text
