import Chimaera.Timing.Runs

/-! The server's reading of the client's commands, and the bytes of the server's replies:
nothing is lost or added between the two programs. -/

namespace Chimaera.Timing
open Base.Text Base.Unsigned

def Ascii (line : Line) : Prop := ∀ c ∈ line, c.toNat < 128

instance (line : Line) : Decidable (Ascii line) :=
  decidable_of_iff ((line.all fun c => decide (c.toNat < 128)) = true) (by simp [Ascii])

theorem Ascii.append {first second : Line} (one : Ascii first) (two : Ascii second) :
    Ascii (first ++ second) := fun c member =>
  (List.mem_append.mp member).elim (one c) (two c)

theorem Ascii.cons {c : Char} {line : Line} (one : c.toNat < 128) (rest : Ascii line) :
    Ascii (c :: line) := List.forall_mem_cons.mpr ⟨one, rest⟩

theorem ascii_decimal (n : Nat) : Ascii (decimal n) := by
  intro c member
  have range := digit_range (isDigit_of_mem_decimal member)
  omega

theorem pythonBlank_of_isDigit {c : Char} (digit : c.isDigit = true) : pythonBlank c = false := by
  have range := digit_range digit
  simp only [pythonBlank, Bool.or_eq_false_iff, Bool.and_eq_false_iff, decide_eq_false_iff_not]
  exact ⟨blank_of_isDigit digit, .inr (by omega)⟩

theorem python_decimal_word (n : Nat) : Word pythonBlank (decimal n) where
  filled := decimal_ne_nil n
  solid _ member := pythonBlank_of_isDigit (isDigit_of_mem_decimal member)

/-! ## Reading -/

theorem readCommand_line (line data : Line) (plain : '\n' ∉ line)
    (short : data.length + line.length < 4096) :
    readCommand none data (line ++ ['\n']) = .ok (data ++ line ++ ['\n']) := by
  induction line generalizing data with
  | nil =>
    rw [List.nil_append, readCommand, if_neg, if_pos rfl, List.append_nil]
    simp only [List.length_append, List.length_cons, List.length_nil] at short ⊢
    omega
  | cons c line ih =>
    have other : c ≠ '\n' := fun same => plain (same ▸ List.mem_cons_self)
    simp only [List.length_cons] at short
    rw [List.cons_append, readCommand, if_neg, if_neg other,
      ih _ (fun member => plain (List.mem_cons_of_mem _ member))]
    · simp
    · simp only [List.length_append, List.length_cons, List.length_nil]
      omega
    · simp only [List.length_append, List.length_cons, List.length_nil]
      omega

theorem decodeAscii_ascii {line : Line} (ascii : Ascii line) (position : Nat) :
    decodeAscii position line = .ok line := by
  induction line generalizing position with
  | nil => rfl
  | cons c line ih =>
    have rest : Ascii line := fun later member => ascii later (List.mem_cons_of_mem _ member)
    rw [decodeAscii, if_pos (ascii c List.mem_cons_self), ih rest]

structure Clean (line : Line) : Prop where
  filled : line ≠ []
  ascii : Ascii line
  plain : '\n' ∉ line
  short : line.length < 4096
  first : ∀ c ∈ line.head?, pythonBlank c = false
  last : ∀ c ∈ line.getLast?, pythonBlank c = false

theorem request_clean {line : Line} (clean : Clean line) :
    Connection.request { bytes := line ++ ['\n'] } = parseCommand line := by
  have read := readCommand_line line [] clean.plain
    (by rw [List.length_nil, Nat.zero_add]; exact clean.short)
  have decoded := decodeAscii_ascii (clean.ascii.append (show Ascii ['\n'] by decide)) 0
  have stripped := strip_eq ['\n'] clean.filled clean.first clean.last
    (by simp [pythonBlank, blank])
  simp only [Connection.request, read, List.nil_append, decoded, stripped]

def stepLine (ticks : Nat) : Line := text "STEP_TICKS" ++ ' ' :: decimal ticks

theorem stepCommand_eq (ticks : Nat) : Client.stepCommand ticks = stepLine ticks ++ ['\n'] := rfl

theorem clean_stepLine {ticks : Nat} (bound : ticks < modulus) : Clean (stepLine ticks) where
  filled := by simp [stepLine]
  ascii := by
    have name : Ascii (text "STEP_TICKS") := by decide
    exact name.append (.cons (by decide) (ascii_decimal ticks))
  plain := by
    have name : '\n' ∉ text "STEP_TICKS" := by decide
    simp [stepLine, name, newline_not_mem_decimal]
  short := by
    have digits := decimal_length_le bound
    have name : (text "STEP_TICKS").length = 10 := by decide
    simp only [stepLine, List.length_append, List.length_cons]
    omega
  first := by
    intro c head
    have initial : (stepLine ticks).head? = some 'S' := rfl
    rw [initial] at head
    cases head
    decide
  last := by
    intro c final
    have tail : (stepLine ticks).getLast? = (decimal ticks).getLast? := by
      obtain ⟨digit, digits, printed⟩ := List.exists_cons_of_ne_nil (decimal_ne_nil ticks)
      rw [stepLine, printed, List.getLast?_append]
      rfl
    rw [tail] at final
    exact (python_decimal_word ticks).solid c (List.mem_of_mem_getLast? final)

theorem parseTicks_decimal (ticks : Nat) : parseTicks (decimal ticks) true = .ok ticks := by
  have digits : (decimal ticks).all Char.isDigit = true :=
    List.all_eq_true.mpr fun c member => isDigit_of_mem_decimal member
  simp [parseTicks, decimal_ne_nil, digits, number_decimal]

/-- The server takes a step command for the ticks that the client put into it. -/
theorem request_stepCommand {ticks : Nat} (bound : ticks < modulus) :
    Connection.request { bytes := Client.stepCommand ticks } = .ok (.step ticks) := by
  have name : Word pythonBlank (text "STEP_TICKS") := .of_all (by decide) (by decide)
  have split : words pythonBlank (stepLine ticks) = [text "STEP_TICKS", decimal ticks] :=
    words_pair name (python_decimal_word ticks) (by decide)
  have scale : stepScales.lookup (text "STEP_TICKS") = some 1 := by decide
  rw [stepCommand_eq, request_clean (clean_stepLine bound)]
  simp only [parseCommand, split, scale, decide_true, parseTicks_decimal, Nat.mul_one]

theorem request_status : Connection.request { bytes := text "STATUS\n" } = .ok .status := by decide

theorem request_quit : Connection.request { bytes := text "QUIT\n" } = .ok .quit := by decide

/-! ## Replies -/

theorem encodeReply_ascii {line : Line} (ascii : Ascii line) :
    encodeReply line = line ++ ['\n'] := by
  have whole : Ascii (line ++ ['\n']) := ascii.append (by simp [Ascii])
  unfold encodeReply
  conv_rhs => rw [← List.map_id (line ++ ['\n'])]
  exact List.map_congr_left fun c member => if_pos (whole c member)

theorem ascii_okLine (start finish : Nat) : Ascii (okLine start finish) := by
  have status : Ascii (text "OK") := by decide
  exact (status.append (.cons (by decide) (ascii_decimal start))).append
    (.cons (by decide) (ascii_decimal finish))

theorem ascii_doneLine (tick : Nat) : Ascii (doneLine tick) := by
  have status : Ascii (text "DONE") := by decide
  exact status.append (.cons (by decide) (ascii_decimal tick))

theorem ascii_pausedLine (tick : Nat) : Ascii (pausedLine tick) := by
  have status : Ascii (text "PAUSED") := by decide
  exact status.append (.cons (by decide) (ascii_decimal tick))

end Chimaera.Timing
