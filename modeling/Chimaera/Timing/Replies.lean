import Chimaera.Timing.Client

/-! The reply lines of the timing protocol, and that the client reads back from each line
exactly the ticks printed in it. -/

namespace Chimaera.Timing
open Base.Text Base.Unsigned

def okLine (start finish : Nat) : Line :=
  text "OK" ++ ' ' :: decimal start ++ ' ' :: decimal finish

def doneLine (tick : Nat) : Line := text "DONE" ++ ' ' :: decimal tick

def pausedLine (tick : Nat) : Line := text "PAUSED" ++ ' ' :: decimal tick

/-! ## Characters of a line -/

theorem blank_of_isDigit {c : Char} (digit : c.isDigit = true) : blank c = false := by
  have range := digit_range digit
  have space : c ≠ ' ' := by
    rintro rfl
    exact absurd range.1 (by decide)
  simp only [blank, Bool.or_eq_false_iff, Bool.and_eq_false_iff, beq_eq_false_iff_ne,
    decide_eq_false_iff_not]
  exact ⟨space, .inr (by omega)⟩

theorem newline_not_mem_decimal (n : Nat) : '\n' ∉ decimal n := fun member =>
  absurd (isDigit_of_mem_decimal member) (by decide)

theorem space_blank : ∀ c ∈ [' '], blank c = true := by simp [blank]

theorem unsigned_last {n : Nat} (bound : n < modulus) :
    unsigned blank (' ' :: decimal n) = some (n, []) := by
  have read := unsigned_decimal [' '] bound space_blank (fun _ => blank_of_isDigit)
    (stops_nil _)
  rwa [List.append_nil] at read

theorem unsigned_next {n : Nat} (bound : n < modulus) (rest : Line) :
    unsigned blank (' ' :: decimal n ++ ' ' :: rest) = some (n, ' ' :: rest) :=
  unsigned_decimal [' '] bound space_blank (fun _ => blank_of_isDigit)
    (stops_cons (by decide) rest)

theorem token_status {status : Line} (one : Word blank status) (rest : Line) :
    token blank (status ++ ' ' :: rest) = some (status, ' ' :: rest) :=
  token_word [] one (by simp) (fun c tail same => by
    obtain ⟨rfl, -⟩ := List.cons.inj same
    decide)

theorem token_okLine (start finish : Nat) : token blank (okLine start finish) =
    some (text "OK", ' ' :: decimal start ++ ' ' :: decimal finish) := by
  unfold okLine
  rw [List.append_assoc]
  exact token_status (.of_all (by decide) (by decide)) _

theorem token_doneLine (tick : Nat) :
    token blank (doneLine tick) = some (text "DONE", ' ' :: decimal tick) := by
  apply token_status
  exact .of_all (by decide) (by decide)

theorem token_pausedLine (tick : Nat) :
    token blank (pausedLine tick) = some (text "PAUSED", ' ' :: decimal tick) := by
  apply token_status
  exact .of_all (by decide) (by decide)

/-! ## Reading a line back -/

namespace Client

theorem readLine_line (line read rest : Line) (plain : '\n' ∉ line)
    (short : read.length + line.length < 4096) :
    readLine read (line ++ '\n' :: rest) = .ok (read ++ line) := by
  induction line generalizing read with
  | nil =>
    rw [List.nil_append, readLine, if_pos (by simpa using short), if_pos rfl, List.append_nil]
  | cons c line ih =>
    have other : c ≠ '\n' := fun same => plain (same ▸ List.mem_cons_self)
    rw [List.cons_append, readLine, if_pos (by simp only [List.length_cons] at short; omega),
      if_neg other, ih _ (fun member => plain (List.mem_cons_of_mem _ member))
        (by simp only [List.length_append, List.length_cons, List.length_nil] at short ⊢; omega),
      List.append_assoc, List.singleton_append]

theorem parseInterval_okLine {start finish : Nat} (startBound : start < modulus)
    (finishBound : finish < modulus) : parseInterval (okLine start finish) =
      if finish < start then none else some (start, finish) := by
  unfold parseInterval
  simp only [token_okLine, unsigned_next startBound, unsigned_last finishBound, token_nil,
    Option.bind_eq_bind, Option.bind_some]
  by_cases backward : finish < start
  · simp [backward]
  · simp [backward]

theorem parseDone_decimal {tick : Nat} (bound : tick < modulus) :
    parseDone (' ' :: decimal tick) = some tick := by
  unfold parseDone
  simp [unsigned_last bound, token_nil]

theorem parsePaused_pausedLine {tick : Nat} (bound : tick < modulus) :
    parsePaused (pausedLine tick) = some tick := by
  unfold parsePaused
  simp [token_pausedLine, unsigned_last bound, token_nil]

/-! ## Lines as replies -/

structure Reply (line : Line) : Prop where
  plain : '\n' ∉ line
  short : line.length < 4096

theorem reply_okLine {start finish : Nat} (startBound : start < modulus)
    (finishBound : finish < modulus) : Reply (okLine start finish) where
  plain := by
    have status : '\n' ∉ text "OK" := by decide
    simp [okLine, status, newline_not_mem_decimal]
  short := by
    have first := decimal_length_le startBound
    have second := decimal_length_le finishBound
    have status : (text "OK").length = 2 := by decide
    simp only [okLine, List.length_append, List.length_cons]
    omega

theorem reply_doneLine {tick : Nat} (bound : tick < modulus) : Reply (doneLine tick) where
  plain := by
    have status : '\n' ∉ text "DONE" := by decide
    simp [doneLine, status, newline_not_mem_decimal]
  short := by
    have digits := decimal_length_le bound
    have status : (text "DONE").length = 4 := by decide
    simp only [doneLine, List.length_append, List.length_cons]
    omega

theorem reply_pausedLine {tick : Nat} (bound : tick < modulus) : Reply (pausedLine tick) where
  plain := by
    have status : '\n' ∉ text "PAUSED" := by decide
    simp [pausedLine, status, newline_not_mem_decimal]
  short := by
    have digits := decimal_length_le bound
    have status : (text "PAUSED").length = 6 := by decide
    simp only [pausedLine, List.length_append, List.length_cons]
    omega

theorem response_reply {client : Client} {line : Line} (pending : client.pending = true)
    (reply : Reply line) : client.response (.bytes (line ++ ['\n'])) =
      (.ok line, { client with pending := false }) := by
  have read := readLine_line line [] [] reply.plain
    (by rw [List.length_nil, Nat.zero_add]; exact reply.short)
  simp only [response, pending, Bool.not_true, read, List.nil_append]
  rfl

end Client

end Chimaera.Timing
