import Mathlib.Data.List.Basic
import Mathlib.Algebra.Order.Group.Nat
import Mathlib.Tactic.Common

/-! A buffered reader over the descriptor of a regular file, as CPython's `BufferedReader` is one.
It remembers where it has left the descriptor and does not ask again, so it does not see a move
of the descriptor by somebody else while it stays in its buffer. A raw read of the descriptor
returns all that is asked for, up to the end of the file. -/

namespace Chimaera.Base.Buffered

variable {α : Type} {file : List α} {size stop position count : Nat}

def span (file : List α) (offset count : Nat) : List α := (file.drop offset).take count

theorem length_span {offset : Nat} (inside : offset + count ≤ file.length) :
    (span file offset count).length = count := by
  rw [span, List.length_take, List.length_drop]
  omega

theorem span_zero (offset : Nat) : span file offset 0 = [] := List.take_zero

theorem span_append (offset first second : Nat) :
    span file offset first ++ span file (offset + first) second =
      span file offset (first + second) := by
  rw [span, span, span, List.take_add, List.drop_drop]

theorem take_span (offset : Nat) {fewer : Nat} (less : fewer ≤ count) :
    (span file offset count).take fewer = span file offset fewer := by
  rw [span, span, List.take_take, Nat.min_eq_left less]

theorem drop_span (offset skipped : Nat) :
    (span file offset count).drop skipped = span file (offset + skipped) (count - skipped) := by
  rw [span, span, List.drop_take, List.drop_drop]

/-- `offset` is that of the descriptor and `absPos` what the reader takes it for; the buffer has
been read up to `pos`. -/
structure Reader (α : Type) where
  offset : Nat := 0
  absPos : Nat := 0
  buffer : List α := []
  pos : Nat := 0

namespace Reader

def ahead (reader : Reader α) : List α := reader.buffer.drop reader.pos

/-- `lseek` on the descriptor, past the reader. -/
def lseek (reader : Reader α) (offset : Nat) : Reader α := { reader with offset }

/-- While something of the buffer is left, a target inside it moves `pos` and nothing else. -/
def seek (reader : Reader α) (target : Nat) : Reader α :=
  if reader.ahead ≠ [] ∧ reader.absPos ≤ target + reader.buffer.length ∧
      target ≤ reader.absPos then
    { reader with pos := target + reader.buffer.length - reader.absPos }
  else { offset := target, absPos := target }

/-- Behind what is left of the buffer, whole blocks of its size go straight to the caller, and the
rest comes out of a new buffer. -/
def read (size : Nat) (file : List α) (reader : Reader α) (count : Nat) : List α × Reader α :=
  if count ≤ reader.ahead.length then
    (reader.ahead.take count, { reader with pos := reader.pos + count })
  else
    let wanted := count - reader.ahead.length
    let blocks := span file reader.offset (wanted / size * size)
    let last := wanted - blocks.length
    let buffer := if last = 0 then [] else span file (reader.offset + blocks.length) size
    (reader.ahead ++ blocks ++ buffer.take last,
      { offset := reader.offset + blocks.length + buffer.length
        absPos := reader.absPos + blocks.length + buffer.length
        buffer
        pos := min last buffer.length })

variable {reader : Reader α}

/-- Less than a buffer is read with an empty one: a whole buffer is taken from the file. -/
theorem read_fill (drained : reader.ahead = []) (positive : 0 < count)
    (less : count < size) (inside : reader.offset + size ≤ file.length) :
    reader.read size file count =
      (span file reader.offset count,
        { offset := reader.offset + size
          absPos := reader.absPos + size
          buffer := span file reader.offset size
          pos := count }) := by
  rw [read, drained, List.length_nil, if_neg (by omega)]
  simp only [Nat.sub_zero, Nat.div_eq_of_lt less, Nat.zero_mul, span_zero, List.length_nil,
    if_neg positive.ne', Nat.add_zero, length_span inside, Nat.min_eq_left less.le,
    List.nil_append, take_span reader.offset less.le]

/-- The reader stands at a position on its way to `stop`, with the descriptor as far behind it
as the buffer reaches and a whole number of buffers before `stop`. -/
structure Toward (file : List α) (size stop : Nat) (reader : Reader α) (position : Nat) :
    Prop where
  ahead : reader.ahead = span file position reader.ahead.length
  offset : reader.offset = position + reader.ahead.length
  before : reader.offset ≤ stop
  whole : size ∣ stop - reader.offset

theorem Toward.drained (toward : reader.Toward file size stop stop) :
    reader.ahead = [] := by
  have before := toward.before
  have offset := toward.offset
  exact List.eq_nil_of_length_eq_zero (by omega)

theorem Toward.read_ahead (toward : reader.Toward file size stop position)
    (fits : count ≤ reader.ahead.length) :
    (reader.read size file count).1 = span file position count ∧
      (reader.read size file count).2.Toward file size stop (position + count) := by
  obtain ⟨ahead, offset, before, whole⟩ := toward
  have rest : ({ reader with pos := reader.pos + count } : Reader α).ahead =
      reader.ahead.drop count := by
    rw [Reader.ahead, Reader.ahead, List.drop_drop]
  rw [Reader.read, if_pos fits]
  refine ⟨?_, ?_, ?_, before, whole⟩
  · rw [ahead, take_span position fits]
  · rw [rest, List.length_drop]
    nth_rewrite 1 [ahead]
    rw [drop_span]
  · rw [rest, List.length_drop]
    change reader.offset = _
    omega

/-- The reader behind the next `count` elements, with an empty buffer. -/
def skip (reader : Reader α) (count : Nat) : Reader α where
  offset := reader.offset + count
  absPos := reader.absPos + count

theorem ahead_skip (count : Nat) : (reader.skip count).ahead = [] := List.drop_nil

/-- A read beyond the buffer is one of whole blocks, and then one of the rest. -/
theorem read_beyond {wanted : Nat} (split : count = reader.ahead.length + wanted)
    (more : 0 < wanted) (inside : reader.offset + wanted ≤ file.length) :
    reader.read size file count =
      (reader.ahead ++ span file reader.offset (wanted / size * size) ++
          ((reader.skip (wanted / size * size)).read size file (wanted % size)).1,
        ((reader.skip (wanted / size * size)).read size file (wanted % size)).2) := by
  have divided := Nat.div_add_mod' wanted size
  have width : (span file reader.offset (wanted / size * size)).length = wanted / size * size :=
    length_span (by omega)
  have remaining : count - reader.ahead.length = wanted := by omega
  have last : wanted - wanted / size * size = wanted % size := by omega
  rw [read, read, if_neg (by omega)]
  simp only [remaining, width, last, ahead_skip, List.length_nil]
  by_cases exhausted : wanted % size = 0
  · simp [exhausted, skip]
  · rw [if_neg exhausted, if_neg (by omega)]
    simp only [Nat.sub_zero, Nat.mod_div_self, Nat.zero_mul, span_zero, List.length_nil,
      if_neg exhausted, List.nil_append, skip, Nat.add_zero]

theorem Toward.skip (toward : reader.Toward file size stop position) (blocks : size ∣ count)
    (bound : reader.offset + count ≤ stop) :
    (reader.skip count).Toward file size stop (reader.offset + count) := by
  refine ⟨rfl, rfl, bound, ?_⟩
  change size ∣ stop - (reader.offset + count)
  rw [Nat.sub_add_eq]
  exact Nat.dvd_sub toward.whole blocks

/-- With an empty buffer there is room before `stop` for a new one. -/
theorem Toward.refill (toward : reader.Toward file size stop position)
    (inside : stop ≤ file.length) (drained : reader.ahead = []) (less : count < size)
    (bound : position + count ≤ stop) :
    (reader.read size file count).1 = span file position count ∧
      (reader.read size file count).2.Toward file size stop (position + count) := by
  rcases Nat.eq_zero_or_pos count with rfl | positive
  · exact toward.read_ahead (Nat.zero_le _)
  have offset : reader.offset = position := by
    rw [toward.offset, drained, List.length_nil, Nat.add_zero]
  have whole := toward.whole
  rw [offset] at whole
  have room : position + size ≤ stop := by
    have more := Nat.le_of_dvd (by omega) whole
    omega
  have rest : (span file position size).drop count =
      span file (position + count) (size - count) := drop_span position count
  have length : (span file (position + count) (size - count)).length = size - count :=
    length_span (by omega)
  rw [read_fill drained positive less (by omega)]
  simp only [offset]
  refine ⟨trivial, ?_, ?_, room, ?_⟩
  · rw [Reader.ahead, rest, length]
  · rw [Reader.ahead, rest, length]
    change position + size = _
    omega
  · change size ∣ stop - (position + size)
    rw [Nat.sub_add_eq]
    exact Nat.dvd_sub whole (Nat.dvd_refl size)

/-- A read that stays before `stop` returns what stands there. -/
theorem Toward.read (toward : reader.Toward file size stop position)
    (inside : stop ≤ file.length) (bound : position + count ≤ stop) :
    (reader.read size file count).1 = span file position count ∧
      (reader.read size file count).2.Toward file size stop (position + count) := by
  by_cases fits : count ≤ reader.ahead.length
  · exact toward.read_ahead fits
  obtain ⟨wanted, split⟩ : ∃ wanted, count = reader.ahead.length + wanted :=
    ⟨count - reader.ahead.length, by omega⟩
  have offset := toward.offset
  have divided := Nat.div_add_mod' wanted size
  have less : wanted % size < size :=
    Nat.mod_lt wanted (Nat.pos_of_dvd_of_pos toward.whole (by omega))
  have skipped := toward.skip (Nat.dvd_mul_left size (wanted / size)) (by omega)
  obtain ⟨data, later⟩ := skipped.refill inside (ahead_skip _) less (by omega)
  have front : reader.ahead ++ span file reader.offset (wanted / size * size) =
      span file position (reader.ahead.length + wanted / size * size) := by
    rw [← span_append, ← toward.ahead, ← offset]
  have start : reader.offset + wanted / size * size =
      position + (reader.ahead.length + wanted / size * size) := by omega
  have total : reader.ahead.length + wanted / size * size + wanted % size = count := by omega
  rw [start, Nat.add_assoc, total] at later
  rw [read_beyond split (by omega) (by omega), data, front, start, span_append, total]
  exact ⟨rfl, later⟩

end Reader

end Chimaera.Base.Buffered
