import Chimaera.Base.BigEndian
import Chimaera.Base.Buffered
import Chimaera.Base.Files
import Chimaera.Base.Text

/-! `build-guest-disk.py`: the boot record of the disk image and the copy of the file system
into it, which skips the holes of the source. The script looks for the extents with `os.lseek` on
the descriptor of a buffered file, so what `source.read` returns behind the first extent depends
on what is left in the buffer of `source`. -/

namespace Chimaera.Containers.Disk
open Base.BigEndian Base.Files Base.Text Base.Unsigned
open Base.Buffered (Reader span length_span)

inductive Exception where
  | structError
  | runtimeError (what : Line)
  deriving DecidableEq, Repr

def mebibyte : Nat := 1024 * 1024

def offset : Nat := 2 * 1024 * 1024

/-! ## The boot record -/

def little (value : Nat) : Except Exception (List Byte) :=
  if value < 256 ^ 4 then .ok (write 4 value).reverse else .error .structError

/-- `<B3sB3sII` with the values of a partition: not active, addressed by sectors only, Linux. -/
def entry (start count : Nat) : Except Exception (List Byte) := do
  let first ← little start
  let sectors ← little count
  .ok ([0] ++ [0xfe, 0xff, 0xff] ++ [0x83] ++ [0xfe, 0xff, 0xff] ++ first ++ sectors)

def packInto (buffer : List Byte) (position : Nat) (bytes : List Byte) : List Byte :=
  overwrite 0 buffer position bytes

def bootRecord (diskId size : Nat) : Except Exception (List Byte) := do
  let mbr := List.replicate 512 0
  let mbr := packInto mbr 440 (← little diskId)
  let mbr ← [(0, 2048, 2048), (1, offset / 512, size / 512)].foldlM
    (fun mbr (index, start, count) => do
      .ok (packInto mbr (446 + index * 16) (← entry start count))) mbr
  .ok (packInto mbr 510 [0x55, 0xaa])

/-! ## The copy -/

structure Output where
  content : List Byte := []
  position : Nat := 0

def Output.write (output : Output) (block : List Byte) : Output where
  content := overwrite 0 output.content output.position block
  position := output.position + block.length

def Output.truncate (output : Output) (size : Nat) : Output :=
  { output with content := resize 0 output.content size }

def Output.seek (output : Output) (position : Nat) : Output := { output with position }

/-- The file system image: its bytes, and which of them are in data extents. Holes read as
zeros. -/
structure Image where
  bytes : List Byte
  data : Nat → Bool
  hole : ∀ position, data position = false → bytes.getD position 0 = 0

def Image.seekData (image : Image) (position : Nat) : Option Nat :=
  firstFrom image.data position image.bytes.length

/-- `lseek` with `SEEK_HOLE`; there is a hole at the end of the file. -/
def Image.seekHole (image : Image) (position : Nat) : Nat :=
  (firstFrom (fun other => !image.data other) position image.bytes.length).getD image.bytes.length

section Copy

variable (bufferSize : Nat) (image : Image)

def copyExtent (stop : Nat) :
    Nat → Reader Byte → Output → Nat → Option (Except Exception (Reader Byte × Output))
  | fuel, source, output, start =>
      if start < stop then
        match fuel with
        | 0 => none
        | fuel + 1 =>
            let (block, source) :=
              source.read bufferSize image.bytes (min mebibyte (stop - start))
            if block = [] then some (.error (.runtimeError (text "Unexpected filesystem EOF")))
            else copyExtent stop fuel source (output.write block) (start + block.length)
      else some (.ok (source, output))

def copy (size : Nat) : Nat → Reader Byte → Output → Nat → Option (Except Exception Output)
  | fuel, source, output, current =>
      if current < size then
        match fuel with
        | 0 => none
        | fuel + 1 =>
            match image.seekData current with
            | none => some (.ok output)
            | some start =>
                let source := source.lseek start
                let hole := image.seekHole start
                let source := source.lseek hole
                let stop := min hole size
                match copyExtent bufferSize image stop fuel (source.seek start)
                    (output.seek (offset + start)) start with
                | none => none
                | some (.error raised) => some (.error raised)
                | some (.ok (source, output)) => copy size fuel source output stop
      else some (.ok output)

def build (diskId size fuel : Nat) : Option (Except Exception (List Byte)) :=
  match bootRecord diskId size with
  | .error raised => some (.error raised)
  | .ok mbr =>
      let output := (({} : Output).write mbr).truncate (offset + size)
      (copy bufferSize image size fuel {} output 0).map fun copied => copied.map Output.content

end Copy

/-! ## The parts of the boot record -/

def entryHead : List Byte := [0, 0xfe, 0xff, 0xff, 0x83, 0xfe, 0xff, 0xff]

def record (diskId size : Nat) : List Byte :=
  List.replicate 440 0 ++ (write 4 diskId).reverse ++ List.replicate 2 0 ++
    (entryHead ++ (write 4 2048).reverse ++ (write 4 2048).reverse) ++
    (entryHead ++ (write 4 (offset / 512)).reverse ++ (write 4 (size / 512)).reverse) ++
    List.replicate 32 0 ++ [0x55, 0xaa]

def number32 (bytes : List Byte) : Nat := read bytes.reverse

def partition (content : List Byte) (index : Nat) : Nat × Nat :=
  let bytes := (content.drop (446 + index * 16)).drop 8
  (number32 (bytes.take 4), number32 ((bytes.drop 4).take 4))

/-- The region of the disk when the copy has come to a position: the bytes up to there, then the
zeros of the new file. -/
def Image.copied (image : Image) (position : Nat) : List Byte :=
  image.bytes.take position ++ List.replicate (image.bytes.length - position) 0

section Loops

variable {bufferSize : Nat} {image : Image}

/-- The outer loop stands where no extent goes on: at the start, in a hole or at the end. -/
def Image.Border (image : Image) (current : Nat) : Prop :=
  current = 0 ∨ image.data current = false ∨ image.bytes.length ≤ current

theorem Image.Border.starts {current start : Nat} (border : image.Border current)
    (found : image.seekData current = some start) :
    start = 0 ∨ image.data (start - 1) = false := by
  obtain ⟨ordered, inside, data, before⟩ := firstFrom_eq_some found
  rcases Nat.eq_or_lt_of_le ordered with rfl | later
  · rcases border with first | hole | beyond
    · exact .inl first
    · rw [hole] at data
      cases data
    · omega
  · exact .inr (before (start - 1) (by omega) (by omega))

end Loops

/-! ## The disk -/

/-- What `disk.img` has to be for an image: the boot record, zeros up to the root partition and
the image, with a table whose two partitions lie apart and whose second is the image. -/
structure Exact (image : Image) (diskId : Nat) (content : List Byte) : Prop where
  length : content.length = offset + image.bytes.length
  record : bootRecord diskId image.bytes.length = .ok (content.take 512)
  gap : ∀ position, 512 ≤ position → position < offset → content[position]? = some 0
  copied : content.drop offset = image.bytes
  apart : (partition content 0).1 + (partition content 0).2 ≤ (partition content 1).1
  region : (partition content 1).1 * 512 = offset ∧
    (partition content 1).2 * 512 = image.bytes.length

def apart (position : Nat) : Bool :=
  decide (position < 4096 ∨ 8192 ≤ position ∧ position < 12288)

def apartByte (position : Nat) : Byte := if apart position then 1 else 0

theorem apart_hole (position : Nat) (hole : apart position = false) :
    ((List.range mebibyte).map apartByte).getD position 0 = 0 := by
  rw [List.getD_eq_getElem?_getD, List.getElem?_map]
  by_cases inside : position < mebibyte
  · rw [List.getElem?_range inside, Option.map_some, Option.getD_some, apartByte, hole]
    rfl
  · rw [List.getElem?_eq_none (by rw [List.length_range]; omega)]
    rfl

def split : Image where
  bytes := (List.range mebibyte).map apartByte
  data := apart
  hole := apart_hole

end Chimaera.Containers.Disk
