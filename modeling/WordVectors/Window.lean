import WordVectors.Number.Binary
import WordVectors.Store.Basic
import WordVectors.Text.Quoted

/-!
# Windows over a file

A large file is read through a window of bounded size. The window starts at the front of the file
and moves by whole *strides*: once the position in it is past the stride, it can be moved on by
one, and the position moves back by as much, so that the place in the file stays the same. A read
never moves the window, so a token or vector has to lie in it completely. The file is an array that
all windows over it share.

## Main definitions

* `Window`: a part of a file with a position in it
* `Window.ofFile`: the window at the front of a file
* `Window.readUntil`, `Window.readToken`, `Window.readFloats`: reads that move the position
* `Window.isDue`, `Window.advance`: whether the window can be moved, and the move

## Main results

* `Window.octets_eq`, `Window.place?_eq`: reads and searches in the file are slices of the view and
  searches in it
-/

namespace WordVectors

/-! ## Byte orders -/

/-- The order of the octets of a stored number. -/
inductive ByteOrder where
  /-- Least significant octet first. -/
  | little
  /-- Most significant octet first. -/
  | big
deriving DecidableEq, Repr

namespace ByteOrder

/-- The name of a byte order. -/
def name : ByteOrder → String
  | little => "little"
  | big => "big"

/-- The byte order with a given name. -/
def ofName? (name : String) : Option ByteOrder :=
  [little, big].find? fun order => order.name == name

/-- The number stored in four octets. -/
def float (order : ByteOrder) (bs : Bytes) : Binary32 :=
  match order with
  | little => .ofBytes bs
  | big => .ofBytes bs.reverse

end ByteOrder

/-! ## Failures -/

/-- Why a window cannot be opened, moved or read. -/
inductive WindowError where
  /-- The stride is not a multiple of the granularity. -/
  | granularity (stride : Int)
  /-- The stride is not below the greatest size. -/
  | stride (stride limit : Int)
  /-- The size of a window, or the position to search from, is out of range. -/
  | sizeRange
  | offsetRange
  | negativeSize
  | negativeOffset
  /-- There is nothing to see in an empty file. -/
  | emptyFile
  /-- The window would start at or after the end of the file. -/
  | pastEnd
  /-- What is wanted at `position` does not end inside the window from `first` to `last`. -/
  | crossing (wanted : String) (position first last : Int)
  /-- The file ends inside what is wanted at `position`. -/
  | truncated (wanted : String) (position : Int)
  /-- The octets read are not whole numbers. -/
  | partialNumber
deriving DecidableEq, Repr

namespace Window

/-- Offsets of windows are multiples of this. -/
def granularity : Int := 4096

/-- Sizes, offsets and positions that lead out of a file are below this, and not below its
negation. -/
def addressLimit : Int := 0x8000000000000000

/-- Whether a number can be a size, an offset or a position to search from among `extent` octets.
One that does not lead out of them always can. -/
def isAddress (extent : Nat) (n : Int) : Bool :=
  -addressLimit ≤ n && (n < addressLimit || n ≤ extent)

theorem isAddress_of_le {extent : Nat} {n : Int} (h₀ : 0 ≤ n) (h : n ≤ extent) :
    isAddress extent n = true := by
  simp only [isAddress, Bool.and_eq_true, Bool.or_eq_true, decide_eq_true_eq]
  exact ⟨Int.le_trans (by decide) h₀, .inr h⟩

end Window

namespace WindowError

/-- The wording of a window error. -/
def message : WindowError → String
  | granularity value =>
    s!"remap_threshold ({value}) must be a multiple of {Window.granularity}"
  | stride value limit =>
    s!"remap_threshold ({value}) must be smaller than map_limit ({limit})"
  | sizeRange => "Python int too large to convert to C ssize_t"
  | offsetRange => "Python int too large to convert to C long"
  | negativeSize => "memory mapped length must be positive"
  | negativeOffset => "memory mapped offset must be positive"
  | emptyFile => "cannot mmap an empty file"
  | pastEnd => "mmap offset is greater than file size"
  | crossing wanted position first last =>
    s!"{wanted} at offset {position} crosses the end of the mapped view ({first}..{last})"
  | truncated wanted position =>
    s!"Unexpected end of file at offset {position} while reading {wanted}"
  | partialNumber => "buffer size must be a multiple of element size"

/-- Whether the error tells that what was wanted does not end inside the window or the file. -/
def isEnd : WindowError → Bool
  | crossing .. => true
  | truncated .. => true
  | _ => false

end WindowError

/-! ## Windows -/

/-- **A part of a file with a position in it.** -/
structure Window where
  /-- The whole file. -/
  file : Array UInt8
  /-- The greatest size of a window. -/
  limit : Int
  /-- How far the window moves at a time. -/
  stride : Int
  /-- How often the window was moved. -/
  moves : Nat
  /-- The position, counted from the start of the window. -/
  position : Int
  /-- The start of the window, counted from the start of the file. -/
  offset : Nat
  /-- The number of octets in the window. -/
  size : Nat
  /-- The window lies in the file. -/
  inside : offset + size ≤ file.size

namespace Window

/-- The size of the window of at most `limit` octets that starts at `offset`, in a file of
`extent` octets. A window of size zero extends to the end of the file. -/
def sizeAt (extent : Nat) (limit offset : Int) : Except WindowError Nat :=
  let size := min ((extent : Int) - offset) limit
  if !isAddress extent size then .error .sizeRange
  else if !isAddress extent offset then .error .offsetRange
  else if size < 0 then .error .negativeSize
  else if offset < 0 then .error .negativeOffset
  else if size = 0 then
    if extent = 0 then .error .emptyFile
    else if (extent : Int) ≤ offset then .error .pastEnd
    else .ok (extent - offset.toNat)
  else .ok size.toNat

theorem sizeAt_le {extent size : Nat} {limit offset : Int}
    (h : sizeAt extent limit offset = .ok size) : offset.toNat + size ≤ extent := by
  simp only [sizeAt] at h
  repeat' split at h
  all_goals
    cases h
    try omega

/-- **The window at the front of a file.** -/
def ofFile (file : Bytes) (limit stride : Int) : Except WindowError Window :=
  if stride % granularity ≠ 0 then .error (.granularity stride)
  else if limit ≤ stride then .error (.stride stride limit)
  else
    let file := file.toArray
    match h : sizeAt file.size limit 0 with
    | .error e => .error e
    | .ok size => .ok {
        file, limit, stride, moves := 0, position := 0, offset := 0, size
        inside := sizeAt_le h }

variable (w : Window)

/-! ### The view -/

/-- **The octets in the window.** -/
def view : Bytes := (w.file.toList.drop w.offset).take w.size

@[simp] theorem length_view : w.view.length = w.size := by
  have := w.inside
  simp only [view, List.length_take, List.length_drop, Array.length_toList]
  omega

/-- The octets from `start` up to `stop`, each bound read by `Bytes.bound`. -/
def octets (start stop : Int) : Bytes :=
  (w.file.extract (w.offset + Bytes.bound w.size start)
    (w.offset + Bytes.bound w.size stop)).toList

theorem octets_eq (start stop : Int) : w.octets start stop = Bytes.slice w.view start stop := by
  have hle := Bytes.bound_le w.size stop
  rw [octets, Bytes.slice, length_view, Array.toList_extract, List.extract_eq_take_drop, view,
    List.drop_take, List.drop_drop, List.take_take]
  congr 1
  omega

/-- The first place of `pattern` at or after the position. -/
def place? (pattern : Bytes) : Option Nat :=
  let first := Bytes.bound w.size w.position
  (Bytes.findIn w.file pattern (w.size - first) (w.offset + first)).map (· - w.offset)

theorem place?_eq (pattern : Bytes) :
    w.place? pattern = Bytes.findFrom pattern w.view w.position := by
  have hin := w.inside
  have hle := Bytes.bound_le w.size w.position
  simp only [place?, Bytes.findFrom, length_view]
  rw [Bytes.findIn_eq (by omega), view, List.drop_take, List.drop_drop, Option.map_map]
  congr 1
  funext i
  simp only [Function.comp_apply]
  omega

/-! ### Reads -/

/-- The position, counted from the start of the file. -/
def filePosition : Int := w.offset + w.position

/-- The error of a read that finds no end of what is wanted. -/
def endError (wanted : String) : WindowError :=
  let last := w.offset + w.size
  if last < w.file.size then .crossing wanted w.filePosition w.offset last
  else .truncated wanted w.filePosition

/-- The octets before the next place of `terminator`; the position moves past that place. -/
def readUntil (terminator : Bytes) (wanted : String) : Except WindowError (Bytes × Window) :=
  if !isAddress w.size w.position then .error .sizeRange
  else match w.place? terminator with
  | none => .error (w.endError wanted)
  | some stop => .ok (w.octets w.position stop,
      { w with position := (stop + terminator.length : Nat) })

/-- The octet that ends a token. -/
def space : UInt8 := 0x20

/-- The octet that ends a line. -/
def newline : UInt8 := 0x0A

/-- The octets before the next space without the newlines among them. A newline may follow each
vector, and then stands in front of the next token. -/
def readToken : Except WindowError (Bytes × Window) := do
  let (octets, w) ← w.readUntil [space] "token"
  .ok (octets.filter (· ≠ newline), w)

/-- `count` numbers of four octets each. -/
def readFloats (count : Int) (order : ByteOrder) : Except WindowError (List Binary32 × Window) :=
  let stop := w.position + count * 4
  if w.size < stop then .error (w.endError "vector")
  else
    let octets := w.octets w.position stop
    if octets.length % 4 ≠ 0 then .error .partialNumber
    else .ok ((chunks 4 (octets.length / 4) octets).map order.float, { w with position := stop })

/-! ### Moves -/

/-- Whether the position is past the stride. -/
def isDue : Bool := w.stride < w.position

/-- The window with its counters moved on by one stride, but still in its old place. -/
def moved : Window :=
  { w with moves := w.moves + 1, position := w.position - w.stride }

/-- Where the window starts after its next move. -/
def nextOffset : Int := w.stride * (w.moves + 1)

/-- **The window moved on by one stride.** If there is no window there, the counters have moved
and the window is in its old place. -/
def advance : Window × Except WindowError Unit :=
  match h : sizeAt w.file.size w.limit w.nextOffset with
  | .error e => (w.moved, .error e)
  | .ok size =>
    ({ w.moved with offset := w.nextOffset.toNat, size, inside := sizeAt_le h }, .ok ())

end Window

end WordVectors
