import WordVectors.Window

/-!
# Runs of a window

A read of a window is a read of the octets ahead of its position, as far as the window goes, and a
move does not change which octets those are. An invariant ties the counters of a window to its
place in the file; reads and moves keep it, and with it a move that is due cannot fail.

## Main definitions

* `Window.Sound`: what holds of a window in every run
* `Window.left`, `Window.reach`: the octets up to the end of the file, and how many are in reach
* `Window.forward`: the window with its position moved on

## Main results

* `Window.readUntil_of_mem`, `Window.readUntil_of_not_mem`: a search reads the octets in reach
* `Window.readFloats_of_le`, `Window.readFloats_of_lt`: numbers are read if they are in reach
* `Window.advance_of_isDue`: a move that is due succeeds and keeps the place in the file
-/

namespace WordVectors

/-! ## Searches for one octet -/

theorem Bytes.find?_singleton (b : UInt8) (bs : Bytes) :
    Bytes.find? [b] bs = if b ∈ bs then some (bs.takeWhile (· ≠ b)).length else none := by
  induction bs with
  | nil => rfl
  | cons c bs ih =>
    by_cases h : c = b
    · subst h
      simp [find?]
    · have hb : b ≠ c := fun hb => h hb.symm
      have hc : List.isPrefixOf [b] (c :: bs) = false := by
        simp [List.isPrefixOf, hb]
      rw [find?, hc, ih]
      by_cases hm : b ∈ bs <;> simp [hm, hb, h]

/-- A prefix that holds the octet is searched like the whole. -/
theorem Bytes.takeWhile_take {b : UInt8} {bs : Bytes} {n : Nat} (h : b ∈ bs.take n) :
    (bs.take n).takeWhile (· ≠ b) = bs.takeWhile (· ≠ b) := by
  induction bs generalizing n with
  | nil => simp at h
  | cons c bs ih =>
    cases n with
    | zero => simp at h
    | succ n =>
      by_cases hc : c = b
      · simp [hc]
      · have hm : b ∈ bs.take n := by
          rw [List.take_succ_cons, List.mem_cons] at h
          exact h.resolve_left fun hb => hc hb.symm
        rw [List.take_succ_cons, List.takeWhile_cons_of_pos (by simpa using hc),
          List.takeWhile_cons_of_pos (by simpa using hc), ih hm]

theorem Bytes.mem_take_iff {b : UInt8} {bs : Bytes} (h : b ∈ bs) (n : Nat) :
    b ∈ bs.take n ↔ (bs.takeWhile (· ≠ b)).length < n := by
  induction bs generalizing n with
  | nil => simp at h
  | cons c bs ih =>
    cases n with
    | zero => simp
    | succ n =>
      by_cases hc : c = b
      · simp [hc]
      · have hb : b ≠ c := fun hb => hc hb.symm
        have hm : b ∈ bs := by simpa [hb] using h
        simp [hb, hc, ih hm]

theorem Bytes.length_takeWhile_lt {b : UInt8} {bs : Bytes} (h : b ∈ bs) :
    (bs.takeWhile (· ≠ b)).length < bs.length :=
  (Bytes.mem_take_iff h bs.length).1 (by rwa [List.take_length])

theorem Bytes.bound_of_le {size : Nat} {n : Int} (h₀ : 0 ≤ n) (h : n ≤ size) :
    Bytes.bound size n = n.toNat := by
  simp only [bound]
  split <;> omega

namespace Window

variable {w : Window}

/-! ## The invariant -/

/-- **What holds of a window in every run**: it starts a whole number of strides into the file,
has the greatest size there, and the position is in it. -/
structure Sound (w : Window) : Prop where
  stride_pos : 0 < w.stride
  stride_lt : w.stride < w.limit
  /-- The window starts a whole number of strides into the file. -/
  offset_eq : (w.offset : Int) = w.stride * w.moves
  /-- The window has the greatest size at its place. -/
  size_eq : (w.size : Int) = min ((w.file.size : Int) - w.offset) w.limit
  position_nonneg : 0 ≤ w.position
  position_le : w.position ≤ w.size

/-- The octets from the position up to the end of the file. -/
def left (w : Window) : Bytes := w.file.toList.drop w.filePosition.toNat

/-- The number of octets from the position up to the end of the window. -/
def reach (w : Window) : Nat := (w.size - w.position).toNat

/-- The window with its position moved on by `count` octets. -/
def forward (w : Window) (count : Nat) : Window := { w with position := w.position + count }

@[simp] theorem forward_file (n : Nat) : (w.forward n).file = w.file := rfl

@[simp] theorem forward_limit (n : Nat) : (w.forward n).limit = w.limit := rfl

@[simp] theorem forward_stride (n : Nat) : (w.forward n).stride = w.stride := rfl

@[simp] theorem forward_offset (n : Nat) : (w.forward n).offset = w.offset := rfl

@[simp] theorem forward_size (n : Nat) : (w.forward n).size = w.size := rfl

@[simp] theorem forward_moves (n : Nat) : (w.forward n).moves = w.moves := rfl

@[simp] theorem forward_position (n : Nat) : (w.forward n).position = w.position + n := rfl

@[simp] theorem forward_filePosition (n : Nat) :
    (w.forward n).filePosition = w.filePosition + n := by
  simp only [filePosition, forward_offset, forward_position, Int.add_assoc]

@[simp] theorem forward_forward (m n : Nat) : (w.forward m).forward n = w.forward (m + n) := by
  simp only [forward, Int.add_assoc, Int.natCast_add]

@[simp] theorem reach_forward (n : Nat) : (w.forward n).reach = w.reach - n := by
  simp only [reach, forward_size, forward_position]
  omega

/-! ## Windows with a position behind their start -/

section

variable (h : 0 ≤ w.position)
include h

theorem left_forward (n : Nat) : (w.forward n).left = w.left.drop n := by
  rw [left, left, forward_filePosition, forward_file, List.drop_drop]
  congr 1
  simp only [filePosition]
  omega

/-- The part of the view behind the position is what is in reach of the octets left. -/
theorem drop_view : w.view.drop (Bytes.bound w.size w.position) = w.left.take w.reach := by
  simp only [Bytes.bound, if_neg (Int.not_lt.2 h)]
  rcases Int.lt_or_le w.size w.position with hlt | hle
  · have hnone : w.reach = 0 := by
      simp only [reach]
      omega
    rw [hnone, List.take_zero, Nat.min_eq_right (by omega), List.drop_eq_nil_iff]
    exact Nat.le_of_eq w.length_view
  · rw [Nat.min_eq_left (by omega), view, left, List.drop_take, List.drop_drop]
    congr 1
    · simp only [reach]
      omega
    · congr 1
      simp only [filePosition]
      omega

/-- The next place of an octet in the view is the first among the octets left, if that is in
reach. -/
theorem place?_singleton (b : UInt8) :
    w.place? [b] = if b ∈ w.left.take w.reach then
      some ((w.left.takeWhile (· ≠ b)).length + w.position.toNat) else none := by
  rw [place?_eq, Bytes.findFrom, length_view, drop_view h, Bytes.find?_singleton]
  by_cases hb : b ∈ w.left.take w.reach
  · have hreach : 0 < w.reach := by
      have := List.length_pos_of_mem hb
      rw [List.length_take] at this
      omega
    have hle : w.position ≤ w.size := by
      simp only [reach] at hreach
      omega
    rw [if_pos hb, if_pos hb, Bytes.takeWhile_take hb, Bytes.bound_of_le h hle, Option.map_some]
  · rw [if_neg hb, if_neg hb, Option.map_none]

theorem octets_eq_take {n : Nat} (hn : w.position + n ≤ w.size) :
    w.octets w.position (w.position + n) = w.left.take n := by
  rw [octets_eq, Bytes.slice, length_view, drop_view h, Bytes.bound_of_le h (by omega),
    Bytes.bound_of_le (by omega) hn, List.take_take]
  congr 1
  simp only [reach]
  omega

theorem readUntil_of_mem {b : UInt8} (hb : b ∈ w.left.take w.reach) (wanted : String) :
    w.readUntil [b] wanted = .ok (w.left.takeWhile (· ≠ b),
      w.forward ((w.left.takeWhile (· ≠ b)).length + 1)) := by
  have hlt : (w.left.takeWhile (· ≠ b)).length < w.reach :=
    (Bytes.mem_take_iff (List.mem_of_mem_take hb) w.reach).1 hb
  have hle : w.position + (w.left.takeWhile (· ≠ b)).length ≤ w.size := by
    simp only [reach] at hlt
    omega
  have hin : isAddress w.size w.position = true := isAddress_of_le h (by omega)
  -- What is read is cut from the file by its place there, not from the view.
  have hoctets : w.octets w.position
      (((w.left.takeWhile (· ≠ b)).length + w.position.toNat : Nat) : Int) =
        w.left.takeWhile (· ≠ b) := by
    have hcast : (((w.left.takeWhile (· ≠ b)).length + w.position.toNat : Nat) : Int) =
        w.position + (w.left.takeWhile (· ≠ b)).length := by omega
    rw [hcast, octets_eq_take h hle]
    exact List.prefix_iff_eq_take.1 (List.takeWhile_prefix _) |>.symm
  simp only [readUntil, hin, place?_singleton h, if_pos hb, Bool.not_true, Bool.false_eq_true,
    if_false, hoctets, forward, List.length_singleton]
  congr 3
  omega

theorem readFloats_of_le (order : ByteOrder) {count : Nat}
    (hc : w.position + (4 * count : Nat) ≤ w.size) :
    w.readFloats count order = .ok ((chunks 4 count (w.left.take (4 * count))).map order.float,
      w.forward (4 * count)) := by
  have hcast : (count : Int) * 4 = (4 * count : Nat) := by omega
  have hlen : (w.left.take (4 * count)).length = 4 * count := by
    have := w.inside
    simp only [left, filePosition, List.length_take, List.length_drop, Array.length_toList]
    omega
  simp only [readFloats, hcast, if_neg (Int.not_lt.2 hc), octets_eq_take h hc, hlen]
  rw [if_neg (by omega), Nat.mul_div_cancel_left count (by decide)]
  rfl

end

namespace Sound

theorem forward (h : w.Sound) {n : Nat} (hn : n ≤ w.reach) : (w.forward n).Sound where
  stride_pos := h.stride_pos
  stride_lt := h.stride_lt
  offset_eq := h.offset_eq
  size_eq := h.size_eq
  position_nonneg := by
    have := h.position_nonneg
    simp only [forward_position]
    omega
  position_le := by
    have := h.position_le
    simp only [reach] at hn
    simp only [forward_position, forward_size]
    omega

theorem left_forward (h : w.Sound) (n : Nat) : (w.forward n).left = w.left.drop n :=
  Window.left_forward h.position_nonneg n

theorem length_left (h : w.Sound) : (w.left.length : Int) = w.file.size - w.filePosition := by
  have := w.inside
  have := h.position_le
  have := h.position_nonneg
  simp only [left, filePosition, List.length_drop, Array.length_toList]
  omega

theorem reach_le_length_left (h : w.Sound) : w.reach ≤ w.left.length := by
  have := h.length_left
  have := w.inside
  have := h.position_le
  simp only [reach, filePosition] at *
  omega

end Sound

/-! ## Reads -/

theorem readUntil_of_not_mem (h : w.Sound) {b : UInt8} (hb : b ∉ w.left.take w.reach)
    (wanted : String) : w.readUntil [b] wanted = .error (w.endError wanted) := by
  have hin : isAddress w.size w.position = true :=
    isAddress_of_le h.position_nonneg h.position_le
  simp [readUntil, hin, place?_singleton h.position_nonneg, hb]

theorem readFloats_of_lt (h : w.Sound) (order : ByteOrder) {count : Nat}
    (hc : w.reach < 4 * count) : w.readFloats count order = .error (w.endError "vector") := by
  have hp := h.position_le
  have hlt : (w.size : Int) < w.position + count * 4 := by
    simp only [reach] at hc
    omega
  simp only [readFloats, if_pos hlt]

/-! ## Ends -/

/-- A window from which the end of the file can be seen has all octets that are left in reach. -/
theorem reach_eq_of_sees_end (h : w.Sound) (hend : w.file.size ≤ w.offset + w.size) :
    w.reach = w.left.length := by
  have := h.length_left
  have := h.position_le
  have := w.inside
  simp only [reach, filePosition] at *
  omega

theorem endError_of_lt (h : w.offset + w.size < w.file.size) (wanted : String) :
    w.endError wanted = .crossing wanted w.filePosition w.offset (w.offset + w.size) := by
  simp only [endError]
  rw [if_pos (by omega), Int.natCast_add]

theorem endError_of_le (h : w.file.size ≤ w.offset + w.size) (wanted : String) :
    w.endError wanted = .truncated wanted w.filePosition := by
  simp only [endError]
  rw [if_neg (by omega)]

/-! ## Moves -/

/-- A window that starts inside the file goes as far as the file or the limit does. -/
theorem sizeAt_of_lt {fileSize : Nat} {limit offset : Int} (hlimit : 0 < limit) (h₀ : 0 ≤ offset)
    (h : offset < fileSize) :
    sizeAt fileSize limit offset = .ok (min ((fileSize : Int) - offset) limit).toNat := by
  have hsize : isAddress fileSize (min ((fileSize : Int) - offset) limit) = true :=
    isAddress_of_le (by omega) (by omega)
  have hoffset : isAddress fileSize offset = true := isAddress_of_le h₀ (by omega)
  simp only [sizeAt, hsize, hoffset, Bool.not_true, Bool.false_eq_true, if_false]
  rw [if_neg (by omega), if_neg (by omega), if_neg (by omega)]

/-- **A move that is due succeeds**, keeps the invariant and does not change the place in the
file. -/
theorem advance_of_isDue (h : w.Sound) (hdue : w.isDue = true) :
    ∃ w', w.advance = (w', .ok ()) ∧ w'.Sound ∧ w'.file = w.file ∧ w'.limit = w.limit ∧
      w'.stride = w.stride ∧ w'.filePosition = w.filePosition ∧
      w'.position = w.position - w.stride ∧ w'.moves = w.moves + 1 := by
  have hpos := h.stride_pos
  have hlt := h.stride_lt
  have hin := w.inside
  have hle := h.position_le
  have hsize := h.size_eq
  have hoff := h.offset_eq
  have hdue' : w.stride < w.position := by simpa [isDue] using hdue
  have hnext : w.nextOffset = w.offset + w.stride := by
    rw [nextOffset, hoff, Int.mul_add, Int.mul_one]
  have hinside : w.nextOffset < w.file.size := by omega
  have hnonneg : 0 ≤ w.nextOffset := by omega
  have hat := sizeAt_of_lt (Int.lt_trans hpos hlt) hnonneg hinside
  rw [advance]
  split
  · next e he =>
    rw [hat] at he
    cases he
  · next size hs =>
    have hsz : size = (min ((w.file.size : Int) - w.nextOffset) w.limit).toNat := by
      rw [hat] at hs
      exact (Except.ok.inj hs).symm
    refine ⟨_, rfl, ⟨hpos, hlt, ?_, ?_, ?_, ?_⟩, rfl, rfl, rfl, ?_, rfl, rfl⟩
    · exact Int.toNat_of_nonneg hnonneg
    · simp only [moved]
      omega
    · simp only [moved]
      omega
    · simp only [moved]
      omega
    · simp only [filePosition, moved]
      omega

/-! ## The first window -/

/-- A window that was opened is at the front of its file. -/
theorem front_of_ofFile_eq_ok {file : Bytes} {limit stride : Int}
    (h : ofFile file limit stride = .ok w) :
    stride % granularity = 0 ∧ stride < limit ∧ w.file = file.toArray ∧ w.limit = limit ∧
      w.stride = stride ∧ w.position = 0 ∧ w.offset = 0 ∧ w.moves = 0 := by
  simp only [ofFile] at h
  split at h
  · cases h
  · next hgranular =>
    split at h
    · cases h
    · next hlt =>
      split at h
      · cases h
      · obtain rfl := Except.ok.inj h
        exact ⟨Decidable.not_not.1 hgranular, Int.not_le.1 hlt, rfl, rfl, rfl, rfl, rfl, rfl⟩

/-- There is no window over an empty file. -/
theorem ne_nil_of_ofFile_eq_ok {file : Bytes} {limit stride : Int}
    (h : ofFile file limit stride = .ok w) : file ≠ [] := by
  rintro rfl
  simp only [ofFile] at h
  split at h
  · cases h
  · split at h
    · cases h
    · split at h
      · cases h
      · next size hsize =>
        simp only [sizeAt, List.size_toArray, List.length_nil] at hsize
        repeat' split at hsize
        all_goals
          cases hsize
          try omega

/-- The window at the front of a file that is not empty. -/
theorem ofFile_of_admissible {file : Bytes} {limit stride : Int} (hne : file ≠ [])
    (hpos : 0 < stride) (hgran : stride % granularity = 0) (hlt : stride < limit) :
    ∃ w, ofFile file limit stride = .ok w ∧ w.Sound ∧ w.file = file.toArray ∧ w.limit = limit ∧
      w.stride = stride ∧ w.position = 0 ∧ w.offset = 0 ∧ w.moves = 0 := by
  have hlen : 0 < file.toArray.size := by
    rw [List.size_toArray]
    exact List.length_pos_iff.2 hne
  have hat := sizeAt_of_lt (Int.lt_trans hpos hlt) (Int.le_refl 0) (Int.natCast_pos.2 hlen)
  rw [ofFile, if_neg (by simpa using hgran), if_neg (by omega)]
  dsimp only
  split
  · next e he =>
    rw [hat] at he
    cases he
  · next size hs =>
    have hsz : size = (min ((file.toArray.size : Int) - 0) limit).toNat := by
      rw [hat] at hs
      exact (Except.ok.inj hs).symm
    refine ⟨_, rfl, ⟨hpos, hlt, ?_, ?_, ?_, ?_⟩, rfl, rfl, rfl, rfl, rfl, rfl⟩
    · simp
    · simp only
      omega
    · simp
    · simp only
      omega

end Window

end WordVectors
