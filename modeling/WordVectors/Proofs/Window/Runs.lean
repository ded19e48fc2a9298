import Mathlib.Data.List.Forall2
import WordVectors.Error
import WordVectors.Proofs.Window

/-!
# Reads and moves in any order

Whoever reads a file through a window may ask for octets, tokens and numbers in any order, goes on
after a read that failed, and moves the window on whenever that is due. In every such run the window
shows the part of the file that its counters tell, every move that is due succeeds, and what was
read is the front of the file up to the position, no octet twice and none left out.

## Main definitions

* `Window.Read`, `Window.read`: the reads of a window
* `Window.Run`: the runs of reads and moves, with what the reads gave
* `Window.Consumes`: the octets that a read took to give what it gave

## Main results

* `Window.Sound.exists_consumes`: a read takes the next octets, as many as the position moves
* `Window.Run.sound`, `Window.Run.exists_consumes`: what a run keeps
* `Window.run_invariant`: all runs of the windows over a file
-/

namespace WordVectors

/-! ## Searches -/

/-- **What a search finds** is a place of the pattern, and there is no place in front of it. -/
theorem Bytes.exists_of_find?_eq_some {pattern bs : Bytes} {i : ℕ}
    (h : Bytes.find? pattern bs = some i) :
    ∃ front back, bs = front ++ (pattern ++ back) ∧ front.length = i ∧
      ∀ front' back', bs = front' ++ (pattern ++ back') → i ≤ front'.length := by
  induction bs generalizing i with
  | nil =>
    rw [find?] at h
    split at h
    · next hempty =>
      obtain rfl := Option.some.inj h
      exact ⟨[], [], by rw [List.isEmpty_iff.1 hempty]; rfl, rfl, fun _ _ _ => Nat.zero_le _⟩
    · cases h
  | cons b bs ih =>
    rw [find?] at h
    split at h
    · next hprefix =>
      obtain rfl := Option.some.inj h
      obtain ⟨back, hback⟩ := List.isPrefixOf_iff_prefix.1 hprefix
      exact ⟨[], back, hback.symm, rfl, fun _ _ _ => Nat.zero_le _⟩
    · next hprefix =>
      obtain ⟨j, hj, rfl⟩ := Option.map_eq_some_iff.1 h
      obtain ⟨front, back, rfl, rfl, hfirst⟩ := ih hj
      refine ⟨b :: front, back, rfl, rfl, fun front' back' heq => ?_⟩
      cases front' with
      | nil => exact absurd (List.isPrefixOf_iff_prefix.2 ⟨back', heq.symm⟩) hprefix
      | cons c front' => exact Nat.succ_le_succ (hfirst front' back' (List.cons.inj heq).2)

namespace Window

/-! ## Reads and what they take -/

/-- A read of a window. -/
inductive Read where
  /-- The octets before the next place of `terminator`. -/
  | until (terminator : Bytes) (wanted : String)
  /-- The octets of a token. -/
  | token
  /-- `count` numbers of four octets each. -/
  | floats (count : ℕ) (order : ByteOrder)

/-- What a read gives. -/
inductive Content where
  | octets (bs : Bytes)
  | numbers (xs : List Binary32)

variable (w : Window)

/-- What a read gives, and the window behind it. -/
def read : Read → Except WindowError (Content × Window)
  | .until terminator wanted =>
    (w.readUntil terminator wanted).map fun (bs, w) => (.octets bs, w)
  | .token => w.readToken.map fun (bs, w) => (.octets bs, w)
  | .floats count order => (w.readFloats count order).map fun (xs, w) => (.numbers xs, w)

/-- What a read tells: the content, or why there is none. -/
def answer (r : Read) : Except WindowError Content := (w.read r).map Prod.fst

/-- The window with which a reader goes on. The position moves last, so a read that fails leaves
the window as it was. -/
def after (r : Read) : Window :=
  match w.read r with
  | .ok (_, next) => next
  | .error _ => w

/-- **The runs of reads and moves** from a window, with the reads that were made, what they told,
and the window in the end. A move is made only when it is due. -/
inductive Run (first : Window) : List (Read × Except WindowError Content) → Window → Prop
  | start : Run first [] first
  | read {log : List (Read × Except WindowError Content)} {w : Window} (h : Run first log w)
      (r : Read) : Run first (log ++ [(r, w.answer r)]) (w.after r)
  | move {log : List (Read × Except WindowError Content)} {w : Window} (h : Run first log w)
      (hdue : w.isDue = true) : Run first log w.advance.1

/-- **The octets that a read took** to tell what it told. What ends the octets or the token belongs
to them, and stands nowhere before. -/
inductive Consumes : Read × Except WindowError Content → Bytes → Prop
  | until {terminator bs : Bytes} {wanted : String}
      (hfirst : ∀ front back, bs ++ terminator = front ++ (terminator ++ back) → back = []) :
      Consumes (.until terminator wanted, .ok (.octets bs)) (bs ++ terminator)
  | token {bs : Bytes} (hspace : space ∉ bs) :
      Consumes (.token, .ok (.octets (bs.filter (· ≠ newline)))) (bs ++ [space])
  | floats {count : ℕ} {order : ByteOrder} {bs : Bytes} (hlength : bs.length = 4 * count) :
      Consumes (.floats count order, .ok (.numbers ((chunks 4 count bs).map order.float))) bs
  | failed {r : Read} {e : WindowError} : Consumes (r, .error e) []

variable {w} {w' : Window}

/-! ## One read -/

theorem Sound.position_add_le (h : w.Sound) {n : ℕ} (hn : n ≤ w.reach) :
    w.position + n ≤ w.size := by
  have := h.position_le
  simp only [reach] at hn
  omega

theorem Sound.place?_eq (h : w.Sound) (pattern : Bytes) :
    w.place? pattern =
      (Bytes.find? pattern (w.left.take w.reach)).map (· + w.position.toNat) := by
  rw [Window.place?_eq, Bytes.findFrom, length_view, drop_view h.position_nonneg,
    Bytes.bound_of_le h.position_nonneg h.position_le]

/-- **A search reads the octets in reach** up to the first place of the terminator. -/
theorem Sound.of_readUntil_eq_ok (h : w.Sound) {terminator bs : Bytes} {wanted : String}
    (hread : w.readUntil terminator wanted = .ok (bs, w')) :
    (∃ rest, w.left.take w.reach = bs ++ (terminator ++ rest)) ∧
      (∀ front back, w.left.take w.reach = front ++ (terminator ++ back) →
        bs.length ≤ front.length) ∧
      w' = w.forward (bs.length + terminator.length) := by
  have hpos := h.position_nonneg
  have hin : isAddress w.size w.position = true := isAddress_of_le hpos h.position_le
  simp only [readUntil, hin, h.place?_eq, Bool.not_true, Bool.false_eq_true, if_false] at hread
  split at hread
  · cases hread
  · next stop hstop =>
    obtain ⟨i, hi, rfl⟩ := Option.map_eq_some_iff.1 hstop
    obtain ⟨front, rest, heq, rfl, hfirst⟩ := Bytes.exists_of_find?_eq_some hi
    have hreach : front.length ≤ w.reach := by
      have hlength := congrArg List.length heq
      rw [List.length_take, List.length_append] at hlength
      omega
    have hcast : ((front.length + w.position.toNat : ℕ) : Int) = w.position + front.length := by
      omega
    have hfront : w.octets w.position ((front.length + w.position.toNat : ℕ) : Int) = front := by
      rw [hcast, octets_eq_take hpos (h.position_add_le hreach), ← Nat.min_eq_left hreach,
        ← List.take_take, heq, List.take_left]
    obtain ⟨rfl, rfl⟩ := Prod.mk.inj (Except.ok.inj hread)
    rw [hfront]
    refine ⟨⟨rest, heq⟩, hfirst, ?_⟩
    rw [Window.forward]
    congr 1
    omega

/-- The first place of a terminator is the only one in the octets up to its end. -/
theorem eq_nil_of_first {reached bs terminator rest : Bytes}
    (heq : reached = bs ++ (terminator ++ rest))
    (hfirst : ∀ front back, reached = front ++ (terminator ++ back) → bs.length ≤ front.length)
    (front back : Bytes) (h : bs ++ terminator = front ++ (terminator ++ back)) : back = [] := by
  have hle := hfirst front (back ++ rest) (by
    rw [heq, ← List.append_assoc, h, List.append_assoc, List.append_assoc])
  have hlength := congrArg List.length h
  simp only [List.length_append] at hlength
  exact List.length_eq_zero_iff.1 (by omega)

/-- **A read takes the next octets of the file**, no more than are in reach, and the position moves
by their number. -/
theorem Sound.exists_consumes (h : w.Sound) {r : Read} {content : Content}
    (hread : w.read r = .ok (content, w')) :
    ∃ bs, Consumes (r, .ok content) bs ∧ bs <+: w.left.take w.reach ∧
      w' = w.forward bs.length := by
  cases r with
  | «until» terminator wanted =>
    obtain ⟨⟨bs, next⟩, hnext, heq⟩ := exists_of_map_eq_ok hread
    obtain ⟨rfl, rfl⟩ := Prod.mk.inj heq
    obtain ⟨⟨rest, hrest⟩, hfirst, rfl⟩ := h.of_readUntil_eq_ok hnext
    exact ⟨bs ++ terminator, .until (eq_nil_of_first hrest hfirst),
      ⟨rest, by rw [hrest, List.append_assoc]⟩, by rw [List.length_append]⟩
  | token =>
    obtain ⟨⟨token, next⟩, hnext, heq⟩ := exists_of_map_eq_ok hread
    obtain ⟨rfl, rfl⟩ := Prod.mk.inj heq
    obtain ⟨⟨bs, next⟩, hbs, hnext⟩ := exists_of_bind_eq_ok hnext
    obtain ⟨rfl, rfl⟩ := Prod.mk.inj (Except.ok.inj hnext)
    obtain ⟨⟨rest, hrest⟩, hfirst, rfl⟩ := h.of_readUntil_eq_ok hbs
    have hspace : space ∉ bs := fun hmem => by
      obtain ⟨front, back, rfl⟩ := List.append_of_mem hmem
      have hle := hfirst front (back ++ ([space] ++ rest)) (by rw [hrest, List.append_assoc]; rfl)
      rw [List.length_append, List.length_cons] at hle
      omega
    exact ⟨bs ++ [space], .token hspace, ⟨rest, by rw [hrest, List.append_assoc]⟩,
      by rw [List.length_append]⟩
  | floats count order =>
    obtain ⟨⟨xs, next⟩, hnext, heq⟩ := exists_of_map_eq_ok hread
    obtain ⟨rfl, rfl⟩ := Prod.mk.inj heq
    rcases Nat.lt_or_ge w.reach (4 * count) with hlt | hle
    · rw [readFloats_of_lt h order hlt] at hnext
      cases hnext
    · rw [readFloats_of_le h.position_nonneg order (h.position_add_le hle)] at hnext
      obtain ⟨rfl, rfl⟩ := Prod.mk.inj (Except.ok.inj hnext)
      have hlength : (w.left.take (4 * count)).length = 4 * count := by
        rw [List.length_take, Nat.min_eq_left (Nat.le_trans hle h.reach_le_length_left)]
      exact ⟨w.left.take (4 * count), .floats hlength, List.take_prefix_take_left hle,
        by rw [hlength]⟩

theorem isEnd_endError (w : Window) (wanted : String) : (w.endError wanted).isEnd = true := by
  rw [endError]
  split <;> rfl

/-- **A read fails only for want of octets**: what it asks for does not end inside the window. -/
theorem Sound.isEnd_of_answer_eq_error (h : w.Sound) {r : Read} {e : WindowError}
    (he : w.answer r = .error e) : e.isEnd = true := by
  have hin : isAddress w.size w.position = true := isAddress_of_le h.position_nonneg h.position_le
  have huntil {terminator : Bytes} {wanted : String}
      (he : w.readUntil terminator wanted = .error e) : e.isEnd = true := by
    simp only [readUntil, hin, Bool.not_true, Bool.false_eq_true, if_false] at he
    split at he
    · obtain rfl := Except.error.inj he
      exact isEnd_endError w wanted
    · cases he
  rw [answer, map_eq_error_iff] at he
  cases r with
  | «until» terminator wanted => exact huntil (map_eq_error_iff.1 he)
  | token =>
    rcases cases_of_bind_eq_error (map_eq_error_iff.1 he) with he | ⟨_, -, he⟩
    · exact huntil he
    · cases he
  | floats count order =>
    have he := map_eq_error_iff.1 he
    rcases Nat.lt_or_ge w.reach (4 * count) with hlt | hle
    · rw [readFloats_of_lt h order hlt] at he
      obtain rfl := Except.error.inj he
      exact isEnd_endError w "vector"
    · rw [readFloats_of_le h.position_nonneg order (h.position_add_le hle)] at he
      cases he

theorem after_of_error {r : Read} {e : WindowError} (h : w.answer r = .error e) :
    w.after r = w := by
  rw [answer, map_eq_error_iff] at h
  rw [after, h]

/-- **A read moves the position over the octets that it takes.** A read that fails takes none. -/
theorem Sound.after_eq_forward (h : w.Sound) (r : Read) :
    ∃ n ≤ w.reach, w.after r = w.forward n ∧ Consumes (r, w.answer r) (w.left.take n) := by
  rw [after, answer]
  cases hread : w.read r with
  | error e =>
    refine ⟨0, Nat.zero_le _, ?_, .failed⟩
    rw [Window.forward, Int.natCast_zero, Int.add_zero]
  | ok result =>
    obtain ⟨content, next⟩ := result
    obtain ⟨bs, hconsumes, hprefix, rfl⟩ := h.exists_consumes hread
    obtain ⟨hleft, hlength⟩ := List.prefix_take_iff.1 hprefix
    refine ⟨bs.length, hlength, rfl, ?_⟩
    rwa [← List.prefix_iff_eq_take.1 hleft]

/-! ## Runs -/

section

variable {first : Window} {log : List (Read × Except WindowError Content)} (hfirst : first.Sound)
  (h : Run first log w)
include hfirst h

/-- **Reads and due moves keep the invariant**, and what never changes. -/
theorem Run.sound :
    w.Sound ∧ w.file = first.file ∧ w.limit = first.limit ∧ w.stride = first.stride := by
  induction h with
  | start => exact ⟨hfirst, rfl, rfl, rfl⟩
  | read _ r ih =>
    obtain ⟨hsound, hsame⟩ := ih
    obtain ⟨n, hn, hafter, -⟩ := hsound.after_eq_forward r
    rw [hafter]
    exact ⟨hsound.forward hn, hsame⟩
  | move _ hdue ih =>
    obtain ⟨hsound, hfile, hlimit, hstride⟩ := ih
    obtain ⟨next, hnext, hsound, hfile', hlimit', hstride', -⟩ := advance_of_isDue hsound hdue
    rw [hnext]
    exact ⟨hsound, hfile'.trans hfile, hlimit'.trans hlimit, hstride'.trans hstride⟩

/-- A window that is not empty stays so: the position is past the stride before a move, and so is
past the front of the next window. -/
theorem Run.size_pos (hpos : 0 < first.size) : 0 < w.size := by
  induction h with
  | start => exact hpos
  | read hrun r ih =>
    obtain ⟨n, -, hafter, -⟩ := (hrun.sound hfirst).1.after_eq_forward r
    rwa [hafter, forward_size]
  | move hrun hdue _ =>
    obtain ⟨next, hnext, hsound, -, -, -, -, hposition, -⟩ :=
      advance_of_isDue (hrun.sound hfirst).1 hdue
    have hle := hsound.position_le
    simp only [isDue, decide_eq_true_eq] at hdue
    rw [hnext]
    dsimp only
    omega

/-- **What the reads of a run took, one after the other**, is what was left at first, up to what is
left in the end. -/
theorem Run.exists_consumes :
    ∃ pieces, List.Forall₂ Consumes log pieces ∧ first.left = pieces.flatten ++ w.left := by
  -- By induction on the run: a read takes the front of what is left, and a move leaves the same.
  induction h with
  | start => exact ⟨[], .nil, rfl⟩
  | @read log w hrun r ih =>
    obtain ⟨pieces, hpieces, hleft⟩ := ih
    obtain ⟨n, -, hafter, hconsumes⟩ := (hrun.sound hfirst).1.after_eq_forward r
    refine ⟨pieces ++ [w.left.take n], List.rel_append hpieces (.cons hconsumes .nil), ?_⟩
    rw [hafter, (hrun.sound hfirst).1.left_forward, List.flatten_append, List.flatten_singleton,
      List.append_assoc, List.take_append_drop, hleft]
  | move hrun hdue ih =>
    obtain ⟨next, hnext, -, hfile, -, -, hposition, -⟩ :=
      advance_of_isDue (hrun.sound hfirst).1 hdue
    rw [hnext]
    simpa only [left, hfile, hposition] using ih

end

/-- The window shows the file from its offset on, up to the limit or the end of the file. -/
theorem Sound.view_eq (h : w.Sound) :
    w.view = (w.file.toList.take (min (w.file.size : Int) (w.offset + w.limit)).toNat).drop
      w.offset := by
  have hsize := h.size_eq
  have hin := w.inside
  rw [view, List.drop_take]
  congr 1
  omega

/-- **All runs over a file.** The window that is opened at its front, and after any reads and due
moves, shows the part of the file that its counters tell, with the position in it. A move that is
due finds octets at its place and keeps the position in the file, a read fails only for want of
octets and then changes nothing, and what the reads took is the file up to the position. -/
theorem run_invariant {file : Bytes} {limit stride : Int} (hne : file ≠ []) (hpos : 0 < stride)
    (hgran : stride % granularity = 0) (hlt : stride < limit) :
    ∃ first, ofFile file limit stride = .ok first ∧ ∀ log w, Run first log w →
      ((w.offset : Int) = stride * w.moves ∧ 0 ≤ w.position ∧ w.position ≤ w.size ∧
        w.view = (file.take (min (file.length : Int) (w.offset + limit)).toNat).drop w.offset ∧
        w.filePosition ≤ file.length) ∧
      (w.isDue = true → ∃ next, w.advance = (next, .ok ()) ∧
        next.filePosition = w.filePosition ∧ 0 < next.size ∧
        next.offset + next.size ≤ file.length) ∧
      (∀ r e, w.answer r = .error e → e.isEnd = true ∧ w.after r = w) ∧
      ∃ pieces, List.Forall₂ Consumes log pieces ∧
        pieces.flatten = file.take w.filePosition.toNat := by
  obtain ⟨first, hopen, hfirst, hfile, hlimit, hstride, hposition, hoffset, -⟩ :=
    ofFile_of_admissible hne hpos hgran hlt
  refine ⟨first, hopen, fun log w hrun => ?_⟩
  obtain ⟨hsound, hfile', hlimit', hstride'⟩ := hrun.sound hfirst
  obtain ⟨pieces, hpieces, hleft⟩ := hrun.exists_consumes hfirst
  have hsize : w.file.size = file.length := by rw [hfile', hfile, List.size_toArray]
  have hlist : w.file.toList = file := by rw [hfile', hfile, List.toList_toArray]
  have hinside := w.inside
  have hbelow := hsound.position_le
  refine ⟨⟨?_, hsound.position_nonneg, hbelow, ?_, ?_⟩, fun hdue => ?_,
    fun r e he => ⟨hsound.isEnd_of_answer_eq_error he, after_of_error he⟩, pieces, hpieces, ?_⟩
  · rw [hsound.offset_eq, hstride', hstride]
  · rw [hsound.view_eq, hlist, hsize, hlimit', hlimit]
  · rw [filePosition]
    omega
  · obtain ⟨next, hnext, hsound', hfile'', -, -, hkept, hmoved, -⟩ := advance_of_isDue hsound hdue
    have hin := next.inside
    have hle := hsound'.position_le
    simp only [isDue, decide_eq_true_eq] at hdue
    rw [hfile'', hsize] at hin
    exact ⟨next, hnext, hkept, by omega, hin⟩
  · have hwhole : first.left = file := by
      rw [left, filePosition, hoffset, hposition, hfile]
      rfl
    rw [hwhole, left, hlist] at hleft
    exact List.append_cancel_right (hleft.symm.trans (List.take_append_drop _ file).symm)

/-- Numbers that reach past the stride make a move due, and the position stays behind them. -/
theorem run_invariant_moved :
    ∃ first next, ofFile (List.replicate 4100 0) 8192 4096 = .ok first ∧
      (first.after (.floats 1025 .little)).advance = (next, .ok ()) ∧
      next.filePosition = 4100 ∧ 0 < next.size := by
  have hlength : (List.replicate 4100 (0 : UInt8)).length = 4100 := List.length_replicate
  have hne : List.replicate 4100 (0 : UInt8) ≠ [] := by
    rw [Ne, List.replicate_eq_nil_iff]
    exact Nat.succ_ne_zero _
  have hpos : (0 : Int) < 4096 := by decide
  have hlt : (4096 : Int) < 8192 := by decide
  obtain ⟨_, hopen, hruns⟩ := run_invariant hne hpos (by decide) hlt
  obtain ⟨first, hopen', hfirst, hfile, hlimit, hstride, hposition, hoffset, -⟩ :=
    ofFile_of_admissible hne hpos (by decide) hlt
  obtain rfl := Except.ok.inj (hopen'.symm.trans hopen)
  have hsize := hfirst.size_eq
  rw [hoffset, hlimit, hfile, List.size_toArray, hlength] at hsize
  have hafter : first.after (.floats 1025 .little) = first.forward (4 * 1025) := by
    rw [after, read, readFloats_of_le hfirst.position_nonneg .little (by omega)]
    rfl
  obtain ⟨-, hmove, -⟩ := hruns _ _ (.read .start (.floats 1025 .little))
  have hdue : (first.forward (4 * 1025)).isDue = true := by
    rw [isDue, forward_stride, forward_position, hstride, hposition]
    rfl
  obtain ⟨next, hnext, hkept, hsome, -⟩ := hmove (hafter ▸ hdue)
  refine ⟨first, next, hopen, hnext, ?_, hsome⟩
  rw [hkept, hafter, forward_filePosition, filePosition, hoffset, hposition]
  rfl

end Window

end WordVectors
