import WordVectors.Proofs.Binary.Segments
import WordVectors.Proofs.Store.Addressing
import WordVectors.Proofs.Utf8

/-!
# The grammar of binary models

What is a binary model can be said without a reader: a first line with two sizes, and then as many
records as it declares. A record is a token, a space and the octets of its components. No octet of a
component is ever taken for the end of a token, and what follows the last record is not looked at. A
strict reading through one window accepts exactly these files, and otherwise it fails at the first
part of the file that does not follow the grammar.

## Main definitions

* `Binary.Spells`: the octets of a record
* `Binary.Fault`: why octets do not start with a record
* `Binary.Holds`: the files that hold a model
* `Binary.Fails`: why a file holds none

## Main results

* `Binary.recordsIn_eq_ok_iff`, `Binary.recordsIn_eq_error_iff`: what is read from octets, and at
  which record the reading fails
* `Binary.modelIn_eq_error_iff`, `Binary.exists_store_of_holds`: the same for files
* `Binary.decode_grammar`: a strict reading accepts the files of the grammar
-/

namespace WordVectors.Binary

open Store (entries_eq_of_flatten vectorAt_eq_of_entries)

/-! ## Records -/

/-- **The octets of a record**: a token, whose newlines do not count, a space, and the components
in four octets each. -/
inductive Spells (order : ByteOrder) (layerSize : Nat) : Bytes → Record → Prop
  | intro {token components : Bytes} {word : String} (hspace : Window.space ∉ token)
      (hword : token.filter (· ≠ Window.newline) = Utf8.encode word)
      (hlength : components.length = 4 * layerSize) :
      Spells order layerSize (token ++ Window.space :: components)
        (word, (chunks 4 layerSize components).map fun bs => (order.float bs).widen)

/-- **Why octets do not start with a record**, when they start at `position` in a file. -/
inductive Fault (layerSize : Nat) (position : Int) : Bytes → ModelError → Prop
  /-- No space ends the token. -/
  | token {rest : Bytes} (hspace : Window.space ∉ rest) :
      Fault layerSize position rest (.window (.truncated "token" position))
  /-- The token is not UTF-8. -/
  | encoding {token rest : Bytes} {e : Utf8.Error} (hspace : Window.space ∉ token)
      (he : Utf8.decode .strict (token.filter (· ≠ Window.newline)) = .error e) :
      Fault layerSize position (token ++ Window.space :: rest) (.encoding e)
  /-- There are not enough octets for the components. -/
  | vector {token rest : Bytes} {word : String} (hspace : Window.space ∉ token)
      (hword : token.filter (· ≠ Window.newline) = Utf8.encode word)
      (hlength : rest.length < 4 * layerSize) :
      Fault layerSize position (token ++ Window.space :: rest)
        (.window (.truncated "vector" (position + (token.length + 1 : Nat))))

theorem Spells.length_eq {order : ByteOrder} {layerSize : Nat} {octets : Bytes} {record : Record}
    (h : Spells order layerSize octets record) : record.2.length = layerSize := by
  cases h
  rw [List.length_map, length_chunks]

variable {plan : Plan} {layerSize : Nat} {position : Int} {bs : Bytes}

/-- The first record when its token is known. -/
theorem recordIn_append {token : Bytes} (hspace : Window.space ∉ token) (rest : Bytes) :
    recordIn plan layerSize position (token ++ Window.space :: rest) =
      match Utf8.decode plan.recovery (token.filter (· ≠ Window.newline)) with
      | .error e => .error (.encoding e)
      | .ok word =>
        if 4 * layerSize ≤ rest.length then
          .ok ((word, (chunks 4 layerSize (rest.take (4 * layerSize))).map
            fun bs => (plan.order.float bs).widen), token.length + 1 + 4 * layerSize)
        else .error (.window (.truncated "vector" (position + (token.length + 1 : Nat)))) := by
  have htoken : (token ++ Window.space :: rest).takeWhile (· ≠ Window.space) = token := by
    rw [List.takeWhile_append_of_pos, List.takeWhile_cons_of_neg (by simp), List.append_nil]
    intro b hb
    simp only [ne_eq, decide_eq_true_eq]
    rintro rfl
    exact hspace hb
  have hdrop : (token ++ Window.space :: rest).drop (token.length + 1) = rest := by
    rw [← List.drop_drop, List.drop_left, List.drop_one, List.tail_cons]
  have hlength : (token.length + 1 + 4 * layerSize ≤ (token ++ Window.space :: rest).length) =
      (4 * layerSize ≤ rest.length) := by
    simp only [List.length_append, List.length_cons]
    rw [eq_iff_iff]
    omega
  have hmem : Window.space ∈ token ++ Window.space :: rest := by simp
  simp only [recordIn, if_pos hmem, htoken, hdrop, hlength, List.map_map]
  rfl

/-- Octets that spell a record are read as it, whatever stands behind them. -/
theorem recordIn_of_spells {octets : Bytes} {record : Record}
    (h : Spells plan.order layerSize octets record) (rest : Bytes) :
    recordIn plan layerSize position (octets ++ rest) = .ok (record, octets.length) := by
  obtain @⟨token, components, word, hspace, hword, hlength⟩ := h
  have hle : 4 * layerSize ≤ (components ++ rest).length := by
    rw [List.length_append]
    omega
  rw [List.append_assoc, List.cons_append, recordIn_append hspace, hword, Utf8.decode_encode]
  dsimp only
  rw [if_pos hle, List.take_left' hlength, List.length_append, List.length_cons, hlength]
  congr 2
  omega

/-- **The first record is spelled by octets in front.** -/
theorem recordIn_eq_ok_iff (hrecovery : plan.recovery = .strict) {record : Record} {size : Nat} :
    recordIn plan layerSize position bs = .ok (record, size) ↔
      ∃ octets rest, bs = octets ++ rest ∧ size = octets.length ∧
        Spells plan.order layerSize octets record := by
  constructor
  · intro h
    by_cases hmem : Window.space ∈ bs
    · obtain ⟨token, rest, rfl, hspace⟩ := List.eq_append_cons_of_mem hmem
      rw [recordIn_append hspace, hrecovery] at h
      split at h
      · cases h
      · next word hword =>
        split at h
        · next hle =>
          obtain ⟨rfl, rfl⟩ := Prod.mk.inj (Except.ok.inj h)
          have htake : (rest.take (4 * layerSize)).length = 4 * layerSize := by
            rw [List.length_take, Nat.min_eq_left hle]
          refine ⟨token ++ Window.space :: rest.take (4 * layerSize), rest.drop (4 * layerSize),
            ?_, ?_, .intro hspace (Utf8.decode_strict_eq_ok_iff.1 hword) htake⟩
          · rw [List.append_assoc, List.cons_append, List.take_append_drop]
          · rw [List.length_append, List.length_cons, htake]
            omega
        · cases h
    · simp only [recordIn, if_neg hmem, reduceCtorEq] at h
  · rintro ⟨octets, rest, rfl, rfl, hspells⟩
    exact recordIn_of_spells hspells rest

/-- **There is no first record exactly if there is a fault.** -/
theorem recordIn_eq_error_iff (hrecovery : plan.recovery = .strict) {e : ModelError} :
    recordIn plan layerSize position bs = .error e ↔ Fault layerSize position bs e := by
  constructor
  · intro h
    by_cases hmem : Window.space ∈ bs
    · obtain ⟨token, rest, rfl, hspace⟩ := List.eq_append_cons_of_mem hmem
      rw [recordIn_append hspace, hrecovery] at h
      split at h
      · next he =>
        obtain rfl := Except.error.inj h
        exact .encoding hspace he
      · next word hword =>
        split at h
        · cases h
        · next hlt =>
          obtain rfl := Except.error.inj h
          exact .vector hspace (Utf8.decode_strict_eq_ok_iff.1 hword) (Nat.not_le.1 hlt)
    · simp only [recordIn, if_neg hmem, Except.error.injEq] at h
      subst h
      exact .token hmem
  · intro h
    cases h with
    | token hspace => simp only [recordIn, if_neg hspace]
    | encoding hspace he => rw [recordIn_append hspace, hrecovery, he]
    | vector hspace hword hlength =>
      rw [recordIn_append hspace, hrecovery, Utf8.decode_strict_eq_ok_iff.2 hword]
      dsimp only
      rw [if_neg (Nat.not_le.2 hlength)]

/-! ## Records one behind the other -/

/-- Behind octets that spell a record, the octets that follow are read. -/
theorem recordsIn_append {octets : Bytes} {record : Record}
    (hspells : Spells plan.order layerSize octets record) (count : Nat) (rest : Bytes) :
    recordsIn plan layerSize (count + 1) position (octets ++ rest) =
      (recordsIn plan layerSize count (position + octets.length) rest).map (record :: ·) := by
  rw [recordsIn, recordIn_of_spells hspells]
  dsimp only
  rw [List.drop_left]

/-- Octets that spell records are read as them. -/
theorem recordsIn_of_spells {pieces : List Bytes} {records : List Record}
    (h : List.Forall₂ (Spells plan.order layerSize) pieces records) (rest : Bytes) :
    recordsIn plan layerSize records.length position (pieces.flatten ++ rest) = .ok records := by
  induction h generalizing position with
  | nil => rfl
  | cons hspells _ ih =>
    rw [List.flatten_cons, List.append_assoc, List.length_cons, recordsIn_append hspells, ih]
    rfl

/-- **Records are read exactly if they are spelled one behind the other.** -/
theorem recordsIn_eq_ok_iff (hrecovery : plan.recovery = .strict) {count : Nat}
    {records : List Record} :
    recordsIn plan layerSize count position bs = .ok records ↔
      records.length = count ∧ ∃ pieces rest, bs = pieces.flatten ++ rest ∧
        List.Forall₂ (Spells plan.order layerSize) pieces records := by
  induction count generalizing position bs records with
  | zero =>
    constructor
    · intro h
      obtain rfl := Except.ok.inj h
      exact ⟨rfl, [], bs, rfl, .nil⟩
    · rintro ⟨hnil, -⟩
      rw [List.length_eq_zero_iff.1 hnil]
      rfl
  | succ count ih =>
    constructor
    · intro h
      rcases hrecord : recordIn plan layerSize position bs with e | ⟨record, size⟩
      · simp only [recordsIn, hrecord, reduceCtorEq] at h
      · obtain ⟨octets, rest, rfl, -, hspells⟩ := (recordIn_eq_ok_iff hrecovery).1 hrecord
        rw [recordsIn_append hspells] at h
        obtain ⟨records, hrecords, rfl⟩ := exists_of_map_eq_ok h
        obtain ⟨rfl, pieces, rest, rfl, hall⟩ := ih.1 hrecords
        refine ⟨rfl, octets :: pieces, rest, ?_, .cons hspells hall⟩
        rw [List.flatten_cons, List.append_assoc]
    · rintro ⟨hcount, pieces, rest, rfl, hall⟩
      rw [← hcount]
      exact recordsIn_of_spells hall rest

/-- **A reading of records fails at the first that has a fault.** -/
theorem recordsIn_eq_error_iff (hrecovery : plan.recovery = .strict) {count : Nat}
    {e : ModelError} :
    recordsIn plan layerSize count position bs = .error e ↔
      ∃ pieces read rest, bs = pieces.flatten ++ rest ∧
        List.Forall₂ (Spells plan.order layerSize) pieces read ∧ read.length < count ∧
        Fault layerSize (position + pieces.flatten.length) rest e := by
  -- By induction on the records: the fault is that of the first one, or lies behind it.
  induction count generalizing position bs with
  | zero =>
    refine iff_of_false (fun h => by cases h) ?_
    rintro ⟨pieces, read, rest, -, -, hlt, -⟩
    exact Nat.not_lt_zero _ hlt
  | succ count ih =>
    constructor
    · intro h
      rcases hrecord : recordIn plan layerSize position bs with e' | ⟨record, size⟩
      · simp only [recordsIn, hrecord, Except.error.injEq] at h
        subst h
        refine ⟨[], [], bs, rfl, .nil, Nat.succ_pos count, ?_⟩
        simpa using (recordIn_eq_error_iff hrecovery).1 hrecord
      · obtain ⟨octets, rest, rfl, -, hspells⟩ := (recordIn_eq_ok_iff hrecovery).1 hrecord
        rw [recordsIn_append hspells, map_eq_error_iff] at h
        obtain ⟨pieces, read, rest, rfl, hall, hlt, hfault⟩ := ih.1 h
        refine ⟨octets :: pieces, record :: read, rest, ?_, .cons hspells hall,
          Nat.succ_lt_succ hlt, ?_⟩
        · rw [List.flatten_cons, List.append_assoc]
        · rwa [List.flatten_cons, List.length_append, Int.natCast_add, ← Int.add_assoc]
    · rintro ⟨pieces, read, rest, rfl, hall, hlt, hfault⟩
      cases hall with
      | nil =>
        have hfirst : Fault layerSize position rest e := by simpa using hfault
        rw [List.flatten_nil, List.nil_append, recordsIn,
          (recordIn_eq_error_iff hrecovery).2 hfirst]
      | cons hspells hall =>
        rw [List.flatten_cons, List.length_append, Int.natCast_add, ← Int.add_assoc] at hfault
        rw [List.flatten_cons, List.append_assoc, recordsIn_append hspells,
          map_eq_error_iff]
        exact ih.2 ⟨_, _, rest, rfl, hall, Nat.lt_of_succ_lt_succ hlt, hfault⟩

/-! ## Files -/

/-- **The files that hold a model**: a line with the two sizes, the octets of the records, and
whatever follows them. A segment of `bound` components has to hold a vector. -/
inductive Holds (order : ByteOrder) (bound : Int) (file : String) :
    Bytes → (layerSize : Nat) → List Record → Prop
  | intro {line rest : Bytes} {pieces : List Bytes} {layerSize : Nat} {records : List Record}
      (hline : Window.newline ∉ line)
      (hheader : parseHeader line file = .ok (records.length, layerSize))
      (hbound : (layerSize : Int) ≤ bound)
      (hrecords : List.Forall₂ (Spells order layerSize) pieces records) :
      Holds order bound file (line ++ Window.newline :: (pieces.flatten ++ rest)) layerSize records

/-- **Why a file holds no model**, in the order in which the causes count: the first line, the
bound, the room for the vectors, and then the first record that has a fault. -/
inductive Fails [Memory] (order : ByteOrder) (bound : Int) (file : String) :
    Bytes → ModelError → Prop
  | unterminated {content : Bytes} (hline : Window.newline ∉ content) :
      Fails order bound file content (.header (.unterminated file))
  | header {line body : Bytes} {e : HeaderError} (hline : Window.newline ∉ line)
      (hheader : parseHeader line file = .error e) :
      Fails order bound file (line ++ Window.newline :: body) (.header e)
  | capacity {line body : Bytes} {vocabSize layerSize : Nat} (hline : Window.newline ∉ line)
      (hheader : parseHeader line file = .ok (vocabSize, layerSize))
      (hbound : bound < layerSize) :
      Fails order bound file (line ++ Window.newline :: body)
        (.store (.capacity (.tooSmall bound layerSize)))
  | room {line body : Bytes} {vocabSize layerSize : Nat} {e : RoomError}
      (hline : Window.newline ∉ line)
      (hheader : parseHeader line file = .ok (vocabSize, layerSize))
      (hbound : (layerSize : Int) ≤ bound)
      (hroom : Room.checkSegments vocabSize layerSize (bound.toNat / layerSize) = .error e) :
      Fails order bound file (line ++ Window.newline :: body) (.room e)
  | record {line rest : Bytes} {vocabSize layerSize : Nat} {pieces : List Bytes}
      {read : List Record} {e : ModelError} (hline : Window.newline ∉ line)
      (hheader : parseHeader line file = .ok (vocabSize, layerSize))
      (hbound : (layerSize : Int) ≤ bound)
      (hroom : Room.checkSegments vocabSize layerSize (bound.toNat / layerSize) = .ok ())
      (hread : List.Forall₂ (Spells order layerSize) pieces read)
      (hcount : read.length < vocabSize)
      (hfault : Fault layerSize ((line.length + 1 : Nat) + pieces.flatten.length) rest e) :
      Fails order bound file (line ++ Window.newline :: (pieces.flatten ++ rest)) e

/-- Vectors have components. -/
theorem pos_of_parseHeader {line : Bytes} {file : String} {vocabSize layerSize : Nat}
    (h : parseHeader line file = .ok (vocabSize, layerSize)) : 0 < layerSize := by
  simp only [parseHeader] at h
  repeat' split at h
  all_goals
    cases h
    try omega

/-- The model in a file whose first line is known. -/
theorem modelIn_append [Memory] {line : Bytes} (hline : Window.newline ∉ line) (body : Bytes)
    (file : String) :
    modelIn plan file (line ++ Window.newline :: body) =
      match parseHeader line file with
      | .error e => .error (.header e)
      | .ok (vocabSize, layerSize) =>
        match vectorsPerSegment layerSize plan.capacity with
        | .error e => .error (.store (.capacity e))
        | .ok perSegment =>
          match Room.checkSegments vocabSize layerSize perSegment with
          | .error e => .error (.room e)
          | .ok () =>
            (recordsIn plan layerSize vocabSize (line.length + 1 : Nat) body).bind fun records =>
              (storeOf layerSize perSegment records).mapError .store := by
  have htake : (line ++ Window.newline :: body).takeWhile (· ≠ Window.newline) = line := by
    rw [List.takeWhile_append_of_pos, List.takeWhile_cons_of_neg (by simp), List.append_nil]
    intro b hb
    simp only [ne_eq, decide_eq_true_eq]
    rintro rfl
    exact hline hb
  have hsize : lineSize (line ++ Window.newline :: body) = line.length + 1 := by
    rw [lineSize, htake]
  have hdrop : (line ++ Window.newline :: body).drop (line.length + 1) = body := by
    rw [← List.drop_drop, List.drop_left, List.drop_one, List.tail_cons]
  have hempty : (line ++ Window.newline :: body).isEmpty = false := by simp
  have hmem : Window.newline ∈ line ++ Window.newline :: body := by simp
  simp only [modelIn, hempty, if_pos hmem, htake, hsize, hdrop]
  rfl

/-- The model behind a first line is the store of the records, if there is room for them. -/
theorem modelIn_of_checkSegments [Memory] {line body : Bytes} {file : String} {count : Nat}
    (hline : Window.newline ∉ line) (hheader : parseHeader line file = .ok (count, layerSize))
    (hbound : (layerSize : Int) ≤ plan.capacity)
    (hroom : Room.checkSegments count layerSize (plan.capacity.toNat / layerSize) = .ok ()) :
    modelIn plan file (line ++ Window.newline :: body) =
      (recordsIn plan layerSize count (line.length + 1 : Nat) body).bind fun records =>
        (storeOf layerSize (plan.capacity.toNat / layerSize) records).mapError .store := by
  obtain ⟨hper, -⟩ := vectorsPerSegment_of_le (pos_of_parseHeader hheader) hbound
  simp only [modelIn_append hline, hheader, hper, hroom]

/-- Each of the records has octets of its own. -/
theorem Spells.exists_octets {order : ByteOrder} {pieces : List Bytes} {records : List Record}
    (h : List.Forall₂ (Spells order layerSize) pieces records) :
    ∀ record ∈ records, ∃ octets, Spells order layerSize octets record := by
  induction h with
  | nil => simp
  | cons hspells _ ih => exact List.forall_mem_cons.2 ⟨⟨_, hspells⟩, ih⟩

theorem Spells.all_length_eq {order : ByteOrder} {pieces : List Bytes} {records : List Record}
    (h : List.Forall₂ (Spells order layerSize) pieces records) :
    ∀ record ∈ records, record.2.length = layerSize := by
  intro record hrecord
  obtain ⟨octets, hspells⟩ := Spells.exists_octets h record hrecord
  exact hspells.length_eq

variable {file : String} {content : Bytes}

/-- **A file that holds a model is read** if memory holds the segments, and its records are the
entries of the store. -/
theorem exists_store_of_holds [Memory] (hrecovery : plan.recovery = .strict)
    {records : List Record} (h : Holds plan.order plan.capacity file content layerSize records)
    (hsegments : Memory.HoldsSegments records.length layerSize plan.capacity) :
    ∃ store, modelIn plan file content = .ok store ∧ store.layerSize = layerSize ∧
      store.vocab = records.map Prod.fst ∧ store.flatten = records.flatMap Prod.snd ∧
      (store.vocab = [] → store.segments = []) := by
  obtain @⟨line, rest, pieces, layerSize, records, hline, hheader, hbound, hrecords⟩ := h
  have hlayer := pos_of_parseHeader hheader
  obtain ⟨-, hpos⟩ := vectorsPerSegment_of_le hlayer hbound
  obtain ⟨store, hstore, hvocab, hsize, hvalues, hempty⟩ :=
    exists_storeOf hlayer hpos (Spells.all_length_eq hrecords)
  have hroom := (checkSegments_eq_ok_iff hlayer hbound records.length).2 hsegments
  have hread : recordsIn plan layerSize records.length (line.length + 1 : Nat)
      (pieces.flatten ++ rest) = .ok records :=
    (recordsIn_eq_ok_iff hrecovery).2 ⟨rfl, pieces, rest, rfl, hrecords⟩
  refine ⟨store, ?_, hsize, hvocab, hvalues, hempty⟩
  rw [modelIn_of_checkSegments hline hheader hbound hroom, hread]
  simp only [Except.bind, hstore, Except.mapError]

/-- **A file that is read holds a model**, and memory holds the segments. -/
theorem exists_holds_of_modelIn_eq_ok [Memory] (hrecovery : plan.recovery = .strict)
    {store : Store} (h : modelIn plan file content = .ok store) :
    ∃ records, Holds plan.order plan.capacity file content store.layerSize records ∧
      Memory.HoldsSegments records.length store.layerSize plan.capacity := by
  by_cases hmem : Window.newline ∈ content
  · obtain ⟨line, body, rfl, hline⟩ := List.eq_append_cons_of_mem hmem
    rw [modelIn_append hline] at h
    split at h
    · cases h
    · next vocabSize layerSize hheader =>
      split at h
      · cases h
      · next perSegment hper =>
        split at h
        · cases h
        · next hroom =>
          obtain ⟨records, hrecords, hof⟩ := exists_of_bind_eq_ok h
          have hsize := (of_storeOf_eq_ok (eq_ok_of_mapError_eq_ok hof)).2
          obtain ⟨rfl, pieces, rest, rfl, hall⟩ := (recordsIn_eq_ok_iff hrecovery).1 hrecords
          obtain ⟨hlayer, hbound⟩ := le_of_vectorsPerSegment_eq_ok hper
          obtain rfl := Except.ok.inj ((vectorsPerSegment_of_le hlayer hbound).1.symm.trans hper)
          rw [hsize]
          exact ⟨records, .intro hline hheader hbound hall,
            (checkSegments_eq_ok_iff hlayer hbound records.length).1 hroom⟩
  · have hempty : modelIn plan file content ≠ .ok store := by
      simp only [modelIn, if_neg hmem]
      split <;> simp
    exact absurd h hempty

/-- **A file that is not read fails at the first part of it that does not follow the grammar.** -/
theorem modelIn_eq_error_iff [Memory] (hrecovery : plan.recovery = .strict) (hne : content ≠ [])
    {e : ModelError} :
    modelIn plan file content = .error e ↔ Fails plan.order plan.capacity file content e := by
  constructor
  · intro h
    by_cases hmem : Window.newline ∈ content
    · obtain ⟨line, body, rfl, hline⟩ := List.eq_append_cons_of_mem hmem
      rw [modelIn_append hline] at h
      split at h
      · next hheader =>
        obtain rfl := Except.error.inj h
        exact .header hline hheader
      · next vocabSize layerSize hheader =>
        have hlayer := pos_of_parseHeader hheader
        by_cases hbound : (layerSize : Int) ≤ plan.capacity
        · obtain ⟨hper, hpos⟩ := vectorsPerSegment_of_le hlayer hbound
          simp only [hper] at h
          split at h
          · next hroom =>
            obtain rfl := Except.error.inj h
            exact .room hline hheader hbound hroom
          · next hroom =>
            rcases hrecords : recordsIn plan layerSize vocabSize (line.length + 1 : Nat) body with
              e' | records
            · rw [hrecords] at h
              obtain rfl := Except.error.inj h
              obtain ⟨pieces, read, rest, rfl, hall, hlt, hfault⟩ :=
                (recordsIn_eq_error_iff hrecovery).1 hrecords
              exact .record hline hheader hbound hroom hall hlt hfault
            · obtain ⟨-, pieces, rest, -, hall⟩ := (recordsIn_eq_ok_iff hrecovery).1 hrecords
              obtain ⟨store, hstore, -⟩ := exists_storeOf hlayer hpos (Spells.all_length_eq hall)
              rw [hrecords] at h
              simp only [Except.bind, hstore, Except.mapError, reduceCtorEq] at h
        · have hper : vectorsPerSegment layerSize plan.capacity =
              .error (.tooSmall plan.capacity layerSize) := by
            rw [vectorsPerSegment, if_neg (by omega), if_pos (by omega)]
          simp only [hper, Except.error.injEq] at h
          subst h
          exact .capacity hline hheader (by omega)
    · simp only [modelIn, List.isEmpty_eq_false_iff.2 hne, Bool.false_eq_true, if_false,
        if_neg hmem, Except.error.injEq] at h
      subst h
      exact .unterminated hmem
  · intro h
    cases h with
    | unterminated hline =>
      simp only [modelIn, List.isEmpty_eq_false_iff.2 hne, Bool.false_eq_true, if_false,
        if_neg hline]
    | header hline hheader => rw [modelIn_append hline, hheader]
    | capacity hline hheader hbound =>
      have hlayer := pos_of_parseHeader hheader
      simp only [modelIn_append hline, hheader]
      rw [vectorsPerSegment, if_neg (by omega), if_pos hbound]
    | room hline hheader hbound hroom =>
      obtain ⟨hper, -⟩ := vectorsPerSegment_of_le (pos_of_parseHeader hheader) hbound
      simp only [modelIn_append hline, hheader, hper, hroom]
    | record hline hheader hbound hroom hread hcount hfault =>
      obtain ⟨hper, -⟩ := vectorsPerSegment_of_le (pos_of_parseHeader hheader) hbound
      have hrecords := (recordsIn_eq_error_iff hrecovery).2
        ⟨_, _, _, rfl, hread, hcount, hfault⟩
      simp only [modelIn_append hline, hheader, hper, hroom, hrecords]
      rfl

/-! ## Requests -/

/-- The bound of a plan is the one asked for, unless that is missing or zero. -/
theorem of_plan_eq_ok {request : Request} {settings : Settings}
    (h : request.plan settings = .ok plan) :
    plan.capacity = sizeOr request.capacity settings.segmentCapacity ∧
      plan.recovery = .ofName request.recovery := by
  obtain ⟨order, -, h⟩ := exists_of_bind_eq_ok h
  obtain rfl := Except.ok.inj h
  exact ⟨rfl, rfl⟩

/-- **A strict reading in one window accepts exactly the files of the grammar.** What it accepts has
the sizes, words and vectors of the records; what it does not accept fails at the first line, for
the bound, for want of room, or at the first record that has a fault. The bound is the one asked
for, or that of the settings if none is or zero is. -/
theorem decode_grammar [Memory] {request : Request} {settings : Settings}
    (hplan : request.plan settings = .ok plan) (hstrict : request.recovery = "strict")
    (hwindows : plan.Admissible) (hne : content ≠ []) (hfits : (content.length : Int) ≤ plan.limit)
    (file : String) (p : Progress) :
    let bound := sizeOr request.capacity settings.segmentCapacity
    ((∃ store, outcome (decode plan file content p) = .ok store) ↔
      ∃ layerSize records, Holds plan.order bound file content layerSize records ∧
        Memory.HoldsSegments records.length layerSize bound) ∧
    (∀ layerSize records, Holds plan.order bound file content layerSize records →
      Memory.HoldsSegments records.length layerSize bound →
      ∃ store, outcome (decode plan file content p) = .ok store ∧ store.layerSize = layerSize ∧
        store.vocab = records.map Prod.fst ∧ store.entries = records ∧
        ∀ (i : Nat) record, records[i]? = some record → store.vectorAt i = .ok record.2) ∧
    ∀ e, outcome (decode plan file content p) = .error e ↔
      Fails plan.order bound file content e := by
  obtain ⟨hcapacity, hrecovery⟩ := of_plan_eq_ok hplan
  rw [hstrict, show Utf8.Recovery.ofName "strict" = .strict from rfl] at hrecovery
  rw [outcome_decode_of_le hwindows hfits, ← hcapacity]
  refine ⟨⟨?_, ?_⟩, ?_, fun e => modelIn_eq_error_iff hrecovery hne⟩
  · rintro ⟨store, hstore⟩
    obtain ⟨records, hholds⟩ := exists_holds_of_modelIn_eq_ok hrecovery hstore
    exact ⟨store.layerSize, records, hholds⟩
  · rintro ⟨layerSize, records, hholds, hsegments⟩
    obtain ⟨store, hstore, -⟩ := exists_store_of_holds hrecovery hholds hsegments
    exact ⟨store, hstore⟩
  · intro layerSize records hholds hsegments
    obtain ⟨store, hstore, hsize, hvocab, hvalues, -⟩ :=
      exists_store_of_holds hrecovery hholds hsegments
    have hentries : store.entries = records := by
      obtain ⟨-, -, -, hrecords⟩ := hholds
      exact entries_eq_of_flatten (hsize ▸ Spells.all_length_eq hrecords) hvocab hvalues
    refine ⟨store, hstore, hsize, hvocab, hentries, ?_⟩
    intro i record hrecord
    rw [← hentries] at hrecord
    exact vectorAt_eq_of_entries hrecord

/-- Two records in descending byte order, with newlines in front of and inside the tokens, octets of
blanks in a component, and more octets behind them. -/
theorem decode_grammar_newlines :
    letI : Memory := .ample
    let first : Bytes := [0x0A, 0x61, 0x62, 0x0A, 0x63, 0x20, 0x3F, 0xC0, 0x00, 0x00]
    let second : Bytes := [0x0D, 0x0A, 0x78, 0x20, 0xC0, 0x00, 0x20, 0x0A]
    let content : Bytes :=
      [0x32, 0x20, 0x31] ++ Window.newline :: ([first, second].flatten ++ [0x20])
    let request : Request :=
      { Request.unspecified with byteOrder := some "big", capacity := some 1 }
    ∃ plan store, request.plan .default = .ok plan ∧
      outcome (decode plan "model" content .silent) = .ok store ∧ store.layerSize = 1 ∧
      store.vocab = ["abc", "\rx"] ∧
      store.vectorAt 1 = .ok [(Binary32.ofPattern 0xC000200A).widen] := by
  let memory : Memory := .ample
  intro first second content request
  have hplan : request.plan .default = .ok ⟨.big, 1, 0x40000000, 0x7FFFFFFF, .strict,
    fun _ => Settings.default.progressInterval.isBelowZero⟩ := rfl
  have hfirst : Spells .big 1 first ("abc", [(Binary32.ofPattern 0x3FC00000).widen]) :=
    @Spells.intro .big 1 [0x0A, 0x61, 0x62, 0x0A, 0x63] [0x3F, 0xC0, 0x00, 0x00] "abc" (by decide)
      (by decide) rfl
  have hsecond : Spells .big 1 second ("\rx", [(Binary32.ofPattern 0xC000200A).widen]) :=
    @Spells.intro .big 1 [0x0D, 0x0A, 0x78] [0xC0, 0x00, 0x20, 0x0A] "\rx" (by decide)
      (by decide) rfl
  have hholds : Holds .big 1 "model" content 1 _ :=
    @Holds.intro .big 1 "model" [0x32, 0x20, 0x31] [0x20] _ 1 _ (by decide) (by rfl) (by decide)
      (.cons hfirst (.cons hsecond .nil))
  have hne : content ≠ [] := by decide
  obtain ⟨-, hread, -⟩ := decode_grammar hplan rfl ⟨by decide, by decide, by decide⟩ hne
    (by decide) "model" .silent
  obtain ⟨store, hstore, hsize, hvocab, -, hvector⟩ := hread 1 _ hholds (by decide)
  exact ⟨_, store, hplan, hstore, hsize, hvocab, hvector 1 _ rfl⟩

/-- **A bound of zero is no bound**: the model is read although no vector fits in a segment of no
components. -/
theorem decode_grammar_zero :
    letI : Memory := .ample
    let content : Bytes := [0x31, 0x20, 0x31, 0x0A, 0x61, 0x20, 0x00, 0x00, 0x80, 0x3F]
    let request : Request := { Request.unspecified with capacity := some 0 }
    ∃ plan store, request.plan .default = .ok plan ∧ plan.Admissible ∧
      (content.length : Int) ≤ plan.limit ∧
      outcome (decode plan "model" content .silent) = .ok store ∧ (0 : Int) < store.layerSize := by
  let memory : Memory := .ample
  intro content request
  let plan : Plan := ⟨.little, 0x7FFFFFFF / 8, 0x40000000, 0x7FFFFFFF, .strict,
    fun _ => Settings.default.progressInterval.isBelowZero⟩
  have hplan : request.plan .default = .ok plan := rfl
  have hwindows : plan.Admissible := ⟨by decide, by decide, by decide⟩
  have hfits : (content.length : Int) ≤ plan.limit := by decide
  have hrecord : Spells .little 1 [0x61, 0x20, 0x00, 0x00, 0x80, 0x3F]
      ("a", [(Binary32.ofPattern 0x3F800000).widen]) :=
    @Spells.intro .little 1 [0x61] [0x00, 0x00, 0x80, 0x3F] "a" (by decide) (by decide) rfl
  have hholds : Holds plan.order plan.capacity "model" content 1 _ :=
    @Holds.intro .little plan.capacity "model" [0x31, 0x20, 0x31] [] _ 1 _ (by decide) (by rfl)
      (by decide) (.cons hrecord .nil)
  obtain ⟨store, hstore, -⟩ := exists_store_of_holds rfl hholds (by decide)
  refine ⟨plan, store, hplan, hwindows, hfits, ?_, Int.natCast_pos.2 store.layerSize_pos⟩
  rw [outcome_decode_of_le hwindows hfits, hstore]

end WordVectors.Binary
