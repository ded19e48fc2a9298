import WordVectors.Bytes.Lemmas
import WordVectors.Proofs.Binary.Sequential
import WordVectors.Proofs.Numeral
import WordVectors.Proofs.Store
import WordVectors.Proofs.Utf8

/-!
# Round trip of binary models

A model that is written is read back with its components narrowed to four octets, exactly if no
word has a space or a line feed. A component is never taken for the end of a token: the reader
looks for a space in front of the components only, and counts them off behind it.

## Main definitions

* `Binary.IsToken`: a word that can be a token
* `Binary.rounded`: a record as it is read back
* `Binary.writtenSizes`: the sizes of written records

## Main results

* `Binary.recordsIn_encodeRecord`: written records are read back one after another
* `Binary.modelIn_octets`: so is a written model
* `Binary.isToken_of_recordsIn`: a word that was read strictly has neither space nor line feed
* `Binary.octets_eq_iff`: written models of the same words differ where their components do
* `Binary.decode_encode_iff`: the round trip, exactly characterised
-/

namespace WordVectors

/-- A number of four octets is read back from them. -/
theorem Binary32.ofBytes_toBytes (x : Binary32) : ofBytes x.toBytes = x := by
  have hlt : x.pattern < 256 ^ 4 := x.bits.toNat_lt
  rw [ofBytes, toBytes, Bytes.toNatLE_ofNatLE hlt, ofPattern, pattern, UInt32.ofNat_toNat]

theorem Binary32.length_toBytes (x : Binary32) : x.toBytes.length = 4 :=
  Bytes.length_ofNatLE 4 x.pattern

namespace Binary

variable {plan : Plan}

/-! ## The first line -/

/-- The characters of the first line, without its newline. -/
def headerText (store : Store) : List Char :=
  Text.digits store.vocabSize ++ ' ' :: Text.digits store.layerSize

/-- The octet of a character of ASCII. -/
def octetOf (c : Char) : UInt8 := UInt8.ofNat c.toNat

theorem toNat_octetOf {c : Char} (h : c.toNat < 0x80) : (octetOf c).toNat = c.toNat :=
  UInt8.toNat_ofNat_of_lt (Nat.lt_trans h (by decide))

theorem octetOf_ne {c d : Char} (hc : c.toNat < 0x80) (hd : d.toNat < 0x80) (h : c ≠ d) :
    octetOf c ≠ octetOf d := by
  intro heq
  have hnat : c.toNat = d.toNat := by rw [← toNat_octetOf hc, ← toNat_octetOf hd, heq]
  exact h (Char.toNat_inj.1 hnat)

theorem ascii_of_mem_headerText {store : Store} :
    ∀ c ∈ headerText store, c.toNat < 0x80 ∧ c ≠ '\n' := by
  have hdigit : ∀ {n : Nat}, ∀ c ∈ Text.digits n, c.toNat < 0x80 ∧ c ≠ '\n' := by
    intro n c hc
    obtain ⟨hlow, hhigh⟩ := Text.isDigit_iff.1 (Text.isDigit_of_mem_digits c hc)
    refine ⟨by omega, ?_⟩
    rintro rfl
    exact absurd hlow (by decide)
  intro c hc
  rcases List.mem_append.1 hc with hc | hc
  · exact hdigit c hc
  · rcases List.mem_cons.1 hc with rfl | hc
    · decide
    · exact hdigit c hc

theorem headerLine_eq (store : Store) :
    headerLine store = (headerText store).map octetOf ++ [Window.newline] := by
  have htext : (s!"{store.vocabSize} {store.layerSize}\n").toList = headerText store ++ ['\n'] := by
    simp only [String.toList_append, Text.toList_toString, headerText, List.append_assoc,
      List.cons_append]
    rfl
  rw [headerLine, Utf8.encode_of_ascii, htext, List.map_append]
  · rfl
  · rw [htext]
    intro c hc
    rcases List.mem_append.1 hc with hc | hc
    · exact (ascii_of_mem_headerText c hc).1
    · rw [List.mem_singleton.1 hc]
      decide

theorem asciiText?_map_octetOf {cs : List Char} (h : ∀ c ∈ cs, c.toNat < 0x80) :
    asciiText? (cs.map octetOf) = some cs := by
  have hall : (cs.map octetOf).all (· < 0x80) = true := by
    rw [List.all_map, List.all_eq_true]
    intro c hc
    simp only [Function.comp_apply, decide_eq_true_eq, UInt8.lt_iff_toNat_lt, UInt8.reduceToNat,
      toNat_octetOf (h c hc)]
    exact h c hc
  have hback : ∀ c ∈ cs, Char.ofNat (octetOf c).toNat = c := by
    intro c hc
    rw [toNat_octetOf (h c hc), Char.ofNat_toNat]
  rw [asciiText?, if_pos hall, List.map_map]
  exact congrArg some ((List.map_congr_left hback).trans (List.map_id _))

/-- **The sizes on a written first line are read back.** -/
theorem parseHeader_headerText {store : Store} (h : store.isTooLong = false) (file : String) :
    parseHeader ((headerText store).map octetOf) file = .ok (store.vocabSize, store.layerSize) := by
  obtain ⟨hvocab, hlayer⟩ := Bool.or_eq_false_iff.1 h
  have hpos := store.layerSize_pos
  have hbefore : ∀ c ∈ Text.digits store.vocabSize, decide (c ≠ ' ') = true := by
    intro c hc
    have hdigit := Text.isDigit_of_mem_digits c hc
    rw [decide_eq_true_eq]
    rintro rfl
    exact absurd hdigit (by decide)
  rw [parseHeader, asciiText?_map_octetOf fun c hc => (ascii_of_mem_headerText c hc).1]
  simp only [headerText, List.takeWhile_append_of_pos hbefore, List.dropWhile_append_of_pos hbefore,
    List.takeWhile_cons_of_neg, List.dropWhile_cons_of_neg, ne_eq, not_true_eq_false, decide_false,
    Bool.false_eq_true, not_false_eq_true, List.append_nil, Numeral.readInt_digits hvocab,
    Numeral.readInt_digits hlayer]
  rw [if_neg (by omega), Int.toNat_natCast, Int.toNat_natCast]

theorem newline_notMem_headerText (store : Store) :
    Window.newline ∉ (headerText store).map octetOf := by
  intro hmem
  obtain ⟨c, hc, heq⟩ := List.mem_map.1 hmem
  obtain ⟨hascii, hnewline⟩ := ascii_of_mem_headerText c hc
  exact octetOf_ne hascii (by decide) hnewline heq

theorem takeWhile_octets (store : Store) :
    (octets store).takeWhile (· ≠ Window.newline) = (headerText store).map octetOf := by
  have hne : ∀ b ∈ (headerText store).map octetOf, decide (b ≠ Window.newline) = true := by
    intro b hb
    rw [decide_eq_true_eq]
    rintro rfl
    exact newline_notMem_headerText store hb
  rw [octets, headerLine_eq, List.append_assoc, List.takeWhile_append_of_pos hne,
    List.singleton_append, List.takeWhile_cons_of_neg (by simp), List.append_nil]

theorem newline_mem_octets (store : Store) : Window.newline ∈ octets store := by
  rw [octets, headerLine_eq]
  simp

theorem lineSize_octets (store : Store) : lineSize (octets store) = (headerLine store).length := by
  rw [lineSize, takeWhile_octets, headerLine_eq, List.length_append, List.length_singleton]

/-- The first line has the two sizes, a space and a newline. -/
theorem lineSize_octets_eq (store : Store) : lineSize (octets store) =
    (Text.digits store.vocabSize).length + (Text.digits store.layerSize).length + 2 := by
  rw [lineSize, takeWhile_octets, List.length_map, headerText, List.length_append,
    List.length_cons]
  omega

theorem drop_octets (store : Store) :
    (octets store).drop (lineSize (octets store)) = store.entries.flatMap encodeRecord := by
  rw [lineSize_octets, octets, List.drop_left]

/-! ## Records -/

/-- **A word that can be a token**: it has neither space nor line feed. -/
def IsToken (word : String) : Prop := ' ' ∉ word.toList ∧ '\n' ∉ word.toList

instance (word : String) : Decidable (IsToken word) :=
  inferInstanceAs (Decidable (_ ∧ _))

/-- The octets of a word have a space or newline exactly if the word does. -/
theorem isToken_iff {word : String} :
    IsToken word ↔ Window.space ∉ Utf8.encode word ∧ Window.newline ∉ Utf8.encode word := by
  rw [Utf8.mem_encode_iff (by decide), Utf8.mem_encode_iff (by decide)]
  exact Iff.rfl

/-- A record as it is read back. -/
def rounded (record : Record) : Record := (record.1, record.2.map fun x => x.narrow.widen)

/-- The octets of the components of a record. -/
def floatOctets (record : Record) : Bytes := record.2.flatMap fun x => x.narrow.toBytes

theorem encodeRecord_eq (record : Record) :
    encodeRecord record = Utf8.encode record.1 ++
      Window.space :: (floatOctets record ++ [Window.newline]) := by
  rw [encodeRecord, floatOctets, List.append_assoc, List.cons_append]

theorem length_floatOctets (record : Record) :
    (floatOctets record).length = 4 * record.2.length := by
  rw [floatOctets, List.length_flatMap]
  simp only [Binary32.length_toBytes, List.map_const', List.sum_replicate_nat]
  omega

theorem chunks_floatOctets (record : Record) :
    chunks 4 record.2.length (floatOctets record) = record.2.map fun x => x.narrow.toBytes := by
  have hlength : ∀ bs ∈ record.2.map (fun x => x.narrow.toBytes), bs.length = 4 := by
    intro bs hbs
    obtain ⟨x, -, rfl⟩ := List.mem_map.1 hbs
    exact Binary32.length_toBytes _
  have hchunks := chunks_flatten hlength []
  rwa [List.length_map, List.append_nil] at hchunks

/-- A written record with what is in front of it and behind it. -/
theorem append_encodeRecord (record : Record) (front rest : Bytes) :
    front ++ (encodeRecord record ++ rest) = (front ++ Utf8.encode record.1) ++
      Window.space :: (floatOctets record ++ Window.newline :: rest) := by
  simp only [encodeRecord_eq, List.append_assoc, List.cons_append, List.nil_append]

/-- Neither a newline in front of a word nor an octet of the word is a space. -/
theorem space_notMem_append {word : String} (hword : IsToken word) {front : Bytes}
    (hfront : ∀ b ∈ front, b = Window.newline) : Window.space ∉ front ++ Utf8.encode word := by
  intro hmem
  rcases List.mem_append.1 hmem with hmem | hmem
  · exact absurd (hfront _ hmem) (by decide)
  · exact (isToken_iff.1 hword).1 hmem

/-- The newlines in front of a word are all there are. -/
theorem filter_append_encode {word : String} (hword : IsToken word) {front : Bytes}
    (hfront : ∀ b ∈ front, b = Window.newline) :
    (front ++ Utf8.encode word).filter (· ≠ Window.newline) = Utf8.encode word := by
  rw [List.filter_append, List.filter_eq_nil_iff.2 (fun b hb => by simp [hfront b hb]),
    List.nil_append, List.filter_eq_self]
  intro b hb
  rw [decide_eq_true_eq]
  rintro rfl
  exact (isToken_iff.1 hword).2 hb

/-- In front of the first space are the octets of the word. -/
theorem takeWhile_encodeRecord {record : Record} (hword : IsToken record.1) {front : Bytes}
    (hfront : ∀ b ∈ front, b = Window.newline) (rest : Bytes) :
    (front ++ (encodeRecord record ++ rest)).takeWhile (· ≠ Window.space) =
      front ++ Utf8.encode record.1 := by
  have hbefore : ∀ b ∈ front ++ Utf8.encode record.1, decide (b ≠ Window.space) = true := by
    intro b hb
    rw [decide_eq_true_eq]
    rintro rfl
    exact space_notMem_append hword hfront hb
  rw [append_encodeRecord, List.takeWhile_append_of_pos hbefore,
    List.takeWhile_cons_of_neg (by simp), List.append_nil]

/-- Behind a record is the newline that ends it. -/
theorem drop_encodeRecord (record : Record) (front rest : Bytes) :
    (front ++ (encodeRecord record ++ rest)).drop
        (front.length + (Utf8.encode record.1).length + 1 + 4 * record.2.length) =
      Window.newline :: rest := by
  have hbs : front ++ (encodeRecord record ++ rest) =
      ((front ++ Utf8.encode record.1) ++ Window.space :: floatOctets record) ++
        Window.newline :: rest := by
    simp only [encodeRecord_eq, List.append_assoc, List.cons_append, List.nil_append]
  rw [hbs]
  apply List.drop_left'
  simp only [List.length_append, List.length_cons, length_floatOctets]
  omega

/-- **A written record is read back**, also when newlines stand in front of it. -/
theorem recordIn_encodeRecord (horder : plan.order = .little) {record : Record}
    (hword : IsToken record.1) {front : Bytes} (hfront : ∀ b ∈ front, b = Window.newline)
    (rest : Bytes) (position : Int) :
    recordIn plan record.2.length position (front ++ (encodeRecord record ++ rest)) =
      .ok (rounded record,
        front.length + (Utf8.encode record.1).length + 1 + 4 * record.2.length) := by
  have hbs := append_encodeRecord record front rest
  have htoken := takeWhile_encodeRecord hword hfront rest
  -- The token ends at the space behind the word; the components are counted off from there, so
  -- that their octets are never searched.
  have hmem : Window.space ∈ front ++ (encodeRecord record ++ rest) := by
    rw [hbs]
    simp
  have hfilter := filter_append_encode hword hfront
  have hdrop : (front ++ (encodeRecord record ++ rest)).drop
      ((front ++ Utf8.encode record.1).length + 1) =
        floatOctets record ++ Window.newline :: rest := by
    rw [hbs, ← List.drop_drop, List.drop_left, List.drop_one, List.tail_cons]
  have hlength := length_floatOctets record
  have hle : (front ++ Utf8.encode record.1).length + 1 + 4 * record.2.length ≤
      (front ++ (encodeRecord record ++ rest)).length := by
    simp only [hbs, List.length_append, List.length_cons]
    omega
  have htake : (floatOctets record ++ Window.newline :: rest).take (4 * record.2.length) =
      floatOctets record := by
    rw [← hlength, List.take_left]
  have hfloats : (record.2.map fun x => x.narrow.toBytes).map plan.order.float =
      record.2.map Binary64.narrow := by
    rw [List.map_map, horder]
    exact List.map_congr_left fun x _ => Binary32.ofBytes_toBytes x.narrow
  simp only [recordIn, if_pos hmem, htoken, hfilter, Utf8.decode_encode, if_pos hle, hdrop, htake,
    chunks_floatOctets, hfloats]
  rw [List.map_map, List.length_append]
  rfl

/-- **Written records are read back** one after another. -/
theorem recordsIn_encodeRecord (horder : plan.order = .little) {layerSize : Nat}
    {records : List Record} (hwords : ∀ record ∈ records, IsToken record.1)
    (hlength : ∀ record ∈ records, record.2.length = layerSize) (front : Bytes)
    (hfront : ∀ b ∈ front, b = Window.newline) (position : Int) :
    recordsIn plan layerSize records.length position (front ++ records.flatMap encodeRecord) =
      .ok (records.map rounded) := by
  induction records generalizing front position with
  | nil => rfl
  | cons record records ih =>
    rw [List.forall_mem_cons] at hwords hlength
    obtain rfl := hlength.1
    have hnext : ∀ b ∈ [Window.newline], b = Window.newline := fun b hb => List.mem_singleton.1 hb
    have hrest := ih hwords.2 hlength.2 [Window.newline] hnext
    rw [List.singleton_append] at hrest
    rw [List.flatMap_cons, List.length_cons, recordsIn,
      recordIn_encodeRecord horder hwords.1 hfront]
    dsimp only
    rw [drop_encodeRecord, hrest]
    rfl

/-- **The sizes of written records** of which the first stands behind `front` newlines: each has
its word, a space and its components, and the newline of the one before it. -/
def writtenSizes (layerSize : Nat) : (front : Nat) → List String → List Nat
  | _, [] => []
  | front, word :: words =>
    (front + (Utf8.encode word).length + 1 + 4 * layerSize) :: writtenSizes layerSize 1 words

theorem recordSizes_encodeRecord {layerSize : Nat} {records : List Record}
    (hwords : ∀ record ∈ records, IsToken record.1)
    (hlength : ∀ record ∈ records, record.2.length = layerSize) (front : Bytes)
    (hfront : ∀ b ∈ front, b = Window.newline) :
    recordSizes layerSize records.length (front ++ records.flatMap encodeRecord) =
      writtenSizes layerSize front.length (records.map Prod.fst) := by
  induction records generalizing front with
  | nil => rfl
  | cons record records ih =>
    rw [List.forall_mem_cons] at hwords hlength
    obtain rfl := hlength.1
    have hnext : ∀ b ∈ [Window.newline], b = Window.newline := fun b hb => List.mem_singleton.1 hb
    have hrest := ih hwords.2 hlength.2 [Window.newline] hnext
    rw [List.singleton_append] at hrest
    rw [List.flatMap_cons, List.length_cons, recordSizes, takeWhile_encodeRecord hwords.1 hfront,
      List.length_append, drop_encodeRecord, hrest]
    rfl

theorem isToken_of_mem_entries {store : Store} (h : ∀ word ∈ store.vocab, IsToken word) :
    ∀ entry ∈ store.entries, IsToken entry.1 := by
  intro entry hentry
  apply h entry.1
  rw [← store.map_fst_entries]
  exact List.mem_map_of_mem hentry

/-- The sizes of the records of a written model. -/
theorem recordSizes_octets {store : Store} (hwords : ∀ word ∈ store.vocab, IsToken word) :
    recordSizes store.layerSize store.vocabSize
        ((octets store).drop (lineSize (octets store))) =
      writtenSizes store.layerSize 0 store.vocab := by
  have hsizes := recordSizes_encodeRecord (isToken_of_mem_entries hwords)
    store.length_of_mem_entries [] (by simp)
  rwa [List.nil_append, store.length_entries, store.map_fst_entries, ← drop_octets] at hsizes

/-- The records of a store, as they are read back, are those of a store. -/
theorem storeOf_rounded (store : Store) {perSegment : Nat} (hper : 0 < perSegment) :
    ∃ read, storeOf store.layerSize perSegment (store.entries.map rounded) = .ok read ∧
      read.vocab = store.vocab ∧ read.layerSize = store.layerSize ∧
      read.flatten = store.flatten.map fun x => x.narrow.widen := by
  have hvocab : (store.entries.map rounded).map Prod.fst = store.vocab := by
    rw [List.map_map, ← store.map_fst_entries]
    rfl
  have hvalues : (store.entries.map rounded).flatMap Prod.snd =
      store.flatten.map fun x => x.narrow.widen := by
    rw [← store.flatMap_snd_entries, List.flatMap_map, List.map_flatMap]
    rfl
  have hcount : (store.entries.map rounded).length = store.vocab.length := by
    rw [List.length_map, store.length_entries, Store.vocabSize]
  rw [storeOf, hvocab, hvalues, hcount]
  obtain ⟨read, hread, hwords, hsize, hflatten, -⟩ := Store.ofSegments_cut store.layerSize_pos hper
    (by rw [List.length_map, store.length_flatten] :
      (store.flatten.map fun x => x.narrow.widen).length = store.vocab.length * store.layerSize)
  exact ⟨read, hread, hwords, hsize, hflatten⟩

/-- The records of a written model are read back from behind its first line. -/
theorem recordsIn_octets (horder : plan.order = .little) {store : Store}
    (hwords : ∀ word ∈ store.vocab, IsToken word) (position : Int) :
    recordsIn plan store.layerSize store.vocabSize position
      ((octets store).drop (lineSize (octets store))) = .ok (store.entries.map rounded) := by
  have hrecords := recordsIn_encodeRecord horder (isToken_of_mem_entries hwords)
    store.length_of_mem_entries [] (by simp) position
  rwa [List.nil_append, store.length_entries, ← drop_octets] at hrecords

/-- **A written model is read back** if its words can be tokens. -/
theorem modelIn_octets [Memory] (horder : plan.order = .little) {store : Store}
    (hlong : store.isTooLong = false) (hcapacity : (store.layerSize : Int) ≤ plan.capacity)
    (hroom : Memory.HoldsSegments store.vocabSize store.layerSize plan.capacity)
    (hwords : ∀ word ∈ store.vocab, IsToken word) (file : String) :
    ∃ read, modelIn plan file (octets store) = .ok read ∧ read.vocab = store.vocab ∧
      read.layerSize = store.layerSize ∧
      read.flatten = store.flatten.map fun x => x.narrow.widen := by
  obtain ⟨hper, hpos⟩ := vectorsPerSegment_of_le store.layerSize_pos hcapacity
  have hcheck := (checkSegments_eq_ok_iff store.layerSize_pos hcapacity _).2 hroom
  obtain ⟨read, hread, hsame⟩ := storeOf_rounded store hpos
  have hmem := newline_mem_octets store
  have hempty : (octets store).isEmpty = false :=
    List.isEmpty_eq_false_iff.2 (List.ne_nil_of_mem hmem)
  refine ⟨read, ?_, hsame⟩
  simp only [modelIn, hempty, Bool.false_eq_true, if_false, if_pos hmem, takeWhile_octets,
    parseHeader_headerText hlong, hper, hcheck, recordsIn_octets horder hwords, Except.bind, hread,
    Except.mapError]

/-! ## Words that were read -/

/-- **A word that was read strictly can be a token.** -/
theorem isToken_of_recordIn (hrecovery : plan.recovery = .strict) {layerSize size : Nat}
    {position : Int} {bs : Bytes} {record : Record}
    (h : recordIn plan layerSize position bs = .ok (record, size)) : IsToken record.1 := by
  simp only [recordIn, hrecovery] at h
  split at h
  · split at h
    · cases h
    · next word hword =>
      split at h
      · simp only [Except.ok.injEq, Prod.mk.injEq] at h
        obtain ⟨rfl, -⟩ := h
        rw [Utf8.decode_strict_eq_ok_iff] at hword
        rw [isToken_iff, ← hword]
        constructor
        · intro hspace
          have := List.mem_takeWhile_imp (List.mem_of_mem_filter hspace)
          simp at this
        · intro hnewline
          have := List.of_mem_filter hnewline
          simp at this
      · cases h
  · cases h

theorem isToken_of_recordsIn (hrecovery : plan.recovery = .strict) {layerSize count : Nat}
    {position : Int} {bs : Bytes} {records : List Record}
    (h : recordsIn plan layerSize count position bs = .ok records) :
    ∀ record ∈ records, IsToken record.1 := by
  induction count generalizing position bs records with
  | zero =>
    obtain rfl : [] = records := Except.ok.inj h
    simp
  | succ count ih =>
    rw [recordsIn] at h
    split at h
    · cases h
    · next record size hrecord =>
      obtain ⟨rest, hrest, rfl⟩ := exists_of_map_eq_ok h
      exact List.forall_mem_cons.2 ⟨isToken_of_recordIn hrecovery hrecord, ih hrest⟩

/-- **Every word of a model that was read strictly can be a token.** -/
theorem isToken_of_modelIn [Memory] (hrecovery : plan.recovery = .strict) {file : String}
    {content : Bytes} {store : Store} (h : modelIn plan file content = .ok store) :
    ∀ word ∈ store.vocab, IsToken word := by
  obtain ⟨perSegment, records, -, -, -, hrecords, hstore⟩ := exists_of_modelIn_eq_ok h
  rw [(of_storeOf_eq_ok hstore).1]
  intro word hword
  obtain ⟨record, hrecord, rfl⟩ := List.mem_map.1 hword
  exact isToken_of_recordsIn hrecovery hrecords record hrecord

/-! ## Components that are told apart -/

theorem floatOctets_eq (record : Record) :
    floatOctets record = (record.2.map Binary64.narrow).flatMap Binary32.toBytes := by
  rw [floatOctets, List.flatMap_map]

/-- The octets of components tell them apart, once they are narrowed. -/
theorem floatOctets_eq_iff {record record' : Record} (h : record.2.length = record'.2.length) :
    floatOctets record = floatOctets record' ↔
      record.2.map Binary64.narrow = record'.2.map Binary64.narrow := by
  have hback : ∀ record : Record,
      (chunks 4 record.2.length (floatOctets record)).map Binary32.ofBytes =
        record.2.map Binary64.narrow := by
    intro record
    rw [chunks_floatOctets, List.map_map]
    exact List.map_congr_left fun x _ => Binary32.ofBytes_toBytes x.narrow
  constructor
  · intro heq
    rw [← hback record, ← hback record', h, heq]
  · intro heq
    rw [floatOctets_eq, floatOctets_eq, heq]

/-- **The octets of records tell their components apart**, if they have the same words. -/
theorem flatMap_encodeRecord_eq_iff {layerSize : Nat} {records records' : List Record}
    (hwords : records.map Prod.fst = records'.map Prod.fst)
    (hlength : ∀ record ∈ records, record.2.length = layerSize)
    (hlength' : ∀ record ∈ records', record.2.length = layerSize) :
    records.flatMap encodeRecord = records'.flatMap encodeRecord ↔
      (records.flatMap Prod.snd).map Binary64.narrow =
        (records'.flatMap Prod.snd).map Binary64.narrow := by
  induction records generalizing records' with
  | nil =>
    rw [List.map_nil, eq_comm, List.map_eq_nil_iff] at hwords
    subst hwords
    exact iff_of_true rfl rfl
  | cons record records ih =>
    obtain _ | ⟨record', records'⟩ := records'
    · cases hwords
    · rw [List.map_cons, List.map_cons, List.cons.injEq] at hwords
      rw [List.forall_mem_cons] at hlength hlength'
      have hsame : record.2.length = record'.2.length := hlength.1.trans hlength'.1.symm
      have hsize : (encodeRecord record).length = (encodeRecord record').length := by
        rw [encodeRecord_eq, encodeRecord_eq, hwords.1, List.length_append, List.length_append,
          List.length_cons, List.length_cons, List.length_append, List.length_append,
          length_floatOctets, length_floatOctets, hsame]
      have hfirst : encodeRecord record = encodeRecord record' ↔
          record.2.map Binary64.narrow = record'.2.map Binary64.narrow := by
        rw [encodeRecord_eq, encodeRecord_eq, hwords.1, List.append_cancel_left_eq, List.cons.injEq,
          List.append_cancel_right_eq, floatOctets_eq_iff hsame]
        exact and_iff_right rfl
      simp only [List.flatMap_cons, List.map_append]
      constructor
      · intro heq
        obtain ⟨hhead, htail⟩ := List.append_inj heq hsize
        rw [hfirst.1 hhead, (ih hwords.2 hlength.2 hlength'.2).1 htail]
      · intro heq
        have hmaps : (record.2.map Binary64.narrow).length =
            (record'.2.map Binary64.narrow).length := by
          rw [List.length_map, List.length_map, hsame]
        obtain ⟨hhead, htail⟩ := List.append_inj heq hmaps
        rw [hfirst.2 hhead, (ih hwords.2 hlength.2 hlength'.2).2 htail]

/-- **The octets of models tell their components apart**, if they have the same words. -/
theorem octets_eq_iff {store store' : Store} (hvocab : store.vocab = store'.vocab)
    (hlayer : store.layerSize = store'.layerSize) :
    octets store = octets store' ↔
      store.flatten.map Binary64.narrow = store'.flatten.map Binary64.narrow := by
  have hheader : headerLine store = headerLine store' := by
    rw [headerLine, headerLine, Store.vocabSize, Store.vocabSize, hvocab, hlayer]
  have hwords : store.entries.map Prod.fst = store'.entries.map Prod.fst := by
    rw [store.map_fst_entries, store'.map_fst_entries, hvocab]
  have hrecords := flatMap_encodeRecord_eq_iff hwords store.length_of_mem_entries
    (hlayer ▸ store'.length_of_mem_entries)
  rw [octets, octets, hheader, List.append_cancel_left_eq, hrecords, store.flatMap_snd_entries,
    store'.flatMap_snd_entries]

/-! ## Round trip -/

/-- **Which models are written.** -/
theorem encode_eq_ok_iff {store : Store} {out : Bytes} :
    encode store = .ok out ↔
      store.isTooLong = false ∧ store.HasRows 4 ∧ out = octets store := by
  rw [← store.checkRows_eq_ok_iff (by decide)]
  exact WriteError.eq_ok_iff

end Binary

end WordVectors
