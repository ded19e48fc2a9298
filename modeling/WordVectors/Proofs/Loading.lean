import WordVectors.Codec.Format
import WordVectors.Proofs.Binary.Grammar
import WordVectors.Proofs.Compact.RoundTrip

/-!
# Failures to load a model

A file can fail to be a model in many ways, and most of them are reported as what is wrong with the
file. The others are few: octets that are not UTF-8 where a text is expected, sizes for which there
is no room, vectors that are larger than a segment may be, and fields of a text that are no numbers.
Under settings without issues there is nothing else: a window can be opened and moved, and what it
cannot show is reported as missing; and numbers that were read always make a store.

## Main definitions

* `Format.Unreported`: the failures to load a model that are not reported

## Main results

* `Settings.Usable.exists_plan`: under settings without issues windows can be opened and moved
* `Binary.cases_of_decode_eq_error`, `TextModel.cases_of_decodeBytes_eq_error`,
  `Compact.cases_of_decode_eq_error`: the failures of each format
* `Format.cases_of_load_eq_error`: a failure to load is reported or one of those that are not
-/

namespace WordVectors

/-- **The failures to load a model that are not reported**, by format. -/
inductive Format.Unreported (settings : Settings) : Format → ModelError → Prop
  /-- Octets are not UTF-8. -/
  | encoding {format : Format} (e : Utf8.Error) : Unreported settings format (.encoding e)
  /-- There is no room for the vectors that are declared. -/
  | room {format : Format} (e : RoomError) : Unreported settings format (.room e)
  /-- A vector is larger than a segment may be. -/
  | capacity {layerSize : Nat} (h : settings.segmentCapacity < layerSize) :
      Unreported settings .binary
        (.store (.capacity (.tooSmall settings.segmentCapacity layerSize)))
  /-- A field is no number. -/
  | value (file : String) (line : Nat) (text : String) :
      Unreported settings .text (.value file line text)

theorem Format.Unreported.isReported {settings : Settings} {format : Format} {e : ModelError}
    (h : format.Unreported settings e) : e.isReported = false := by
  cases h <;> rfl

/-! ## Binary models -/

/-- **Under settings without issues windows can be opened and moved**, whatever byte order is asked
for. -/
theorem Settings.Usable.exists_plan {settings : Settings} (h : settings.Usable)
    {asked : Option String} {order : ByteOrder}
    (horder : ByteOrder.ofName? (Binary.nameOr asked settings.byteOrder) = some order) :
    ∃ plan : Binary.Plan,
      ({ Binary.Request.unspecified with byteOrder := asked }).plan settings = .ok plan ∧
        plan.Admissible ∧ plan.recovery = .strict ∧ plan.order = order ∧
        plan.capacity = settings.segmentCapacity ∧ plan.stride = settings.stride ∧
        plan.limit = settings.windowLimit := by
  refine ⟨⟨order, settings.segmentCapacity, settings.stride, settings.windowLimit, .strict,
    fun _ => settings.progressInterval.isBelowZero⟩, ?_, ?_, rfl, rfl, rfl, rfl, rfl⟩
  · rw [Binary.Request.plan, Binary.orderNamed, horder]
    rfl
  · exact ⟨h.stride_pos, h.stride_granular, h.stride_lt⟩

namespace Binary

variable {settings : Settings} {file : String} {content : Bytes} {e : ModelError}

theorem Fault.isReported_or {layerSize : Nat} {position : Int} {bs : Bytes}
    (h : Fault layerSize position bs e) :
    e.isReported = true ∨ Format.Unreported settings .binary e := by
  cases h with
  | token => exact .inl rfl
  | encoding => exact .inr (.encoding _)
  | vector => exact .inl rfl

/-- A file that does not follow the grammar is reported where it ends too early. -/
theorem Fails.isReported_or [Memory] {order : ByteOrder}
    (h : Fails order settings.segmentCapacity file content e) :
    e.isReported = true ∨ Format.Unreported settings .binary e := by
  cases h with
  | unterminated => exact .inl rfl
  | header => exact .inl rfl
  | capacity _ _ hbound => exact .inr (.capacity hbound)
  | room => exact .inr (.room _)
  | record _ _ _ _ _ _ hfault => exact hfault.isReported_or

variable {plan : Plan} {p : Progress}

/-- A first line that does not end in the first window is no first line. -/
theorem decode_of_lt_lineSize [Memory] (hplan : plan.Admissible) (hne : content ≠ [])
    (hline : plan.limit < lineSize content) :
    (decode plan file content p).2 = .error (.header (.unterminated file)) := by
  obtain ⟨w, q, hsound, hfile, hlimit, -, hposition, hoffset, -, hdecode⟩ :=
    decode_of_ne_nil hplan hne file p
  have hleft : w.left = content := by
    rw [Window.left, Window.filePosition, hposition, hoffset, hfile]
    rfl
  have hmem : Window.newline ∉ w.left.take w.reach := by
    rw [hleft]
    intro hmem
    have hlt := (Bytes.mem_take_iff (List.mem_of_mem_take hmem) w.reach).1 hmem
    have hsize := hsound.size_eq
    have hreach : w.reach = ((w.size : Int) - w.position).toNat := rfl
    simp only [lineSize] at hline
    omega
  rw [hdecode, decodeFrom, Window.readUntil_of_not_mem hsound hmem]

/-- **A binary model that is not read** is reported, but for tokens that are not UTF-8, for vectors
larger than a segment, and for want of room. -/
theorem cases_of_decode_eq_error [Memory] (hplan : plan.Admissible)
    (hrecovery : plan.recovery = .strict)
    (hcapacity : plan.capacity = settings.segmentCapacity)
    (h : (decode plan file content p).2 = .error e) :
    e.isReported = true ∨ Format.Unreported settings .binary e := by
  by_cases hne : content = []
  · subst hne
    obtain rfl := Except.error.inj h
    exact .inl rfl
  · rcases Int.lt_or_le plan.limit (lineSize content) with hline | hline
    · rw [decode_of_lt_lineSize hplan hne hline] at h
      obtain rfl := Except.error.inj h
      exact .inl rfl
    · have houtcome : outcome (decode plan file content p) = .error e := by
        rw [outcome, h]
        rfl
      rcases outcome_decode_cases hplan (fun _ => hline) file p with ⟨heq, -⟩ | ⟨-, hcross, -⟩
      · rw [heq, modelIn_eq_error_iff hrecovery hne, hcapacity] at houtcome
        exact houtcome.isReported_or
      · obtain ⟨wanted, position, first, last, hcross⟩ := hcross
        obtain rfl := Except.error.inj (houtcome.symm.trans hcross)
        exact .inl rfl

end Binary

/-! ## Text models -/

namespace TextModel

variable {settings : Settings} {file : String} {layerSize n : Nat} {e : ModelError}

theorem length_of_parseValues_eq_ok {fields : List (List Char)} {values : List Binary64}
    (h : parseValues file n fields = .ok values) : values.length = fields.length := by
  induction fields generalizing values with
  | nil =>
    obtain rfl := Except.ok.inj h
    rfl
  | cons field fields ih =>
    rw [parseValues] at h
    split at h
    · cases h
    · obtain ⟨values, hvalues, rfl⟩ := exists_of_map_eq_ok h
      rw [List.length_cons, List.length_cons, ih hvalues]

theorem length_of_parseLine_eq_ok {line : String} {entry : String × List Binary64}
    (h : parseLine layerSize file n line = .ok entry) : entry.2.length = layerSize := by
  simp only [parseLine] at h
  split at h
  · cases h
  · next hlength =>
    obtain ⟨values, hvalues, rfl⟩ := exists_of_map_eq_ok h
    rw [length_of_parseValues_eq_ok hvalues, List.length_tail]
    omega

/-- Lines that are read have a vector each. -/
theorem lengths_of_parseLines_eq_ok {lines : List String}
    {entries : List (String × List Binary64)}
    (h : parseLines layerSize file n lines = .ok entries) :
    ∀ entry ∈ entries, entry.2.length = layerSize := by
  induction lines generalizing n entries with
  | nil =>
    obtain rfl := Except.ok.inj h
    simp
  | cons line lines ih =>
    obtain ⟨entry, hentry, h⟩ := exists_of_bind_eq_ok h
    obtain ⟨entries', hentries, h⟩ := exists_of_bind_eq_ok h
    obtain rfl := Except.ok.inj h
    exact List.forall_mem_cons.2 ⟨length_of_parseLine_eq_ok hentry, ih hentries⟩

theorem cases_of_parseValues_eq_error {fields : List (List Char)}
    (h : parseValues file n fields = .error e) : ∃ text, e = .value file n text := by
  induction fields with
  | nil => cases h
  | cons field fields ih =>
    rw [parseValues] at h
    split at h
    · exact ⟨_, (Except.error.inj h).symm⟩
    · exact ih (map_eq_error_iff.1 h)

theorem cases_of_parseLine_eq_error {line : String}
    (h : parseLine layerSize file n line = .error e) :
    e.isReported = true ∨ Format.Unreported settings .text e := by
  simp only [parseLine] at h
  split at h
  · obtain rfl := Except.error.inj h
    exact .inl rfl
  · obtain ⟨text, rfl⟩ := cases_of_parseValues_eq_error (map_eq_error_iff.1 h)
    exact .inr (.value file n text)

theorem cases_of_parseLines_eq_error {lines : List String}
    (h : parseLines layerSize file n lines = .error e) :
    e.isReported = true ∨ Format.Unreported settings .text e := by
  induction lines generalizing n with
  | nil => cases h
  | cons line lines ih =>
    rcases cases_of_bind_eq_error h with h | ⟨entry, -, h⟩
    · exact cases_of_parseLine_eq_error h
    · rcases cases_of_bind_eq_error h with h | ⟨entries, -, h⟩
      · exact ih h
      · cases h

theorem isReported_of_parseHeader_eq_error {line : String}
    (h : parseHeader line file = .error e) : e.isReported = true := by
  simp only [parseHeader] at h
  repeat' split at h
  all_goals
    cases h
    try rfl

theorem pos_of_parseHeader_eq_ok {line : String} {vocabSize : Int}
    (h : parseHeader line file = .ok (vocabSize, layerSize)) : 0 < layerSize := by
  simp only [parseHeader] at h
  repeat' split at h
  all_goals
    cases h
    try omega

theorem cases_of_decode_eq_error [Memory] {lines : List String}
    (h : decode lines file none = .error e) :
    e.isReported = true ∨ Format.Unreported settings .text e := by
  cases lines with
  | nil =>
    obtain rfl := Except.error.inj h
    exact .inl rfl
  | cons first lines =>
    rcases cases_of_bind_eq_error h with h | ⟨⟨vocabSize, layerSize⟩, hheader, h⟩
    · exact .inl (isReported_of_parseHeader_eq_error h)
    · dsimp only at h
      split at h
      · obtain rfl := Except.error.inj h
        exact .inl rfl
      · rcases cases_of_bind_eq_error h with h | ⟨-, -, h⟩
        · obtain ⟨cause, -, rfl⟩ := exists_of_mapError_eq_error h
          exact .inr (.room cause)
        · rcases cases_of_bind_eq_error h with h | ⟨entries, hentries, h⟩
          · exact cases_of_parseLines_eq_error h
          · have hcapacity : ∀ c ∈ (none : Option Int), (layerSize : Int) ≤ c := by simp
            have hlengths := lengths_of_parseLines_eq_ok hentries
            obtain ⟨store, hstore, -⟩ := Store.ofDense_eq_ok (pos_of_parseHeader_eq_ok hheader)
              hcapacity (length_flatMap_snd hlengths)
            rw [hstore] at h
            cases h

/-- **A text model that is not read** is reported, but for octets that are not UTF-8, for fields
that are no numbers, and for want of room. -/
theorem cases_of_decodeBytes_eq_error [Memory] {content : Bytes}
    (h : decodeBytes content file none = .error e) :
    e.isReported = true ∨ Format.Unreported settings .text e := by
  rcases cases_of_bind_eq_error h with h | ⟨text, -, h⟩
  · obtain ⟨cause, -, rfl⟩ := exists_of_mapError_eq_error h
    exact .inr (.encoding cause)
  · exact cases_of_decode_eq_error h

end TextModel

/-! ## Compact models -/

namespace Compact

variable {settings : Settings} {bs : Bytes} {e : ModelError}

theorem cases_of_readToken_eq_error {index : Nat} (h : readToken index bs = .error e) :
    e.isReported = true ∨ Format.Unreported settings .compact e := by
  rw [readToken] at h
  split at h
  · obtain rfl := Except.error.inj h
    exact .inl rfl
  · split at h
    · obtain rfl := Except.error.inj h
      exact .inl rfl
    · split at h
      · obtain rfl := Except.error.inj h
        exact .inr (.encoding _)
      · cases h

theorem cases_of_readTokens_eq_error {index left : Nat} (h : readTokens index left bs = .error e) :
    e.isReported = true ∨ Format.Unreported settings .compact e := by
  induction left generalizing index bs with
  | zero => cases h
  | succ left ih =>
    rcases cases_of_bind_eq_error h with h | ⟨⟨word, rest⟩, -, h⟩
    · exact cases_of_readToken_eq_error h
    · rcases cases_of_bind_eq_error h with h | ⟨⟨words, rest⟩, -, h⟩
      · exact ih h
      · cases h

theorem cases_of_readValues_eq_error [Memory] {count : Nat}
    (h : readValues count bs = .error e) :
    e.isReported = true ∨ Format.Unreported settings .compact e := by
  rw [readValues] at h
  split at h
  · obtain rfl := Except.error.inj h
    exact .inr (.room _)
  · split at h
    · obtain rfl := Except.error.inj h
      exact .inl rfl
    · cases h

/-- **A compact model that is not read** is reported, but for tokens that are not UTF-8 and for
want of room. -/
theorem cases_of_decode_eq_error [Memory] (h : decode bs none = .error e) :
    e.isReported = true ∨ Format.Unreported settings .compact e := by
  rcases cases_of_bind_eq_error h with h | ⟨⟨header, rest⟩, hheader, h⟩
  · obtain ⟨cause, -, rfl⟩ := exists_of_mapError_eq_error h
    exact .inl rfl
  · rcases cases_of_bind_eq_error h with h | ⟨⟨words, rest'⟩, hwords, h⟩
    · exact cases_of_readTokens_eq_error h
    · rcases cases_of_bind_eq_error h with h | ⟨values, hvalues, h⟩
      · exact cases_of_readValues_eq_error h
      · have hfits := (readHeader_eq_ok_iff.1 (eq_ok_of_mapError_eq_ok hheader)).2
        have hlength : values.length = words.length * header.layerSize := by
          rw [(readValues_eq_ok_iff.1 hvalues).2.2, (readTokens_eq_ok_iff.1 hwords).2.1]
        have hcapacity : ∀ c ∈ (none : Option Int), (header.layerSize : Int) ≤ c := by simp
        obtain ⟨store, hstore, -⟩ :=
          Store.ofDense_eq_ok hfits.layerSize_pos hcapacity hlength
        rw [hstore] at h
        cases h

end Compact

/-! ## All formats -/

/-- **A failure to load a model is reported or one of those that are not.** -/
theorem Format.cases_of_load_eq_error [Memory] {settings : Settings} (husable : settings.Usable)
    (order : ByteOrder) {format : Format} {file : String} {content : Bytes} {p : Progress}
    {e : ModelError}
    (h : (format.load settings { Binary.Request.unspecified with
        byteOrder := if format = .binary then some order.name else none } file content p).2 =
      .error e) : e.isReported = true ∨ format.Unreported settings e := by
  cases format with
  | binary =>
    have horder : ByteOrder.ofName? (Binary.nameOr (some order.name) settings.byteOrder) =
        some order := by
      cases order <;> rfl
    obtain ⟨plan, hplan, hwindows, hrecovery, -, hcapacity, -⟩ := husable.exists_plan horder
    simp only [load, if_true, hplan] at h
    exact Binary.cases_of_decode_eq_error hwindows hrecovery hcapacity (map_eq_error_iff.1 h)
  | text => exact TextModel.cases_of_decodeBytes_eq_error (map_eq_error_iff.1 h)
  | compact => exact Compact.cases_of_decode_eq_error (map_eq_error_iff.1 h)

end WordVectors
