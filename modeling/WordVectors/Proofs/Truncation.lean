import WordVectors.Proofs.Binary.Grammar
import WordVectors.Proofs.Binary.RoundTrip
import WordVectors.Proofs.Compact.RoundTrip

/-!
# Models that are cut short

Compact and binary models say in front how many words and components follow, and every part of a
record either has a size that is known before it is read or ends where an octet is found that the
part cannot have. So a file that ends early is never taken for a smaller model: whatever part the
cut is in is found to be short. Only the newline behind the last record of a binary model is not
looked at, and without it the same model is read.

## Main results

* `Compact.decode_of_isPrefix`: no compact model is read from a front of its octets
* `Binary.recordIn_of_isPrefix`, `Binary.recordsIn_of_isPrefix`: octets that end inside a record, or
  before the last one ends, are found to be short
* `Binary.modelIn_of_isPrefix`: so are files that end before the last record does
* `truncation_detected`: what becomes of the fronts of a written model
-/

namespace WordVectors

/-- A front of two parts ends inside the first, or else behind it. -/
theorem isPrefix_append_cases {α : Type} {pre first rest : List α} (h : pre <+: first ++ rest) :
    (pre <+: first ∧ pre.length < first.length) ∨
      ∃ tail, tail <+: rest ∧ pre = first ++ tail := by
  have hfirst := List.prefix_append first rest
  rcases Nat.lt_or_ge pre.length first.length with hlt | hge
  · exact .inl ⟨List.prefix_of_prefix_length_le h hfirst hlt.le, hlt⟩
  · obtain ⟨tail, rfl⟩ := List.prefix_of_prefix_length_le hfirst h hge
    exact .inr ⟨tail, (List.prefix_append_right_inj first).1 h, rfl⟩

/-- A front that is not the whole is shorter. -/
theorem length_lt_of_isPrefix {α : Type} {pre whole : List α} (h : pre <+: whole)
    (hne : pre ≠ whole) : pre.length < whole.length := by
  apply Nat.lt_of_not_le
  intro hle
  exact hne (h.eq_of_length_le hle)

/-! ## Compact models -/

namespace Compact

variable {bs rest : Bytes}

theorem take?_of_lt {count : Nat} (h : bs.length < count) : take? count bs = none := by
  rw [take?, if_pos]
  rw [List.length_take]
  omega

/-- A token is found to be short, in its length or behind it. -/
theorem readToken_of_isPrefix {word : String} (hfits : (Utf8.encode word).length < fieldLimit)
    (h : bs <+: encodeToken word) (hshort : bs.length < (encodeToken word).length) (index : Nat) :
    readToken index bs = .error (.compact (.truncated (.token index))) := by
  have hlength := Bytes.length_ofNatLE 4 (Utf8.encode word).length
  rw [encodeToken] at h hshort
  rcases isPrefix_append_cases h with ⟨-, hlt⟩ | ⟨tail, -, rfl⟩
  · rw [hlength] at hlt
    simp only [readToken, take?_of_lt hlt]
  · have hfields : take? 4 (Bytes.ofNatLE 4 (Utf8.encode word).length ++ tail) =
        some (Bytes.ofNatLE 4 (Utf8.encode word).length, tail) :=
      take?_eq_some_iff.2 ⟨rfl, hlength⟩
    have hcount : Bytes.toNatLE (Bytes.ofNatLE 4 (Utf8.encode word).length) =
        (Utf8.encode word).length := Bytes.toNatLE_ofNatLE hfits
    have hlt : tail.length < (Utf8.encode word).length := by
      simpa using hshort
    simp only [readToken, hfields, hcount, take?_of_lt hlt]

/-- **Tokens are found to be short unless all of them are there.** -/
theorem readTokens_of_isPrefix {words : List String}
    (hfits : ∀ word ∈ words, (Utf8.encode word).length < fieldLimit)
    (h : bs <+: words.flatMap encodeToken ++ rest) (index : Nat) :
    (∃ i, readTokens index words.length bs = .error (.compact (.truncated (.token i)))) ∨
      ∃ tail, tail <+: rest ∧ readTokens index words.length bs = .ok (words, tail) := by
  induction words generalizing bs index with
  | nil => exact .inr ⟨bs, h, rfl⟩
  | cons word words ih =>
    rw [List.forall_mem_cons] at hfits
    rw [List.flatMap_cons, List.append_assoc] at h
    rw [List.length_cons, readTokens]
    rcases isPrefix_append_cases h with ⟨hfirst, hlt⟩ | ⟨tail, htail, rfl⟩
    · rw [readToken_of_isPrefix hfits.1 hfirst hlt]
      exact .inl ⟨index, rfl⟩
    · have hword : readToken index (encodeToken word ++ tail) = .ok (word, tail) :=
        readToken_eq_ok_iff.2 ⟨rfl, hfits.1⟩
      rw [hword]
      rcases ih hfits.2 htail (index + 1) with ⟨i, hwords⟩ | ⟨tail', hrest, hwords⟩
      · simp only [bind, Except.bind, hwords]
        exact .inl ⟨i, rfl⟩
      · simp only [bind, Except.bind, hwords]
        exact .inr ⟨tail', hrest, rfl⟩

/-- Numbers are found to be short, if there is room for them at all. -/
theorem readValues_of_lt [Memory] {count : Nat} (h : bs.length < count * 8) :
    (∃ e, readValues count bs = .error (.compact e)) ∨
      ¬ Memory.Holds [count] ∧ ∃ e, readValues count bs = .error (.room e) := by
  rw [readValues, if_pos h, holds_singleton_iff]
  cases Room.checkArray 0 count with
  | ok _ => exact .inl ⟨_, rfl⟩
  | error e => exact .inr ⟨(fun h => by cases h), e, rfl⟩

theorem length_encodeHeader (header : Header) : (encodeHeader header).length = headerSize := rfl

/-- **No compact model is read from a front of its octets.** -/
theorem decode_of_isPrefix [Memory] {store : Store} (hfits : FitsFields store)
    (h : bs <+: octets store) (hne : bs ≠ octets store) (capacity : Option Int) :
    (∃ e, decode bs capacity = .error (.compact e)) ∨
      ¬ Memory.Holds [store.vocabSize * store.layerSize] ∧
        ∃ e, decode bs capacity = .error (.room e) := by
  simp only [octets, List.append_assoc] at h hne
  rcases isPrefix_append_cases h with ⟨-, hlt⟩ | ⟨body, hbody, rfl⟩
  · rw [length_encodeHeader] at hlt
    have hheader : readHeader bs = .error (.truncated .header) := by
      simp only [readHeader, take?_of_lt hlt]
    simp only [decode, hheader]
    exact .inl ⟨_, rfl⟩
  · have hheader : readHeader (encodeHeader ⟨store.layerSize, store.vocabSize⟩ ++ body) =
        .ok (⟨store.layerSize, store.vocabSize⟩, body) :=
      readHeader_eq_ok_iff.2
        ⟨rfl, store.layerSize_pos, hfits.layerSize_lt, hfits.vocabSize_lt⟩
    have htokens := readTokens_of_isPrefix hfits.token_lt hbody 0
    rw [← Store.vocabSize] at htokens
    simp only [decode, hheader, Except.mapError, bind, Except.bind]
    rcases htokens with ⟨i, hwords⟩ | ⟨tail, htail, hwords⟩
    · simp only [hwords]
      exact .inl ⟨_, rfl⟩
    · obtain ⟨rfl, -, -⟩ := readTokens_eq_ok_iff.1 hwords
      have hshort : tail.length < store.vocabSize * store.layerSize * 8 := by
        have hlt := length_lt_of_isPrefix htail (fun heq => hne (by rw [heq]))
        rwa [Binary64.length_flatMap_toBytes, store.length_flatten] at hlt
      simp only [hwords]
      rcases readValues_of_lt hshort with ⟨e, hvalues⟩ | ⟨hroom, e, hvalues⟩
      · simp only [hvalues]
        exact .inl ⟨e, rfl⟩
      · simp only [hvalues]
        exact .inr ⟨hroom, e, rfl⟩

end Compact

/-! ## Binary models -/

namespace Binary

variable {plan : Plan} {layerSize : Nat} {bs : Bytes}

/-- **Octets that end inside a record are found to be short**, in the token or behind it. -/
theorem recordIn_of_isPrefix {octets : Bytes} {record : Record}
    (hspells : Spells plan.order layerSize octets record) (h : bs <+: octets)
    (hshort : bs.length < octets.length) (position : Int) :
    ∃ wanted i, recordIn plan layerSize position bs = .error (.window (.truncated wanted i)) := by
  obtain @⟨token, components, word, hspace, hword, hlength⟩ := hspells
  by_cases hmem : Window.space ∈ bs
  · rcases isPrefix_append_cases h with ⟨htoken, -⟩ | ⟨tail, htail, rfl⟩
    · exact absurd (htoken.subset hmem) hspace
    · cases tail with
      | nil =>
        rw [List.append_nil] at hmem
        exact absurd hmem hspace
      | cons b tail =>
        obtain ⟨rfl, -⟩ := List.cons_prefix_cons.1 htail
        have hlt : ¬ 4 * layerSize ≤ tail.length := by
          simp only [List.length_append, List.length_cons, hlength] at hshort
          omega
        rw [recordIn_append hspace, hword, Utf8.decode_encode]
        dsimp only
        rw [if_neg hlt]
        exact ⟨_, _, rfl⟩
  · simp only [recordIn, if_neg hmem]
    exact ⟨_, _, rfl⟩

/-- **Octets that end before the last record does are found to be short.** -/
theorem recordsIn_of_isPrefix {pieces : List Bytes} {records : List Record}
    (hspells : List.Forall₂ (Spells plan.order layerSize) pieces records)
    (h : bs <+: pieces.flatten) (hshort : bs.length < pieces.flatten.length) (position : Int) :
    ∃ wanted i, recordsIn plan layerSize records.length position bs =
      .error (.window (.truncated wanted i)) := by
  -- By induction on the records: the cut is in the first one, or the others have it.
  induction hspells generalizing position bs with
  | nil =>
    exact absurd hshort (Nat.not_lt_zero _)
  | @cons octets record pieces records hfirst hrest ih =>
    rw [List.flatten_cons] at h hshort
    rw [List.length_cons]
    rcases isPrefix_append_cases h with ⟨hin, hlt⟩ | ⟨tail, htail, rfl⟩
    · obtain ⟨wanted, i, hrecord⟩ := recordIn_of_isPrefix hfirst hin hlt position
      simp only [recordsIn, hrecord]
      exact ⟨wanted, i, rfl⟩
    · simp only [List.length_append, Nat.add_lt_add_iff_left] at hshort
      obtain ⟨wanted, i, hrecords⟩ := ih htail hshort (position + octets.length)
      rw [recordsIn_append hfirst, hrecords]
      exact ⟨wanted, i, rfl⟩

variable {line : Bytes} {file : String} {pieces : List Bytes} {records : List Record}

/-- **The model behind a first line is that of its records**, whatever stands behind them, if there
is room for them. -/
theorem modelIn_of_spells [Memory] (hline : Window.newline ∉ line)
    (hheader : parseHeader line file = .ok (records.length, layerSize))
    (hbound : (layerSize : Int) ≤ plan.capacity)
    (hspells : List.Forall₂ (Spells plan.order layerSize) pieces records) (rest : Bytes) :
    modelIn plan file (line ++ Window.newline :: (pieces.flatten ++ rest)) =
      match Room.checkSegments records.length layerSize (plan.capacity.toNat / layerSize) with
      | .error e => .error (.room e)
      | .ok () =>
        (storeOf layerSize (plan.capacity.toNat / layerSize) records).mapError .store := by
  obtain ⟨hper, -⟩ := vectorsPerSegment_of_le (pos_of_parseHeader hheader) hbound
  simp only [modelIn_append hline, hheader, hper, recordsIn_of_spells hspells]
  rfl

/-- **A file that ends before the last record does holds no model.** It has no first line, or it is
found to be short, unless there is no room for what the first line declares. -/
theorem modelIn_of_isPrefix [Memory] (hline : Window.newline ∉ line)
    (hheader : parseHeader line file = .ok (records.length, layerSize))
    (hbound : (layerSize : Int) ≤ plan.capacity)
    (hspells : List.Forall₂ (Spells plan.order layerSize) pieces records)
    (h : bs <+: line ++ Window.newline :: pieces.flatten)
    (hshort : bs.length < (line ++ Window.newline :: pieces.flatten).length) :
    (Window.newline ∉ bs ∧ ∃ e, modelIn plan file bs = .error (.header e)) ∨
      (Window.newline ∈ bs ∧ ∃ wanted i,
        modelIn plan file bs = .error (.window (.truncated wanted i))) ∨
      ¬ Memory.HoldsSegments records.length layerSize plan.capacity ∧
        ∃ e, modelIn plan file bs = .error (.room e) := by
  by_cases hmem : Window.newline ∈ bs
  · rcases isPrefix_append_cases h with ⟨hin, -⟩ | ⟨tail, htail, rfl⟩
    · exact absurd (hin.subset hmem) hline
    · cases tail with
      | nil =>
        rw [List.append_nil] at hmem
        exact absurd hmem hline
      | cons b body =>
        obtain ⟨rfl, hbody⟩ := List.cons_prefix_cons.1 htail
        simp only [List.length_append, List.length_cons, Nat.add_lt_add_iff_left,
          Nat.add_lt_add_iff_right] at hshort
        obtain ⟨wanted, i, hrecords⟩ := recordsIn_of_isPrefix hspells hbody hshort
          (line.length + 1 : Nat)
        have hlayer := pos_of_parseHeader hheader
        obtain ⟨hper, -⟩ := vectorsPerSegment_of_le hlayer hbound
        simp only [modelIn_append hline, hheader, hper, hrecords]
        rw [← checkSegments_eq_ok_iff hlayer hbound]
        cases Room.checkSegments records.length layerSize (plan.capacity.toNat / layerSize) with
        | ok _ => exact .inr (.inl ⟨hmem, wanted, i, rfl⟩)
        | error e => exact .inr (.inr ⟨(fun h => by cases h), e, rfl⟩)
  · left
    refine ⟨hmem, ?_⟩
    rw [modelIn, if_neg hmem]
    split
    · exact ⟨_, rfl⟩
    · exact ⟨_, rfl⟩

/-- **Written records spell what is read from them**, in whichever byte order, and the newline
behind the last one is left over. -/
theorem exists_spells_encodeRecord (order : ByteOrder) {layerSize : Nat} {records : List Record}
    (hwords : ∀ record ∈ records, IsToken record.1)
    (hlength : ∀ record ∈ records, record.2.length = layerSize) (front : Bytes)
    (hfront : ∀ b ∈ front, b = Window.newline) :
    ∃ pieces read, List.Forall₂ (Spells order layerSize) pieces read ∧
      read.map Prod.fst = records.map Prod.fst ∧
      front ++ records.flatMap encodeRecord =
        pieces.flatten ++ if records = [] then front else [Window.newline] := by
  induction records generalizing front with
  | nil => exact ⟨[], [], .nil, rfl, by simp⟩
  | cons record records ih =>
    rw [List.forall_mem_cons] at hwords hlength
    obtain ⟨pieces, read, hspells, hread, hrest⟩ := ih hwords.2 hlength.2 [Window.newline]
      (fun b hb => List.mem_singleton.1 hb)
    have hfloats : (floatOctets record).length = 4 * layerSize := by
      rw [length_floatOctets, hlength.1]
    have hfirst : Spells order layerSize _ _ := .intro (space_notMem_append hwords.1 hfront)
      (filter_append_encode hwords.1 hfront) hfloats
    refine ⟨_, _, .cons hfirst hspells, by rw [List.map_cons, List.map_cons, hread], ?_⟩
    rw [ite_self, List.singleton_append] at hrest
    rw [if_neg (List.cons_ne_nil _ _), List.flatMap_cons, append_encodeRecord, hrest,
      List.flatten_cons]
    simp only [List.append_assoc, List.cons_append]

/-- **A written model is a first line and octets that spell records**, with a newline left over if
there are any. -/
theorem exists_spells_octets (order : ByteOrder) {store : Store}
    (hwords : ∀ word ∈ store.vocab, IsToken word) :
    ∃ pieces read, List.Forall₂ (Spells order store.layerSize) pieces read ∧
      read.map Prod.fst = store.vocab ∧
      octets store = (headerText store).map octetOf ++ Window.newline ::
        (pieces.flatten ++ if store.vocab = [] then [] else [Window.newline]) := by
  obtain ⟨pieces, read, hspells, hread, hrecords⟩ := exists_spells_encodeRecord order
    (isToken_of_mem_entries hwords) store.length_of_mem_entries [] (by simp)
  rw [store.map_fst_entries] at hread
  have hnil : store.entries = [] ↔ store.vocab = [] := by
    rw [← store.map_fst_entries, List.map_eq_nil_iff]
  refine ⟨pieces, read, hspells, hread, ?_⟩
  rw [List.nil_append] at hrecords
  simp only [octets, headerLine_eq, hrecords, hnil, List.append_assoc, List.singleton_append]

variable {store : Store}

/-- **The newline behind the last record is not looked at.** -/
theorem modelIn_of_append_newline [Memory] (hlong : store.isTooLong = false)
    (hcapacity : (store.layerSize : Int) ≤ plan.capacity)
    (hwords : ∀ word ∈ store.vocab, IsToken word) (hne : store.vocab ≠ [])
    (h : octets store = bs ++ [Window.newline]) (file : String) :
    modelIn plan file bs = modelIn plan file (octets store) ∧
      (Memory.HoldsSegments store.vocabSize store.layerSize plan.capacity →
        ∃ read, modelIn plan file (octets store) = .ok read ∧ read.vocab = store.vocab ∧
          read.layerSize = store.layerSize) := by
  obtain ⟨pieces, records, hspells, hvocab, hoctets⟩ := exists_spells_octets plan.order hwords
  have hcount : store.vocabSize = records.length := by
    rw [Store.vocabSize, ← hvocab, List.length_map]
  have hheader := parseHeader_headerText hlong file
  rw [hcount] at hheader
  obtain ⟨-, hper⟩ := vectorsPerSegment_of_le store.layerSize_pos hcapacity
  obtain ⟨read, hread, hwords', hlayer, -⟩ :=
    exists_storeOf store.layerSize_pos hper (Spells.all_length_eq hspells)
  have hmodel := modelIn_of_spells (newline_notMem_headerText store) hheader hcapacity hspells
  have hbs : bs = (headerText store).map octetOf ++ Window.newline :: (pieces.flatten ++ []) := by
    rw [← List.append_left_inj [Window.newline], ← h, hoctets, if_neg hne]
    simp only [List.append_assoc, List.cons_append, List.nil_append]
  refine ⟨?_, fun hroom => ⟨read, ?_, hwords'.trans hvocab, hlayer⟩⟩
  · rw [hbs, hoctets, hmodel, hmodel]
  · rw [hcount, ← checkSegments_eq_ok_iff store.layerSize_pos hcapacity] at hroom
    rw [hoctets, hmodel, hroom, hread]
    rfl

/-- **No other front of a written model is read.** -/
theorem modelIn_of_isPrefix_octets [Memory] (hlong : store.isTooLong = false)
    (hcapacity : (store.layerSize : Int) ≤ plan.capacity)
    (hwords : ∀ word ∈ store.vocab, IsToken word) (h : bs <+: octets store)
    (hne : bs ≠ octets store) (hcut : store.vocab = [] ∨ octets store ≠ bs ++ [Window.newline])
    (file : String) :
    (Window.newline ∉ bs ∧ ∃ e, modelIn plan file bs = .error (.header e)) ∨
      (Window.newline ∈ bs ∧ ∃ wanted i,
        modelIn plan file bs = .error (.window (.truncated wanted i))) ∨
      ¬ Memory.HoldsSegments store.vocabSize store.layerSize plan.capacity ∧
        ∃ e, modelIn plan file bs = .error (.room e) := by
  obtain ⟨pieces, records, hspells, hvocab, hoctets⟩ := exists_spells_octets plan.order hwords
  have hcount : store.vocabSize = records.length := by
    rw [Store.vocabSize, ← hvocab, List.length_map]
  have hheader := parseHeader_headerText hlong file
  rw [hcount] at hheader
  rw [hoctets, ← List.cons_append, ← List.append_assoc] at h hne hcut
  rcases isPrefix_append_cases h with ⟨hin, hlt⟩ | ⟨tail, htail, rfl⟩
  · rw [hcount]
    exact modelIn_of_isPrefix (newline_notMem_headerText store) hheader hcapacity hspells hin hlt
  · exfalso
    cases tail with
    | nil =>
      rw [List.append_nil] at hne hcut
      by_cases hnil : store.vocab = []
      · rw [if_pos hnil, List.append_nil] at hne
        exact hne rfl
      · rw [if_neg hnil] at hcut
        exact hcut.resolve_left hnil rfl
    | cons b tail =>
      by_cases hnil : store.vocab = []
      · rw [if_pos hnil, List.prefix_nil] at htail
        cases htail
      · rw [if_neg hnil] at htail hne
        obtain ⟨rfl, hnone⟩ := List.cons_prefix_cons.1 htail
        obtain rfl := List.prefix_nil.1 hnone
        exact hne rfl

end Binary

/-! ## Both formats -/

/-- **A model that is cut short is never read as another.** From no front of a compact model is
anything read. Of a binary model that fits in one window, and whose words can be tokens, the front
that lacks only the newline behind the last record is read like the whole; any other has no first
line or is found to end inside a record. The only other refusal is for want of room, and only of
models that memory does not hold. -/
theorem truncation_detected [Memory] :
    (∀ store : Store, store.layerSize < 2 ^ 32 → store.vocabSize < 2 ^ 64 →
      (∀ word ∈ store.vocab, (Utf8.encode word).length < 2 ^ 32) →
      ∃ out, Compact.encode store = .ok out ∧
        ∀ (bs : Bytes) (capacity : Option Int), bs <+: out → bs ≠ out →
          (∃ e, Compact.decode bs capacity = .error (.compact e)) ∨
            ¬ Memory.Holds [store.vocabSize * store.layerSize] ∧
              ∃ e, Compact.decode bs capacity = .error (.room e)) ∧
    ∀ (plan : Binary.Plan) (store : Store) (out : Bytes) (file : String) (p : Progress),
      plan.Admissible → Binary.encode store = .ok out →
      (∀ word ∈ store.vocab, ' ' ∉ word.toList ∧ '\n' ∉ word.toList) →
      (store.layerSize : Int) ≤ plan.capacity → (out.length : Int) ≤ plan.limit →
      (∀ bs, store.vocab ≠ [] → out = bs ++ [Window.newline] →
        Binary.outcome (Binary.decode plan file bs p) =
            Binary.outcome (Binary.decode plan file out p) ∧
          (Memory.HoldsSegments store.vocabSize store.layerSize plan.capacity →
            ∃ read, Binary.outcome (Binary.decode plan file out p) = .ok read ∧
              read.vocab = store.vocab ∧ read.layerSize = store.layerSize)) ∧
      ∀ bs, bs <+: out → bs ≠ out → (store.vocab = [] ∨ out ≠ bs ++ [Window.newline]) →
        (Window.newline ∉ bs ∧
          ∃ e, Binary.outcome (Binary.decode plan file bs p) = .error (.header e)) ∨
        (Window.newline ∈ bs ∧ ∃ wanted i,
          Binary.outcome (Binary.decode plan file bs p) =
            .error (.window (.truncated wanted i))) ∨
        ¬ Memory.HoldsSegments store.vocabSize store.layerSize plan.capacity ∧
          ∃ e, Binary.outcome (Binary.decode plan file bs p) = .error (.room e) := by
  constructor
  · intro store hlayer hvocab htokens
    refine ⟨_, Compact.encode_eq_ok_iff.2 ⟨hlayer, htokens, rfl⟩, ?_⟩
    intro bs capacity h hne
    exact Compact.decode_of_isPrefix ⟨hlayer, hvocab, htokens⟩ h hne capacity
  · intro plan store out file p hplan hout hwords hcapacity hfits
    obtain ⟨hlong, -, rfl⟩ := Binary.encode_eq_ok_iff.1 hout
    have hfront : ∀ bs, bs <+: Binary.octets store →
        Binary.outcome (Binary.decode plan file bs p) = Binary.modelIn plan file bs := by
      intro bs h
      have hle := h.length_le
      exact Binary.outcome_decode_of_le hplan (by omega) file p
    constructor
    · intro bs hne h
      rw [hfront bs (h ▸ List.prefix_append _ _), hfront _ List.prefix_rfl]
      exact Binary.modelIn_of_append_newline hlong hcapacity hwords hne h file
    · intro bs h hne hcut
      rw [hfront bs h]
      exact Binary.modelIn_of_isPrefix_octets hlong hcapacity hwords h hne hcut file

/-- Two words, cut inside the first number of a compact model, behind all but the newline at the end
of a binary model, and inside the last vector of it. -/
theorem truncation_detected_two :
    letI : Memory := .ample
    let store : Store := ⟨["é", ""], 2, 2, [[.zero, .zero, .zero, .zero]], by decide,
      Layout.fault?_eq_none_iff.1 (by decide)⟩
    let out := Binary.octets store
    let plan : Binary.Plan := ⟨.big, 4, 4096, 4097 + out.length, .ignore, fun _ => false⟩
    (∃ e, Compact.decode ((Compact.octets store).take 30) none = .error (.compact e)) ∧
    (∃ read, Binary.outcome (Binary.decode plan "model" out.dropLast .silent) = .ok read ∧
      read.vocab = ["é", ""]) ∧
    ∃ wanted i, Binary.outcome (Binary.decode plan "model" (out.take 20) .silent) =
      .error (.window (.truncated wanted i)) := by
  let memory : Memory := .ample
  intro store out plan
  have hout : Binary.encode store = .ok out :=
    Binary.encode_eq_ok_iff.2 ⟨by decide +kernel, .inl (List.cons_ne_nil _ _), rfl⟩
  have hplan : plan.Admissible := ⟨by decide, by decide, by show (4096 : Int) < 4097 + _; omega⟩
  have hfits : (out.length : Int) ≤ plan.limit := by
    show _ ≤ (4097 : Int) + _
    omega
  obtain ⟨hcompact, hbinary⟩ := truncation_detected
  obtain ⟨whole, hwhole, hcut⟩ := hcompact store (by decide) (by decide) (by decide)
  obtain ⟨-, -, rfl⟩ := Compact.encode_eq_ok_iff.1 hwhole
  obtain ⟨hnewline, hfront⟩ :=
    hbinary plan store out "model" .silent hplan hout (by decide) (by decide) hfits
  refine ⟨?_, ?_, ?_⟩
  · have hne : (Compact.octets store).take 30 ≠ Compact.octets store := by decide
    exact (hcut _ none (List.take_prefix _ _) hne).resolve_right fun h => h.1 (by decide)
  · have hlast : out = out.dropLast ++ [Window.newline] := by decide +kernel
    obtain ⟨heq, hread⟩ := hnewline _ (List.cons_ne_nil _ _) hlast
    obtain ⟨read, hread, hvocab, -⟩ := hread (by decide)
    exact ⟨read, heq.trans hread, hvocab⟩
  · have hne : out.take 20 ≠ out := by decide +kernel
    have hlast : out ≠ out.take 20 ++ [Window.newline] := by decide +kernel
    have hline : Window.newline ∈ out.take 20 := by decide +kernel
    rcases hfront _ (List.take_prefix _ _) hne (.inr hlast) with h | h | h
    · exact absurd hline h.1
    · exact h.2
    · exact absurd (by decide) h.1

end WordVectors
