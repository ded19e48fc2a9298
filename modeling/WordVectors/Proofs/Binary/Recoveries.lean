import WordVectors.Proofs.Binary.Grammar

/-!
# Recoveries of tokens that are not UTF-8

A record is framed by its octets: a token ends at a space, and the components are counted off behind
it. Only then is the token read as UTF-8. So a recovery decides what a malformed token becomes, and
nothing else: the records behind it, the vectors, and the words of all other tokens are those of
every recovery.

## Main definitions

* `Utf8.IsText`: the octets of a text
* `Utf8.Recovery.repair?`: what a malformed piece becomes under a recovery that goes on
* `Binary.Frame`: a token and the octets of components, not yet read
* `Binary.Framed`: files whose framing is sound

## Main results

* `Utf8.decode_of_repair?`: a recovery that goes on finds a text in any octets
* `Binary.recordsIn_frames`: under any recovery, records are read one frame after another
* `Binary.recoveries_agree`: what recoveries agree on, and where a strict reading stops
-/

namespace WordVectors

/-! ## Steps that may fail -/

section Steps

variable {α β ε : Type} {f : α → Except ε β}

/-- Steps that all succeed come to their results. -/
theorem mapM_eq_ok_map {g : α → β} {xs : List α} (h : ∀ x ∈ xs, f x = .ok (g x)) :
    xs.mapM f = .ok (xs.map g) := by
  induction xs with
  | nil => rfl
  | cons x xs ih =>
    rw [List.forall_mem_cons] at h
    rw [List.mapM_cons, h.1, ih h.2]
    rfl

/-- Steps come to the error of the first that fails. -/
theorem mapM_eq_error {before after : List α} {x : α} {e : ε}
    (hbefore : ∀ y ∈ before, ∃ b, f y = .ok b) (hx : f x = .error e) :
    (before ++ x :: after).mapM f = .error e := by
  induction before with
  | nil =>
    rw [List.nil_append, List.mapM_cons, hx]
    rfl
  | cons y before ih =>
    rw [List.forall_mem_cons] at hbefore
    obtain ⟨⟨b, hy⟩, hrest⟩ := hbefore
    rw [List.cons_append, List.mapM_cons, hy, ih hrest]
    rfl

end Steps

/-! ## Octets of texts -/

namespace Utf8

/-- **The octets of a text.** -/
def IsText (bs : Bytes) : Prop := ∃ s, bs = encode s

theorem isText_iff {bs : Bytes} : IsText bs ↔ ∃ s, decode .strict bs = .ok s := by
  simp only [IsText, decode_strict_eq_ok_iff]

instance (bs : Bytes) : Decidable (IsText bs) :=
  decidable_of_iff ((decode .strict bs).toBool = true) <| by
    rw [isText_iff]
    cases decode .strict bs <;> simp [Except.toBool]

/-- A strict reading tells where the octets of no text are malformed. -/
theorem exists_decode_strict_eq_error {bs : Bytes} (h : ¬ IsText bs) :
    ∃ octets position reason,
      decode .strict bs = .error (.malformed octets position reason) := by
  cases hfirst : firstMalformed? 0 (scan bs) with
  | none =>
    exfalso
    apply h
    rw [isText_iff]
    simp only [decode, hfirst]
    exact ⟨_, rfl⟩
  | some first =>
    simp only [decode, hfirst]
    exact ⟨_, _, _, rfl⟩

/-- **What a malformed piece becomes** under a recovery that goes on behind it. -/
def Recovery.repair? : Recovery → Option (Bytes → List Char)
  | replace => some fun _ => ['\uFFFD']
  | ignore => some fun _ => []
  | escape => some fun octets => octets.flatMap escapeByte
  | _ => none

/-- **A recovery that goes on finds a text in any octets**: characters stay, and malformed pieces
are repaired. -/
theorem decode_of_repair? {recovery : Recovery} {repair : Bytes → List Char}
    (h : recovery.repair? = some repair) (bs : Bytes) :
    decode recovery bs = .ok (textOf repair (scan bs)) := by
  cases hfirst : firstMalformed? 0 (scan bs) with
  | none =>
    obtain ⟨cs, hcs⟩ := exists_of_firstMalformed?_eq_none hfirst
    simp only [decode, hcs, firstMalformed?_map_char, textOf_map_char]
  | some first =>
    cases recovery <;> cases h <;> simp only [decode, hfirst]

theorem textOf_scan_encode (repair : Bytes → List Char) (s : String) :
    textOf repair (scan (encode s)) = s := by
  rw [encode, scan_flatMap_encodeChar, textOf_map_char, String.ofList_toList]

end Utf8

namespace Binary

variable {plan : Plan} {layerSize : Nat} {position : Int}

/-! ## Frames -/

/-- **A record that is not read yet**: its token, and the octets of its components. -/
structure Frame where
  token : Bytes
  components : Bytes
deriving DecidableEq, Repr

namespace Frame

/-- The octets of a frame, in which a space stands behind the token. -/
def octets (frame : Frame) : Bytes := frame.token ++ Window.space :: frame.components

/-- The octets of the word, which are those of the token without newlines. -/
def text (frame : Frame) : Bytes := frame.token.filter (· ≠ Window.newline)

/-- The components, in the given byte order. -/
def vector (order : ByteOrder) (layerSize : Nat) (frame : Frame) : List Binary64 :=
  (chunks 4 layerSize frame.components).map fun bs => (order.float bs).widen

/-- The record of a frame, unless its token is refused. -/
def record (plan : Plan) (layerSize : Nat) (frame : Frame) : Except ModelError Record :=
  match Utf8.decode plan.recovery frame.text with
  | .error e => .error (.encoding e)
  | .ok word => .ok (word, frame.vector plan.order layerSize)

/-- **A frame that is sound**: the token ends at its space, and all components are there. -/
structure Sound (layerSize : Nat) (frame : Frame) : Prop where
  space_notMem : Window.space ∉ frame.token
  length_components : frame.components.length = 4 * layerSize

variable {frame : Frame}

theorem length_vector (order : ByteOrder) (layerSize : Nat) (frame : Frame) :
    (frame.vector order layerSize).length = layerSize := by
  rw [vector, List.length_map, length_chunks]

theorem record_eq_ok {word : String} (h : Utf8.decode plan.recovery frame.text = .ok word) :
    frame.record plan layerSize = .ok (word, frame.vector plan.order layerSize) := by
  rw [record, h]

theorem record_eq_error {e : Utf8.Error} (h : Utf8.decode plan.recovery frame.text = .error e) :
    frame.record plan layerSize = .error (.encoding e) := by
  rw [record, h]

/-- A sound frame is read as its record, under any recovery, whatever stands behind it. -/
theorem Sound.recordIn (h : frame.Sound layerSize) (rest : Bytes) :
    recordIn plan layerSize position (frame.octets ++ rest) =
      (frame.record plan layerSize).map fun record => (record, frame.octets.length) := by
  have hle : 4 * layerSize ≤ (frame.components ++ rest).length := by
    rw [List.length_append, h.length_components]
    exact Nat.le_add_right _ _
  have hsize : frame.octets.length = frame.token.length + 1 + 4 * layerSize := by
    rw [octets, List.length_append, List.length_cons, h.length_components]
    omega
  rw [hsize, octets, List.append_assoc, List.cons_append, recordIn_append h.space_notMem, record,
    ← text]
  cases Utf8.decode plan.recovery frame.text with
  | error e => rfl
  | ok word =>
    dsimp only
    rw [if_pos hle, List.take_left' h.length_components]
    rfl

end Frame

/-- **Sound frames are read one after another**, under any recovery. The places of the records do
not depend on their words. -/
theorem recordsIn_frames {frames : List Frame} (h : ∀ frame ∈ frames, frame.Sound layerSize)
    (rest : Bytes) :
    recordsIn plan layerSize frames.length position (frames.flatMap Frame.octets ++ rest) =
      frames.mapM (Frame.record plan layerSize) := by
  induction frames generalizing position with
  | nil => rfl
  | cons frame frames ih =>
    rw [List.forall_mem_cons] at h
    rw [List.flatMap_cons, List.append_assoc, List.length_cons, recordsIn, h.1.recordIn,
      List.mapM_cons]
    cases hrecord : frame.record plan layerSize with
    | error e => rfl
    | ok record =>
      simp only [Except.map, List.drop_left, ih h.2]
      rfl

/-! ## Files -/

/-- **Files whose framing is sound**: a line with the two sizes, and sound frames for as many
records as it declares. A segment of `bound` components has to hold a vector. What the tokens are is
left open. -/
inductive Framed (bound : Int) (file : String) : Bytes → (layerSize : Nat) → List Frame → Prop
  | intro {line rest : Bytes} {layerSize : Nat} {frames : List Frame}
      (hline : Window.newline ∉ line)
      (hheader : parseHeader line file = .ok (frames.length, layerSize))
      (hbound : (layerSize : Int) ≤ bound) (hframes : ∀ frame ∈ frames, frame.Sound layerSize) :
      Framed bound file (line ++ Window.newline :: (frames.flatMap Frame.octets ++ rest)) layerSize
        frames

variable {file : String} {content : Bytes} {frames : List Frame}

/-- **The model in a file whose framing is sound** is the store of the records of its frames, if
memory holds the segments. -/
theorem Framed.modelIn_eq [Memory] (h : Framed plan.capacity file content layerSize frames)
    (hroom : Memory.HoldsSegments frames.length layerSize plan.capacity) :
    modelIn plan file content =
      (frames.mapM (Frame.record plan layerSize)).bind fun records =>
        (storeOf layerSize (plan.capacity.toNat / layerSize) records).mapError .store := by
  obtain @⟨line, rest, layerSize, frames, hline, hheader, hbound, hframes⟩ := h
  have hcheck := (checkSegments_eq_ok_iff (pos_of_parseHeader hheader) hbound frames.length).2 hroom
  rw [modelIn_of_checkSegments hline hheader hbound hcheck, recordsIn_frames hframes]

/-! ## Plans with other recoveries -/

/-- A plan with another recovery. -/
def Plan.withRecovery (plan : Plan) (recovery : Utf8.Recovery) : Plan := { plan with recovery }

theorem Plan.Admissible.withRecovery (h : plan.Admissible) (recovery : Utf8.Recovery) :
    (plan.withRecovery recovery).Admissible :=
  ⟨h.stride_pos, h.stride_granular, h.stride_lt⟩

/-- The framing does not depend on the recovery. -/
theorem Framed.withRecovery (h : Framed plan.capacity file content layerSize frames)
    (recovery : Utf8.Recovery) :
    Framed (plan.withRecovery recovery).capacity file content layerSize frames := h

/-- Frames make a store, whatever their words. -/
theorem exists_storeOf_frames {perSegment : Nat} (hlayer : 0 < layerSize) (hper : 0 < perSegment)
    (order : ByteOrder) (frames : List Frame) (word : Frame → String) :
    ∃ store, storeOf layerSize perSegment
        (frames.map fun frame => (word frame, frame.vector order layerSize)) = .ok store ∧
      store.vocab = frames.map word ∧ store.layerSize = layerSize ∧
      store.segments = cut (partition frames.length layerSize perSegment)
        (frames.flatMap (Frame.vector order layerSize)) ∧
      store.flatten = frames.flatMap (Frame.vector order layerSize) := by
  have hall : ∀ record ∈ frames.map fun frame => (word frame, frame.vector order layerSize),
      record.2.length = layerSize := by
    intro record hrecord
    obtain ⟨frame, -, rfl⟩ := List.mem_map.1 hrecord
    exact Frame.length_vector order layerSize frame
  obtain ⟨store, hstore, hvocab, hsize, hflatten, hsegments⟩ :=
    Store.ofSegments_cut hlayer hper (length_flatMap_snd hall)
  rw [List.length_map] at hstore hsegments
  refine ⟨store, hstore, ?_, hsize, ?_, ?_⟩
  · rw [hvocab, List.map_map]
    rfl
  · rw [hsegments, List.length_map, List.flatMap_map]
  · rw [hflatten, List.flatMap_map]

/-- **A recovery that goes on reads every file whose framing is sound.** The sizes and the segments
are those of the frames, and so are the words whose octets are those of a text. -/
theorem Framed.exists_store [Memory] {recovery : Utf8.Recovery} {repair : Bytes → List Char}
    (h : Framed plan.capacity file content layerSize frames)
    (hroom : Memory.HoldsSegments frames.length layerSize plan.capacity)
    (hrepair : recovery.repair? = some repair) :
    ∃ store, modelIn (plan.withRecovery recovery) file content = .ok store ∧
      store.vocab = frames.map (fun frame => Utf8.textOf repair (Utf8.scan frame.text)) ∧
      store.layerSize = layerSize ∧
      store.segments = cut (partition frames.length layerSize (plan.capacity.toNat / layerSize))
        (frames.flatMap (Frame.vector plan.order layerSize)) ∧
      store.flatten = frames.flatMap (Frame.vector plan.order layerSize) := by
  have hmodel := (h.withRecovery recovery).modelIn_eq hroom
  obtain @⟨line, rest, layerSize, frames, hline, hheader, hbound, hframes⟩ := h
  have hlayer := pos_of_parseHeader hheader
  obtain ⟨-, hper⟩ := vectorsPerSegment_of_le hlayer hbound
  obtain ⟨store, hstore, hsame⟩ := exists_storeOf_frames hlayer hper plan.order frames
    fun frame => Utf8.textOf repair (Utf8.scan frame.text)
  refine ⟨store, ?_, hsame⟩
  rw [hmodel, mapM_eq_ok_map fun frame _ =>
    Frame.record_eq_ok (Utf8.decode_of_repair? hrepair frame.text)]
  simp only [Except.bind, Plan.withRecovery, hstore, Except.mapError]

/-- **If all tokens are those of texts, every recovery reads the same store.** -/
theorem Framed.modelIn_withRecovery [Memory]
    (h : Framed plan.capacity file content layerSize frames)
    (hroom : Memory.HoldsSegments frames.length layerSize plan.capacity)
    (htexts : ∀ frame ∈ frames, Utf8.IsText frame.text) (recovery recovery' : Utf8.Recovery) :
    modelIn (plan.withRecovery recovery) file content =
      modelIn (plan.withRecovery recovery') file content := by
  have hrecords : ∀ recovery, ∀ frame ∈ frames,
      frame.record (plan.withRecovery recovery) layerSize =
        .ok (Utf8.textOf (fun _ => []) (Utf8.scan frame.text),
          frame.vector plan.order layerSize) := by
    intro recovery frame hframe
    obtain ⟨word, hword⟩ := htexts frame hframe
    apply Frame.record_eq_ok
    rw [hword, Utf8.decode_encode, Utf8.textOf_scan_encode]
  rw [(h.withRecovery recovery).modelIn_eq hroom, (h.withRecovery recovery').modelIn_eq hroom,
    mapM_eq_ok_map (hrecords recovery), mapM_eq_ok_map (hrecords recovery')]
  rfl

/-- **A strict reading stops at the first token that is not that of a text.** -/
theorem Framed.exists_modelIn_eq_error [Memory]
    (h : Framed plan.capacity file content layerSize frames)
    (hroom : Memory.HoldsSegments frames.length layerSize plan.capacity)
    (hmalformed : ¬ ∀ frame ∈ frames, Utf8.IsText frame.text) :
    ∃ before frame after octets position reason, frames = before ++ frame :: after ∧
      (∀ earlier ∈ before, Utf8.IsText earlier.text) ∧ ¬ Utf8.IsText frame.text ∧
      Utf8.decode .strict frame.text = .error (.malformed octets position reason) ∧
      modelIn (plan.withRecovery .strict) file content =
        .error (.encoding (.malformed octets position reason)) := by
  have hmodel := (h.withRecovery .strict).modelIn_eq hroom
  cases hfind : frames.find? fun frame => !decide (Utf8.IsText frame.text) with
  | none =>
    rw [List.find?_eq_none] at hfind
    exact absurd (fun frame hframe => by simpa using hfind frame hframe) hmalformed
  | some frame =>
    obtain ⟨hframe, before, after, rfl, hbefore⟩ := List.find?_eq_some_iff_append.1 hfind
    have hearlier : ∀ earlier ∈ before, Utf8.IsText earlier.text := by
      simpa using hbefore
    have hno : ¬ Utf8.IsText frame.text := by
      simpa using hframe
    obtain ⟨octets, position, reason, herror⟩ := Utf8.exists_decode_strict_eq_error hno
    refine ⟨before, frame, after, octets, position, reason, rfl, hearlier, hno, herror, ?_⟩
    rw [hmodel, mapM_eq_error _ (Frame.record_eq_error herror)]
    · rfl
    · intro earlier hin
      obtain ⟨word, hword⟩ := Utf8.isText_iff.1 (hearlier earlier hin)
      exact ⟨_, Frame.record_eq_ok hword⟩

/-- **Without room for the segments no recovery reads anything**, and all fail alike. -/
theorem Framed.exists_room_error [Memory]
    (h : Framed plan.capacity file content layerSize frames)
    (hroom : ¬ Memory.HoldsSegments frames.length layerSize plan.capacity) :
    ∃ e, ∀ recovery, modelIn (plan.withRecovery recovery) file content = .error (.room e) := by
  obtain @⟨line, rest, layerSize, frames, hline, hheader, hbound, hframes⟩ := h
  have hlayer := pos_of_parseHeader hheader
  obtain ⟨hper, -⟩ := vectorsPerSegment_of_le hlayer hbound
  rw [← checkSegments_eq_ok_iff hlayer hbound] at hroom
  cases hcheck : Room.checkSegments frames.length layerSize (plan.capacity.toNat / layerSize) with
  | ok _ => exact absurd hcheck hroom
  | error e =>
    refine ⟨e, fun recovery => ?_⟩
    simp only [modelIn_append hline, hheader, Plan.withRecovery, hper, hcheck]

/-! ## What recoveries agree on -/

/-- The recoveries that go on, by name. -/
theorem exists_repair?_ofName {name : String}
    (h : name ∈ ["replace", "ignore", "backslashreplace"]) :
    ∃ repair, (Utf8.Recovery.ofName name).repair? = some repair := by
  simp only [List.mem_cons, List.not_mem_nil, or_false] at h
  rcases h with rfl | rfl | rfl
  · exact ⟨_, rfl⟩
  · exact ⟨_, rfl⟩
  · exact ⟨_, rfl⟩

/-- **A recovery changes only the tokens that are not UTF-8.** Of a file in one window whose framing
is sound, the recoveries that go on read a store each, with the same sizes and segments, in which a
token that is UTF-8 without its newlines is its word. If all tokens are, the stores are one, which
is also what a strict reading comes to; otherwise a strict reading fails, at the first token that is
not. All this is so if memory holds the segments; if not, the failure is the same under any
recovery. -/
theorem recoveries_agree [Memory] (hplan : plan.Admissible)
    (hframed : Framed plan.capacity file content layerSize frames)
    (hfits : (content.length : Int) ≤ plan.limit) (p : Progress) :
    let read := fun name : String =>
      outcome (decode (plan.withRecovery (.ofName name)) file content p)
    (Memory.HoldsSegments frames.length layerSize plan.capacity →
      (∃ segments, ∀ name ∈ ["replace", "ignore", "backslashreplace"], ∃ store,
        read name = .ok store ∧ store.layerSize = layerSize ∧ store.vocabSize = frames.length ∧
        store.segments = segments ∧
        store.flatten = frames.flatMap (Frame.vector plan.order layerSize) ∧
        ∀ (i : Nat) frame word, frames[i]? = some frame → frame.text = Utf8.encode word →
          store.vocab[i]? = some word) ∧
      ((∀ frame ∈ frames, Utf8.IsText frame.text) → ∃ store,
        ∀ name ∈ ["strict", "replace", "ignore", "backslashreplace"], read name = .ok store) ∧
      ((¬ ∀ frame ∈ frames, Utf8.IsText frame.text) →
        ∃ before frame after octets position reason, frames = before ++ frame :: after ∧
          (∀ earlier ∈ before, Utf8.IsText earlier.text) ∧ ¬ Utf8.IsText frame.text ∧
          Utf8.decode .strict frame.text = .error (.malformed octets position reason) ∧
          read "strict" = .error (.encoding (.malformed octets position reason)))) ∧
    (¬ Memory.HoldsSegments frames.length layerSize plan.capacity →
      ∃ e, ∀ name, read name = .error (.room e)) := by
  intro read
  have hread : ∀ name, read name = modelIn (plan.withRecovery (.ofName name)) file content :=
    fun name => outcome_decode_of_le (hplan.withRecovery (.ofName name)) hfits file p
  simp only [hread]
  refine ⟨fun hroom => ⟨⟨cut (partition frames.length layerSize (plan.capacity.toNat / layerSize))
    (frames.flatMap (Frame.vector plan.order layerSize)), ?_⟩, ?_,
    fun hmalformed => hframed.exists_modelIn_eq_error hroom hmalformed⟩, fun hroom => ?_⟩
  · intro name hname
    obtain ⟨repair, hrepair⟩ := exists_repair?_ofName hname
    obtain ⟨store, hstore, hvocab, hsize, hsegments, hflatten⟩ := hframed.exists_store hroom hrepair
    refine ⟨store, hstore, hsize, ?_, hsegments, hflatten, ?_⟩
    · rw [Store.vocabSize, hvocab, List.length_map]
    · intro i frame word hframe hword
      rw [hvocab, List.getElem?_map, hframe, Option.map_some, hword, Utf8.textOf_scan_encode]
  · intro htexts
    have hignore : Utf8.Recovery.ignore.repair? = some fun _ => [] := rfl
    obtain ⟨store, hstore, -⟩ := hframed.exists_store hroom hignore
    refine ⟨store, ?_⟩
    intro name _
    rw [hframed.modelIn_withRecovery hroom htexts _ .ignore, hstore]
  · obtain ⟨e, he⟩ := hframed.exists_room_error hroom
    exact ⟨e, fun name => he (.ofName name)⟩

/-- Three words: one with a newline in it, one that is cut off inside a character, and one that
starts with an octet that starts none. -/
theorem recoveries_agree_three :
    letI : Memory := .ample
    let frames : List Frame := [⟨[0x0A, 0x61], [0, 0, 0x80, 0x3F]⟩,
      ⟨[0x0A, 0xE2, 0x82], [0x20, 0x20, 0x20, 0x20]⟩, ⟨[0xFF, 0x62], [0x0A, 0, 0, 0]⟩]
    let content := [0x33, 0x20, 0x31] ++ Window.newline :: (frames.flatMap Frame.octets ++ [])
    let plan : Plan := ⟨.little, 2, 4096, 4097 + content.length, .strict, fun _ => false⟩
    let read := fun name : String =>
      outcome (decode (plan.withRecovery (.ofName name)) "model" content .silent)
    (∀ name ∈ ["replace", "ignore", "backslashreplace"], ∃ store,
      read name = .ok store ∧ store.vocabSize = 3 ∧ store.vocab[0]? = some "a") ∧
    ∃ e, read "strict" = .error (.encoding e) := by
  let memory : Memory := .ample
  intro frames content plan read
  have hplan : plan.Admissible := ⟨by decide, by decide, by show (4096 : Int) < 4097 + _; omega⟩
  have hframes : ∀ frame ∈ frames, frame.Sound 1 := by
    simp only [frames, List.forall_mem_cons, List.not_mem_nil, false_implies, implies_true]
    exact ⟨⟨by decide, rfl⟩, ⟨by decide, rfl⟩, ⟨by decide, rfl⟩, trivial⟩
  have hframed : Framed plan.capacity "model" content 1 frames :=
    .intro (by decide) (by decide +kernel) (by decide) hframes
  have hfits : (content.length : Int) ≤ plan.limit := by
    show _ ≤ (4097 : Int) + _
    omega
  obtain ⟨hread, -⟩ := recoveries_agree hplan hframed hfits .silent
  obtain ⟨⟨segments, hgoing⟩, -, hstrict⟩ := hread (by decide)
  constructor
  · intro name hname
    obtain ⟨store, hstore, -, hsize, -, -, hwords⟩ := hgoing name hname
    exact ⟨store, hstore, hsize, hwords 0 _ "a" rfl (by decide)⟩
  · obtain ⟨before, frame, after, octets, position, reason, -, -, -, -, herror⟩ :=
      hstrict (by decide +kernel)
    exact ⟨_, herror⟩

end Binary

end WordVectors
