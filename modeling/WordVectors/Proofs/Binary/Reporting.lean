import WordVectors.Codec.Format
import WordVectors.Proofs.Report.Nesting

/-!
# Binary models and progress

What a reading comes to does not depend on its progress: not on whether lines are due, not on
whether anything is reported, and not on what becomes of the lines. The reports of a reading keep to
its own sections, and these are closed in the end, also when the reading fails, wherever it does.

## Main definitions

* `Binary.Plan.withReports`: a plan with other progress lines

## Main results

* `Binary.readRecords_snd`, `Binary.decode_snd`: the outcome does not depend on the progress
* `Binary.readRecords_keeps`, `Binary.decodeFrom_keeps`: what reports keep, a reading keeps
* `Binary.decode_reporting`: the outcome does not depend on the progress, and sections are closed
-/

namespace WordVectors.Binary

variable {plan : Plan} {w : Window} {vocabSize layerSize : Nat} {file : String} {content : Bytes}

/-- A plan with other progress lines. -/
def Plan.withReports (plan : Plan) (due : Nat → Bool) : Plan := { plan with reportDue := due }

/-! ## Outcomes -/

theorem moveOn_snd (w : Window) (p q : Progress) : (moveOn w p).2 = (moveOn w q).2 := by
  simp only [moveOn]
  split
  · rcases w.advance with ⟨w', e | ⟨⟩⟩ <;> rfl
  · rfl

/-- **Records are read alike**, whatever is reported of them. -/
theorem readRecords_snd (due : Nat → Bool) (count : Nat) (p q : Progress) :
    (readRecords plan vocabSize layerSize count w p).2 =
      (readRecords (plan.withReports due) vocabSize layerSize count w q).2 := by
  induction count generalizing w p q with
  | zero => rfl
  | succ count ih =>
    have hrecord : readRecord (plan.withReports due) layerSize w =
        readRecord plan layerSize w := rfl
    simp only [readRecords, hrecord]
    rcases readRecord plan layerSize w with e | ⟨record, w₁⟩
    · rfl
    · dsimp only
      generalize (if plan.reportDue (vocabSize - count) = true then
        p.note (loadedLine (vocabSize - count) vocabSize) else p) = p₁
      generalize (if (plan.withReports due).reportDue (vocabSize - count) = true then
        q.note (loadedLine (vocabSize - count) vocabSize) else q) = q₁
      have hmove := moveOn_snd w₁ p₁ q₁
      rcases hp : moveOn w₁ p₁ with ⟨p₂, r⟩
      rcases hq : moveOn w₁ q₁ with ⟨q₂, r'⟩
      rw [hp, hq] at hmove
      obtain rfl : r = r' := hmove
      rcases r with e | w₂
      · rfl
      · have hrest := ih (w := w₂) p₂ q₂
        dsimp only
        rcases hp : readRecords plan vocabSize layerSize count w₂ p₂ with ⟨p₃, r⟩
        rcases hq : readRecords (plan.withReports due) vocabSize layerSize count w₂ q₂ with ⟨q₃, r'⟩
        rw [hp, hq] at hrest
        obtain rfl : r = r' := hrest
        rcases r with e | ⟨records, w₃⟩ <;> rfl

theorem ofReading_snd (perSegment : Nat)
    {r r' : Progress × Except ModelError (List Record × Window)} (h : r.2 = r'.2) :
    (ofReading layerSize perSegment r).2 = (ofReading layerSize perSegment r').2 := by
  obtain ⟨p, r⟩ := r
  obtain ⟨q, r'⟩ := r'
  obtain rfl : r = r' := h
  rcases r with e | ⟨records, w⟩
  · rfl
  · simp only [ofReading]
    rcases storeOf layerSize perSegment records with e | store <;> rfl

theorem decodeFrom_snd [Memory] (due : Nat → Bool) (file : String) (w : Window) (p q : Progress) :
    (decodeFrom plan file w p).2 = (decodeFrom (plan.withReports due) file w q).2 := by
  have hcapacity : (plan.withReports due).capacity = plan.capacity := rfl
  simp only [decodeFrom, hcapacity]
  rcases w.readUntil [Window.newline] "header" with e | ⟨line, w₁⟩
  · rfl
  · dsimp only
    rcases parseHeader line file with e | ⟨vocabSize, layerSize⟩
    · rfl
    · dsimp only
      rcases vectorsPerSegment layerSize plan.capacity with e | perSegment
      · rfl
      · dsimp only
        rcases Room.checkSegments vocabSize layerSize perSegment with e | ⟨⟩
        · rfl
        · exact ofReading_snd perSegment (readRecords_snd due vocabSize _ _)

theorem within_snd {α : Type} {body body' : Progress → Progress × α} (name : String)
    (h : ∀ p q, (body p).2 = (body' q).2) (p q : Progress) :
    (p.within name body).2 = (q.within name body').2 :=
  h _ _

/-- **A model is read alike**, whatever is reported of it. -/
theorem decode_snd [Memory] (due : Nat → Bool) (file : String) (content : Bytes) (p q : Progress) :
    (decode plan file content p).2 = (decode (plan.withReports due) file content q).2 := by
  refine within_snd "Loading vectors from bin file" (fun p q => ?_) p q
  split
  · rfl
  · have hlimit : (plan.withReports due).limit = plan.limit := rfl
    have hstride : (plan.withReports due).stride = plan.stride := rfl
    rw [hlimit, hstride]
    rcases Window.ofFile content plan.limit plan.stride with e | w
    · rfl
    · exact within_snd "Reading gigabyte #1" (decodeFrom_snd due file w) p q

/-! ## What reports keep -/

theorem ofReading_fst (perSegment : Nat)
    (r : Progress × Except ModelError (List Record × Window)) :
    (ofReading layerSize perSegment r).1 = r.1 := by
  obtain ⟨p, e | ⟨records, w⟩⟩ := r
  · rfl
  · simp only [ofReading]
    rcases storeOf layerSize perSegment records with e | store <;> rfl

theorem isNote_loadedLine (done vocabSize : Nat) : Progress.IsNote (loadedLine done vocabSize) := by
  simp only [loadedLine, String.append_assoc]
  exact Progress.isNote_append (c := 'L') rfl (by decide) (by decide) _

theorem isNote_sizesLine (vocabSize layerSize : Nat) :
    Progress.IsNote s!"Loading {vocabSize} vectors with dimensionality {layerSize}" := by
  simp only [String.append_assoc]
  exact Progress.isNote_append (c := 'L') rfl (by decide) (by decide) _

section

variable {P : Progress → Prop} (hnote : ∀ p line, Progress.IsNote line → P p → P (p.note line))
  (hrestart : ∀ p name, P p → P (p.restart name))
include hrestart

theorem moveOn_keeps {p : Progress} (h : P p) : P (moveOn w p).1 := by
  simp only [moveOn]
  split
  · rcases w.advance with ⟨w', e | ⟨⟩⟩ <;> exact hrestart p _ h
  · exact h

include hnote

/-- **What notes and changes of a section keep, a reading of records keeps.** -/
theorem readRecords_keeps {count : Nat} {p : Progress} (h : P p) :
    P (readRecords plan vocabSize layerSize count w p).1 := by
  induction count generalizing w p with
  | zero => exact h
  | succ count ih =>
    simp only [readRecords]
    rcases readRecord plan layerSize w with e | ⟨record, w₁⟩
    · exact h
    · have hline : P (if plan.reportDue (vocabSize - count) = true then
          p.note (loadedLine (vocabSize - count) vocabSize) else p) := by
        split
        · exact hnote p _ (isNote_loadedLine _ _) h
        · exact h
      have hmove := moveOn_keeps (w := w₁) hrestart hline
      dsimp only
      split
      · next q e hmoved =>
        rw [hmoved] at hmove
        exact hmove
      · next q w₂ hmoved =>
        rw [hmoved] at hmove
        have hrest := ih (w := w₂) hmove
        split
        · next hread =>
          rw [hread] at hrest
          exact hrest
        · next hread =>
          rw [hread] at hrest
          exact hrest

/-- **What notes and changes of a section keep, the reading of a model keeps**, wherever it
stops. -/
theorem decodeFrom_keeps [Memory] {p : Progress} (h : P p) : P (decodeFrom plan file w p).1 := by
  simp only [decodeFrom]
  split
  · exact h
  · split
    · exact h
    · next line w₁ _ _ vocabSize layerSize _ =>
      have hsizes := hnote p _ (isNote_sizesLine vocabSize layerSize) h
      split
      · exact hsizes
      · split
        · exact hsizes
        · rw [ofReading_fst]
          exact readRecords_keeps (P := P) hnote hrestart hsizes

end

/-- A reading that is not reported leaves nothing behind. -/
theorem decode_silent [Memory] (plan : Plan) (file : String) (content : Bytes) :
    (decode plan file content .silent).1 = .silent := by
  have hwithin : ∀ {α : Type} (name : String) (body : Progress → Progress × α),
      (body .silent).1 = .silent → (Progress.silent.within name body).1 = .silent := by
    intro α name body hbody
    show (body .silent).1.finish = .silent
    rw [hbody]
    rfl
  refine hwithin _ _ ?_
  split
  · rfl
  · split
    · rfl
    · refine hwithin _ _ (decodeFrom_keeps (P := (· = .silent)) ?_ ?_ rfl)
      · rintro p line - rfl
        rfl
      · rintro p name rfl
        rfl

/-- **The sections of a reading are closed in the end**, wherever it stops. -/
theorem reached_decode [Memory] {base p : Progress} {own : List String}
    (h : Progress.Reached base own p) (plan : Plan) (file : String) (content : Bytes) :
    Progress.Reached base own (decode plan file content p).1 := by
  refine h.within fun q hq => ?_
  split
  · exact ⟨_, hq⟩
  · split
    · exact ⟨_, hq⟩
    · refine ⟨_, hq.within fun r hr => ?_⟩
      refine decodeFrom_keeps (P := fun r => ∃ name, Progress.Reached base (name :: _) r) ?_ ?_
        ⟨_, hr⟩
      · rintro r line hline ⟨name, hr⟩
        exact ⟨name, hr.note hline⟩
      · rintro r name' ⟨name, hr⟩
        exact ⟨name', hr.restart name'⟩

/-! ## Requests -/

/-- The interval between progress lines has no part in a plan but for them. -/
theorem plan_withInterval (settings : Settings) (interval : Binary64) (request : Request) :
    request.plan { settings with progressInterval := interval } =
      (request.plan settings).map fun plan => plan.withReports fun _ => interval.isBelowZero := by
  simp only [Request.plan]
  rcases orderNamed (nameOr request.byteOrder settings.byteOrder) with e | order <;> rfl

theorem load_snd [Memory] (settings : Settings) (interval : Binary64) (request : Request)
    (file : String) (content : Bytes) (p q : Progress) :
    (Format.load .binary settings request file content p).2 =
      (Format.load .binary { settings with progressInterval := interval } request file content
        q).2 := by
  simp only [Format.load, plan_withInterval]
  rcases request.plan settings with e | plan
  · rfl
  · exact congrArg (Except.map _) (decode_snd _ file content p q)

theorem reached_load [Memory] {base p : Progress} {own : List String}
    (h : Progress.Reached base own p) (settings : Settings) (request : Request) (file : String)
    (content : Bytes) :
    Progress.Reached base own (Format.load .binary settings request file content p).1 := by
  simp only [Format.load]
  rcases request.plan settings with e | plan
  · exact h
  · exact reached_decode h plan file content

/-! ## Reporting -/

/-- **Progress has no influence on a reading, and its sections are closed.** A file comes to the
same model or error whatever lines are due, whether they are reported, and whatever becomes of them.
In the end the sections that were open before are open again, and the lines that were attempted
leave none open. Both hold for any plan and for any request. -/
theorem decode_reporting [Memory] :
    (∀ (plan : Plan) (due : Nat → Bool) (file : String) (content : Bytes) (p q : Progress),
      (decode plan file content p).2 = (decode (plan.withReports due) file content q).2) ∧
    (∀ (settings : Settings) (interval : Binary64) (request : Request) (file : String)
        (content : Bytes) (p q : Progress),
      (Format.load .binary settings request file content p).2 =
        (Format.load .binary { settings with progressInterval := interval } request file content
          q).2) ∧
    (∀ (plan : Plan) (file : String) (content : Bytes),
      (decode plan file content .silent).1 = .silent) ∧
    ∀ (base : Progress) (sink : Sink) (file : String) (content : Bytes),
      let timer := { base with sink := some sink }
      (∀ plan : Plan, timer.Unwinds (decode plan file content timer).1) ∧
      ∀ (settings : Settings) (request : Request),
        timer.Unwinds (Format.load .binary settings request file content timer).1 := by
  refine ⟨fun plan due file content => decode_snd due file content, load_snd, decode_silent, ?_⟩
  intro base sink file content timer
  have hstart : timer.Reached [] timer := .refl rfl
  constructor
  · intro plan
    exact (reached_decode hstart plan file content).unwinds
  · intro settings request
    exact (reached_load hstart settings request file content).unwinds

end WordVectors.Binary
