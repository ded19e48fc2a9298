import WordVectors.Proofs.Binary.BoundedWindows
import WordVectors.Proofs.Loading
import WordVectors.Proofs.Window.Runs

/-!
# Settings that pass their checks

The settings are checked in one place and used in others, each with checks of its own. Settings
without issues pass all of those: a binary model is read in windows that can be opened and moved as
far as the file goes, and there is a backend to search it. What the sizes of the windows can change
is only where a reading stops, at the end of a window that does not show all of a first line or a
record.

## Main results

* `Window.exists_runs`: what every window of a run over a file keeps
* `Binary.outcome_decode_windows`: what a reading through windows can come to
* `Settings.load_usable`: settings without issues are of use
-/

namespace WordVectors

/-- **Every window of a run** shows something, no more than the limit, and is moved when that is
due. -/
theorem Window.exists_runs {file : Bytes} {limit stride : Int} (hne : file ≠ [])
    (hpos : 0 < stride) (hgranular : stride % granularity = 0) (hlt : stride < limit) :
    ∃ first, ofFile file limit stride = .ok first ∧ ∀ log w, Run first log w →
      0 < w.size ∧ (w.size : Int) ≤ limit ∧ (∀ r e, w.answer r = .error e → e.isEnd = true) ∧
      (w.isDue = true → ∃ next, w.advance = (next, .ok ())) := by
  obtain ⟨first, hopen, hfirst, hfile, hlimit, -, -, hoffset, -⟩ :=
    ofFile_of_admissible hne hpos hgranular hlt
  have hsome : 0 < first.size := by
    have hlength := List.length_pos_iff.2 hne
    have hsize := hfirst.size_eq
    rw [hoffset, hlimit, hfile, List.size_toArray] at hsize
    omega
  refine ⟨first, hopen, fun log w hrun => ?_⟩
  obtain ⟨hsound, -, hlimit', -⟩ := hrun.sound hfirst
  have hsize := hsound.size_eq
  refine ⟨hrun.size_pos hfirst hsome, by omega, fun _ _ => hsound.isEnd_of_answer_eq_error,
    fun hdue => ?_⟩
  obtain ⟨next, hnext, -⟩ := advance_of_isDue hsound hdue
  exact ⟨next, hnext⟩

namespace Binary

variable {plan : Plan}

/-- **A reading through windows** comes to what it comes to through a window in which the file lies
as a whole, unless it stops at the end of a window: inside a record, or inside the first line. -/
theorem outcome_decode_windows [Memory] (hplan : plan.Admissible) {content : Bytes}
    (hne : content ≠ []) (file : String) (p : Progress) :
    outcome (decode plan file content p) = outcome (decode (plan.whole content) file content p) ∨
      Crosses (outcome (decode plan file content p)) ∨
      plan.limit < lineSize content ∧
        (decode plan file content p).2 = .error (.header (.unterminated file)) := by
  rcases Int.lt_or_le plan.limit (lineSize content) with hline | hline
  · exact .inr (.inr ⟨hline, decode_of_lt_lineSize hplan hne hline⟩)
  · rw [outcome_decode_whole plan hne]
    rcases outcome_decode_cases hplan (fun _ => hline) file p with ⟨heq, -⟩ | ⟨-, hcross, -⟩
    · exact .inl heq
    · exact .inr (.inl hcross)

/-- **A reading meets no failure of a window** but an end: none to open it, and none to move it. -/
theorem isEnd_of_decode_eq_error [Memory] (hplan : plan.Admissible) {content : Bytes}
    (hne : content ≠ []) {file : String} {p : Progress} {e : WindowError}
    (h : (decode plan file content p).2 = .error (.window e)) : e.isEnd = true := by
  have houtcome : outcome (decode plan file content p) = .error (.window e) := by
    rw [outcome, h]
    rfl
  rcases outcome_decode_windows hplan hne file p with heq | ⟨_, _, _, _, hcross⟩ | ⟨-, hheader⟩
  · rw [heq, outcome_decode_whole plan hne] at houtcome
    exact isEnd_of_modelIn houtcome
  · rw [hcross] at houtcome
    cases houtcome
    rfl
  · rw [hheader] at h
    cases h

end Binary

/-- **Settings without issues are of use**, whatever environment they come from. A backend is found
for them, and they make a plan for binary models. By that plan the window at the front of every file
that is not empty can be opened. In every run from it each window shows something, no more than the
limit, and each move that is due succeeds, so that a reading meets only ends of windows and of the
file. But for those it comes to what it comes to through one window over the whole file. -/
theorem Settings.load_usable [Memory] {env : List (String × String)}
    (h : (Settings.load env).map Settings.issues = .ok []) :
    ∃ (settings : Settings) (backend : Backend) (plan : Binary.Plan),
      Settings.load env = .ok settings ∧
      settings.backend? none = some backend ∧
      Binary.Request.unspecified.plan settings = .ok plan ∧
      ByteOrder.ofName? settings.byteOrder = some plan.order ∧
      ∀ (file : String) (content : Bytes) (p : Progress), content ≠ [] →
        let result := Binary.decode plan file content p
        (∃ first, Window.ofFile content settings.windowLimit settings.stride = .ok first ∧
          (∃ q, result.2 = (Binary.decodeFrom plan file first q).2) ∧
          ∀ log w, Window.Run first log w →
            0 < w.size ∧ (w.size : Int) ≤ settings.windowLimit ∧
            (∀ r e, w.answer r = .error e → e.isEnd = true) ∧
            (w.isDue = true → ∃ next, w.advance = (next, .ok ()))) ∧
        (∀ e, result.2 = .error (.window e) → e.isEnd = true) ∧
        (Binary.outcome result =
            Binary.outcome (Binary.decode (plan.whole content) file content p) ∨
          Binary.Crosses (Binary.outcome result) ∨
          settings.windowLimit < Binary.lineSize content ∧
            result.2 = .error (.header (.unterminated file))) := by
  obtain ⟨settings, hload, hissues⟩ := exists_of_map_eq_ok h
  have husable := (issues_eq_nil_iff settings).1 hissues
  obtain ⟨backend, hbackend⟩ := Option.isSome_iff_exists.1 husable.backend_known
  obtain ⟨order, horder⟩ := Option.isSome_iff_exists.1 husable.order_known
  have hasked : ByteOrder.ofName? (Binary.nameOr none settings.byteOrder) = some order := horder
  obtain ⟨plan, hplan, hwindows, -, rfl, -, hstride, hlimit⟩ := husable.exists_plan hasked
  refine ⟨settings, backend, plan, hload, hbackend, hplan, horder, fun file content p hne => ?_⟩
  rw [← hlimit, ← hstride]
  obtain ⟨first, hopen, hruns⟩ := Window.exists_runs hne hwindows.stride_pos
    hwindows.stride_granular hwindows.stride_lt
  refine ⟨⟨first, hopen, ?_, hruns⟩, fun e => Binary.isEnd_of_decode_eq_error hwindows hne,
    Binary.outcome_decode_windows hwindows hne file p⟩
  rw [Binary.decode_of_ofFile_eq_ok hopen]
  exact ⟨_, rfl⟩

/-- An environment that asks for windows of two strides. -/
def narrowWindows : List (String × String) :=
  [("W2V_MAX_MAP_BYTES", "8192"), ("W2V_REMAP_THRESHOLD_BYTES", "4096"),
    ("W2V_DEFAULT_BYTE_ORDER", "big"), ("W2V_SEARCH_BACKEND", "faiss")]

/-- A file that is longer than a window is read from its front. -/
theorem Settings.load_usable_long :
    ∃ settings plan first, Settings.load narrowWindows = .ok settings ∧
      settings.backend? none = some .normalized ∧
      Binary.Request.unspecified.plan settings = .ok plan ∧ plan.order = .big ∧
      Window.ofFile (List.replicate 9000 0x20) 8192 4096 = .ok first ∧
      0 < first.size ∧ (first.size : Int) ≤ 8192 := by
  have hissues : (Settings.load narrowWindows).map Settings.issues = .ok [] := by decide +kernel
  have hsettings : Settings.load narrowWindows =
      .ok ⟨8192, 268435455, 4096, .ofRatio false 1 1, "big", "faiss", false⟩ := by decide +kernel
  obtain ⟨settings, backend, plan, hload, -, hplan, horder, hfiles⟩ := @load_usable .ample _ hissues
  obtain rfl := Except.ok.inj (hload.symm.trans hsettings)
  have hne : List.replicate 9000 (0x20 : UInt8) ≠ [] := by
    rw [Ne, List.replicate_eq_nil_iff]
    exact Nat.succ_ne_zero _
  obtain ⟨⟨first, hopen, -, hruns⟩, -⟩ := hfiles "model" _ .silent hne
  obtain ⟨hsome, hlimit, -⟩ := hruns _ _ .start
  exact ⟨_, plan, first, hload, rfl, hplan, (Option.some.inj horder).symm, hopen, hsome, hlimit⟩

end WordVectors
