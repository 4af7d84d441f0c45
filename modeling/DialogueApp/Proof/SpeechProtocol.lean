import DialogueApp.Controllers.SpeechView
import DialogueApp.Lib.History
import Mathlib.Data.List.Induction

/-!
# The audio and speech protocols of a recording view

Taps on the record button alternate between the two halves, so the tap on bus 0 is installed and
removed in turn.  The recognition request is the same in every half: the first stop ends its audio,
and a later start that finds a recognizer hands it to a task again.
-/

namespace DialogueApp.SpeechView

open History

/-- A tap is installed on bus 0 after these calls. -/
def tapInstalled (calls : List AudioCall) : Bool :=
  calls.foldl (fun installed (call : AudioCall) =>
    match call with
    | .installTap => true
    | .removeTap => false
    | _ => installed) false

/-- A bus takes one tap: it is installed where there is none, and removed where there is one. -/
def BusRule (before : List AudioCall) : AudioCall → Prop
  | .installTap => tapInstalled before = false
  | .removeTap => tapInstalled before = true
  | _ => True

/-- A request serves one task, and none once its audio has ended. -/
def RequestRule (before : List AudioCall) : AudioCall → Prop
  | .recognitionTask request =>
    .recognitionTask request ∉ before ∧ .endAudio request ∉ before
  | _ => True

/-- Every call keeps to both rules. -/
structure RespectsProtocols (calls : List AudioCall) : Prop where
  bus : EachAfter BusRule calls
  requests : EachAfter RequestRule calls

/-- Every tap that starts a recording, the first one apart, finds no speech recognizer. -/
def LaterStartsFindNoRecognizer : List RecordTap → Prop :=
  EachAfter fun before tap => before.length % 2 = 0 → 2 ≤ before.length → tap.recognizer = false

/-! ## One tap -/

/-- The calls of a tap that starts a recording. -/
def startCalls (v : SpeechView) (recognizer : Bool) : List AudioCall :=
  [.installTap, .prepare, .startEngine] ++
    if recognizer then [.recognitionTask v.recognitionRequest] else []

/-- The calls of a tap that stops it. -/
def stopCalls (v : SpeechView) : List AudioCall :=
  (match v.task with
    | some task => [.finish task, .cancel task]
    | none => []) ++ [.endAudio v.recognitionRequest, .stopEngine, .removeTap]

/-- A tap flips the flag, keeps the request and makes the calls of one half. -/
theorem tap_effect (screen : ℕ) (v : SpeechView) (device : Device) (t : RecordTap) :
    let v' := (tap screen (v, device) t).1
    v'.isStart = (!v.isStart) ∧ v'.recognitionRequest = v.recognitionRequest ∧
      v'.calls = v.calls ++ if v.isStart then v.stopCalls else v.startCalls t.recognizer := by
  have hflag := (v.toRecordingView.didTapRecordButton_effect device screen t.starts).1
  simp only [tap, didTapRecordButton]
  generalize v.toRecordingView.didTapRecordButton device screen t.starts = result at hflag ⊢
  obtain ⟨view, device', report⟩ := result
  refine ⟨hflag, ?_⟩
  simp only at hflag ⊢
  rw [hflag]
  cases v.isStart with
  | false =>
    cases ht : t.recognizer <;> simp [startSpeech, startCalls]
  | true =>
    cases ht : v.task <;> simp [stopSpeech, stopCalls, ht]

theorem tapInstalled_append (before calls : List AudioCall) :
    tapInstalled (before ++ calls) =
      calls.foldl (fun installed (call : AudioCall) =>
        match call with
        | .installTap => true
        | .removeTap => false
        | _ => installed) (tapInstalled before) :=
  List.foldl_append

theorem startCalls_installed (v : SpeechView) (recognizer : Bool) (before : List AudioCall) :
    tapInstalled (before ++ v.startCalls recognizer) = true := by
  rw [tapInstalled_append]
  cases recognizer <;> rfl

theorem stopCalls_installed (v : SpeechView) (before : List AudioCall) :
    tapInstalled (before ++ v.stopCalls) = false := by
  rw [tapInstalled_append, stopCalls]
  cases v.task <;> rfl

/-- A start installs a tap where there is none. -/
theorem startCalls_bus {v : SpeechView} {before : List AudioCall}
    (h : tapInstalled before = false) (recognizer : Bool) :
    EachAfter (fun later => BusRule (before ++ later)) (v.startCalls recognizer) := by
  cases recognizer <;> simp [startCalls, eachAfter_cons, BusRule, h]

/-- A stop removes the tap that is there. -/
theorem stopCalls_bus {v : SpeechView} {before : List AudioCall}
    (h : tapInstalled before = true) :
    EachAfter (fun later => BusRule (before ++ later)) v.stopCalls := by
  cases ht : v.task <;> simp [stopCalls, ht, eachAfter_cons, BusRule, tapInstalled_append, h]

/-- A start hands the view's request to a task if it finds a recognizer. -/
theorem startCalls_requests {v : SpeechView} {before : List AudioCall} {recognizer : Bool} :
    EachAfter (fun later => RequestRule (before ++ later)) (v.startCalls recognizer) ↔
      (recognizer = true → RequestRule before (.recognitionTask v.recognitionRequest)) := by
  cases recognizer <;> simp [startCalls, eachAfter_cons, RequestRule]

theorem stopCalls_requests (v : SpeechView) (before : List AudioCall) :
    EachAfter (fun later => RequestRule (before ++ later)) v.stopCalls := by
  cases ht : v.task <;> simp [stopCalls, ht, eachAfter_cons, RequestRule]

/-! ## A run of taps -/

/-- What holds after `n` taps. -/
structure AfterTaps (n : ℕ) (v : SpeechView) : Prop where
  isStart : v.isStart = decide (n % 2 = 1)
  request : v.recognitionRequest = 0
  installed : tapInstalled v.calls = v.isStart
  bus : EachAfter BusRule v.calls
  fresh : n = 0 → v.calls = []
  ended : 2 ≤ n → .endAudio 0 ∈ v.calls

theorem afterTaps_new : AfterTaps 0 new :=
  ⟨rfl, rfl, rfl, eachAfter_nil _, fun _ => rfl, nofun⟩

theorem tap_afterTaps {n : ℕ} {v : SpeechView} (hv : v.AfterTaps n) (screen : ℕ) (device : Device)
    (t : RecordTap) : (tap screen (v, device) t).1.AfterTaps (n + 1) := by
  obtain ⟨hflag, hrequest, hcalls⟩ := tap_effect screen v device t
  have hparity : decide ((n + 1) % 2 = 1) = !decide (n % 2 = 1) := by
    rw [← decide_not, decide_eq_decide]
    omega
  have hrequest' := hrequest.trans hv.request
  rw [hv.isStart] at hflag
  cases hodd : decide (n % 2 = 1) with
  | false =>
    have hstart : v.isStart = false := hv.isStart.trans hodd
    rw [hstart, if_neg Bool.false_ne_true] at hcalls
    refine ⟨hflag.trans hparity.symm, hrequest', ?_, ?_, nofun, fun hn => ?_⟩
    · rw [hflag, hcalls, startCalls_installed, hodd]
      rfl
    · rw [hcalls, eachAfter_append]
      exact ⟨hv.bus, startCalls_bus (hv.installed.trans hstart) t.recognizer⟩
    · rw [hcalls]
      exact List.mem_append_left _ (hv.ended (by have := of_decide_eq_false hodd; omega))
  | true =>
    have hstart : v.isStart = true := hv.isStart.trans hodd
    rw [hstart, if_pos rfl] at hcalls
    refine ⟨hflag.trans hparity.symm, hrequest', ?_, ?_, nofun, fun _ => ?_⟩
    · rw [hflag, hcalls, stopCalls_installed, hodd]
      rfl
    · rw [hcalls, eachAfter_append]
      exact ⟨hv.bus, stopCalls_bus (hv.installed.trans hstart)⟩
    · rw [hcalls]
      exact List.mem_append_right _ (by simp [stopCalls, hv.request])

/-- A tap keeps to one task for each request exactly when it is not a later start that finds a
recognizer. -/
theorem tap_requests {n : ℕ} {v : SpeechView} (hv : v.AfterTaps n) (screen : ℕ) (device : Device)
    (t : RecordTap) :
    EachAfter RequestRule (tap screen (v, device) t).1.calls ↔
      EachAfter RequestRule v.calls ∧ (n % 2 = 0 → 2 ≤ n → t.recognizer = false) := by
  obtain ⟨-, -, hcalls⟩ := tap_effect screen v device t
  rw [hcalls, eachAfter_append]
  refine and_congr_right fun _ => ?_
  cases hodd : decide (n % 2 = 1) with
  | false =>
    rw [hv.isStart.trans hodd, if_neg Bool.false_ne_true, startCalls_requests, hv.request]
    have heven : n % 2 = 0 := by have := of_decide_eq_false hodd; omega
    constructor
    · intro h _ hn
      by_contra hrecognizer
      exact (h (Bool.not_eq_false _ ▸ hrecognizer)).2 (hv.ended hn)
    · intro h hrecognizer
      have hzero : n = 0 := by
        by_contra hne
        rw [h heven (by omega)] at hrecognizer
        cases hrecognizer
      rw [hv.fresh hzero]
      exact ⟨List.not_mem_nil, List.not_mem_nil⟩
  | true =>
    rw [hv.isStart.trans hodd, if_pos rfl]
    refine iff_of_true (stopCalls_requests v v.calls) fun heven => ?_
    have := of_decide_eq_true hodd
    omega

theorem foldl_afterTaps (screen : ℕ) (device : Device) (taps : List RecordTap) :
    (taps.foldl (tap screen) (new, device)).1.AfterTaps taps.length := by
  induction taps using List.reverseRecOn with
  | nil => exact afterTaps_new
  | append_singleton taps t ih =>
    rw [List.foldl_concat, List.length_append]
    exact tap_afterTaps ih screen _ t

/-- For every run of taps on the record button, the calls respect the protocols exactly when no
recording after the first one finds a speech recognizer. -/
theorem respectsProtocols_iff (screen : ℕ) (device : Device) (taps : List RecordTap) :
    RespectsProtocols (taps.foldl (tap screen) (new, device)).1.calls ↔
      LaterStartsFindNoRecognizer taps := by
  have hbus := (foldl_afterTaps screen device taps).bus
  have hrequests : EachAfter RequestRule (taps.foldl (tap screen) (new, device)).1.calls ↔
      LaterStartsFindNoRecognizer taps := by
    clear hbus
    induction taps using List.reverseRecOn with
    | nil => exact iff_of_true (eachAfter_nil _) (eachAfter_nil _)
    | append_singleton taps t ih =>
      rw [List.foldl_concat, tap_requests (foldl_afterTaps screen device taps), ih,
        LaterStartsFindNoRecognizer, eachAfter_concat]
  exact ⟨fun h => hrequests.1 h.requests, fun h => ⟨hbus, hrequests.2 h⟩⟩

/-- A second recording on the same view hands over the request whose audio has ended. -/
theorem not_respectsProtocols_secondRecording :
    let taps : List RecordTap := [⟨true, true⟩, ⟨true, true⟩, ⟨true, true⟩]
    ¬ RespectsProtocols (taps.foldl (tap 0) (new, Device.new "documents")).1.calls := by
  intro taps h
  have hrule := h.requests
    [.installTap, .prepare, .startEngine, .recognitionTask 0, .finish ⟨0⟩, .cancel ⟨0⟩, .endAudio 0,
     .stopEngine, .removeTap, .installTap, .prepare, .startEngine] (.recognitionTask 0) [] rfl
  exact hrule.2 (by decide)

end DialogueApp.SpeechView
