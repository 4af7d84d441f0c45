import DialogueApp.Controllers.ChatPlayer
import DialogueApp.Lib.Runs

/-!
# What an event does on the chat screen

`Effect` says everything that one event can do, the pulse of the rows apart.  No event traps:
`prepareAudio` is only called with the index at which it reads.
-/

namespace DialogueApp.ChatPlayer

theorem startPulseAnimation_eq (s : ChatPlayer) :
    ∃ pulsing, s.startPulseAnimation = { s with pulsing } := by
  unfold startPulseAnimation
  split_ifs
  · exact ⟨_, rfl⟩
  · exact ⟨s.pulsing, rfl⟩

theorem stopPulseAnimation_eq (s : ChatPlayer) :
    ∃ pulsing, s.stopPulseAnimation = { s with pulsing } := by
  unfold stopPulseAnimation
  split_ifs
  · exact ⟨_, rfl⟩
  · exact ⟨s.pulsing, rfl⟩

theorem prepareAudio_ok (s : ChatPlayer) (h : s.playNum < s.audioUrls.length) :
    s.prepareAudio s.playNum true = some (true, { s with audio := s.audio.load s.playNum }) := by
  unfold prepareAudio
  rw [if_pos h, List.getElem?_eq_getElem h]
  rfl

theorem prepareAudio_fails (s : ChatPlayer) {loads : Bool}
    (h : loads = false ∨ s.audioUrls.length ≤ s.playNum) :
    s.prepareAudio s.playNum loads = some (false, s) := by
  unfold prepareAudio
  by_cases hlt : s.playNum < s.audioUrls.length
  · obtain rfl : loads = false := h.resolve_right (by omega)
    rw [if_pos hlt, List.getElem?_eq_getElem hlt]
    rfl
  · rw [if_neg hlt]

/-- A load succeeds, or is not tried, or fails. -/
theorem loads_cases (loads : Bool) (num count : ℕ) :
    (loads = true ∧ num < count) ∨ (loads = false ∨ count ≤ num) := by
  cases loads
  · exact .inr (.inl rfl)
  · by_cases h : num < count
    · exact .inl ⟨rfl, h⟩
    · exact .inr (.inr (by omega))

/-- What one event can do. -/
inductive Effect (s : ChatPlayer) : Event → ChatPlayer → Prop
  | timerStarts (pulsing : List ℕ) (hpending : s.timerPending = true)
      (hclip : s.playNum < s.audioUrls.length) :
      Effect s (.timer true)
        { s with timerPending := false, audio := (s.audio.load s.playNum).play, pulsing }
  | timerFails (loads : Bool) (hpending : s.timerPending = true)
      (hclip : loads = false ∨ s.audioUrls.length ≤ s.playNum) :
      Effect s (.timer loads) { s with timerPending := false }
  | tapStops (loads : Bool) (pulsing : List ℕ) (hopen : s.closed = false)
      (hflag : s.isPlaying = false) :
      Effect s (.didTapStartButton loads)
        { s with isPlaying := true, audio := s.audio.stop, startImage := .start, playNum := 0,
                 pulsing }
  | tapStarts (pulsing : List ℕ) (hopen : s.closed = false) (hflag : s.isPlaying = true)
      (hclip : s.playNum < s.audioUrls.length) :
      Effect s (.didTapStartButton true)
        { s with isPlaying := false, audio := (s.audio.load s.playNum).play, startImage := .square,
                 pulsing }
  | tapFails (loads : Bool) (hopen : s.closed = false) (hflag : s.isPlaying = true)
      (hclip : loads = false ∨ s.audioUrls.length ≤ s.playNum) :
      Effect s (.didTapStartButton loads) { s with isPlaying := false }
  | nextStarts (pulsing : List ℕ) (hplays : s.audio.isPlaying = true)
      (hclip : s.playNum + 1 < s.audioUrls.length) :
      Effect s (.didFinishPlaying true)
        { s with playNum := s.playNum + 1, audio := (s.audio.load (s.playNum + 1)).play, pulsing }
  | nextFails (loads : Bool) (pulsing : List ℕ) (hplays : s.audio.isPlaying = true)
      (hclip : loads = false ∨ s.audioUrls.length ≤ s.playNum + 1) :
      Effect s (.didFinishPlaying loads)
        { s with playNum := 0, audio := s.audio.stop, startImage := .start, pulsing }
  | closes (hopen : s.closed = false) :
      Effect s .didTapCloseButton { s with audio := s.audio.stop, closed := true }

/-- Every event that can happen is handled, and does one of these things. -/
theorem handle_effect {s : ChatPlayer} {e : Event} (h : s.canHappen e = true) :
    ∃ s', s.handle e = some s' ∧ Effect s e s' := by
  cases e with
  | timer loads =>
    simp only [handle, timerFired]
    rcases loads_cases loads s.playNum s.audioUrls.length with ⟨rfl, hclip⟩ | hclip
    · rw [prepareAudio_ok { s with timerPending := false } hclip]
      obtain ⟨pulsing, hpulse⟩ := startPulseAnimation_eq
        { s with timerPending := false, audio := s.audio.load s.playNum }
      refine ⟨_, rfl, ?_⟩
      rw [hpulse]
      exact .timerStarts pulsing h hclip
    · rw [prepareAudio_fails { s with timerPending := false } hclip]
      exact ⟨_, rfl, .timerFails loads h hclip⟩
  | didTapStartButton loads =>
    have hopen : s.closed = false := by simpa [canHappen] using h
    simp only [handle, didTapStartButton]
    cases hflag : s.isPlaying with
    | false =>
      obtain ⟨pulsing, hpulse⟩ := stopPulseAnimation_eq
        { s with isPlaying := true, audio := s.audio.stop }
      refine ⟨_, rfl, ?_⟩
      rw [Bool.not_false, hpulse]
      exact .tapStops loads pulsing hopen hflag
    | true =>
      rw [Bool.not_true, if_neg Bool.false_ne_true]
      rcases loads_cases loads s.playNum s.audioUrls.length with ⟨rfl, hclip⟩ | hclip
      · rw [prepareAudio_ok { s with isPlaying := false } hclip]
        obtain ⟨pulsing, hpulse⟩ := startPulseAnimation_eq
          { s with isPlaying := false, audio := s.audio.load s.playNum }
        refine ⟨_, rfl, ?_⟩
        rw [hpulse]
        exact .tapStarts pulsing hopen hflag hclip
      · rw [prepareAudio_fails { s with isPlaying := false } hclip]
        exact ⟨_, rfl, .tapFails loads hopen hflag hclip⟩
  | didFinishPlaying loads =>
    simp only [handle, audioPlayerDidFinishPlaying]
    obtain ⟨pulsing₁, hpulse₁⟩ := stopPulseAnimation_eq { s with audio := s.audio.stop }
    rw [hpulse₁]
    obtain ⟨pulsing₂, hpulse₂⟩ := startPulseAnimation_eq
      { s with audio := s.audio.stop, playNum := s.playNum + 1, pulsing := pulsing₁ }
    rw [hpulse₂]
    rcases loads_cases loads (s.playNum + 1) s.audioUrls.length with ⟨rfl, hclip⟩ | hclip
    · rw [prepareAudio_ok _ hclip]
      exact ⟨_, rfl, .nextStarts pulsing₂ h hclip⟩
    · rw [prepareAudio_fails _ hclip]
      exact ⟨_, rfl, .nextFails loads pulsing₂ h hclip⟩
  | didTapCloseButton =>
    have hopen : s.closed = false := by simpa [canHappen] using h
    exact ⟨_, rfl, .closes hopen⟩

theorem step_effect {s s' : ChatPlayer} {e : Event} (h : s.step e = some s') : Effect s e s' := by
  unfold step at h
  split_ifs at h with hcan
  obtain ⟨t, ht, heffect⟩ := handle_effect hcan
  obtain rfl : t = s' := Option.some.inj (ht.symm.trans h)
  exact heffect

theorem exists_step {s : ChatPlayer} {e : Event} (h : s.canHappen e = true) :
    ∃ s', s.step e = some s' := by
  obtain ⟨s', hs', -⟩ := handle_effect h
  exact ⟨s', by rw [step, if_pos h, hs']⟩

end DialogueApp.ChatPlayer
