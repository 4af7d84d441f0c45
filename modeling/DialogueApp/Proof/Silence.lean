import DialogueApp.Proof.ChatToggle
import DialogueApp.Proof.PreviewPlay

/-!
# Closing a screen

The close tap of the chat screen stops the player, but the start timer may still be pending.  The
close tap of the create screen leaves the player alone, and each finish callback starts the next
clip.
-/

namespace DialogueApp

open Runs

variable {sameName : String → String → Bool}

namespace ChatPlayer

/-- Nothing plays, and no clip has been started since `played` was the history. -/
def SilentSince (played : List ℕ) (s : ChatPlayer) : Prop :=
  s.audio.isPlaying = false ∧ s.audio.played = played

/-- The condition on what happens after the close tap: the timer does not fire with a clip that
loads. -/
def TimerStartsNothing (s : ChatPlayer) : Event → Prop
  | .timer loads => loads = false ∨ s.audioUrls.length ≤ s.playNum
  | _ => True

theorem step_closed (s : ChatPlayer) (e : Event) (s' : ChatPlayer) (hclosed : s.closed = true)
    (h : s.step e = some s') : s'.closed = true := by
  cases step_effect h <;> first | exact hclosed | rfl

theorem step_silentSince {played : List ℕ} (s : ChatPlayer) (e : Event) (s' : ChatPlayer)
    (hclosed : s.closed = true) (hs : SilentSince played s) (h : s.step e = some s') :
    SilentSince played s' ↔ s.TimerStartsNothing e := by
  have hnotap : s.closed ≠ false := by simp [hclosed]
  cases step_effect h with
  | timerStarts pulsing hpending hclip =>
    refine iff_of_false (fun hsilent => ?_) ?_
    · cases hsilent.1
    · rintro (hload | hnone)
      · cases hload
      · omega
  | timerFails loads hpending hclip => exact iff_of_true hs hclip
  | tapStops _ _ hopen | tapStarts _ hopen | tapFails _ hopen | closes hopen =>
    exact absurd hopen hnotap
  | nextStarts _ hplays | nextFails _ _ hplays =>
    rw [hs.1] at hplays
    cases hplays

theorem silent_after_close_iff {s s' : ChatPlayer} (h : s.step .didTapCloseButton = some s')
    (es : List Event) :
    EveryState step (SilentSince s'.audio.played) s' es ↔ AllSteps step TimerStartsNothing s' es := by
  have hclosed : s'.closed = true ∧ s'.audio.isPlaying = false := by
    cases step_effect h
    exact ⟨rfl, Playback.isPlaying_stop _⟩
  exact everyState_iff_allSteps step_closed step_silentSince hclosed.1 ⟨hclosed.2, rfl⟩

end ChatPlayer

namespace CreateChatPlayer

/-- Nothing plays, and no clip has been started since `played` was the history. -/
def SilentSince (played : List URL) (s : CreateChatPlayer) : Prop :=
  s.audioPlayer.isPlaying = false ∧ s.audioPlayer.played = played

/-- The event is no start tap. -/
def isNoStart : Event → Bool
  | .didTapStartButton _ => false
  | _ => true

/-- A silent player stays silent until a start tap. -/
theorem step_silentSince {url : URLParser} {played : List URL} {s s' : CreateChatPlayer} {e : Event}
    (hs : SilentSince played s) (he : isNoStart e = true) (h : s.step url sameName e = some s') :
    SilentSince played s' := by
  unfold step at h
  split_ifs at h with hcan
  cases e with
  | screen e =>
    obtain ⟨create, -, rfl⟩ := Option.map_eq_some_iff.1 h
    exact hs
  | didTapStartButton loads => cases he
  | didFinishPlaying loads =>
    have hplays : s.audioPlayer.isPlaying = true := hcan
    rw [hs.1] at hplays
    cases hplays
  | didTapCloseButton | dismissed =>
    obtain rfl := Option.some.inj h
    exact hs

theorem silent_after_close_iff {url : URLParser} {s s' : CreateChatPlayer}
    (h : s.step url sameName .didTapCloseButton = some s') {es : List Event}
    (hes : ∀ e ∈ es, isNoStart e = true) :
    EveryState (step url sameName) (SilentSince s'.audioPlayer.played) s' es ↔
      s.audioPlayer.isPlaying = false := by
  have hsame : s'.audioPlayer = s.audioPlayer := by
    unfold step at h
    split_ifs at h
    obtain rfl := Option.some.inj h
    rfl
  constructor
  · intro hall
    rw [← hsame]
    exact hall.head.1
  · intro hsilent
    refine everyState_of_allSteps (I := SilentSince s'.audioPlayer.played)
      (fun s e s' hs (he : isNoStart e = true) h => step_silentSince hs he h) (fun _ hs => hs) ?_
      (allSteps_of_forall fun e he _ => hes e he)
    exact ⟨by rw [hsame]; exact hsilent, rfl⟩

end CreateChatPlayer

/-- After the close tap of a chat screen, nothing plays and no clip is started exactly when the
timer does not fire with a clip that loads.  After the close tap of the create screen, nothing plays
and no clip is started up to the next start tap exactly when nothing was playing at the close tap. -/
theorem closeSilences_iff (chat : Chat) (audioUrls : List URL) (url : URLParser)
    (sameName : String → String → Bool) :
    (∀ es s s' es',
      run ChatPlayer.step (ChatPlayer.opened chat audioUrls) es = some s →
      s.step .didTapCloseButton = some s' →
      (EveryState ChatPlayer.step (ChatPlayer.SilentSince s'.audio.played) s' es' ↔
        AllSteps ChatPlayer.step ChatPlayer.TimerStartsNothing s' es')) ∧
    ∀ es s s' es',
      run (CreateChatPlayer.step url sameName) CreateChatPlayer.launched es = some s →
      s.step url sameName .didTapCloseButton = some s' →
      (∀ e ∈ es', CreateChatPlayer.isNoStart e = true) →
      (EveryState (CreateChatPlayer.step url sameName)
          (CreateChatPlayer.SilentSince s'.audioPlayer.played) s' es' ↔
        s.audioPlayer.isPlaying = false) :=
  ⟨fun _ _ _ es' _ h => ChatPlayer.silent_after_close_iff h es',
    fun _ _ _ _ _ h hes => CreateChatPlayer.silent_after_close_iff h hes⟩

/-- A chat screen is closed before its timer fires, and the create screen while a clip plays. -/
theorem not_silent_closedEarly :
    (∃ s', (ChatPlayer.opened ChatPlayer.oneLine [⟨"clip"⟩]).step .didTapCloseButton = some s' ∧
      ¬ EveryState ChatPlayer.step (ChatPlayer.SilentSince s'.audio.played) s' [.timer true]) ∧
    ∃ s s', run (CreateChatPlayer.step .nonempty (· == ·)) CreateChatPlayer.launched
        (CreateChatPlayer.pickTwo ++ [.didTapStartButton true]) = some s ∧
      s.step .nonempty (· == ·) .didTapCloseButton = some s' ∧
      ¬ EveryState (CreateChatPlayer.step .nonempty (· == ·))
        (CreateChatPlayer.SilentSince s'.audioPlayer.played) s' [] := by
  constructor
  · refine ⟨_, rfl, fun h => ?_⟩
    have hlast := (h.2 _ rfl).1
    cases hlast
  · refine ⟨_, _, rfl, rfl, fun h => ?_⟩
    have hhead := h.1
    cases hhead

end DialogueApp
