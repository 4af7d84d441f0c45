import DialogueApp.Proof.ChatOrder

/-!
# The start button of the chat screen

A tap flips the flag `isPlaying` and stops where the flag was down.  So the button toggles playback
while the flag is up exactly when nothing plays.  The start timer plays without looking at the flag,
and the last clip ends without raising it.
-/

namespace DialogueApp.ChatPlayer

open Runs

/-- A tap stops what plays, and starts the first clip where nothing plays and the clip loads; the
button shows the square exactly while a clip plays. -/
structure Toggles (s : ChatPlayer) : Prop where
  stops : s.audio.isPlaying = true →
    ∀ loads s', s.step (.didTapStartButton loads) = some s' → s'.audio.isPlaying = false
  starts : s.audio.isPlaying = false → s.audioUrls ≠ [] →
    ∀ s', s.step (.didTapStartButton true) = some s' →
      s'.audio.player = some ⟨0, true⟩ ∧ s'.audio.played = s.audio.played ++ [0]
  image : s.startImage = .square ↔ s.audio.isPlaying = true

/-- The button toggles playback from the firing of the timer on, as long as the screen is open. -/
def TogglesOnceStarted (s : ChatPlayer) : Prop :=
  s.timerPending = false → s.closed = false → s.Toggles

/-- The image and the flag are those of a screen on which a clip plays, or none does. -/
def ButtonAgrees (s : ChatPlayer) (plays : Bool) : Prop :=
  (s.startImage = .square ↔ plays = true) ∧ (s.audioUrls ≠ [] → s.isPlaying = !plays)

/-- The condition under which an event keeps the button in step with playback, from the taps made
before it.  Where there are clips, the timer fires while one plays, or loads its clip after no tap, or
does not load it after an odd number of taps; where there are none, it fires after a tap.  From then on
a tap made while nothing plays loads its clip, and a clip that ends is followed by another one. -/
def KeepsToggle (p : ChatPlayer × ℕ) : Event → Prop
  | .timer loads =>
    p.1.closed = false →
      if p.1.audioUrls = [] then p.2 ≠ 0
      else p.1.audio.isPlaying = true ∨ if loads then p.2 = 0 else Odd p.2
  | .didTapStartButton loads =>
    p.1.timerPending = false →
      p.1.audio.isPlaying = true ∨ loads = true ∨ p.1.audioUrls = []
  | .didFinishPlaying loads =>
    p.1.timerPending = false → p.1.closed = false →
      loads = true ∧ p.1.playNum + 1 < p.1.audioUrls.length
  | .didTapCloseButton => True

/-! ## Before the timer -/

/-- Before the timer fires, the square shows where a clip plays and on the untouched screen, and a
clip that plays has been started by a tap. -/
structure BeforeTimer (s : ChatPlayer) (taps : ℕ) : Prop where
  image : s.closed = false → (s.startImage = .square ↔ s.audio.isPlaying = true ∨ taps = 0)
  started : s.audio.isPlaying = true → s.isPlaying = false ∧ taps ≠ 0

theorem step_beforeTimer {s s' : ChatPlayer} {e : Event} {taps : ℕ} (hs : s.BeforeTimer taps)
    (hflags : s.FlagFollows taps) (h : s.step e = some s') (hpending : s'.timerPending = true) :
    s'.BeforeTimer (countTap e s' taps) := by
  cases step_effect h with
  | timerStarts | timerFails => cases hpending
  | tapStops => exact ⟨fun _ => by simp [countTap], fun hplays => by simp at hplays⟩
  | tapStarts => exact ⟨fun _ => by simp, fun _ => ⟨rfl, Nat.succ_ne_zero taps⟩⟩
  | tapFails loads hopen hflag =>
    -- the flag is up, so nothing plays and there has been a tap
    have hsilent : ¬ s.audio.isPlaying = true := fun hplays => by
      have hdown := (hs.started hplays).1
      rw [hflag] at hdown
      cases hdown
    have htaps : taps ≠ 0 := by
      rintro rfl
      exact absurd (hflags.1 hflag) (by decide)
    refine ⟨fun _ => ?_, fun hplays => absurd hplays hsilent⟩
    simp [hs.image hopen, hsilent, htaps, countTap]
  | nextStarts pulsing hplays =>
    exact ⟨fun hopen => by simp [hs.image hopen, hplays], fun _ => hs.started hplays⟩
  | nextFails loads pulsing hplays =>
    have htaps := (hs.started hplays).2
    exact ⟨fun _ => by simp [countTap, htaps], fun hplays => by simp at hplays⟩
  | closes => exact ⟨fun hopen => Bool.noConfusion hopen, fun hplays => by simp at hplays⟩

/-- Image and flag agree with what the timer leaves playing exactly after the taps of
`KeepsToggle`. -/
theorem BeforeTimer.buttonAgrees_iff {s : ChatPlayer} {taps : ℕ} (hs : s.BeforeTimer taps)
    (hrest : s.AtRest) (hflags : s.FlagFollows taps) (hopen : s.closed = false) (loads : Bool) :
    s.ButtonAgrees (s.audio.isPlaying || (loads && decide (s.playNum < s.audioUrls.length))) ↔
      KeepsToggle (s, taps) (.timer loads) := by
  have himage := hs.image hopen
  simp only [KeepsToggle, hopen, forall_const]
  by_cases hclips : s.audioUrls = []
  · have hsilent : s.audio.isPlaying = false := by
      by_contra hplays
      exact hrest.clips (by simpa using hplays) hclips
    simp [ButtonAgrees, hclips, hsilent, himage]
  · rw [if_neg hclips]
    cases hplays : s.audio.isPlaying with
    | true =>
      obtain ⟨hdown, -⟩ := hs.started hplays
      rw [hplays] at himage
      exact iff_of_true ⟨by simp [himage], fun _ => by simp [hdown]⟩ (Or.inl rfl)
    | false =>
      have hpos : 0 < s.audioUrls.length := List.length_pos_iff.2 hclips
      rw [hplays] at himage
      rw [hrest.index hopen hplays]
      unfold FlagFollows at hflags
      cases loads with
      | true =>
        have heven : taps = 0 → s.isPlaying = false := by
          rintro rfl
          simpa using hflags
        simpa [ButtonAgrees, himage, hclips, hpos] using heven
      | false =>
        have hodd : Odd taps → taps ≠ 0 := by
          rintro hodd rfl
          exact absurd hodd (by decide)
        simpa [ButtonAgrees, himage, hclips, hflags] using hodd

/-! ## The flag and the image -/

theorem AtRest.buttonAgrees_iff {s : ChatPlayer} (hs : s.AtRest) (hopen : s.closed = false) :
    s.Toggles ↔ s.ButtonAgrees s.audio.isPlaying := by
  have hcan : s.canHappen (.didTapStartButton true) = true := by simp [canHappen, hopen]
  constructor
  · intro h
    refine ⟨h.image, fun hclips => ?_⟩
    obtain ⟨s', hs'⟩ := exists_step hcan
    have hpos : 0 < s.audioUrls.length := List.length_pos_iff.2 hclips
    cases hplays : s.audio.isPlaying with
    | true =>
      have hsilent := h.stops hplays true s' hs'
      cases step_effect hs' with
      | tapStops _ _ _ hflag => exact hflag
      | tapStarts => simp at hsilent
      | tapFails => exact absurd (hplays.symm.trans hsilent) (by decide)
    | false =>
      have hstarted := (h.starts hplays hclips s' hs').2
      cases step_effect hs' with
      | tapStops => simp at hstarted
      | tapStarts _ _ hflag => exact hflag
      | tapFails => simp at hstarted
  · rintro ⟨himage, hflag⟩
    refine ⟨fun hplays loads s' hs' => ?_, fun hsilent hclips s' hs' => ?_, himage⟩
    · have hdown := hflag (hs.clips hplays)
      rw [hplays] at hdown
      cases step_effect hs' with
      | tapStops => exact Playback.isPlaying_stop _
      | tapStarts _ _ hup => exact absurd (hdown.symm.trans hup) (by decide)
      | tapFails _ _ hup => exact absurd (hdown.symm.trans hup) (by decide)
    · have hup := hflag hclips
      rw [hsilent] at hup
      have hzero := hs.index hopen hsilent
      have hpos : 0 < s.audioUrls.length := List.length_pos_iff.2 hclips
      cases step_effect hs' with
      | tapStops _ _ _ hdown => exact absurd (hup.symm.trans hdown) (by decide)
      | tapStarts =>
        rw [hzero]
        exact ⟨rfl, rfl⟩
      | tapFails _ _ _ hclip => simp at hclip; omega

/-- A tap that starts nothing leaves the button in step where something plays or there are no
clips. -/
theorem AtRest.tapFails_buttonAgrees_iff {s : ChatPlayer} {loads : Bool} (hs : s.AtRest)
    (hopen : s.closed = false) (hflag : s.isPlaying = true)
    (hclip : loads = false ∨ s.audioUrls.length ≤ s.playNum)
    (hbefore : s.ButtonAgrees s.audio.isPlaying) :
    { s with isPlaying := false : ChatPlayer }.ButtonAgrees s.audio.isPlaying ↔
      s.audio.isPlaying = true ∨ loads = true ∨ s.audioUrls = [] := by
  obtain ⟨himage, hagree⟩ := hbefore
  by_cases hclips : s.audioUrls = []
  · exact iff_of_true ⟨himage, fun h => absurd hclips h⟩ (Or.inr (Or.inr hclips))
  · have hsilent : s.audio.isPlaying = false := by
      have := hagree hclips
      rw [hflag] at this
      simpa using this
    have hloads : loads = false := by
      have hpos : 0 < s.audioUrls.length := List.length_pos_iff.2 hclips
      have hzero := hs.index hopen hsilent
      rcases hclip with hload | hclip
      · exact hload
      · omega
    refine iff_of_false (fun h => ?_) ?_
    · have := h.2 hclips
      simp [hsilent] at this
    · simp [hsilent, hloads, hclips]

/-- What holds of the screen and the number of taps so far. -/
structure Tapped (s : ChatPlayer) (taps : ℕ) : Prop where
  rest : s.AtRest
  flag : s.FlagFollows taps
  before : s.timerPending = true → s.BeforeTimer taps

theorem tapped_opened (chat : Chat) (audioUrls : List URL) : (opened chat audioUrls).Tapped 0 where
  rest := atRest_opened chat audioUrls
  flag := by simp [FlagFollows, opened]
  before _ := ⟨fun _ => by simp [opened], nofun⟩

theorem step_timerPending {s s' : ChatPlayer} {e : Event} (h : s.step e = some s')
    (hpending : s'.timerPending = true) : s.timerPending = true := by
  cases step_effect h with
  | timerStarts _ hbefore | timerFails _ hbefore => exact hbefore
  | tapStops | tapStarts | tapFails | nextStarts | nextFails | closes => exact hpending

theorem step_tapped {s s' : ChatPlayer} {e : Event} {taps : ℕ} (hs : s.Tapped taps)
    (h : s.step e = some s') : s'.Tapped (countTap e s' taps) where
  rest := step_atRest s e s' hs.rest h
  flag := step_flagFollows hs.flag h
  before hpending :=
    step_beforeTimer (hs.before (step_timerPending h hpending)) hs.flag h hpending

theorem step_toggles {s s' : ChatPlayer} {e : Event} {taps : ℕ} (hs : s.Tapped taps)
    (htoggles : s.TogglesOnceStarted) (h : s.step e = some s') :
    s'.TogglesOnceStarted ↔ KeepsToggle (s, taps) e := by
  have hs' := step_atRest s e s' hs.rest h
  -- once the timer has fired on an open screen, the property is one of image, flag and player
  have hiff : s'.TogglesOnceStarted ↔
      (s'.timerPending = false → s'.closed = false → s'.ButtonAgrees s'.audio.isPlaying) :=
    forall_congr' fun _ => forall_congr' fun hopen => hs'.buttonAgrees_iff hopen
  have hbefore : s.timerPending = false → s.closed = false → s.ButtonAgrees s.audio.isPlaying :=
    fun htimer hopen => (hs.rest.buttonAgrees_iff hopen).1 (htoggles htimer hopen)
  -- what the timer leaves is compared with what it finds
  have htimer : ∀ loads, s.timerPending = true →
      ((s.closed = false → s.ButtonAgrees
        (s.audio.isPlaying || (loads && decide (s.playNum < s.audioUrls.length)))) ↔
        KeepsToggle (s, taps) (.timer loads)) := by
    intro loads hpending
    have hagrees := fun hopen : s.closed = false =>
      (hs.before hpending).buttonAgrees_iff hs.rest hs.flag hopen loads
    exact ⟨fun hbutton hopen => (hagrees hopen).1 (hbutton hopen) hopen,
      fun hkeeps hopen => (hagrees hopen).2 hkeeps⟩
  rw [hiff]
  cases step_effect h with
  | timerStarts pulsing hpending hclip =>
    rw [← htimer true hpending]
    simp [ButtonAgrees, hclip]
  | timerFails loads hpending hclip =>
    have hno : (loads && decide (s.playNum < s.audioUrls.length)) = false := by
      rcases hclip with rfl | hclip
      · rfl
      · simp [hclip]
    rw [← htimer loads hpending]
    simp [ButtonAgrees, hno]
  | tapStops loads pulsing hopen hflag =>
    refine iff_of_true (fun _ _ => by simp [ButtonAgrees]) fun htimer => ?_
    by_cases hclips : s.audioUrls = []
    · exact Or.inr (Or.inr hclips)
    · have := (hbefore htimer hopen).2 hclips
      rw [hflag] at this
      exact Or.inl (by simpa using this)
  | tapStarts pulsing hopen hflag hclip =>
    exact iff_of_true (fun _ _ => by simp [ButtonAgrees]) fun _ => Or.inr (Or.inl rfl)
  | tapFails loads hopen hflag hclip =>
    refine forall_congr' fun htimer => ?_
    rw [← hs.rest.tapFails_buttonAgrees_iff hopen hflag hclip (hbefore htimer hopen)]
    exact forall_prop_of_true hopen
  | nextStarts pulsing hplays hclip =>
    refine iff_of_true (fun htimer hopen => ?_) fun _ _ => ⟨rfl, hclip⟩
    obtain ⟨himage, hagree⟩ := hbefore htimer hopen
    rw [hplays] at himage hagree
    exact ⟨himage, hagree⟩
  | nextFails loads pulsing hplays hclip =>
    refine forall_congr' fun htimer => forall_congr' fun hopen => iff_of_false ?_ ?_
    · intro h
      have hup := h.2 (hs.rest.clips hplays)
      have hdown := (hbefore htimer hopen).2 (hs.rest.clips hplays)
      rw [hplays] at hdown
      simp [hdown] at hup
    · rintro ⟨rfl, hlt⟩
      exact hclip.elim nofun fun hlast => absurd hlt (Nat.not_lt.2 hlast)
  | closes => exact iff_of_true (fun _ hopen => nomatch hopen) trivial

/-- In every run, the button toggles playback in every state exactly when every event meets
`KeepsToggle`. -/
theorem toggles_iff (chat : Chat) (audioUrls : List URL) (es : List Event) :
    EveryState step TogglesOnceStarted (opened chat audioUrls) es ↔
      AllSteps stepCounting KeepsToggle (opened chat audioUrls, 0) es := by
  have hplain :
      EveryState stepCounting (fun p => p.1.TogglesOnceStarted) (opened chat audioUrls, 0) es ↔
        EveryState step TogglesOnceStarted (opened chat audioUrls) es := everyState_withHistory
  refine hplain.symm.trans (everyState_iff_allSteps (I := fun p => p.1.Tapped p.2) ?_ ?_
    (tapped_opened chat audioUrls) nofun)
  · rintro ⟨s, taps⟩ e ⟨s', taps'⟩ hs h
    obtain ⟨hstep, htaps⟩ := withHistory_eq_some.1 h
    exact htaps ▸ step_tapped hs hstep
  · rintro ⟨s, taps⟩ e ⟨s', taps'⟩ hs htoggles h
    exact step_toggles hs htoggles (withHistory_eq_some.1 h).1

/-- The chat of a conversation with one line. -/
def oneLine : Chat where
  conversation := ⟨["clip"], ["image"], ["image"], ["Hello"], "title", 0, "pink"⟩
  color := ⟨.pink, .pink⟩

/-- The only clip plays to its end. -/
theorem not_toggles_playedToItsEnd :
    ¬ EveryState step TogglesOnceStarted (opened oneLine [⟨"clip"⟩])
      [.timer true, .didFinishPlaying true] := by
  intro h
  have hlast := ((h.2 _ rfl).2 _ rfl) rfl rfl
  have hstarts := (hlast.starts rfl (by decide) _ rfl).1
  revert hstarts
  decide

end DialogueApp.ChatPlayer
