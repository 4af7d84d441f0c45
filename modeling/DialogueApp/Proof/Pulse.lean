import DialogueApp.Proof.ChatOrder

/-!
# The pulse of the chat screen

A handler starts and stops the pulse at the index it holds at that moment.  A finish callback moves
the pulse to the next row before it knows whether the next clip loads; where it does not, the index
goes back to the first row and the pulse stays.  A close stops the clip and leaves the pulse.
-/

namespace DialogueApp.ChatPlayer

open Runs

/-- At most one row pulses, only while a clip plays, and it is the row of that clip. -/
structure PulseMarksTheLine (s : ChatPlayer) : Prop where
  atMostOne : ∀ i ∈ s.pulsing, ∀ j ∈ s.pulsing, i = j
  playing : s.pulsing ≠ [] → s.audio.isPlaying = true
  line : ∀ item ∈ s.pulsing, s.audio.loaded = some item

/-- The condition under which an event keeps the pulse on the line: after a clip that ends the next
one loads, or there is no next row; and the screen is not closed while the clip of a row plays. -/
def KeepsPulse (s : ChatPlayer) : Event → Prop
  | .didFinishPlaying loads =>
    (loads = true ∧ s.playNum + 1 < s.audioUrls.length) ∨ s.hasCell (s.playNum + 1) = false
  | .didTapCloseButton => s.audio.isPlaying = false ∨ s.hasCell s.playNum = false
  | _ => True

/-! ## What an event does to the pulse -/

/-- The pulsing rows with the one at `item` started. -/
def pulsingWith (s : ChatPlayer) (item : ℕ) (pulsing : List ℕ) : List ℕ :=
  if s.hasCell item then pulsing.insert item else pulsing

/-- The pulsing rows with the one at `item` stopped. -/
def pulsingWithout (s : ChatPlayer) (item : ℕ) (pulsing : List ℕ) : List ℕ :=
  if s.hasCell item then pulsing.filter (· ≠ item) else pulsing

theorem startPulseAnimation_pulsing (s : ChatPlayer) :
    s.startPulseAnimation = { s with pulsing := s.pulsingWith s.playNum s.pulsing } := by
  unfold startPulseAnimation pulsingWith
  split_ifs <;> rfl

theorem stopPulseAnimation_pulsing (s : ChatPlayer) :
    s.stopPulseAnimation = { s with pulsing := s.pulsingWithout s.playNum s.pulsing } := by
  unfold stopPulseAnimation pulsingWithout
  split_ifs <;> rfl

/-- The pulsing rows after an event. -/
def pulsingAfter (s : ChatPlayer) : Event → List ℕ
  | .timer loads =>
    if loads = true ∧ s.playNum < s.audioUrls.length then s.pulsingWith s.playNum s.pulsing
    else s.pulsing
  | .didTapStartButton loads =>
    if s.isPlaying = false then s.pulsingWithout s.playNum s.pulsing
    else if loads = true ∧ s.playNum < s.audioUrls.length then s.pulsingWith s.playNum s.pulsing
    else s.pulsing
  | .didFinishPlaying _ => s.pulsingWith (s.playNum + 1) (s.pulsingWithout s.playNum s.pulsing)
  | .didTapCloseButton => s.pulsing

/-- A load that succeeds is not one that fails. -/
theorem not_loads {loads : Bool} {num count : ℕ} (h : loads = false ∨ count ≤ num) :
    ¬ (loads = true ∧ num < count) := by
  rintro ⟨rfl, hlt⟩
  rcases h with hno | hle
  · cases hno
  · omega

theorem handle_pulsing {s s' : ChatPlayer} {e : Event} (h : s.handle e = some s') :
    s'.pulsing = s.pulsingAfter e := by
  cases e with
  | timer loads =>
    simp only [handle, timerFired, startPulseAnimation_pulsing] at h
    rcases loads_cases loads s.playNum s.audioUrls.length with ⟨rfl, hclip⟩ | hclip
    · rw [prepareAudio_ok { s with timerPending := false } hclip] at h
      obtain rfl := Option.some.inj h
      rw [pulsingAfter, if_pos ⟨rfl, hclip⟩]
      rfl
    · rw [prepareAudio_fails { s with timerPending := false } hclip] at h
      obtain rfl := Option.some.inj h
      rw [pulsingAfter, if_neg (not_loads hclip)]
  | didTapStartButton loads =>
    simp only [handle, didTapStartButton, startPulseAnimation_pulsing,
      stopPulseAnimation_pulsing] at h
    cases hflag : s.isPlaying with
    | false =>
      rw [hflag, Bool.not_false, if_pos rfl] at h
      obtain rfl := Option.some.inj h
      rw [pulsingAfter, if_pos hflag]
      rfl
    | true =>
      rw [hflag, Bool.not_true, if_neg Bool.false_ne_true] at h
      have hup : ¬ s.isPlaying = false := by simp [hflag]
      rcases loads_cases loads s.playNum s.audioUrls.length with ⟨rfl, hclip⟩ | hclip
      · rw [prepareAudio_ok { s with isPlaying := false } hclip] at h
        obtain rfl := Option.some.inj h
        rw [pulsingAfter, if_neg hup, if_pos ⟨rfl, hclip⟩]
        rfl
      · rw [prepareAudio_fails { s with isPlaying := false } hclip] at h
        obtain rfl := Option.some.inj h
        rw [pulsingAfter, if_neg hup, if_neg (not_loads hclip)]
  | didFinishPlaying loads =>
    simp only [handle, audioPlayerDidFinishPlaying, startPulseAnimation_pulsing,
      stopPulseAnimation_pulsing] at h
    rcases loads_cases loads (s.playNum + 1) s.audioUrls.length with ⟨rfl, hclip⟩ | hclip
    · rw [prepareAudio_ok _ hclip] at h
      obtain rfl := Option.some.inj h
      rfl
    · rw [prepareAudio_fails _ hclip] at h
      obtain rfl := Option.some.inj h
      rfl
  | didTapCloseButton =>
    obtain rfl := Option.some.inj h
    rfl

theorem step_pulsing {s s' : ChatPlayer} {e : Event} (h : s.step e = some s') :
    s'.pulsing = s.pulsingAfter e := by
  unfold step at h
  split_ifs at h
  exact handle_pulsing h

/-! ## The pulse and the player -/

theorem mem_pulsingWith {s : ChatPlayer} {item k : ℕ} {pulsing : List ℕ} :
    k ∈ s.pulsingWith item pulsing ↔ (s.hasCell item = true ∧ k = item) ∨ k ∈ pulsing := by
  unfold pulsingWith
  split_ifs with hcell <;> simp [hcell]

theorem mem_pulsingWithout {s : ChatPlayer} {item k : ℕ} {pulsing : List ℕ} :
    k ∈ s.pulsingWithout item pulsing ↔ k ∈ pulsing ∧ (s.hasCell item = true → k ≠ item) := by
  unfold pulsingWithout
  split_ifs with hcell <;> simp [hcell]

/-- The index is that of the clip that plays, whose row pulses; only rows pulse. -/
structure PulseInvariant (s : ChatPlayer) : Prop where
  order : s.InOrder
  marked : s.audio.isPlaying = true → s.hasCell s.playNum = true → s.playNum ∈ s.pulsing
  rows : ∀ item ∈ s.pulsing, s.hasCell item = true

theorem pulseInvariant_opened (chat : Chat) (audioUrls : List URL) :
    (opened chat audioUrls).PulseInvariant :=
  ⟨inOrder_opened chat audioUrls, nofun, nofun⟩

/-- Starting the pulse at an index keeps the pulse to rows. -/
theorem hasCell_of_mem_pulsingWith {s : ChatPlayer} {item k : ℕ} {pulsing : List ℕ}
    (hrows : ∀ j ∈ pulsing, s.hasCell j = true) (h : k ∈ s.pulsingWith item pulsing) :
    s.hasCell k = true := by
  rcases mem_pulsingWith.1 h with ⟨hcell, rfl⟩ | hold
  · exact hcell
  · exact hrows k hold

/-- A clip has just been started, and with it the pulse of its row. -/
theorem PulseInvariant.of_started {s s' : ChatPlayer} {pulsing : List ℕ} (horder : s'.InOrder)
    (hcells : ∀ item, s'.hasCell item = s.hasCell item)
    (hpulse : s'.pulsing = s.pulsingWith s'.playNum pulsing)
    (hrows : ∀ j ∈ pulsing, s.hasCell j = true) : s'.PulseInvariant := by
  refine ⟨horder, fun _ hcell => ?_, fun k hk => ?_⟩
  · rw [hpulse]
    rw [hcells] at hcell
    exact mem_pulsingWith.2 (Or.inl ⟨hcell, rfl⟩)
  · rw [hpulse] at hk
    rw [hcells]
    exact hasCell_of_mem_pulsingWith hrows hk

theorem step_pulseInvariant (s : ChatPlayer) (e : Event) (s' : ChatPlayer)
    (hs : s.PulseInvariant) (h : s.step e = some s') : s'.PulseInvariant := by
  have horder := step_inOrder s e s' hs.order h
  have hpulse := step_pulsing h
  have hstopped : ∀ k ∈ s.pulsingWithout s.playNum s.pulsing, s.hasCell k = true :=
    fun k hk => hs.rows k (mem_pulsingWithout.1 hk).1
  cases step_effect h with
  | timerStarts pulsing _ hclip =>
    rw [pulsingAfter, if_pos ⟨rfl, hclip⟩] at hpulse
    exact .of_started horder (fun _ => rfl) hpulse hs.rows
  | tapStarts pulsing _ hflag hclip =>
    rw [pulsingAfter, if_neg (by simp [hflag]), if_pos ⟨rfl, hclip⟩] at hpulse
    exact .of_started horder (fun _ => rfl) hpulse hs.rows
  | nextStarts pulsing => exact .of_started horder (fun _ => rfl) hpulse hstopped
  | timerFails | tapFails => exact ⟨horder, hs.marked, hs.rows⟩
  | tapStops loads pulsing _ hflag =>
    rw [pulsingAfter, if_pos hflag] at hpulse
    obtain rfl : pulsing = _ := hpulse
    exact ⟨horder, fun hplays => by simp at hplays, hstopped⟩
  | nextFails loads pulsing =>
    obtain rfl : pulsing = _ := hpulse
    exact ⟨horder, fun hplays => by simp at hplays,
      fun k hk => hasCell_of_mem_pulsingWith hstopped hk⟩
  | closes => exact ⟨horder, fun hplays => by simp at hplays, hs.rows⟩

/-- Where the index is that of the clip that plays, the pulse marks the line when it is at the
index. -/
theorem PulseInvariant.marksTheLine_iff {s : ChatPlayer} (hs : s.PulseInvariant) :
    s.PulseMarksTheLine ↔ ∀ k ∈ s.pulsing, s.audio.isPlaying = true ∧ k = s.playNum := by
  constructor
  · intro h k hk
    have hplays := h.playing (List.ne_nil_of_mem hk)
    have hloaded := (hs.order.playing hplays).symm.trans (h.line k hk)
    exact ⟨hplays, (Option.some.inj hloaded).symm⟩
  · intro h
    refine ⟨fun i hi j hj => (h i hi).2.trans (h j hj).2.symm, fun hne => ?_, fun k hk => ?_⟩
    · obtain ⟨k, hk⟩ := List.exists_mem_of_ne_nil _ hne
      exact (h k hk).1
    · obtain ⟨hplays, rfl⟩ := h k hk
      exact hs.order.playing hplays

/-- A pulse that marks the line is stopped by stopping the row of the index. -/
theorem PulseInvariant.not_mem_pulsingWithout {s : ChatPlayer} (hs : s.PulseInvariant)
    (hmarks : s.PulseMarksTheLine) (k : ℕ) : k ∉ s.pulsingWithout s.playNum s.pulsing := by
  intro hk
  obtain ⟨hmem, hother⟩ := mem_pulsingWithout.1 hk
  obtain ⟨-, rfl⟩ := hs.marksTheLine_iff.1 hmarks k hmem
  exact hother (hs.rows _ hmem) rfl

theorem step_marksTheLine (s : ChatPlayer) (e : Event) (s' : ChatPlayer) (hs : s.PulseInvariant)
    (hmarks : s.PulseMarksTheLine) (h : s.step e = some s') :
    s'.PulseMarksTheLine ↔ s.KeepsPulse e := by
  have hbefore := hs.marksTheLine_iff.1 hmarks
  have hstopped := hs.not_mem_pulsingWithout hmarks
  have hpulse := step_pulsing h
  -- starting the pulse at the index leaves it there
  have hatIndex : ∀ k ∈ s.pulsingWith s.playNum s.pulsing, k = s.playNum :=
    fun k hk => (mem_pulsingWith.1 hk).elim And.right fun hold => (hbefore k hold).2
  rw [(step_pulseInvariant s e s' hs h).marksTheLine_iff]
  cases step_effect h with
  | timerStarts pulsing _ hclip =>
    rw [pulsingAfter, if_pos ⟨rfl, hclip⟩] at hpulse
    exact iff_of_true (fun k hk => ⟨rfl, hatIndex k (hpulse ▸ hk)⟩) trivial
  | tapStarts pulsing _ hflag hclip =>
    rw [pulsingAfter, if_neg (by simp [hflag]), if_pos ⟨rfl, hclip⟩] at hpulse
    exact iff_of_true (fun k hk => ⟨rfl, hatIndex k (hpulse ▸ hk)⟩) trivial
  | timerFails | tapFails => exact iff_of_true hbefore trivial
  | tapStops loads pulsing _ hflag =>
    rw [pulsingAfter, if_pos hflag] at hpulse
    obtain rfl : pulsing = _ := hpulse
    exact iff_of_true (fun k hk => absurd hk (hstopped k)) trivial
  | nextStarts pulsing _ hclip =>
    obtain rfl : pulsing = _ := hpulse
    refine iff_of_true (fun k hk => ⟨rfl, ?_⟩) (Or.inl ⟨rfl, hclip⟩)
    exact (mem_pulsingWith.1 hk).elim And.right fun hold => absurd hold (hstopped k)
  | nextFails loads pulsing _ hclip =>
    obtain rfl : pulsing = _ := hpulse
    -- the next row pulses and nothing plays
    rw [KeepsPulse, or_iff_right (not_loads hclip)]
    constructor
    · intro hafter
      by_contra hcell
      have hplays := (hafter (s.playNum + 1)
        (mem_pulsingWith.2 (Or.inl ⟨Bool.not_eq_false _ ▸ hcell, rfl⟩))).1
      simp at hplays
    · intro hcell k hk
      rcases mem_pulsingWith.1 hk with ⟨hnext, -⟩ | hold
      · rw [hcell] at hnext
        cases hnext
      · exact absurd hold (hstopped k)
  | closes =>
    constructor
    · intro hafter
      by_contra hno
      simp only [KeepsPulse, not_or, Bool.not_eq_false] at hno
      have hplays := (hafter s.playNum (hs.marked hno.1 hno.2)).1
      simp at hplays
    · rintro hno k hk
      obtain ⟨hplays, rfl⟩ := hbefore k hk
      rcases hno with hsilent | hcell
      · rw [hplays] at hsilent
        cases hsilent
      · rw [hs.rows _ hk] at hcell
        cases hcell

/-- In every run, the pulse marks the line in every state exactly when every event meets
`KeepsPulse`. -/
theorem pulseMarksTheLine_iff (chat : Chat) (audioUrls : List URL) (es : List Event) :
    EveryState step PulseMarksTheLine (opened chat audioUrls) es ↔
      AllSteps step KeepsPulse (opened chat audioUrls) es :=
  everyState_iff_allSteps step_pulseInvariant step_marksTheLine
    (pulseInvariant_opened chat audioUrls) ⟨nofun, nofun, nofun⟩

/-- The first clip ends and the second one does not load: its row pulses on in silence. -/
theorem not_pulseMarksTheLine_twoLines :
    ¬ EveryState step PulseMarksTheLine (opened twoLines [⟨"first"⟩, ⟨"second"⟩])
      [.timer true, .didFinishPlaying false] := by
  intro h
  have hplays := ((h.2 _ rfl).2 _ rfl).playing (by decide)
  cases hplays

end DialogueApp.ChatPlayer
