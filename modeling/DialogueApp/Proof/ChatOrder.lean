import DialogueApp.Proof.ChatSteps
import Mathlib.Data.List.Range
import Mathlib.Algebra.Ring.Parity

/-!
# The order of the clips on the chat screen

The index, the loaded clip and the player agree in every state: an index other than 0 is that of the
loaded clip, and so is the index while a clip plays.  So a clip is started from the beginning of the
list, again, or right after the one before it.  It is started again by the timer, or by a tap that
finds the flag `isPlaying` up although a clip plays.  Left alone, the screen plays the whole list.
-/

namespace DialogueApp.ChatPlayer

open Runs

/-- The index agrees with the player. -/
structure InOrder (s : ChatPlayer) : Prop where
  loaded : s.playNum = 0 ∨ s.audio.loaded = some s.playNum
  playing : s.audio.isPlaying = true → s.audio.loaded = some s.playNum

/-- On an open screen the index is back at the first clip when nothing plays, and what plays is a
clip of the list. -/
structure AtRest (s : ChatPlayer) : Prop where
  index : s.closed = false → s.audio.isPlaying = false → s.playNum = 0
  bound : s.audio.isPlaying = true → s.playNum < s.audioUrls.length

theorem inOrder_opened (chat : Chat) (audioUrls : List URL) : (opened chat audioUrls).InOrder :=
  ⟨Or.inl rfl, nofun⟩

theorem atRest_opened (chat : Chat) (audioUrls : List URL) : (opened chat audioUrls).AtRest :=
  ⟨fun _ _ => rfl, nofun⟩

theorem step_inOrder (s : ChatPlayer) (e : Event) (s' : ChatPlayer) (hs : s.InOrder)
    (h : s.step e = some s') : s'.InOrder := by
  cases step_effect h with
  | timerStarts | tapStarts | nextStarts => exact ⟨Or.inr rfl, fun _ => rfl⟩
  | timerFails | tapFails => exact ⟨hs.loaded, hs.playing⟩
  | tapStops | nextFails => exact ⟨Or.inl rfl, fun hplays => by simp at hplays⟩
  | closes =>
    refine ⟨?_, fun hplays => by simp at hplays⟩
    rw [Playback.loaded_stop]
    exact hs.loaded

theorem step_atRest (s : ChatPlayer) (e : Event) (s' : ChatPlayer) (hs : s.AtRest)
    (h : s.step e = some s') : s'.AtRest := by
  cases step_effect h with
  | timerStarts pulsing _ hclip | tapStarts pulsing _ _ hclip | nextStarts pulsing _ hclip =>
    exact ⟨fun _ hsilent => by simp at hsilent, fun _ => hclip⟩
  | timerFails | tapFails => exact ⟨hs.index, hs.bound⟩
  | tapStops | nextFails => exact ⟨fun _ _ => rfl, fun hplays => by simp at hplays⟩
  | closes => exact ⟨nofun, fun hplays => by simp at hplays⟩

theorem AtRest.clips {s : ChatPlayer} (hs : s.AtRest) (hplays : s.audio.isPlaying = true) :
    s.audioUrls ≠ [] :=
  List.ne_nil_of_length_pos (Nat.zero_lt_of_lt (hs.bound hplays))

theorem step_audioUrls (s : ChatPlayer) (e : Event) (s' : ChatPlayer)
    (h : s.step e = some s') : s'.audioUrls = s.audioUrls := by
  cases step_effect h <;> rfl

/-! ## The taps so far -/

/-- The number of taps on the start button, where it was `n` before the event. -/
def countTap : Event → ChatPlayer → ℕ → ℕ
  | .didTapStartButton _, _, n => n + 1
  | _, _, n => n

/-- The screen with the number of taps on its start button so far. -/
def stepCounting : ChatPlayer × ℕ → Event → Option (ChatPlayer × ℕ) :=
  withHistory step countTap

/-- The flag tells whether the number of taps so far is odd. -/
def FlagFollows (s : ChatPlayer) (taps : ℕ) : Prop := s.isPlaying = true ↔ Odd taps

theorem step_flagFollows {s s' : ChatPlayer} {e : Event} {taps : ℕ} (hs : s.FlagFollows taps)
    (h : s.step e = some s') : s'.FlagFollows (countTap e s' taps) := by
  unfold FlagFollows at hs ⊢
  cases step_effect h with
  | tapStops loads pulsing _ hflag => simp [countTap, Nat.odd_add_one, ← hs, hflag]
  | tapStarts pulsing _ hflag _ => simp [countTap, Nat.odd_add_one, ← hs, hflag]
  | tapFails loads _ hflag _ => simp [countTap, Nat.odd_add_one, ← hs, hflag]
  | timerStarts | timerFails | nextStarts | nextFails | closes => exact hs

/-! ## Starts of clips -/

/-- The clip `k` may be started by the event: it is the first of the list, or the loaded one where
the timer fires, or the one after the clip that has just come to its end. -/
def MayStart (s : ChatPlayer) (e : Event) (k : ℕ) : Prop :=
  k = 0 ∨
    (s.audio.loaded = some k ∧ e = .timer true) ∨
    ∃ j, s.audio.isPlaying = true ∧ s.audio.loaded = some j ∧ e = .didFinishPlaying true ∧ k = j + 1

/-- Every event that can happen is handled without a trap. -/
def NeverTraps (s : ChatPlayer) : Prop :=
  ∀ e, s.canHappen e = true → ∃ s', s.handle e = some s'

/-- The event starts no clip, or one of the list that it may start. -/
def StartsInOrder (s : ChatPlayer) (e : Event) : Prop :=
  ∀ s', s.step e = some s' →
    s'.audio.played = s.audio.played ∨
      ∃ k < s.audioUrls.length, s'.audio.played = s.audio.played ++ [k] ∧ s.MayStart e k

/-- The condition under which an event starts clips in order: no tap that follows an odd number of
taps loads its clip while a clip other than the first one plays. -/
def KeepsOrder (p : ChatPlayer × ℕ) : Event → Prop
  | .didTapStartButton loads =>
    Odd p.2 → loads = true → p.1.audio.isPlaying = true → p.1.audio.loaded = some 0
  | _ => True

theorem neverTraps (s : ChatPlayer) : s.NeverTraps := by
  intro e he
  obtain ⟨s', hs', -⟩ := handle_effect he
  exact ⟨s', hs'⟩

/-- A tap that starts the clip of the index starts it in order where the index is 0. -/
theorem tapStarts_inOrder_iff {s s' : ChatPlayer} (h : s.step (.didTapStartButton true) = some s')
    (hclip : s.playNum < s.audioUrls.length)
    (hplayed : s'.audio.played = s.audio.played ++ [s.playNum]) :
    s.StartsInOrder (.didTapStartButton true) ↔ s.playNum = 0 := by
  constructor
  · intro horder
    rcases horder s' h with hsame | ⟨k, -, hk, hmay⟩
    · simp [hplayed] at hsame
    · obtain rfl : s.playNum = k := by simpa [hplayed] using hk
      obtain hzero | ⟨-, htimer⟩ | ⟨j, -, -, hfinish, -⟩ := hmay
      · exact hzero
      · cases htimer
      · cases hfinish
  · intro hzero t ht
    obtain rfl : s' = t := Option.some.inj (h.symm.trans ht)
    exact Or.inr ⟨s.playNum, hclip, hplayed, Or.inl hzero⟩

theorem startsInOrder_iff {s s' : ChatPlayer} {e : Event} {taps : ℕ} (hs : s.InOrder)
    (hrest : s.AtRest) (hflags : s.FlagFollows taps) (h : s.step e = some s') :
    s.StartsInOrder e ↔ KeepsOrder (s, taps) e := by
  -- what an event that starts no clip needs, and one that may start its clip
  have hnone : s'.audio.played = s.audio.played → s.StartsInOrder e := fun hsame t ht =>
    Option.some.inj (h.symm.trans ht) ▸ Or.inl hsame
  have hmay : ∀ k < s.audioUrls.length, s'.audio.played = s.audio.played ++ [k] →
      s.MayStart e k → s.StartsInOrder e := fun k hk hplayed hstart t ht =>
    Option.some.inj (h.symm.trans ht) ▸ Or.inr ⟨k, hk, hplayed, hstart⟩
  cases step_effect h with
  | timerStarts pulsing _ hclip =>
    refine iff_of_true (hmay s.playNum hclip rfl ?_) trivial
    rcases hs.loaded with hzero | hloaded
    · exact Or.inl hzero
    · exact Or.inr (Or.inl ⟨hloaded, rfl⟩)
  | nextStarts pulsing hplays hclip =>
    refine iff_of_true (hmay (s.playNum + 1) hclip rfl (Or.inr (Or.inr ?_))) trivial
    exact ⟨s.playNum, hplays, hs.playing hplays, rfl, rfl⟩
  | timerFails | nextFails | closes => exact iff_of_true (hnone rfl) trivial
  | tapStops loads pulsing _ hflag =>
    refine iff_of_true (hnone rfl) fun hodd => ?_
    rw [hflags.2 hodd] at hflag
    cases hflag
  | tapFails loads _ hflag hclip =>
    refine iff_of_true (hnone rfl) fun _ hloads hplays => ?_
    rcases hclip with hfails | hout
    · rw [hloads] at hfails
      cases hfails
    · exact absurd (hrest.bound hplays) (Nat.not_lt.2 hout)
  | tapStarts pulsing hopen hflag hclip =>
    rw [tapStarts_inOrder_iff h hclip rfl]
    constructor
    · intro hzero _ _ hplays
      exact hzero ▸ hs.playing hplays
    · intro hkeeps
      cases hplays : s.audio.isPlaying with
      | false => exact hrest.index hopen hplays
      | true =>
        have hfirst := hkeeps (hflags.1 hflag) rfl hplays
        exact Option.some.inj ((hs.playing hplays).symm.trans hfirst)

/-! ## The screen left alone -/

/-- Nothing is tapped and no load fails. -/
def undisturbed : Event → Bool
  | .timer loads => loads
  | .didFinishPlaying loads => loads
  | _ => false

/-- How far the list has been played. -/
structure PlayedSoFar (s : ChatPlayer) : Prop where
  pending : s.timerPending = true →
    s.audio.played = [] ∧ s.playNum = 0 ∧ s.audio.isPlaying = false
  playing : s.audio.isPlaying = true →
    s.audio.played = List.range (s.playNum + 1) ∧ s.playNum < s.audioUrls.length
  silent : s.timerPending = false → s.audio.isPlaying = false →
    s.audio.played = List.range s.audioUrls.length ∧ s.playNum = 0

theorem step_playedSoFar {s s' : ChatPlayer} {e : Event} (hs : s.PlayedSoFar)
    (he : undisturbed e = true) (h : s.step e = some s') : s'.PlayedSoFar := by
  cases step_effect h with
  | timerStarts pulsing hpending hclip =>
    obtain ⟨hplayed, hzero, -⟩ := hs.pending hpending
    refine ⟨nofun, fun _ => ⟨?_, hclip⟩, fun _ hsilent => by simp at hsilent⟩
    rw [Playback.played_play_load, hplayed, hzero]
    rfl
  | timerFails loads hpending hclip =>
    obtain ⟨hplayed, hzero, hsilent⟩ := hs.pending hpending
    obtain rfl : loads = true := he
    refine ⟨nofun, fun hplays => ?_, fun _ _ => ⟨?_, hzero⟩⟩
    · rw [hsilent] at hplays
      cases hplays
    · have hnone : s.audioUrls.length = 0 := by simpa [hzero] using hclip
      rw [hplayed, hnone]
      rfl
  | nextStarts pulsing hplays hclip =>
    obtain ⟨hplayed, -⟩ := hs.playing hplays
    refine ⟨fun hpending => ?_, fun _ => ⟨?_, hclip⟩, fun _ hsilent => by simp at hsilent⟩
    · rw [(hs.pending hpending).2.2] at hplays
      cases hplays
    · rw [Playback.played_play_load, hplayed, List.range_succ (n := s.playNum + 1)]
  | nextFails loads pulsing hplays hclip =>
    obtain ⟨hplayed, hlt⟩ := hs.playing hplays
    obtain rfl : loads = true := he
    refine ⟨fun hpending => ?_, fun hplays => by simp at hplays, fun _ _ => ⟨?_, rfl⟩⟩
    · rw [(hs.pending hpending).2.2] at hplays
      cases hplays
    · have hlast : s.playNum + 1 = s.audioUrls.length := by simp at hclip; omega
      rw [Playback.played_stop, hplayed, hlast]
  | tapStops | tapStarts | tapFails | closes => cases he

theorem playedSoFar_opened (chat : Chat) (audioUrls : List URL) :
    (opened chat audioUrls).PlayedSoFar :=
  ⟨fun _ => ⟨rfl, rfl, rfl⟩, nofun, nofun⟩

/-- The clips played are the first ones of the list. -/
theorem PlayedSoFar.exists_played {s : ChatPlayer} (hs : s.PlayedSoFar) :
    ∃ k ≤ s.audioUrls.length, s.audio.played = List.range k := by
  cases htimer : s.timerPending with
  | true => exact ⟨0, Nat.zero_le _, (hs.pending htimer).1⟩
  | false =>
    cases hplays : s.audio.isPlaying with
    | true =>
      obtain ⟨hplayed, hlt⟩ := hs.playing hplays
      exact ⟨s.playNum + 1, hlt, hplayed⟩
    | false => exact ⟨s.audioUrls.length, Nat.le_refl _, (hs.silent htimer hplays).1⟩

/-- From a clip on, the finish callbacks play the rest of the list. -/
theorem exists_playsRest (rest : ℕ) {s : ChatPlayer} (hplays : s.audio.isPlaying = true)
    (hrest : s.playNum + rest + 1 = s.audioUrls.length) :
    ∃ s', run step s (List.replicate (rest + 1) (.didFinishPlaying true)) = some s' ∧
      s'.audio.isPlaying = false := by
  induction rest generalizing s with
  | zero =>
    obtain ⟨s', hs'⟩ := exists_step (s := s) (e := .didFinishPlaying true) hplays
    refine ⟨s', run_cons_eq_some.2 ⟨s', hs', rfl⟩, ?_⟩
    cases step_effect hs' with
    | nextStarts pulsing _ hclip => omega
    | nextFails => exact Playback.isPlaying_stop _
  | succ rest ih =>
    obtain ⟨t, ht⟩ := exists_step (s := s) (e := .didFinishPlaying true) hplays
    have hnext : t.audio.isPlaying = true ∧ t.playNum + rest + 1 = t.audioUrls.length := by
      cases step_effect ht with
      | nextStarts => exact ⟨rfl, by dsimp only; omega⟩
      | nextFails loads pulsing _ hclip => simp at hclip; omega
    obtain ⟨s', hrun, hsilent⟩ := ih hnext.1 hnext.2
    exact ⟨s', run_cons_eq_some.2 ⟨t, ht, hrun⟩, hsilent⟩

theorem exists_playsAll (chat : Chat) (audioUrls : List URL) :
    ∃ s, run step (opened chat audioUrls)
        (.timer true :: List.replicate audioUrls.length (.didFinishPlaying true)) = some s ∧
      s.timerPending = false ∧ s.audio.isPlaying = false := by
  obtain ⟨t, ht⟩ := exists_step (s := opened chat audioUrls) (e := .timer true) rfl
  have htimer : t.timerPending = false := by
    cases step_effect ht <;> rfl
  have hkeep : ∀ (x : ChatPlayer) (e : Event) (x' : ChatPlayer), x.timerPending = false →
      x.step e = some x' → x'.timerPending = false := by
    intro x e x' hx h
    cases step_effect h <;> first | rfl | exact hx
  cases hn : audioUrls with
  | nil =>
    subst hn
    refine ⟨t, run_cons_eq_some.2 ⟨t, ht, rfl⟩, htimer, ?_⟩
    cases step_effect ht with
    | timerStarts pulsing hpending hclip => exact absurd hclip (Nat.not_lt_zero _)
    | timerFails => rfl
  | cons first rest =>
    have hstart : t.audio.isPlaying = true ∧ t.playNum + rest.length + 1 = t.audioUrls.length := by
      subst hn
      cases step_effect ht with
      | timerStarts => exact ⟨rfl, by simp [opened]⟩
      | timerFails loads hpending hclip => simp [opened] at hclip
    obtain ⟨s, hrun, hsilent⟩ := exists_playsRest rest.length hstart.1 hstart.2
    refine ⟨s, run_cons_eq_some.2 ⟨t, hn ▸ ht, hrun⟩, ?_, hsilent⟩
    exact run_invariant hkeep htimer hrun

/-! ## Every run -/

theorem allSteps_startsInOrder_iff (chat : Chat) (audioUrls : List URL) (es : List Event) :
    AllSteps step StartsInOrder (opened chat audioUrls) es ↔
      AllSteps stepCounting KeepsOrder (opened chat audioUrls, 0) es := by
  have hplain : AllSteps stepCounting (fun p e => p.1.StartsInOrder e) (opened chat audioUrls, 0) es ↔
      AllSteps step StartsInOrder (opened chat audioUrls) es := allSteps_withHistory
  refine hplain.symm.trans (allSteps_congr
    (I := fun p => p.1.InOrder ∧ p.1.AtRest ∧ p.1.FlagFollows p.2) ?_ ?_
    ⟨inOrder_opened chat audioUrls, atRest_opened chat audioUrls, by simp [FlagFollows, opened]⟩)
  · rintro ⟨s, taps⟩ e ⟨s', taps'⟩ ⟨hs, hrest, hflags⟩ h
    obtain ⟨hstep, htaps⟩ := withHistory_eq_some.1 h
    exact ⟨step_inOrder s e s' hs hstep, step_atRest s e s' hrest hstep,
      htaps ▸ step_flagFollows hflags hstep⟩
  · rintro ⟨s, taps⟩ e ⟨s', taps'⟩ ⟨hs, hrest, hflags⟩ h
    exact startsInOrder_iff hs hrest hflags (withHistory_eq_some.1 h).1

/-- No event of any run traps, and a run starts its clips in order exactly when every event meets
`KeepsOrder`.  A run that nothing disturbs has played the clips from the first on, and once it is
silent all of them; it does come to its end. -/
theorem neverSkips_iff (chat : Chat) (audioUrls : List URL) :
    (∀ es, EveryState step NeverTraps (opened chat audioUrls) es ∧
      (AllSteps step StartsInOrder (opened chat audioUrls) es ↔
        AllSteps stepCounting KeepsOrder (opened chat audioUrls, 0) es)) ∧
    (∀ es s, (∀ e ∈ es, undisturbed e = true) → run step (opened chat audioUrls) es = some s →
      s.audio.played = List.range s.audio.played.length ∧
      s.audio.played.length ≤ audioUrls.length ∧
      (s.timerPending = false → s.audio.isPlaying = false →
        s.audio.played = List.range audioUrls.length ∧ s.playNum = 0)) ∧
    ∃ s, run step (opened chat audioUrls)
        (.timer true :: List.replicate audioUrls.length (.didFinishPlaying true)) = some s ∧
      s.timerPending = false ∧ s.audio.isPlaying = false := by
  refine ⟨fun es => ⟨?_, allSteps_startsInOrder_iff chat audioUrls es⟩, fun es s hes hrun => ?_,
    exists_playsAll chat audioUrls⟩
  · exact everyState_of_allSteps (I := fun _ => True) (fun _ _ _ _ _ _ => trivial)
      (fun s _ => neverTraps s) trivial (allSteps_true _ _)
  · have hsame : s.audioUrls = audioUrls :=
      run_invariant (I := fun x => x.audioUrls = audioUrls)
        (fun x e x' hx h => (step_audioUrls x e x' h).trans hx) rfl hrun
    have hs : s.PlayedSoFar :=
      run_invariant_of_allSteps
        (fun x e x' hx (he : undisturbed e = true) h => step_playedSoFar hx he h)
        (playedSoFar_opened chat audioUrls) (allSteps_of_forall fun e he _ => hes e he) hrun
    obtain ⟨k, hk, hplayed⟩ := hs.exists_played
    rw [← hsame, hplayed, List.length_range]
    exact ⟨rfl, hk, fun htimer hsilent => hplayed ▸ hs.silent htimer hsilent⟩

/-- The chat of a conversation with two lines. -/
def twoLines : Chat where
  conversation := ⟨["first", "second"], ["image", "image"], ["image"], ["Hello", "Bye"], "title", 0,
    "pink"⟩
  color := ⟨.pink, .pink⟩

/-- A tap before the timer turns the flag; a tap on the second clip then starts that clip again. -/
theorem not_startsInOrder_tapsBeforeTimer :
    ¬ AllSteps step StartsInOrder (opened twoLines [⟨"first"⟩, ⟨"second"⟩])
      [.didTapStartButton true, .timer true, .didFinishPlaying true, .didTapStartButton true] := by
  intro h
  have hlast := ((((h _ rfl).2 _ rfl).2 _ rfl).2 _ rfl).1
  rcases hlast _ rfl with hsame | ⟨k, hk, hplayed, hmay⟩
  · revert hsame
    decide
  · obtain rfl : k = 1 := by
      have hclips : [0, 1, 1] = [0, 1] ++ [k] := hplayed
      simpa using hclips.symm
    obtain hzero | ⟨-, htimer⟩ | ⟨j, -, -, hfinish, -⟩ := hmay
    · cases hzero
    · cases htimer
    · cases hfinish

end DialogueApp.ChatPlayer
