import DialogueApp.Controllers.Screens
import DialogueApp.Lib.Runs

/-!
# What dismisses the create screen

The completion of every `fetchConversations()` dismisses the one create screen there is, whoever has
issued the fetch.
-/

namespace DialogueApp.Screens

open Runs

variable {sameName : String → String → Bool}

/-- Every presentation that was dismissed was dismissed by its close button, or by a fetch issued since
it began and after a conversation registered in it had been stored. -/
def ClosesForOwnReasons (s : Screens) : Prop :=
  ∀ d ∈ s.dismissals, ∀ k, d.fetch = some k → d.presentation ∈ s.stored ∧ d.fetchesBefore ≤ k

/-- The condition on an event: while a presentation is on screen, a fetch of the conversations is
answered only if it has been issued since the presentation began and something has been stored in
it. -/
def DismissesOwn (s : Screens) : Event → Prop
  | .answer k (some _) =>
    s.fetches[k]?.map Fetch.purpose = some .conversations → s.presented = true →
      s.presentations ∈ s.stored ∧ s.fetchesBefore ≤ k
  | _ => True

/-- A dismissal by a fetch needs a stored conversation and a fetch of the presentation's time. -/
theorem dismiss_closesForOwnReasons {s : Screens} {k : ℕ} (hs : s.ClosesForOwnReasons) :
    (s.dismiss (some k)).ClosesForOwnReasons ↔
      (s.presented = true → s.presentations ∈ s.stored ∧ s.fetchesBefore ≤ k) := by
  unfold dismiss ClosesForOwnReasons
  by_cases hpresented : s.presented = true
  · simp only [hpresented, if_true, List.forall_mem_append, List.forall_mem_singleton,
      Option.some.injEq, forall_eq', forall_const]
    exact and_iff_right hs
  · rw [if_neg hpresented]
    exact iff_of_true hs fun h => absurd h hpresented

theorem dismiss_none_closesForOwnReasons {s : Screens} (hs : s.ClosesForOwnReasons) :
    (s.dismiss none).ClosesForOwnReasons := by
  unfold dismiss
  split_ifs
  · refine List.forall_mem_append.2 ⟨hs, List.forall_mem_singleton.2 fun k hk => ?_⟩
    cases hk
  · exact hs

theorem handle_closesForOwnReasons {s : Screens} {k : ℕ} {f : Fetch}
    (hs : s.ClosesForOwnReasons) :
    (s.handle sameName k f).ClosesForOwnReasons ↔
      (f.purpose = .conversations → s.presented = true →
        s.presentations ∈ s.stored ∧ s.fetchesBefore ≤ k) := by
  unfold handle
  cases hpurpose : f.purpose with
  | conversations =>
    have hdismiss := dismiss_closesForOwnReasons (k := k)
      (s := { s with top := s.top.fetchConversations f.conversations }) hs
    exact ⟨fun h _ => hdismiss.1 h, fun h => hdismiss.2 (h rfl)⟩
  | characters | dialogues | newCharacters | newDialogues | addedDialogues =>
    exact iff_of_true hs nofun

/-- An answer is one to a fetch on its way. -/
theorem answer_cases {s s' : Screens} {k : ℕ} {snapshot : Option (List Document × Timestamp)}
    (h : s.answer sameName k snapshot = some s') :
    ∃ purpose, s.fetches[k]? = some ⟨purpose, .pending⟩ ∧
      ((snapshot = none ∧ s' = { s with fetches := s.fetches.set k ⟨purpose, .noSnapshot⟩ }) ∨
        ∃ documents now, snapshot = some (documents, now) ∧
          s' = { s with fetches := s.fetches.set k ⟨purpose, .documents documents now⟩
                        arrivals := s.arrivals ++ [⟨purpose, .documents documents now⟩]
                 : Screens }.handle sameName k ⟨purpose, .documents documents now⟩) := by
  unfold answer at h
  split at h
  · rename_i purpose hk
    refine ⟨purpose, hk, ?_⟩
    cases snapshot with
    | none => exact Or.inl ⟨rfl, (Option.some.inj h).symm⟩
    | some snapshot => exact Or.inr ⟨snapshot.1, snapshot.2, rfl, (Option.some.inj h).symm⟩
  · cases h

/-- An answer to a registration changes it and may store its conversation. -/
theorem registrationAnswered_cases {s s' : Screens} {k : ℕ} {ok : Bool} {m : Moment}
    (h : s.registrationAnswered k ok m = some s') :
    ∃ registrations, s' = { s with registrations } ∨
      ∃ presentation, s' = { s with registrations, stored := s.stored ++ [presentation]
                             : Screens }.fetchConversations := by
  unfold registrationAnswered at h
  split at h
  · rename_i presentation r next hk
    obtain ⟨reply, -, rfl⟩ := Option.map_eq_some_iff.1 h
    refine ⟨s.registrations.set k ⟨presentation, next (reply, m)⟩, ?_⟩
    dsimp only
    split_ifs
    · exact Or.inr ⟨presentation, rfl⟩
    · exact Or.inl rfl
  · cases h

theorem step_closesForOwnReasons (s : Screens) (e : Event) (s' : Screens)
    (hs : s.ClosesForOwnReasons) (h : s.step sameName e = some s') :
    s'.ClosesForOwnReasons ↔ s.DismissesOwn e := by
  cases e with
  | answer k snapshot =>
    obtain ⟨purpose, hk, ⟨rfl, rfl⟩ | ⟨documents, now, rfl, rfl⟩⟩ := answer_cases h
    · exact iff_of_true hs trivial
    · refine (handle_closesForOwnReasons (s := { s with
        fetches := s.fetches.set k ⟨purpose, .documents documents now⟩
        arrivals := s.arrivals ++ [⟨purpose, .documents documents now⟩] }) hs).trans ?_
      simp only [DismissesOwn, hk, Option.map_some, Option.some.injEq]
  | registrationAnswered k ok m =>
    obtain ⟨registrations, rfl | ⟨presentation, rfl⟩⟩ := registrationAnswered_cases h
    · exact iff_of_true hs trivial
    · refine iff_of_true (fun d hd => ?_) trivial
      exact fun k hk => (hs d hd k hk).imp_left (List.mem_append_left _)
  | didTapCreateButton onScreen =>
    simp only [step] at h
    split_ifs at h
    obtain rfl := Option.some.inj h
    refine iff_of_true ?_ trivial
    unfold didTapCreateButton
    dsimp only
    split_ifs <;> exact hs
  | didTapCloseButton =>
    simp only [step] at h
    split_ifs at h
    obtain rfl := Option.some.inj h
    exact iff_of_true (dismiss_none_closesForOwnReasons hs) trivial
  | screen e =>
    simp only [step] at h
    split_ifs at h
    obtain ⟨create, -, rfl⟩ := Option.map_eq_some_iff.1 h
    exact iff_of_true hs trivial
  | didTapRegisterButton m =>
    simp only [step] at h
    split_ifs at h
    obtain rfl := Option.some.inj h
    exact iff_of_true hs trivial
  | characterWritten | dialogueWritten selected =>
    obtain rfl := Option.some.inj h
    exact iff_of_true hs trivial

/-! ## The picked lines -/

theorem dismiss_create (s : Screens) (fetch : Option ℕ) :
    (s.dismiss fetch).create = s.create := by
  unfold dismiss
  split_ifs <;> rfl

theorem handle_bottomDialogues (s : Screens) (k : ℕ) (f : Fetch) :
    (s.handle sameName k f).create.bottomDialogues = s.create.bottomDialogues := by
  unfold handle
  split
  · rw [dismiss_create]
  all_goals rfl

/-- While the screen is presented, picked lines are only added to. -/
theorem step_bottomDialogues_prefix {s s' : Screens} {e : Event} (hpresented : s.presented = true)
    (h : s.step sameName e = some s') : s.create.bottomDialogues <+: s'.create.bottomDialogues := by
  cases e with
  | answer k snapshot =>
    obtain ⟨purpose, hk, ⟨rfl, rfl⟩ | ⟨documents, now, rfl, rfl⟩⟩ := answer_cases h
    · exact List.prefix_rfl
    · simp [handle_bottomDialogues]
  | registrationAnswered k ok m =>
    obtain ⟨registrations, rfl | ⟨presentation, rfl⟩⟩ := registrationAnswered_cases h
    · exact List.prefix_rfl
    · exact List.prefix_rfl
  | didTapCreateButton onScreen =>
    simp only [step] at h
    rw [if_pos hpresented] at h
    cases h
  | didTapCloseButton =>
    simp only [step] at h
    rw [if_pos hpresented] at h
    obtain rfl := Option.some.inj h
    simp [dismiss_create]
  | screen e =>
    simp only [step] at h
    split_ifs at h with hinput
    obtain ⟨create, hcreate, rfl⟩ := Option.map_eq_some_iff.1 h
    rw [Bool.and_eq_true] at hinput
    cases e with
    | didSelectRow row =>
      obtain ⟨dialogue, -, -, rfl⟩ := CreateChatController.step_didSelectRow hcreate
      dsimp only
      rw [CreateChatController.setBottomDialogues_bottomDialogues]
      exact List.prefix_append _ _
    | selectCharacter | editTitle | showKeyboard =>
      obtain rfl := Option.some.inj hcreate
      exact List.prefix_rfl
    | fetchCharacters | fetchDialogues | defaultUI | updateCharacter | addedDialogue |
      didTapRegisterButton => cases hinput.2
  | didTapRegisterButton m =>
    simp only [step] at h
    split_ifs at h
    obtain rfl := Option.some.inj h
    exact List.prefix_rfl
  | characterWritten | dialogueWritten selected =>
    obtain rfl := Option.some.inj h
    exact List.prefix_rfl

/-- In every run, every presentation is dismissed for its own reasons exactly when every event meets
`DismissesOwn`; and as long as a presentation is not dismissed, no event discards a picked line. -/
theorem closesForOwnReasons_iff (sameName : String → String → Bool) (es : List Event) :
    (EveryState (step sameName) ClosesForOwnReasons launched es ↔
      AllSteps (step sameName) DismissesOwn launched es) ∧
    ∀ (s : Screens) e s', s.presented = true → s.step sameName e = some s' →
      s.create.bottomDialogues <+: s'.create.bottomDialogues :=
  ⟨everyState_iff_allSteps (I := fun _ => True) (fun _ _ _ _ _ => trivial)
    (fun s e s' _ => step_closesForOwnReasons s e s') trivial nofun,
    fun _ _ _ hpresented h => step_bottomDialogues_prefix hpresented h⟩

/-- The create button is tapped before the first conversations have arrived. -/
theorem not_closesForOwnReasons_lateFirstFetch :
    ¬ EveryState (step (· == ·)) ClosesForOwnReasons launched
      [.didTapCreateButton fun _ => true, .answer 0 (some ([], 0))] := by
  intro h
  have hlast := (h.2 _ rfl).2 _ rfl
  have hstored := (hlast ⟨1, 1, some 0⟩ (List.mem_singleton.2 rfl) 0 rfl).1
  cases hstored

end DialogueApp.Screens
