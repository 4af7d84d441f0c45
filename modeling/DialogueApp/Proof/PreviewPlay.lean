import DialogueApp.Controllers.CreateChatPlayer
import DialogueApp.Lib.Runs

/-!
# Playing the picked lines

From a start tap on, the preview plays the clips of the picked lines from the play index on, and
scrolls to the index of each among the clips.  The play index is the number of clips that have ever
come to their end, and it is the index of the line as long as no line without a clip stands before
one with a clip.
-/

namespace DialogueApp.CreateChatPlayer

open Runs

variable {sameName : String → String → Bool}

/-! ## Lines and their clips -/

/-- The clips of the lines that have one. -/
def clips (url : URLParser) (dialogues : List Dialogue) : List URL :=
  dialogues.filterMap fun dialogue => url.parse dialogue.audioUrl

/-- The clips, each with the index of its line. -/
def clipsAt (url : URLParser) (dialogues : List Dialogue) : List (URL × ℕ) :=
  dialogues.zipIdx.filterMap fun line => (url.parse line.1.audioUrl).map fun clip => (clip, line.2)

/-- No line without a clip stands before a line with one. -/
def ClipsFirst (url : URLParser) (dialogues : List Dialogue) : Prop :=
  dialogues.Pairwise fun d e =>
    (url.parse e.audioUrl).isSome = true → (url.parse d.audioUrl).isSome = true

/-- The elements that a filter keeps have kept their indices exactly when they stand first. -/
theorem zipIdx_filterMap_iff {α β : Type*} (f : α → Option β) (l : List α) (n : ℕ) :
    ((l.zipIdx n).filterMap fun p => (f p.1).map fun b => (b, p.2)) = (l.filterMap f).zipIdx n ↔
      l.Pairwise fun a b => (f b).isSome = true → (f a).isSome = true := by
  induction l generalizing n with
  | nil => simp
  | cons a l ih =>
    rw [List.zipIdx_cons, List.filterMap_cons, List.filterMap_cons, List.pairwise_cons]
    cases ha : f a with
    | some b =>
      simp only [Option.map_some, List.zipIdx_cons, List.cons.injEq, true_and, ih]
      exact (and_iff_right fun _ _ _ => rfl).symm
    | none =>
      simp only [Option.map_none]
      constructor
      · intro h
        -- the first clip would have an index above `n`
        have hnone : l.filterMap f = [] := by
          by_contra hsome
          obtain ⟨b, bs, hb⟩ := List.exists_cons_of_ne_nil hsome
          rw [hb, List.zipIdx_cons] at h
          have hmem := List.mem_of_mem_head? (l := (l.zipIdx (n + 1)).filterMap _) (by rw [h]; rfl)
          obtain ⟨p, hp, hpb⟩ := List.mem_filterMap.1 hmem
          obtain ⟨c, -, hc⟩ := Option.map_eq_some_iff.1 hpb
          have hle := List.le_snd_of_mem_zipIdx hp
          simp only [Prod.mk.injEq] at hc
          omega
        rw [List.filterMap_eq_nil_iff] at hnone
        refine ⟨fun b hb hsome => ?_, ?_⟩
        · rw [hnone b hb] at hsome
          cases hsome
        · refine List.pairwise_of_forall_mem_list fun b _ c hc hsome => ?_
          rw [hnone c hc] at hsome
          cases hsome
      · rintro ⟨hnone, -⟩
        have hall : ∀ b ∈ l, f b = none := by
          intro b hb
          cases hfb : f b with
          | none => rfl
          | some c => exact absurd (hnone b hb (by rw [hfb]; rfl)) Bool.false_ne_true
        rw [List.filterMap_eq_nil_iff.2 hall, List.zipIdx_nil, List.filterMap_eq_nil_iff]
        intro p hp
        rw [hall p.1 (List.fst_mem_of_mem_zipIdx hp)]
        rfl

theorem clipsAt_eq_iff {url : URLParser} {dialogues : List Dialogue} :
    clipsAt url dialogues = (clips url dialogues).zipIdx ↔ ClipsFirst url dialogues :=
  zipIdx_filterMap_iff (fun dialogue : Dialogue => url.parse dialogue.audioUrl) dialogues 0

/-! ## One start -/

theorem foldl_clips (url : URLParser) (dialogues : List Dialogue) (before : List URL) :
    dialogues.foldl (appendAudio url) before = before ++ clips url dialogues := by
  induction dialogues generalizing before with
  | nil => simp [clips]
  | cons d dialogues ih =>
    rw [List.foldl_cons, ih, clips, clips, List.filterMap_cons, appendAudio]
    cases url.parse d.audioUrl with
    | none => rfl
    | some u => simp

theorem didTapStartButton_eq (url : URLParser) (s : CreateChatPlayer) (loads : Bool) :
    s.didTapStartButton url loads =
      { s with selectedAudios := clips url s.create.bottomDialogues }.startPlay loads := by
  simp only [didTapStartButton, foldl_clips, List.nil_append]

/-- The state in which the clip at the play index plays. -/
def playing (s : CreateChatPlayer) (clip : URL) : CreateChatPlayer :=
  { s with audioPlayer := (s.audioPlayer.load clip).play, scrolledTo := s.playNum,
           shown := s.shown ++ [(clip, s.playNum)] }

theorem startPlay_some {s : CreateChatPlayer} {clip : URL}
    (h : s.selectedAudios[s.playNum]? = some clip) : s.startPlay true = s.playing clip := by
  simp only [startPlay, prepare, h]
  rfl

theorem startPlay_none {s : CreateChatPlayer} {loads : Bool}
    (h : s.selectedAudios[s.playNum]? = none) : s.startPlay loads = s := by
  simp only [startPlay, prepare, h]
  rfl

theorem startPlay_failed (s : CreateChatPlayer) : s.startPlay false = s := by
  cases hclip : s.selectedAudios[s.playNum]? with
  | none => exact startPlay_none hclip
  | some clip =>
    simp only [startPlay, prepare, hclip]
    rfl

theorem startPlay_playNum (s : CreateChatPlayer) (loads : Bool) :
    (s.startPlay loads).playNum = s.playNum := by
  cases loads with
  | false => rw [startPlay_failed]
  | true =>
    cases hclip : s.selectedAudios[s.playNum]? with
    | none => rw [startPlay_none hclip]
    | some clip =>
      rw [startPlay_some hclip]
      rfl

theorem step_finish {url : URLParser} {s : CreateChatPlayer} (loads : Bool)
    (hplays : s.audioPlayer.isPlaying = true) :
    s.step url sameName (.didFinishPlaying loads) =
      some ({ s with audioPlayer := s.audioPlayer.stop,
                     playNum := s.playNum + 1 }.startPlay loads) := by
  unfold step
  exact if_pos hplays

/-! ## A whole play-through -/

/-- The clips from an index on, each with its index. -/
def clipsFrom (audios : List URL) (num : ℕ) : List (URL × ℕ) := (audios.drop num).zipIdx num

theorem clipsFrom_of_getElem? {audios : List URL} {num : ℕ} {clip : URL}
    (h : audios[num]? = some clip) :
    clipsFrom audios num = (clip, num) :: clipsFrom audios (num + 1) := by
  obtain ⟨hlt, rfl⟩ := List.getElem?_eq_some_iff.1 h
  rw [clipsFrom, List.drop_eq_getElem_cons hlt, List.zipIdx_cons]
  rfl

theorem clipsFrom_of_length_le {audios : List URL} {num : ℕ} (h : audios.length ≤ num) :
    clipsFrom audios num = [] := by
  rw [clipsFrom, List.drop_eq_nil_of_le h, List.zipIdx_nil]

/-- The finish callbacks after a start play the rest of the clips, in order, each shown at its index;
then nothing plays. -/
theorem exists_playsRest (url : URLParser) (rest : ℕ) {s : CreateChatPlayer}
    (hrest : s.selectedAudios.length ≤ s.playNum + rest)
    (hsilent : s.audioPlayer.isPlaying = false) :
    ∃ k s', run (step url sameName) (s.startPlay true)
        (List.replicate k (.didFinishPlaying true)) = some s' ∧
      s'.audioPlayer.isPlaying = false ∧
      s'.audioPlayer.played = s.audioPlayer.played ++ s.selectedAudios.drop s.playNum ∧
      s'.shown = s.shown ++ clipsFrom s.selectedAudios s.playNum := by
  induction rest generalizing s with
  | zero =>
    have hlen : s.selectedAudios.length ≤ s.playNum := by omega
    refine ⟨0, s, ?_, hsilent, ?_, ?_⟩
    · rw [startPlay_none (List.getElem?_eq_none hlen)]
      rfl
    · rw [List.drop_eq_nil_of_le hlen, List.append_nil]
    · rw [clipsFrom_of_length_le hlen, List.append_nil]
  | succ rest ih =>
    cases hclip : s.selectedAudios[s.playNum]? with
    | none =>
      have hlen := List.getElem?_eq_none_iff.1 hclip
      refine ⟨0, s, ?_, hsilent, ?_, ?_⟩
      · rw [startPlay_none hclip]
        rfl
      · rw [List.drop_eq_nil_of_le hlen, List.append_nil]
      · rw [clipsFrom_of_length_le hlen, List.append_nil]
    | some clip =>
      -- the clip plays, and its finish callback starts the next one
      obtain ⟨k, s', hrun, hsilent', hplayed, hshown⟩ := ih
        (s := { s.playing clip with audioPlayer := (s.playing clip).audioPlayer.stop,
                                    playNum := s.playNum + 1 })
        (by dsimp only [playing]; omega) (Playback.isPlaying_stop _)
      refine ⟨k + 1, s', ?_, hsilent', ?_, ?_⟩
      · rw [startPlay_some hclip]
        exact run_cons_eq_some.2 ⟨_, step_finish true rfl, hrun⟩
      · obtain ⟨hlt, rfl⟩ := List.getElem?_eq_some_iff.1 hclip
        rw [hplayed, List.drop_eq_getElem_cons hlt]
        simp [playing]
      · rw [hshown, clipsFrom_of_getElem? hclip]
        simp [playing]

theorem exists_playThrough (url : URLParser) {s : CreateChatPlayer}
    (hcan : s.canHappen (.didTapStartButton true) = true)
    (hsilent : s.audioPlayer.isPlaying = false) :
    ∃ k s', run (step url sameName) s
        (.didTapStartButton true :: List.replicate k (.didFinishPlaying true)) = some s' ∧
      s'.audioPlayer.isPlaying = false ∧
      s'.audioPlayer.played =
        s.audioPlayer.played ++ (clips url s.create.bottomDialogues).drop s.playNum ∧
      s'.shown = s.shown ++ clipsFrom (clips url s.create.bottomDialogues) s.playNum := by
  obtain ⟨k, s', hrun, hend⟩ := exists_playsRest url
    (clips url s.create.bottomDialogues).length
    (s := { s with selectedAudios := clips url s.create.bottomDialogues }) (by dsimp only; omega)
    hsilent
  refine ⟨k, s', run_cons_eq_some.2 ⟨_, ?_, hrun⟩, hend⟩
  unfold step
  rw [if_pos hcan, handle, didTapStartButton_eq]

/-! ## The play index -/

/-- A clip has come to its end. -/
def isFinish : Event → Bool
  | .didFinishPlaying _ => true
  | _ => false

theorem step_playNum {url : URLParser} {s s' : CreateChatPlayer} {e : Event}
    (h : s.step url sameName e = some s') : s'.playNum = s.playNum + if isFinish e then 1 else 0 := by
  unfold step at h
  split_ifs at h with hcan
  cases e with
  | screen e =>
    obtain ⟨create, -, rfl⟩ := Option.map_eq_some_iff.1 h
    rfl
  | didTapStartButton loads =>
    obtain rfl := Option.some.inj h
    rw [didTapStartButton_eq, startPlay_playNum]
    rfl
  | didFinishPlaying loads =>
    obtain rfl := Option.some.inj h
    exact startPlay_playNum _ loads
  | didTapCloseButton | dismissed =>
    obtain rfl := Option.some.inj h
    rfl

theorem run_playNum {url : URLParser} {s s' : CreateChatPlayer} {es : List Event}
    (h : run (step url sameName) s es = some s') : s'.playNum = s.playNum + es.countP isFinish := by
  induction es generalizing s with
  | nil =>
    obtain rfl := Option.some.inj h
    rfl
  | cons e es ih =>
    obtain ⟨t, ht, hrest⟩ := run_cons_eq_some.1 h
    rw [ih hrest, step_playNum ht, List.countP_cons]
    omega

/-! ## Every start tap -/

/-- The play-through from `s` to `s'` has played and shown exactly the clips of the picked lines, in
order, each at the index of its line. -/
def PlaysPicked (url : URLParser) (s s' : CreateChatPlayer) : Prop :=
  s'.audioPlayer.played = s.audioPlayer.played ++ clips url s.create.bottomDialogues ∧
    s'.shown = s.shown ++ clipsAt url s.create.bottomDialogues

theorem drop_eq_self_iff {α : Type*} {l : List α} {n : ℕ} : l.drop n = l ↔ n = 0 ∨ l = [] := by
  constructor
  · intro h
    have hlen := congrArg List.length h
    rw [List.length_drop] at hlen
    by_cases hl : l = []
    · exact Or.inr hl
    · have := List.length_pos_iff.2 hl
      omega
  · rintro (rfl | rfl)
    · exact List.drop_zero
    · exact List.drop_nil

/-- A start tap made while nothing plays, after any run, plays through to silence; what it plays is
the whole picked conversation exactly when no clip has ever come to its end before, or none of the
picked lines has a clip, and no line without a clip stands before one with a clip. -/
theorem playsWholeConversation_iff (url : URLParser) (sameName : String → String → Bool)
    (es : List Event) (s : CreateChatPlayer) (hrun : run (step url sameName) launched es = some s)
    (hcan : s.canHappen (.didTapStartButton true) = true)
    (hsilent : s.audioPlayer.isPlaying = false) :
    (∃ k s', run (step url sameName) s
        (.didTapStartButton true :: List.replicate k (.didFinishPlaying true)) = some s' ∧
      s'.audioPlayer.isPlaying = false) ∧
    ∀ k s', run (step url sameName) s
        (.didTapStartButton true :: List.replicate k (.didFinishPlaying true)) = some s' →
      s'.audioPlayer.isPlaying = false →
      (PlaysPicked url s s' ↔
        ((∀ e ∈ es, isFinish e = false) ∨ clips url s.create.bottomDialogues = []) ∧
          ClipsFirst url s.create.bottomDialogues) := by
  obtain ⟨k, s', hplay, hend, hplayed, hshown⟩ := exists_playThrough url hcan hsilent
  refine ⟨⟨k, s', hplay, hend⟩, fun k' t hplay' hend' => ?_⟩
  have hsame : s' = t := by
    obtain ⟨u, hu, hrest⟩ := run_cons_eq_some.1 hplay
    obtain ⟨u', hu', hrest'⟩ := run_cons_eq_some.1 hplay'
    obtain rfl : u = u' := Option.some.inj (hu.symm.trans hu')
    have hstuck : ∀ x : CreateChatPlayer, x.audioPlayer.isPlaying = false →
        step url sameName x (.didFinishPlaying true) = none := by
      intro x hx
      unfold step
      exact if_neg (by rw [canHappen, hx]; decide)
    exact run_replicate_unique hstuck hrest hend hrest' hend'
  subst hsame
  have hzero : s.playNum = 0 ↔ ∀ e ∈ es, isFinish e = false := by
    rw [run_playNum hrun]
    simp [launched, List.countP_eq_zero]
  rw [PlaysPicked, hplayed, hshown, List.append_cancel_left_eq, List.append_cancel_left_eq,
    drop_eq_self_iff, ← hzero]
  refine and_congr_right fun hindex => ?_
  have hfrom : clipsFrom (clips url s.create.bottomDialogues) s.playNum =
      (clips url s.create.bottomDialogues).zipIdx := by
    rcases hindex with hfirst | hnone
    · rw [hfirst]
      rfl
    · rw [hnone, clipsFrom, List.drop_nil, List.zipIdx_nil, List.zipIdx_nil]
  rw [hfrom, eq_comm]
  exact clipsAt_eq_iff

/-- A character with two lines is selected and both are picked. -/
def pickTwo : List Event :=
  [.screen (.fetchDialogues
     [⟨"Hello", "audio 1", 0, "line 1", "Anna", "image", "anna"⟩,
      ⟨"Goodbye", "audio 2", 0, "line 2", "Anna", "image", "anna"⟩]),
   .screen (.selectCharacter ⟨"Anna", "image", 0, "anna"⟩),
   .screen (.didSelectRow 0), .screen (.didSelectRow 1)]

theorem playsWholeConversation_pickTwo :
    ∃ s s', run (step .nonempty (· == ·)) launched pickTwo = some s ∧
      run (step .nonempty (· == ·)) s
        [.didTapStartButton true, .didFinishPlaying true, .didFinishPlaying true] = some s' ∧
      PlaysPicked .nonempty s s' := by
  have hruns : ∃ s s', run (step .nonempty (· == ·)) launched pickTwo = some s ∧
      s.canHappen (.didTapStartButton true) = true ∧ s.audioPlayer.isPlaying = false ∧
      run (step .nonempty (· == ·)) s
        [.didTapStartButton true, .didFinishPlaying true, .didFinishPlaying true] = some s' ∧
      s'.audioPlayer.isPlaying = false ∧
      s.create.bottomDialogues.map (·.audioUrl) = ["audio 1", "audio 2"] :=
    ⟨_, _, rfl, rfl, rfl, rfl, rfl, rfl⟩
  obtain ⟨s, s', hrun, hcan, hsilent, hplay, hend, hpicked⟩ := hruns
  refine ⟨s, s', hrun, hplay, ?_⟩
  rw [(playsWholeConversation_iff .nonempty (· == ·) pickTwo s hrun hcan hsilent).2 2 s' hplay hend]
  refine ⟨Or.inl (by decide), ?_⟩
  have hall : ∀ d ∈ s.create.bottomDialogues,
      (URLParser.nonempty.parse d.audioUrl).isSome = true := by
    intro d hd
    have hmem := List.mem_map_of_mem (f := fun d : Dialogue => d.audioUrl) hd
    rw [hpicked] at hmem
    simp only [List.mem_cons, List.not_mem_nil, or_false] at hmem
    rcases hmem with h | h <;> rw [h] <;> rfl
  exact List.pairwise_of_forall_mem_list fun d hd _ _ _ => hall d hd

/-- The picked lines have been played through once; the next start tap plays nothing. -/
theorem not_playsPicked_secondStart :
    ∃ s s', run (step .nonempty (· == ·)) launched
        (pickTwo ++ [.didTapStartButton true, .didFinishPlaying true, .didFinishPlaying true]) =
          some s ∧
      s.audioPlayer.isPlaying = false ∧
      run (step .nonempty (· == ·)) s [.didTapStartButton true] = some s' ∧
      s'.audioPlayer.isPlaying = false ∧ ¬ PlaysPicked .nonempty s s' := by
  refine ⟨_, _, rfl, rfl, rfl, rfl, fun h => ?_⟩
  have hplayed := h.1
  revert hplayed
  decide

end DialogueApp.CreateChatPlayer
