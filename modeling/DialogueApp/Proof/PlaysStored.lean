import DialogueApp.Proof.ChatOrder
import DialogueApp.Proof.ClientScreen
import DialogueApp.Proof.CopiedData
import DialogueApp.Proof.Opening
import DialogueApp.Controllers.TopViewController

/-!
# Stored conversations on the chat screen

From the tap that registers a conversation to the clips the chat screen plays: what a run of the world
has stored, a fetch brings to the top screen, whose start button opens it, and the chat screen plays
the sounds of the stored lines one after the other, each beside the text and the picture of its line.
-/

namespace DialogueApp

open Runs

variable {names : Names} {url : URLParser}

/-- The URLs made from texts have these texts. -/
theorem map_absoluteString_of_mapM {texts : List String} {urls : List URL}
    (h : texts.mapM url.parse = some urls) : urls.map (·.absoluteString) = texts := by
  induction texts generalizing urls with
  | nil =>
    obtain rfl := Option.some.inj h
    rfl
  | cons text texts ih =>
    rw [List.mapM_cons] at h
    obtain ⟨first, hfirst, h⟩ := Option.bind_eq_some_iff.1 h
    obtain ⟨rest, hrest, h⟩ := Option.bind_eq_some_iff.1 h
    obtain rfl := Option.some.inj h
    rw [List.map_cons, ih hrest, url.absoluteString_parse _ _ hfirst]

/-- The item `k` of the chat view and the clip `k` of the player come from one stored line, whose
sound is in Storage. -/
def ShowsLine (url : URLParser) (b : Backend) (s : ChatPlayer) (k : ℕ) : Prop :=
  ∃ d ∈ b.dialogues, ∃ text imageUrl clip, s.audioUrls[k]? = some clip ∧
    b.Present clip.absoluteString ∧
    d.data.lookup "audioUrl" = some (.string clip.absoluteString) ∧
    d.data.lookup "imageUrl" = some (.string imageUrl) ∧
    d.data.lookup "dialogue" = some (.string text) ∧
    ∃ cell, s.chatView.cellForItemAt url k = some (some cell) ∧
      s.chatView.sizeForItemAt k = some (some text) ∧
      cell.text = text ∧ cell.icon = url.parse imageUrl

/-- What the decoder reads of a stored list of texts. -/
theorem Dictionary.strings_of_lookup {data : Dictionary} {key : String} {texts : List String}
    (h : data.lookup key = some (.strings texts)) : data.strings key = texts := by
  rw [Dictionary.strings, h, Option.bind_some, Value.asStrings_strings]
  rfl

namespace Backend

variable {b : Backend} {paired : Prop} {v : Document}

/-- A stored conversation can be opened when each object in Storage has a URL. -/
theorem Consistent.exists_opened (hb : b.Consistent names True paired) (hv : v ∈ b.conversations)
    (hurl : ∀ o ∈ b.objects, (url.parse o.url).isSome = true) (now : Timestamp)
    (colors : ChatViewColors) :
    ∃ s, ChatPlayer.init url (Conversation.init v.data now) colors = some s := by
  refine Option.isSome_iff_exists.1 (init_isSome_iff.2 fun text htext => ?_)
  obtain ⟨texts, hlookup, hpresent⟩ := (hb.conversation_media hv).1
  have hread : (Conversation.init v.data now).audioUrls = texts :=
    Dictionary.strings_of_lookup hlookup
  rw [hread] at htext
  obtain ⟨o, ho, rfl⟩ := hpresent text htext
  exact hurl o ho

/-- Each item of an opened conversation, and its clip, come from one stored line. -/
theorem Consistent.showsLine (hb : b.Consistent names True paired) (hv : v ∈ b.conversations)
    {s : ChatPlayer} {now : Timestamp} {colors : ChatViewColors}
    (hs : ChatPlayer.init url (Conversation.init v.data now) colors = some s) :
    s.chatView.numberOfItemsInSection = s.audioUrls.length ∧
      ∀ k < s.audioUrls.length, ShowsLine url b s k := by
  obtain ⟨audioUrls, images, texts, haudios, himages, htexts, hclips, hpictures, hlines⟩ :=
    hb.conversation_lines hv
  obtain ⟨clips, hparse, hopened⟩ := Option.bind_eq_some_iff.1 hs
  obtain rfl := Option.some.inj hopened
  have hread : Conversation.init v.data now =
      { Conversation.init v.data now with
        audioUrls := audioUrls
        caracterImageUrls := images
        dialogs := texts } := by
    simp only [Conversation.init, Dictionary.strings_of_lookup haudios,
      Dictionary.strings_of_lookup himages, Dictionary.strings_of_lookup htexts]
  rw [hread] at hparse ⊢
  have hclip : clips.map (·.absoluteString) = audioUrls := map_absoluteString_of_mapM hparse
  have hlength : clips.length = texts.length := by
    rw [← hclips, ← hclip, List.length_map]
  refine ⟨hlength.symm, fun k hk => ?_⟩
  have hk : k < clips.length := hk
  have hline : k < texts.length := by omega
  have himage : k < images.length := by omega
  obtain ⟨d, hd, haudio, hicon, htext⟩ := hlines k hline
  rw [← hclip, List.getElem?_map, List.getElem?_eq_getElem hk] at haudio
  rw [List.getElem?_eq_getElem himage] at hicon
  rw [List.getElem?_eq_getElem hline] at htext
  refine ⟨d, hd, texts[k], images[k], clips[k], List.getElem?_eq_getElem hk, ?_, haudio, hicon,
    htext, ⟨colors.mainColor, texts[k], colors.mainColor, url.parse images[k]⟩, ?_, ?_, rfl, rfl⟩
  · obtain ⟨text, hlookup, hpresent⟩ := (hb.dialogue_media hd).2
    rw [haudio] at hlookup
    cases hlookup
    exact hpresent
  · simp [ChatPlayer.opened, ChatView.cellForItemAt, ChatViewCell.configureViewModel,
      ChatViewModel.dialogue, ChatViewModel.imageUrl, ChatViewModel.textColor,
      List.getElem?_eq_getElem hline, List.getElem?_eq_getElem himage]
  · simp [ChatPlayer.opened, ChatView.sizeForItemAt, List.getElem?_eq_getElem hline]

end Backend

namespace ChatPlayer

/-- Left alone from when it has been opened on, the screen plays the clips from the first on, and all
of them before it is silent again. -/
def PlaysAll (s : ChatPlayer) : Prop :=
  (∀ es s', (∀ e ∈ es, undisturbed e = true) → run step s es = some s' →
    ∃ k ≤ s.audioUrls.length, s'.audio.played = List.range k ∧
      (s'.timerPending = false → s'.audio.isPlaying = false → k = s.audioUrls.length)) ∧
  ∃ es s', (∀ e ∈ es, undisturbed e = true) ∧ run step s es = some s' ∧
    s'.timerPending = false ∧ s'.audio.isPlaying = false

theorem playsAll_opened (chat : Chat) (audioUrls : List URL) :
    (opened chat audioUrls).PlaysAll := by
  constructor
  · intro es s hes hrun
    have hsame : s.audioUrls = audioUrls :=
      run_invariant (I := fun x => x.audioUrls = audioUrls)
        (fun x e x' hx h => (step_audioUrls x e x' h).trans hx) rfl hrun
    have hs : s.PlayedSoFar :=
      run_invariant_of_allSteps
        (fun x e x' hx (he : undisturbed e = true) h => step_playedSoFar hx he h)
        (playedSoFar_opened chat audioUrls) (allSteps_of_forall fun e he _ => hes e he) hrun
    obtain ⟨k, hk, hplayed⟩ := hs.exists_played
    rw [hsame] at hk
    refine ⟨k, hk, hplayed, fun htimer hsilent => ?_⟩
    have hall := (hs.silent htimer hsilent).1
    rw [hplayed, hsame] at hall
    show k = audioUrls.length
    simpa using congrArg List.length hall
  · obtain ⟨s, hrun, htimer, hsilent⟩ := exists_playsAll chat audioUrls
    refine ⟨_, s, ?_, hrun, htimer, hsilent⟩
    rintro e (_ | ⟨_, he⟩)
    · rfl
    · obtain rfl := List.eq_of_mem_replicate he
      rfl

end ChatPlayer

/-! ## The top screen -/

/-- What a fetch of the conversations brings. -/
def fetched (b : Backend) (found : List ℕ) (now : Timestamp) : List Conversation :=
  (b.find .conversations found).map fun document => Conversation.init document.data now

/-- While nothing is searched for, a fetched row shows its conversation and opens it, once its clips
have URLs. -/
theorem exists_row {b : Backend} {found : List ℕ} {top : TopViewController} {row : ℕ} {v : Document}
    (htop : top.searchedConversations = []) (hv : (b.find .conversations found)[row]? = some v)
    {now : Timestamp} {s : ChatPlayer} (hs : ChatPlayer.init url (Conversation.init v.data now)
      (TopViewModel.chatViewColors ⟨Conversation.init v.data now, row⟩) = some s) :
    (top.fetchConversations (fetched b found now)).cells[row]? =
        some (some ⟨Conversation.init v.data now, row⟩) ∧
      (top.fetchConversations (fetched b found now)).didTapStartButton url
        ⟨Conversation.init v.data now, row⟩ = .presents s := by
  have hget : (fetched b found now)[row]? = some (Conversation.init v.data now) := by
    rw [fetched, List.getElem?_map, hv]
    rfl
  obtain ⟨hlt, hshown⟩ := List.getElem?_eq_some_iff.1 hget
  have hcell : (top.fetchConversations (fetched b found now)).cells[row]? =
      some (some ⟨Conversation.init v.data now, row⟩) := by
    simp [TopViewController.fetchConversations, TopViewController.reloadData,
      TopViewController.numberOfRowsInSection, TopViewController.cellForRowAt, htop, hlt, hshown]
  have hconversations : (top.fetchConversations (fetched b found now)).conversations[row]? =
      some (Conversation.init v.data now) := hget
  refine ⟨hcell, ?_⟩
  rw [TopViewController.didTapStartButton]
  dsimp only
  rw [hcell, hconversations]
  dsimp only
  rw [hs]

namespace World

variable {disks : ℕ → Disk}

end World

end DialogueApp
