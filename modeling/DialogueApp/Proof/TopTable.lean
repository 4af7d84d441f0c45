import DialogueApp.Controllers.TopViewController
import DialogueApp.Lib.Runs
import DialogueApp.Proof.Opening
import Mathlib.Data.List.Infix

/-!
# The rows of the top screen

The table always shows `shownConversations`, one of the controller's two lists, from its first entry
on.  A tap opens the conversation of its row as long as the shown list is a prefix of the fetched one
and the clips of the conversation have URLs; the rows answer the search field as long as each edit's
fragment filters like the whole text.
-/

namespace DialogueApp

open Runs

/-- A filtered list is a prefix of the list when no entry that stays comes after one that goes. -/
theorem filter_prefix_iff {α : Type*} (p : α → Bool) (l : List α) :
    l.filter p <+: l ↔ l.Pairwise fun a b => p b = true → p a = true := by
  induction l with
  | nil => simp
  | cons a l ih =>
    rw [List.pairwise_cons]
    by_cases ha : p a = true
    · rw [List.filter_cons_of_pos ha, List.cons_prefix_cons, ih]
      simp [ha]
    · rw [List.filter_cons_of_neg ha]
      constructor
      · intro h
        have hnone : l.filter p = [] := by
          rw [List.prefix_cons_iff] at h
          rcases h with h | ⟨t, ht, -⟩
          · exact h
          · have hmem : a ∈ l.filter p := by
              rw [ht]
              exact List.mem_cons_self
            exact absurd (List.mem_filter.1 hmem).2 ha
        rw [List.filter_eq_nil_iff] at hnone
        refine ⟨fun b hb hp => absurd hp (hnone b hb), ?_⟩
        exact List.pairwise_of_forall_mem_list fun b _ c hc hp => absurd hp (hnone c hc)
      · rintro ⟨hall, -⟩
        have hnone : l.filter p = [] :=
          List.filter_eq_nil_iff.2 fun b hb hp => ha (hall b hb hp)
        rw [hnone]
        exact List.nil_prefix

/-- Two filters of one list agree when they agree on its entries. -/
theorem filter_eq_filter_iff {α : Type*} {p q : α → Bool} {l : List α} :
    l.filter p = l.filter q ↔ ∀ a ∈ l, p a = true ↔ q a = true := by
  constructor
  · intro h a ha
    have hp : a ∈ l.filter p ↔ p a = true := by simp [ha]
    have hq : a ∈ l.filter q ↔ q a = true := by simp [ha]
    rw [← hp, ← hq, h]
  · intro h
    exact List.filter_congr fun a ha => Bool.eq_iff_iff.2 (h a ha)

namespace TopViewController

/-- The list whose entries the rows show. -/
def shownConversations (s : TopViewController) : List Conversation :=
  if s.searchedConversations = [] then s.conversations else s.searchedConversations

/-- The table shows the current list, row by row. -/
def Displays (s : TopViewController) : Prop :=
  s.cells = s.shownConversations.mapIdx fun row conversation =>
    some { conversation, cellNumber := row }

theorem numberOfRowsInSection_eq (s : TopViewController) :
    s.numberOfRowsInSection = s.shownConversations.length := by
  unfold numberOfRowsInSection shownConversations
  simp only [List.length_eq_zero_iff]
  split_ifs <;> rfl

theorem cellForRowAt_eq (s : TopViewController) (row : ℕ) :
    s.cellForRowAt row =
      s.shownConversations[row]?.map fun conversation => { conversation, cellNumber := row } := by
  unfold cellForRowAt shownConversations
  simp only [List.length_eq_zero_iff]
  split_ifs <;> rfl

theorem displays_reloadData (s : TopViewController) : s.reloadData.Displays := by
  show (List.range s.numberOfRowsInSection).map s.cellForRowAt = s.shownConversations.mapIdx _
  rw [numberOfRowsInSection_eq]
  apply List.ext_getElem?
  intro row
  rw [List.getElem?_mapIdx, List.getElem?_map]
  by_cases hrow : row < s.shownConversations.length
  · rw [List.getElem?_range hrow, List.getElem?_eq_getElem hrow]
    simp [cellForRowAt_eq, hrow]
  · rw [List.getElem?_eq_none (by simpa using hrow), List.getElem?_eq_none (by simpa using hrow)]
    rfl

variable {url : URLParser} {contains : String → String → Bool}

/-- Every event leaves the table showing the current list. -/
theorem step_displays (s : TopViewController) (e : Event) (s' : TopViewController)
    (hs : s.Displays) (h : s.step contains e = some s') : s'.Displays := by
  cases e with
  | fetchConversations conversations =>
    obtain rfl := Option.some.inj h
    exact displays_reloadData _
  | edit range text =>
    simp only [step] at h
    split_ifs at h
    obtain rfl := Option.some.inj h
    exact displays_reloadData { s with
      searchedConversations := s.conversations.filter fun c => contains c.title text }
  | didCancel =>
    obtain rfl := Option.some.inj h
    exact hs

theorem displays_new : new.Displays := rfl

/-- A search by a fragment shows every conversation where no title has the fragment. -/
theorem shownConversations_didChangeText (s : TopViewController) (text : String) :
    (s.didChangeText contains text).shownConversations =
      s.conversations.filter fun c =>
        decide ((∃ d ∈ s.conversations, contains d.title text = true) →
          contains c.title text = true) := by
  show (if s.conversations.filter _ = [] then s.conversations else s.conversations.filter _) = _
  split_ifs with hnone
  · symm
    rw [List.filter_eq_self]
    intro c hc
    rw [List.filter_eq_nil_iff] at hnone
    rw [decide_eq_true_iff]
    rintro ⟨d, hd, hmatch⟩
    exact absurd hmatch (hnone d hd)
  · apply List.filter_congr
    intro c hc
    obtain ⟨d, hd⟩ := List.exists_mem_of_ne_nil _ hnone
    have hsome : ∃ d ∈ s.conversations, contains d.title text = true :=
      ⟨d, (List.mem_filter.1 hd).1, (List.mem_filter.1 hd).2⟩
    simp [hsome]

/-! ## Taps -/

/-- A tap on any row opens the chat screen of the conversation that `cellForRowAt` has put there. -/
def OpensWhatItShows (url : URLParser) (s : TopViewController) : Prop :=
  ∀ (row : ℕ) (cell : Option TopViewModel), s.cells[row]? = some cell →
    ∃ viewModel vc, cell = some viewModel ∧
      ChatPlayer.init url viewModel.conversation viewModel.chatViewColors = some vc ∧
      s.didTapStartButton url viewModel = .presents vc

theorem getElem?_cells {s : TopViewController} (hs : s.Displays) (row : ℕ) :
    s.cells[row]? =
      s.shownConversations[row]?.map fun conversation =>
        some { conversation, cellNumber := row } := by
  rw [hs, List.getElem?_mapIdx]

/-- A tap on a cell of the table opens its conversation when the fetched list has it in that row and
its clips have URLs. -/
theorem didTapStartButton_iff {s : TopViewController} {viewModel : TopViewModel}
    {cell : Option TopViewModel} (hcell : s.cells[viewModel.cellNumber]? = some cell) :
    (∃ vc, ChatPlayer.init url viewModel.conversation viewModel.chatViewColors = some vc ∧
      s.didTapStartButton url viewModel = .presents vc) ↔
      s.conversations[viewModel.cellNumber]? = some viewModel.conversation ∧
        viewModel.conversation.Opens url := by
  simp only [didTapStartButton, hcell]
  constructor
  · rintro ⟨vc, hinit, htap⟩
    refine ⟨?_, init_isSome_iff.1 (by rw [hinit]; rfl)⟩
    split at htap
    · cases htap
    · rename_i conversation hget
      split at htap
      · cases htap
      · rename_i vc' hinit'
        obtain rfl := StartTap.presents.inj htap
        have hchat := (init_chat hinit').symm.trans (init_chat hinit)
        rw [hget, (Chat.mk.inj (Option.some.inj hchat)).1]
  · rintro ⟨hget, hopens⟩
    have hmade : (ChatPlayer.init url viewModel.conversation viewModel.chatViewColors).isSome :=
      init_isSome_iff.2 hopens
    obtain ⟨vc, hinit⟩ := Option.isSome_iff_exists.1 hmade
    refine ⟨vc, hinit, ?_⟩
    rw [hget]
    dsimp only
    rw [hinit]

theorem opensWhatItShows_iff_shown {s : TopViewController} (hs : s.Displays) :
    s.OpensWhatItShows url ↔
      s.shownConversations <+: s.conversations ∧ ∀ c ∈ s.shownConversations, c.Opens url := by
  rw [List.prefix_iff_getElem?]
  constructor
  · intro h
    have hrows : ∀ row (hrow : row < s.shownConversations.length),
        s.conversations[row]? = some s.shownConversations[row] ∧
          s.shownConversations[row].Opens url := by
      intro row hrow
      have hcell := getElem?_cells hs row
      rw [List.getElem?_eq_getElem hrow, Option.map_some] at hcell
      obtain ⟨viewModel, vc, hview, hinit, htap⟩ := h row _ hcell
      obtain rfl := Option.some.inj hview
      exact (didTapStartButton_iff hcell).1 ⟨vc, hinit, htap⟩
    refine ⟨fun row hrow => (hrows row hrow).1, fun c hc => ?_⟩
    obtain ⟨row, hrow, rfl⟩ := List.getElem_of_mem hc
    exact (hrows row hrow).2
  · rintro ⟨hget, hopens⟩ row cell hcell
    have hshown := hcell
    rw [getElem?_cells hs row, Option.map_eq_some_iff] at hshown
    obtain ⟨conversation, hconversation, rfl⟩ := hshown
    obtain ⟨hrow, rfl⟩ := List.getElem?_eq_some_iff.1 hconversation
    have htap := @didTapStartButton_iff url s ⟨s.shownConversations[row], row⟩ _ hcell
    obtain ⟨vc, hinit, htap⟩ := htap.2 ⟨hget row hrow, hopens _ (List.getElem_mem hrow)⟩
    exact ⟨_, vc, rfl, hinit, htap⟩

theorem opensWhatItShows_iff {s : TopViewController} (hs : s.Displays) :
    s.OpensWhatItShows url ↔
      s.searchedConversations <+: s.conversations ∧ ∀ c ∈ s.shownConversations, c.Opens url := by
  rw [opensWhatItShows_iff_shown hs]
  refine and_congr_left fun _ => ?_
  rw [shownConversations]
  split_ifs with hnone
  · simp [hnone]
  · rfl

/-- The condition under which an event keeps every row opening what it shows.  A fetched list begins
with the search result, and has URLs for the clips of its conversations where it is shown itself.  Of
an edit: no conversation with the fragment in its title comes after one without it, and those with it
have URLs for their clips, or all where no title has it. -/
def KeepsRows (url : URLParser) (contains : String → String → Bool) (s : TopViewController) :
    Event → Prop
  | .fetchConversations conversations =>
    s.searchedConversations <+: conversations ∧
      (s.searchedConversations = [] → ∀ c ∈ conversations, c.Opens url)
  | .edit _ text =>
    (s.conversations.Pairwise fun c d =>
      contains d.title text = true → contains c.title text = true) ∧
      ∀ c ∈ s.conversations,
        ((∃ d ∈ s.conversations, contains d.title text = true) → contains c.title text = true) →
          c.Opens url
  | .didCancel => True

theorem step_opensWhatItShows (s : TopViewController) (e : Event) (s' : TopViewController)
    (hs : s.Displays) (hopens : s.OpensWhatItShows url) (h : s.step contains e = some s') :
    s'.OpensWhatItShows url ↔ KeepsRows url contains s e := by
  have hs' := step_displays s e s' hs h
  cases e with
  | fetchConversations conversations =>
    rw [opensWhatItShows_iff hs']
    obtain rfl := Option.some.inj h
    refine and_congr_right fun _ => ?_
    show (∀ c ∈ if s.searchedConversations = [] then conversations else s.searchedConversations,
      c.Opens url) ↔ _
    split_ifs with hnone
    · exact ⟨fun h _ => h, fun h => h hnone⟩
    · have hshown := ((opensWhatItShows_iff hs).1 hopens).2
      rw [shownConversations, if_neg hnone] at hshown
      exact iff_of_true hshown fun h => absurd h hnone
  | edit range text =>
    rw [opensWhatItShows_iff hs']
    simp only [step] at h
    split_ifs at h
    obtain rfl := Option.some.inj h
    refine and_congr
      (filter_prefix_iff (fun c : Conversation => contains c.title text) s.conversations) ?_
    show (∀ c ∈ (s.didChangeText contains text).shownConversations, c.Opens url) ↔ _
    rw [shownConversations_didChangeText]
    simp only [List.mem_filter, decide_eq_true_eq, and_imp]
  | didCancel =>
    obtain rfl := Option.some.inj h
    exact iff_of_true hopens trivial

theorem opensWhatItShows_new : new.OpensWhatItShows url := by
  intro row cell h
  cases h

/-- In every run, each row opens what it shows after every event exactly when every event meets
`KeepsRows`. -/
theorem rowsOpenTheirConversation_iff (url : URLParser) (contains : String → String → Bool)
    (es : List Event) :
    EveryState (step contains) (OpensWhatItShows url) new es ↔
      AllSteps (step contains) (KeepsRows url contains) new es :=
  everyState_iff_allSteps step_displays step_opensWhatItShows displays_new opensWhatItShows_new

/-- Whether the text stands in the title, by characters; no title contains the empty text. -/
def containsText (title text : String) : Bool :=
  !text.isEmpty && decide (text.toList <:+: title.toList)

/-- A conversation with this title. -/
def titled (title : String) : Conversation where
  audioUrls := []
  caracterImageUrls := []
  topCaracterImageUrls := []
  dialogs := []
  title := title
  timeStamp := 0
  color := "blue"

/-- Two conversations, and a search that finds the second. -/
def searchSecond : List Event :=
  [.fetchConversations [titled "a", titled "b"], .edit ⟨"", "", ""⟩ "b"]

theorem not_opens_searchSecond :
    ¬ EveryState (step containsText) (OpensWhatItShows .nonempty) new searchSecond := by
  rw [everyState_iff_allSteps step_displays step_opensWhatItShows displays_new
    opensWhatItShows_new]
  intro h
  have hedit : KeepsRows .nonempty containsText (new.fetchConversations [titled "a", titled "b"])
      (.edit ⟨"", "", ""⟩ "b") := ((h _ rfl).2 _ rfl).1
  have hfirst := List.rel_of_pairwise_cons hedit.1 (List.mem_singleton.2 rfl)
  exact absurd (hfirst (by decide)) (by decide)

/-! ## The search -/

/-- The conversations of the rows. -/
def rowsShown (s : TopViewController) : List (Option Conversation) :=
  s.cells.map (Option.map TopViewModel.conversation)

/-- Whether a conversation answers the text of the search field. -/
def Answers (contains : String → String → Bool) (text : String) (c : Conversation) : Bool :=
  decide (text = "") || contains c.title text

/-- The rows are the held conversations that answer the search field, in order. -/
def ShowsAnswers (contains : String → String → Bool) (s : TopViewController) : Prop :=
  s.rowsShown = (s.conversations.filter (Answers contains s.searchText)).map some

theorem rowsShown_eq {s : TopViewController} (hs : s.Displays) :
    s.rowsShown = s.shownConversations.map some := by
  apply List.ext_getElem?
  intro row
  rw [rowsShown, List.getElem?_map, getElem?_cells hs, List.getElem?_map, Option.map_map]
  rfl

theorem showsAnswers_iff {s : TopViewController} (hs : s.Displays) :
    s.ShowsAnswers contains ↔
      s.shownConversations = s.conversations.filter (Answers contains s.searchText) := by
  rw [ShowsAnswers, rowsShown_eq hs]
  exact (List.map_injective_iff.2 fun _ _ => Option.some.inj).eq_iff

/-- The condition under which an event keeps the rows answering the search field.  An edit: the
titles that contain the new text are those that contain the fragment, or all where none does.  A
fetch: where no search result shows, every fetched conversation answers the field; otherwise the
fetched list has the same answers as the list held before. -/
def KeepsAnswers (contains : String → String → Bool) (s : TopViewController) : Event → Prop
  | .fetchConversations conversations =>
    if s.searchedConversations = [] then
      ∀ c ∈ conversations, Answers contains s.searchText c = true
    else
      conversations.filter (Answers contains s.searchText) =
        s.conversations.filter (Answers contains s.searchText)
  | .edit range text =>
    ∀ c ∈ s.conversations,
      ((∃ d ∈ s.conversations, contains d.title text = true) → contains c.title text = true) ↔
        Answers contains (range.before ++ text ++ range.after) c = true
  | .didCancel => True

theorem step_showsAnswers (s : TopViewController) (e : Event) (s' : TopViewController)
    (hs : s.Displays) (hshows : s.ShowsAnswers contains) (h : s.step contains e = some s') :
    s'.ShowsAnswers contains ↔ KeepsAnswers contains s e := by
  have hs' := step_displays s e s' hs h
  cases e with
  | fetchConversations conversations =>
    rw [showsAnswers_iff hs']
    rw [showsAnswers_iff hs, shownConversations] at hshows
    obtain rfl := Option.some.inj h
    show (if s.searchedConversations = [] then conversations else s.searchedConversations) =
      conversations.filter (Answers contains s.searchText) ↔ _
    simp only [KeepsAnswers]
    split_ifs with hnone
    · rw [eq_comm, List.filter_eq_self]
    · rw [if_neg hnone] at hshows
      rw [hshows, eq_comm]
  | edit range text =>
    rw [showsAnswers_iff hs']
    simp only [step] at h
    split_ifs at h
    obtain rfl := Option.some.inj h
    show (s.didChangeText contains text).shownConversations =
      s.conversations.filter (Answers contains (range.before ++ text ++ range.after)) ↔ _
    rw [shownConversations_didChangeText, filter_eq_filter_iff]
    simp only [decide_eq_true_eq, KeepsAnswers]
  | didCancel =>
    obtain rfl := Option.some.inj h
    exact iff_of_true hshows trivial

theorem showsAnswers_new : new.ShowsAnswers contains := rfl

/-- In every run, the rows answer the search field after every event exactly when every event meets
`KeepsAnswers`. -/
theorem rowsAnswerSearch_iff (contains : String → String → Bool) (es : List Event) :
    EveryState (step contains) (ShowsAnswers contains) new es ↔
      AllSteps (step contains) (KeepsAnswers contains) new es :=
  everyState_iff_allSteps step_displays step_showsAnswers displays_new showsAnswers_new

/-- Type `ab`, letter by letter. -/
def typeTwoLetters : List Event :=
  [.fetchConversations [titled "ab", titled "b"], .edit ⟨"", "", ""⟩ "a", .edit ⟨"a", "", ""⟩ "b"]

theorem not_shows_typeTwoLetters :
    ¬ EveryState (step containsText) (ShowsAnswers containsText) new typeTwoLetters := by
  rw [everyState_iff_allSteps step_displays step_showsAnswers displays_new showsAnswers_new]
  intro h
  have hedit := (((h _ rfl).2 _ rfl).2 _ rfl).1 (titled "b")
    (List.mem_cons_of_mem _ List.mem_cons_self)
  exact absurd (hedit.1 fun _ => by decide) (by decide)

end TopViewController

end DialogueApp
