import DialogueApp.Lib.LastPut
import DialogueApp.Proof.Dismissals
import DialogueApp.Proof.LineTable

/-!
# The order of the answers

Each answer overwrites the lists it is for, whatever has been put there by a later request, and the
answer to the create screen's own `fetchCharacters` is appended to the list view's characters.  So
the lists at the end are those of the answers that came last.
-/

namespace DialogueApp

open Runs

variable {sameName : String → String → Bool}

namespace Fetch

/-- The conversations that the completion puts in place. -/
def conversationsPut (f : Fetch) : Option (List Conversation) :=
  match f.purpose with
  | .conversations => some f.conversations
  | _ => none

/-- The characters that the completion puts in place. -/
def charactersPut (f : Fetch) : Option (List Character) :=
  match f.purpose with
  | .characters => some f.characters
  | .newDialogues characters => some characters
  | _ => none

/-- The dialogues that the completion puts in place. -/
def dialoguesPut (f : Fetch) : Option (List Dialogue) :=
  match f.purpose with
  | .dialogues => some f.dialogues
  | .newDialogues _ => some f.dialogues
  | .addedDialogues _ => some f.dialogues
  | _ => none

/-- The completion is that of an `uploadCharacter`. -/
def isNewInfo (f : Fetch) : Bool := f.purpose matches .newDialogues _

/-- The fetch has been answered with documents. -/
def answered (f : Fetch) : Bool := f.answer matches .documents _ _

/-- What the completion does to the characters of the list view. -/
def list (listed : List Character) (f : Fetch) : List Character :=
  match f.purpose with
  | .characters => listed ++ f.characters
  | .newDialogues characters => characters
  | _ => listed

/-- The fetch that the completion issues in turn. -/
def followUp (f : Fetch) : List Fetch :=
  match f.purpose with
  | .newCharacters => [⟨.newDialogues f.characters, .pending⟩]
  | _ => []

end Fetch

namespace Screens

/-! ## The lists and the arrivals -/

/-- The characters of the list view after these arrivals. -/
def listed (arrivals : List Fetch) : List Character := arrivals.foldl Fetch.list []

@[simp] theorem listed_concat (l : List Fetch) (f : Fetch) :
    listed (l ++ [f]) = f.list (listed l) := by
  rw [listed, List.foldl_append]
  rfl

/-- Where the create screen's own characters arrive and no `uploadCharacter` completes later, the
list view has no characters yet. -/
def ListsOnce (arrivals : List Fetch) : Prop :=
  ∀ before f after, arrivals = before ++ f :: after → f.purpose = .characters →
    (∀ g ∈ after, g.isNewInfo = false) → listed before = []

/-- Without an `uploadCharacter` the list view only grows. -/
theorem listed_prefix_append (l : List Fetch) {after : List Fetch}
    (h : ∀ g ∈ after, g.isNewInfo = false) : listed l <+: listed (l ++ after) := by
  induction after using List.reverseRecOn with
  | nil => simp
  | append_singleton after g ih =>
    have hgrow : listed (l ++ after) <+: listed (l ++ (after ++ [g])) := by
      rw [← List.append_assoc, listed_concat, Fetch.list]
      have hg := h g (List.mem_append_right _ (List.mem_singleton.2 rfl))
      unfold Fetch.isNewInfo at hg
      cases hpurpose : g.purpose with
      | characters => exact List.prefix_append _ _
      | newDialogues characters => simp [hpurpose] at hg
      | conversations | dialogues | newCharacters | addedDialogues => exact List.prefix_rfl
    exact (ih fun f hf => h f (List.mem_append_left _ hf)).trans hgrow

theorem listsOnce_concat (l : List Fetch) (g : Fetch) :
    ListsOnce (l ++ [g]) ↔
      (g.purpose = .characters → listed l = []) ∧ (g.isNewInfo = false → ListsOnce l) := by
  constructor
  · intro h
    refine ⟨fun hg => h l g [] rfl hg nofun, fun hg before f after hl hf hafter => ?_⟩
    refine h before f (after ++ [g]) (by rw [hl]; simp) hf fun x hx => ?_
    rcases List.mem_append.1 hx with hx | hx
    · exact hafter x hx
    · rw [List.mem_singleton.1 hx]
      exact hg
  · rintro ⟨hlast, hrest⟩ before f after hl hf hafter
    rcases List.eq_nil_or_concat after with rfl | ⟨after, x, rfl⟩
    · obtain ⟨rfl, hfg⟩ := List.append_inj' hl rfl
      obtain rfl : g = f := by simpa using hfg
      exact hlast hf
    · rw [List.concat_eq_append, ← List.cons_append, ← List.append_assoc] at hl
      obtain ⟨hinit, hgx⟩ := List.append_inj' hl rfl
      obtain rfl : g = x := by simpa using hgx
      rw [List.concat_eq_append] at hafter
      exact hrest (hafter g (by simp)) before f after hinit hf
        fun y hy => hafter y (List.mem_append_left _ hy)

theorem listsOnce_of_listed_eq_nil {l : List Fetch} (h : listed l = []) : ListsOnce l := by
  rintro before f after rfl hf hafter
  have hprefix : listed before <+: listed (before ++ f :: after) := by
    refine listed_prefix_append before fun g hg => ?_
    rcases List.mem_cons.1 hg with rfl | hg
    · simp [Fetch.isNewInfo, hf]
    · exact hafter g hg
  rw [h] at hprefix
  exact List.prefix_nil.1 hprefix

/-- The list view shows the characters put in place last exactly when it lists them once. -/
theorem listed_eq_iff (arrivals : List Fetch) :
    listed arrivals = (arrivals.lastPut Fetch.charactersPut).getD [] ↔ ListsOnce arrivals := by
  induction arrivals using List.reverseRecOn with
  | nil => exact iff_of_true rfl (listsOnce_of_listed_eq_nil rfl)
  | append_singleton l g ih =>
    rw [listed_concat, List.getD_lastPut_concat, listsOnce_concat, Fetch.list, Fetch.charactersPut,
      Fetch.isNewInfo]
    cases hpurpose : g.purpose with
    | characters =>
      simp only [Option.getD_some, forall_const]
      rw [List.append_left_eq_self]
      exact ⟨fun h => ⟨h, listsOnce_of_listed_eq_nil h⟩, And.left⟩
    | newDialogues characters => simp
    | conversations | dialogues | newCharacters | addedDialogues => simpa using ih

/-! ## What one event does to the lists -/

/-- The lists of the create screen that come from fetches. -/
def createLists (c : CreateChatController) : List Character × List Dialogue × List Character :=
  (c.characters, c.dialogues, c.listCharacters)

theorem createLists_setBottomDialogues (c : CreateChatController) (dialogues : List Dialogue) :
    createLists (c.setBottomDialogues dialogues) = createLists c := by
  unfold CreateChatController.setBottomDialogues
  split_ifs <;> rfl

theorem createLists_defaultUI (c : CreateChatController) (onScreen : ℕ → Bool) :
    createLists (c.defaultUI onScreen) = createLists c := by
  unfold CreateChatController.defaultUI
  dsimp only
  split_ifs <;> exact createLists_setBottomDialogues _ []

theorem createLists_step {c c' : CreateChatController} {e : CreateChatController.Event}
    (he : isInput e = true) (h : c.step sameName e = some c') : createLists c' = createLists c := by
  cases e with
  | didSelectRow row =>
    obtain ⟨dialogue, -, -, rfl⟩ := CreateChatController.step_didSelectRow h
    exact createLists_setBottomDialogues c _
  | selectCharacter | editTitle | showKeyboard =>
    obtain rfl := Option.some.inj h
    rfl
  | fetchCharacters | fetchDialogues | defaultUI | updateCharacter | addedDialogue |
    didTapRegisterButton => cases he

/-- No list has changed and nothing has arrived. -/
structure SameLists (s s' : Screens) : Prop where
  conversations : s'.top.conversations = s.top.conversations
  create : createLists s'.create = createLists s.create
  arrivals : s'.arrivals = s.arrivals

/-- The fetch `f` has been answered and its completion has run. -/
structure Arrives (s : Screens) (k : ℕ) (f : Fetch) (s' : Screens) : Prop where
  pending : s.fetches[k]? = some ⟨f.purpose, .pending⟩
  fetches : s'.fetches = s.fetches.set k f ++ f.followUp
  arrivals : s'.arrivals = s.arrivals ++ [f]
  conversations : s'.top.conversations = f.conversationsPut.getD s.top.conversations
  characters : s'.create.characters = f.charactersPut.getD s.create.characters
  dialogues : s'.create.dialogues = f.dialoguesPut.getD s.create.dialogues
  list : s'.create.listCharacters = f.list s.create.listCharacters

theorem dismiss_sameLists (s : Screens) (fetch : Option ℕ) :
    SameLists s (s.dismiss fetch) ∧ (s.dismiss fetch).fetches = s.fetches := by
  unfold dismiss
  split_ifs <;> exact ⟨⟨rfl, rfl, rfl⟩, rfl⟩

/-- A completion, run on the state in which the answer has been noted. -/
theorem handle_arrives {s : Screens} {k : ℕ} {f : Fetch}
    (hpending : s.fetches[k]? = some ⟨f.purpose, .pending⟩) :
    Arrives s k f ({ s with fetches := s.fetches.set k f, arrivals := s.arrivals ++ [f]
                     : Screens }.handle sameName k f) := by
  unfold handle
  cases hpurpose : f.purpose with
  | conversations =>
    obtain ⟨hlists, hfetches⟩ := dismiss_sameLists
      { s with top := s.top.fetchConversations f.conversations, fetches := s.fetches.set k f,
               arrivals := s.arrivals ++ [f] } (some k)
    have hheld := hlists.create
    simp only [createLists, Prod.mk.injEq] at hheld
    constructor
    · exact hpending
    · rw [hfetches, Fetch.followUp, hpurpose, List.append_nil]
    · exact hlists.arrivals
    · rw [hlists.conversations, Fetch.conversationsPut, hpurpose]
      rfl
    · rw [hheld.1, Fetch.charactersPut, hpurpose]
      rfl
    · rw [hheld.2.1, Fetch.dialoguesPut, hpurpose]
      rfl
    · rw [hheld.2.2, Fetch.list, hpurpose]
  | characters | dialogues | newCharacters | newDialogues | addedDialogues =>
    constructor
    · exact hpending
    · rw [Fetch.followUp, hpurpose]
      first | rfl | exact (List.append_nil _).symm
    · rfl
    · rw [Fetch.conversationsPut, hpurpose]
      rfl
    · rw [Fetch.charactersPut, hpurpose]
      rfl
    · rw [Fetch.dialoguesPut, hpurpose]
      rfl
    · rw [Fetch.list, hpurpose]
      rfl

/-- Every event issues fetches, or ends one without a snapshot, or lets one arrive. -/
theorem step_cases {s s' : Screens} {e : Event} (h : s.step sameName e = some s') :
    (SameLists s s' ∧ ∃ issued, (∀ f ∈ issued, f.answer = .pending) ∧
      s'.fetches = s.fetches ++ issued) ∨
    (SameLists s s' ∧ ∃ k purpose, s.fetches[k]? = some ⟨purpose, .pending⟩ ∧
      s'.fetches = s.fetches.set k ⟨purpose, .noSnapshot⟩) ∨
    ∃ k f, Arrives s k f s' := by
  have hquiet : SameLists s s' → s'.fetches = s.fetches → SameLists s s' ∧
      ∃ issued, (∀ f ∈ issued, f.answer = .pending) ∧ s'.fetches = s.fetches ++ issued :=
    fun hsame hfetches => ⟨hsame, [], nofun, by rw [hfetches, List.append_nil]⟩
  cases e with
  | answer k snapshot =>
    obtain ⟨purpose, hk, ⟨-, rfl⟩ | ⟨documents, now, -, rfl⟩⟩ := answer_cases h
    · exact Or.inr (Or.inl ⟨⟨rfl, rfl, rfl⟩, k, purpose, hk, rfl⟩)
    · exact Or.inr (Or.inr ⟨k, _, handle_arrives (f := ⟨purpose, .documents documents now⟩) hk⟩)
  | registrationAnswered k ok m =>
    obtain ⟨registrations, rfl | ⟨presentation, rfl⟩⟩ := registrationAnswered_cases h
    · exact Or.inl (hquiet ⟨rfl, rfl, rfl⟩ rfl)
    · exact Or.inl ⟨⟨rfl, rfl, rfl⟩, [⟨.conversations, .pending⟩], by simp, rfl⟩
  | didTapCreateButton onScreen =>
    simp only [step] at h
    split_ifs at h
    obtain rfl := Option.some.inj h
    unfold didTapCreateButton
    dsimp only
    split_ifs
    · exact Or.inl ⟨⟨rfl, createLists_defaultUI _ _, rfl⟩, [], nofun, (List.append_nil _).symm⟩
    · refine Or.inl ⟨⟨rfl, createLists_defaultUI _ _, rfl⟩,
        [⟨.characters, .pending⟩, ⟨.dialogues, .pending⟩], by simp, ?_⟩
      simp [viewDidLoad, issue]
  | didTapCloseButton =>
    simp only [step] at h
    split_ifs at h
    obtain rfl := Option.some.inj h
    obtain ⟨hlists, hfetches⟩ := dismiss_sameLists s none
    exact Or.inl (hquiet hlists hfetches)
  | screen e =>
    simp only [step] at h
    split_ifs at h with hinput
    obtain ⟨create, hcreate, rfl⟩ := Option.map_eq_some_iff.1 h
    rw [Bool.and_eq_true] at hinput
    exact Or.inl (hquiet ⟨rfl, createLists_step hinput.2 hcreate, rfl⟩ rfl)
  | didTapRegisterButton m =>
    simp only [step] at h
    split_ifs at h
    obtain rfl := Option.some.inj h
    exact Or.inl (hquiet ⟨rfl, rfl, rfl⟩ rfl)
  | characterWritten =>
    obtain rfl := Option.some.inj h
    exact Or.inl ⟨⟨rfl, rfl, rfl⟩, [⟨.newCharacters, .pending⟩], by simp, rfl⟩
  | dialogueWritten selected =>
    obtain rfl := Option.some.inj h
    exact Or.inl ⟨⟨rfl, rfl, rfl⟩, [⟨.addedDialogues selected, .pending⟩], by simp, rfl⟩

/-! ## The lists are those that arrived last -/

/-- Each list is the one put in place last. -/
structure Installed (s : Screens) : Prop where
  conversations : s.top.conversations = (s.arrivals.lastPut Fetch.conversationsPut).getD []
  characters : s.create.characters = (s.arrivals.lastPut Fetch.charactersPut).getD []
  dialogues : s.create.dialogues = (s.arrivals.lastPut Fetch.dialoguesPut).getD []
  list : s.create.listCharacters = listed s.arrivals

theorem installed_launched : launched.Installed := ⟨rfl, rfl, rfl, rfl⟩

theorem SameLists.installed {s s' : Screens} (h : SameLists s s') (hs : s.Installed) :
    s'.Installed := by
  have hheld := h.create
  simp only [createLists, Prod.mk.injEq] at hheld
  constructor
  · rw [h.conversations, h.arrivals, hs.conversations]
  · rw [hheld.1, h.arrivals, hs.characters]
  · rw [hheld.2.1, h.arrivals, hs.dialogues]
  · rw [hheld.2.2, h.arrivals, hs.list]

theorem step_installed (s : Screens) (e : Event) (s' : Screens) (hs : s.Installed)
    (h : s.step sameName e = some s') : s'.Installed := by
  rcases step_cases h with ⟨hsame, -⟩ | ⟨hsame, -⟩ | ⟨k, f, harrives⟩
  · exact hsame.installed hs
  · exact hsame.installed hs
  · constructor
    · rw [harrives.conversations, harrives.arrivals, List.getD_lastPut_concat, hs.conversations]
    · rw [harrives.characters, harrives.arrivals, List.getD_lastPut_concat, hs.characters]
    · rw [harrives.dialogues, harrives.arrivals, List.getD_lastPut_concat, hs.dialogues]
    · rw [harrives.list, harrives.arrivals, listed_concat, hs.list]

/-! ## Every answered fetch has arrived -/

/-- Every answered fetch has arrived, and an answered `fetchCharacter` of an `uploadCharacter` has
been followed by a `fetchDialogue`. -/
structure Noted (s : Screens) : Prop where
  arrived : ∀ f ∈ s.fetches, f.answered = true → f ∈ s.arrivals
  followed : ∀ f ∈ s.fetches, f.answered = true → f.purpose = .newCharacters →
    ∃ g ∈ s.fetches, g.purpose = .newDialogues f.characters

theorem noted_launched : launched.Noted := by
  constructor
  · intro f hf hanswered
    rw [List.mem_singleton.1 hf] at hanswered
    cases hanswered
  · intro f hf hanswered
    rw [List.mem_singleton.1 hf] at hanswered
    cases hanswered

/-- Where a fetch on its way is replaced by one of the same purpose, a purpose stays among the
fetches. -/
theorem exists_purpose_set {fetches : List Fetch} {k : ℕ} {f g : Fetch}
    (hk : fetches[k]? = some ⟨f.purpose, .pending⟩) (hg : g ∈ fetches) :
    ∃ g' ∈ fetches.set k f, g'.purpose = g.purpose := by
  obtain ⟨hlt, hkf⟩ := List.getElem?_eq_some_iff.1 hk
  obtain ⟨i, hi, rfl⟩ := List.getElem_of_mem hg
  by_cases hik : k = i
  · subst hik
    exact ⟨f, List.mem_set hlt f, by rw [hkf]⟩
  · refine ⟨fetches[i], ?_, rfl⟩
    rw [List.mem_iff_getElem?]
    exact ⟨i, by rw [List.getElem?_set_ne hik, List.getElem?_eq_getElem hi]⟩

/-- Where nothing arrives, answered fetches stay as they are and no purpose goes. -/
theorem SameLists.noted {s s' : Screens} (h : SameLists s s') (hs : s.Noted)
    (hold : ∀ f ∈ s'.fetches, f.answered = true → f ∈ s.fetches)
    (hkept : ∀ g ∈ s.fetches, ∃ g' ∈ s'.fetches, g'.purpose = g.purpose) : s'.Noted := by
  constructor
  · intro f hf hanswered
    rw [h.arrivals]
    exact hs.arrived f (hold f hf hanswered) hanswered
  · intro f hf hanswered hpurpose
    obtain ⟨g, hg, hgp⟩ := hs.followed f (hold f hf hanswered) hanswered hpurpose
    obtain ⟨g', hg', hgp'⟩ := hkept g hg
    exact ⟨g', hg', hgp'.trans hgp⟩

theorem Arrives.noted {s s' : Screens} {k : ℕ} {f : Fetch} (h : Arrives s k f s') (hs : s.Noted) :
    s'.Noted := by
  have hold : ∀ g ∈ s'.fetches, g.answered = true → g = f ∨ g ∈ s.fetches := by
    intro g hg hanswered
    rw [h.fetches] at hg
    rcases List.mem_append.1 hg with hg | hg
    · exact (List.mem_or_eq_of_mem_set hg).symm
    · unfold Fetch.followUp at hg
      split at hg
      · rw [List.mem_singleton.1 hg] at hanswered
        cases hanswered
      · cases hg
  constructor
  · intro g hg hanswered
    rw [h.arrivals, List.mem_append, List.mem_singleton]
    exact (hold g hg hanswered).symm.imp_left fun hmem => hs.arrived g hmem hanswered
  · intro g hg hanswered hpurpose
    rw [h.fetches]
    rcases hold g hg hanswered with rfl | hmem
    · refine ⟨⟨.newDialogues g.characters, .pending⟩, List.mem_append_right _ ?_, rfl⟩
      rw [Fetch.followUp, hpurpose]
      exact List.mem_singleton.2 rfl
    · obtain ⟨x, hx, hxp⟩ := hs.followed g hmem hanswered hpurpose
      obtain ⟨y, hy, hyp⟩ := exists_purpose_set h.pending hx
      exact ⟨y, List.mem_append_left _ hy, hyp.trans hxp⟩

theorem step_noted (s : Screens) (e : Event) (s' : Screens) (hs : s.Noted)
    (h : s.step sameName e = some s') : s'.Noted := by
  rcases step_cases h with ⟨hsame, issued, hissued, hfetches⟩ |
    ⟨hsame, k, purpose, hk, hfetches⟩ | ⟨k, f, harrives⟩
  · refine hsame.noted hs (fun f hf hanswered => ?_) fun g hg => ⟨g, ?_, rfl⟩
    · rw [hfetches] at hf
      refine (List.mem_append.1 hf).resolve_right fun hnew => ?_
      rw [Fetch.answered, hissued f hnew] at hanswered
      cases hanswered
    · rw [hfetches]
      exact List.mem_append_left _ hg
  · refine hsame.noted hs (fun f hf hanswered => ?_) fun g hg => ?_
    · rw [hfetches] at hf
      refine (List.mem_or_eq_of_mem_set hf).resolve_right fun hnew => ?_
      rw [hnew] at hanswered
      cases hanswered
    · rw [hfetches]
      exact exists_purpose_set hk hg
  · exact harrives.noted hs

/-! ## When everything has been answered -/

/-- No fetch is on its way, and none has come back without a snapshot. -/
def AllAnswered (s : Screens) : Prop := ∀ f ∈ s.fetches, f.answered = true

/-- The fetch of this collection issued last. -/
def lastIssued (s : Screens) (collection : Collection) : Option Fetch :=
  (s.fetches.filter fun f => f.purpose.collection = collection).getLast?

/-- The lists are the results of the fetches issued last, and the list view shows each character
as often as it is held. -/
structure ShowsLastIssued (s : Screens) : Prop where
  conversations : ∀ f, s.lastIssued .conversations = some f → s.top.conversations = f.conversations
  characters : ∀ f, s.lastIssued .characters = some f → s.create.characters = f.characters
  dialogues : ∀ f, s.lastIssued .dialogues = some f → s.create.dialogues = f.dialogues
  list : s.create.listCharacters = s.create.characters

/-- The condition on the order of the answers: of each collection, the list put in place last is the
result of the fetch issued last, and the create screen's own characters arrive while the list view
has none, or an `uploadCharacter` completes after them. -/
structure LastIssuedArrivesLast (s : Screens) : Prop where
  conversations : ∀ f l, s.lastIssued .conversations = some f →
    s.arrivals.lastPut Fetch.conversationsPut = some l → l = f.conversations
  characters : ∀ f l, s.lastIssued .characters = some f →
    s.arrivals.lastPut Fetch.charactersPut = some l → l = f.characters
  dialogues : ∀ f l, s.lastIssued .dialogues = some f →
    s.arrivals.lastPut Fetch.dialoguesPut = some l → l = f.dialogues
  list : ListsOnce s.arrivals

theorem mem_of_lastIssued {s : Screens} {collection : Collection} {f : Fetch}
    (h : s.lastIssued collection = some f) :
    f ∈ s.fetches ∧ f.purpose.collection = collection := by
  have hmem := List.mem_filter.1 (List.mem_of_getLast? h)
  exact ⟨hmem.1, of_decide_eq_true hmem.2⟩

theorem exists_conversationsPut {s : Screens} (hs : s.Noted) (hall : s.AllAnswered) {f : Fetch}
    (h : s.lastIssued .conversations = some f) :
    ∃ l, s.arrivals.lastPut Fetch.conversationsPut = some l := by
  obtain ⟨hmem, hcollection⟩ := mem_of_lastIssued h
  have harrived := hs.arrived f hmem (hall f hmem)
  cases hpurpose : f.purpose with
  | conversations => exact List.exists_lastPut harrived (by rw [Fetch.conversationsPut, hpurpose])
  | characters | dialogues | newCharacters | newDialogues | addedDialogues =>
    rw [hpurpose] at hcollection
    cases hcollection

theorem exists_charactersPut {s : Screens} (hs : s.Noted) (hall : s.AllAnswered) {f : Fetch}
    (h : s.lastIssued .characters = some f) :
    ∃ l, s.arrivals.lastPut Fetch.charactersPut = some l := by
  obtain ⟨hmem, hcollection⟩ := mem_of_lastIssued h
  have harrived := hs.arrived f hmem (hall f hmem)
  cases hpurpose : f.purpose with
  | characters => exact List.exists_lastPut harrived (by rw [Fetch.charactersPut, hpurpose])
  | newCharacters =>
    -- its result is put in place with the answer to the `fetchDialogue` that follows it
    obtain ⟨g, hg, hgp⟩ := hs.followed f hmem (hall f hmem) hpurpose
    exact List.exists_lastPut (hs.arrived g hg (hall g hg)) (by rw [Fetch.charactersPut, hgp])
  | conversations | dialogues | newDialogues | addedDialogues =>
    rw [hpurpose] at hcollection
    cases hcollection

theorem exists_dialoguesPut {s : Screens} (hs : s.Noted) (hall : s.AllAnswered) {f : Fetch}
    (h : s.lastIssued .dialogues = some f) :
    ∃ l, s.arrivals.lastPut Fetch.dialoguesPut = some l := by
  obtain ⟨hmem, hcollection⟩ := mem_of_lastIssued h
  have harrived := hs.arrived f hmem (hall f hmem)
  cases hpurpose : f.purpose with
  | dialogues | newDialogues | addedDialogues =>
    exact List.exists_lastPut harrived (by rw [Fetch.dialoguesPut, hpurpose])
  | conversations | characters | newCharacters =>
    rw [hpurpose] at hcollection
    cases hcollection

/-- The list put in place last is the one wanted. -/
theorem getD_eq_iff {α : Type*} {put : Option (List α)} {l wanted : List α} (h : put = some l) :
    put.getD [] = wanted ↔ ∀ l', put = some l' → l' = wanted := by
  subst h
  simp

/-- Once every fetch of a run has been answered, the lists are the results of the fetches issued
last exactly when these have arrived last. -/
theorem answersInAnyOrder_iff (sameName : String → String → Bool) (es : List Event) (s : Screens)
    (hrun : run (step sameName) launched es = some s) (hall : s.AllAnswered) :
    s.ShowsLastIssued ↔ s.LastIssuedArrivesLast := by
  have hs : s.Installed := run_invariant step_installed installed_launched hrun
  have hnoted : s.Noted := run_invariant step_noted noted_launched hrun
  have hconversations : ∀ f, s.lastIssued .conversations = some f →
      (s.top.conversations = f.conversations ↔
        ∀ l, s.arrivals.lastPut Fetch.conversationsPut = some l → l = f.conversations) := by
    intro f hf
    obtain ⟨l, hl⟩ := exists_conversationsPut hnoted hall hf
    rw [hs.conversations]
    exact getD_eq_iff hl
  have hcharacters : ∀ f, s.lastIssued .characters = some f →
      (s.create.characters = f.characters ↔
        ∀ l, s.arrivals.lastPut Fetch.charactersPut = some l → l = f.characters) := by
    intro f hf
    obtain ⟨l, hl⟩ := exists_charactersPut hnoted hall hf
    rw [hs.characters]
    exact getD_eq_iff hl
  have hdialogues : ∀ f, s.lastIssued .dialogues = some f →
      (s.create.dialogues = f.dialogues ↔
        ∀ l, s.arrivals.lastPut Fetch.dialoguesPut = some l → l = f.dialogues) := by
    intro f hf
    obtain ⟨l, hl⟩ := exists_dialoguesPut hnoted hall hf
    rw [hs.dialogues]
    exact getD_eq_iff hl
  have hlist : s.create.listCharacters = s.create.characters ↔ ListsOnce s.arrivals := by
    rw [hs.list, hs.characters]
    exact listed_eq_iff s.arrivals
  constructor
  · intro h
    exact ⟨fun f l hf => (hconversations f hf).1 (h.conversations f hf) l,
      fun f l hf => (hcharacters f hf).1 (h.characters f hf) l,
      fun f l hf => (hdialogues f hf).1 (h.dialogues f hf) l, hlist.1 h.list⟩
  · intro h
    exact ⟨fun f hf => (hconversations f hf).2 fun l => h.conversations f l hf,
      fun f hf => (hcharacters f hf).2 fun l => h.characters f l hf,
      fun f hf => (hdialogues f hf).2 fun l => h.dialogues f l hf, hlist.2 h.list⟩

/-- The document of a character. -/
def anna : Document := ⟨"anna", CharacterService.characterData "anna" "Anna" "image" 0⟩

/-- The create screen is opened and the three fetches are answered in the order of their issue. -/
def openInOrder : List Event :=
  [.didTapCreateButton fun _ => true, .answer 0 (some ([], 0)), .answer 1 (some ([anna], 0)),
   .answer 2 (some ([], 0))]

theorem answersInAnyOrder_openInOrder :
    ∃ s, run (step (· == ·)) launched openInOrder = some s ∧ s.ShowsLastIssued := by
  have hrun : ∃ s, run (step (· == ·)) launched openInOrder = some s ∧ s.AllAnswered ∧
      s.LastIssuedArrivesLast := by
    refine ⟨_, rfl, List.all_eq_true.1 rfl, ?_, ?_, ?_, (listed_eq_iff _).1 rfl⟩
    all_goals
      intro f l hf hl
      cases hf
      cases hl
      rfl
  obtain ⟨s, hrun, hall, hlast⟩ := hrun
  exact ⟨s, hrun, (answersInAnyOrder_iff (· == ·) openInOrder s hrun hall).2 hlast⟩

/-- A character is registered before the first characters of the create screen have arrived. -/
def registerBeforeCharacters : List Event :=
  [.didTapCreateButton fun _ => true, .characterWritten, .answer 3 (some ([anna], 0)),
   .answer 4 (some ([], 0)), .answer 1 (some ([anna], 0)), .answer 0 (some ([], 0)),
   .answer 2 (some ([], 0))]

/-- The character is then listed twice. -/
theorem not_showsLastIssued_registerBeforeCharacters :
    ∃ s, run (step (· == ·)) launched registerBeforeCharacters = some s ∧ s.AllAnswered ∧
      s.create.listCharacters.length = 2 ∧ ¬ s.ShowsLastIssued := by
  refine ⟨_, rfl, List.all_eq_true.1 rfl, rfl, fun h => ?_⟩
  have hlen := congrArg List.length h.list
  cases hlen

end Screens

end DialogueApp
