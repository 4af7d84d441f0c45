import DialogueApp.Client

/-!
# The steps of a client

`Stepped` lists what one event of a client can do, and `CallStep` where each upload after it comes
from; the registration screens keep their kinds (`step_kinds`).  The invariants of a client are
derived from these.
-/

namespace DialogueApp

/-- A screen for a further line has been opened with its character. -/
def RegisterScreen.Kind.HasInfo : RegisterScreen.Kind → Prop
  | .character => True
  | .dialogue characterInfo _ => characterInfo ≠ none

namespace Client

/-! ## What a step does -/

/-- The event of the create screen that an event of the client is. -/
def screenEvent (b : Backend) (cl : Client) : Event → Option CreateChatController.Event
  | .fetchCharacters found now =>
    some (.fetchCharacters
      ((b.find .characters found).map fun document => Character.init document.data now))
  | .fetchDialogues found now =>
    some (.fetchDialogues
      ((b.find .dialogues found).map fun document => Dialogue.init document.data now))
  | .selectCharacter cell => cl.create.listCharacters[cell]?.map .selectCharacter
  | .didSelectRow row => some (.didSelectRow row)
  | .defaultUI onScreen => some (.defaultUI onScreen)
  | .editTitle text => some (.editTitle text)
  | .showKeyboard height => some (.showKeyboard height)
  | _ => none

/-- The answer to a request of an upload, the only event that may write the store. -/
def Event.isAnswer : Event → Bool
  | .answer _ _ => true
  | _ => false

/-- The steps of a client, by what they do. -/
inductive Stepped (names : Names) (url : URLParser) (client : ℕ) (b : Backend) (cl : Client) :
    Event → Backend → Client → Prop
  | screen {e : Event} {e' : CreateChatController.Event} {create : CreateChatController}
      (he : cl.screenEvent b e = some e') (h : cl.create.step names.sameName e' = some create) :
      Stepped names url client b cl e b { cl with create }
  | registerConversation {now : Timestamp} (h : cl.create.registerButtonHidden = false) :
      Stepped names url client b cl (.didTapRegisterButton now) b
        ({ cl with create := cl.create.didTapRegisterButton.1 }.startCall names client .conversation
          ((fun _ => .conversation) <$> cl.create.didTapRegisterButton.2) now)
  /-- No character is selected, or its picture has no URL. -/
  | addNothing : Stepped names url client b cl .didTapAddDialogueButton b cl
  | addDialogue {selectedCharacter : Character} {imageUrl : URL}
      (hselected : cl.create.selectedCharacter = some selectedCharacter)
      (hurl : url.parse selectedCharacter.imageUrl = some imageUrl) :
      Stepped names url client b cl .didTapAddDialogueButton b
        { cl with screens := cl.screens ++
            [RegisterScreen.new (.dialogue
              (some ⟨selectedCharacter.characterID, imageUrl, selectedCharacter.character⟩)
              selectedCharacter)] }
  | showRegister :
      Stepped names url client b cl .showRegisterViewController b cl.showRegisterViewController
  | back {screen : ℕ} {s : RegisterScreen} (hs : cl.screens[screen]? = some s) :
      Stepped names url client b cl (.didTapBackButton screen) b
        { cl with screens := cl.screens.set screen { s with onStack := false } }
  | onScreen {screen : ℕ} {s : RegisterScreen} {e : RegisterScreen.Event}
      (hs : cl.screens[screen]? = some s) :
      Stepped names url client b cl (.onScreen screen e) b
        { cl with screens := cl.screens.set screen (s.handle cl.device screen e).1
                  device := (s.handle cl.device screen e).2 }
  | registerCharacter {screen : ℕ} {s : RegisterScreen} {now : Timestamp}
      (hs : cl.screens[screen]? = some s) (hkind : s.kind = .character) :
      Stepped names url client b cl (.register screen now) b
        (cl.uploadCharacter names client screen s now)
  | registerDialogue {screen : ℕ} {s : RegisterScreen} {now : Timestamp} {info : CharacterInfo}
      {selected : Character} (hs : cl.screens[screen]? = some s)
      (hkind : s.kind = .dialogue (some info) selected) :
      Stepped names url client b cl (.register screen now) b
        (cl.uploadDialogue names client screen s (some info) now)
  /-- The screen has no character. -/
  | registerNothing {screen : ℕ} {s : RegisterScreen} {now : Timestamp} {selected : Character}
      (hs : cl.screens[screen]? = some s) (hkind : s.kind = .dialogue none selected) :
      Stepped names url client b cl (.register screen now) b (cl.showLoader true)
  | pickerOpening {screen : ℕ} :
      Stepped names url client b cl (.didTapCharactorButton screen) b
        { cl.showLoader true with pickersOpening := cl.pickersOpening + 1 }
  | pickerPresented (h : 0 < cl.pickersOpening) :
      Stepped names url client b cl .pickerPresented b
        { cl.showLoader false with pickersOpening := cl.pickersOpening - 1 }
  | answer {k : ℕ} {o : Outcome} {b' : Backend} {cl' : Client}
      (h : cl.answer names client b k o = some (b', cl')) :
      Stepped names url client b cl (.answer k o) b' cl'

section stepped

variable {names : Names} {url : URLParser} {client : ℕ} {b b' : Backend} {cl cl' : Client}

theorem Stepped.onCreate {e : Event} {e' : CreateChatController.Event}
    (he : cl.screenEvent b e = some e') (h : cl.onCreate names b e' = some (b', cl')) :
    Stepped names url client b cl e b' cl' := by
  obtain ⟨create, hcreate, heq⟩ := Option.map_eq_some_iff.1 h
  obtain ⟨rfl, rfl⟩ := Prod.mk.inj heq
  exact .screen he hcreate

theorem Stepped.register {screen : ℕ} {now : Timestamp}
    (h : cl.register names client screen now = some cl') :
    Stepped names url client b cl (.register screen now) b cl' := by
  unfold Client.register at h
  split at h
  · rename_i s hs
    split_ifs at h
    split at h
    · rename_i hkind
      obtain rfl := Option.some.inj h
      exact .registerCharacter hs hkind
    · rename_i characterInfo selected hkind
      obtain rfl := Option.some.inj h
      cases characterInfo with
      | none => exact .registerNothing hs hkind
      | some info => exact .registerDialogue hs hkind
  · cases h

theorem Stepped.didTapAddDialogueButton :
    Stepped names url client b cl .didTapAddDialogueButton b (cl.didTapAddDialogueButton url) := by
  unfold Client.didTapAddDialogueButton
  split
  · exact .addNothing
  · rename_i selectedCharacter hselected
    split
    · exact .addNothing
    · rename_i imageUrl hurl
      exact .addDialogue hselected hurl

theorem step_cases {e : Event} (h : cl.step names url client b e = some (b', cl')) :
    Stepped names url client b cl e b' cl' := by
  cases e with
  | fetchCharacters found now => exact .onCreate rfl h
  | fetchDialogues found now => exact .onCreate rfl h
  | selectCharacter cell =>
    simp only [step] at h
    split at h
    · rename_i character hget
      exact .onCreate (by rw [screenEvent, hget]; rfl) h
    · cases h
  | didSelectRow row => exact .onCreate rfl h
  | defaultUI onScreen => exact .onCreate rfl h
  | editTitle text => exact .onCreate rfl h
  | showKeyboard height => exact .onCreate rfl h
  | didTapRegisterButton now =>
    simp only [step] at h
    split_ifs at h with hhidden
    obtain ⟨rfl, rfl⟩ := Prod.mk.inj (Option.some.inj h)
    exact .registerConversation (Bool.eq_false_iff.2 hhidden)
  | didTapAddDialogueButton =>
    simp only [step] at h
    split_ifs at h
    obtain ⟨rfl, rfl⟩ := Prod.mk.inj (Option.some.inj h)
    exact .didTapAddDialogueButton
  | showRegisterViewController =>
    obtain ⟨rfl, rfl⟩ := Prod.mk.inj (Option.some.inj h)
    exact .showRegister
  | didTapBackButton screen =>
    simp only [step, withScreen] at h
    split at h
    · rename_i s hs
      split_ifs at h
      obtain ⟨rfl, rfl⟩ := Prod.mk.inj (Option.some.inj h)
      exact .back hs
    · cases h
  | onScreen screen e =>
    simp only [step] at h
    split at h
    · rename_i s hs
      split_ifs at h
      obtain ⟨rfl, rfl⟩ := Prod.mk.inj (Option.some.inj h)
      exact .onScreen hs
    · cases h
  | register screen now =>
    obtain ⟨cl₁, hregister, heq⟩ := Option.map_eq_some_iff.1 h
    obtain ⟨rfl, rfl⟩ := Prod.mk.inj heq
    exact .register hregister
  | didTapCharactorButton screen =>
    simp only [step, withScreen] at h
    split at h
    · split_ifs at h
      obtain ⟨rfl, rfl⟩ := Prod.mk.inj (Option.some.inj h)
      exact .pickerOpening
    · cases h
  | pickerPresented =>
    simp only [step] at h
    split_ifs at h with hnone
    obtain ⟨rfl, rfl⟩ := Prod.mk.inj (Option.some.inj h)
    exact .pickerPresented (Nat.pos_of_ne_zero hnone)
  | answer k o => exact .answer h

end stepped

/-! ## What an answer does -/

section answer

variable {names : Names} {client : ℕ} {b b' : Backend} {cl cl' : Client} {k : ℕ} {o : Outcome}

/-- An answer performs the pending request of a call and runs its callback. -/
theorem answer_cases (h : answer names client b cl k o = some (b', cl')) :
    ∃ call r next reply, cl.calls[k]? = some call ∧ call.program = .call r next ∧
      b.perform cl.create cl.device o r = some (b', reply) ∧
      ∃ call', call' = call.resume
          (next (reply, cl.moment names client k (call.callbacks + 1) o.now)) (cl.soundOf r o) ∧
        cl' = { cl with colorNumber := cl.nextColor r
                        calls := cl.calls.set k call' }.runCompletion names call' := by
  unfold answer at h
  split at h
  · cases h
  · rename_i call hcall
    split at h
    · rename_i r next hprogram
      obtain ⟨⟨b₁, reply⟩, hperform, heq⟩ := Option.map_eq_some_iff.1 h
      obtain ⟨rfl, rfl⟩ := Prod.mk.inj heq
      exact ⟨call, r, next, reply, hcall, hprogram, hperform, _, rfl, rfl⟩
    · cases h

@[simp] theorem popToRoot_calls (screen : ℕ) : (cl.popToRoot screen).calls = cl.calls := by
  unfold popToRoot
  split_ifs <;> rfl

@[simp] theorem popToRoot_device (screen : ℕ) : (cl.popToRoot screen).device = cl.device := by
  unfold popToRoot
  split_ifs <;> rfl

@[simp] theorem popToRoot_create (screen : ℕ) : (cl.popToRoot screen).create = cl.create := by
  unfold popToRoot
  split_ifs <;> rfl

/-- Popping only takes screens off the stack. -/
theorem popToRoot_screens (screen : ℕ) :
    ∃ f : RegisterScreen → Bool,
      (cl.popToRoot screen).screens = cl.screens.map fun s => { s with onStack := f s } := by
  unfold popToRoot
  split_ifs
  · exact ⟨fun _ => false, rfl⟩
  · exact ⟨fun s => s.onStack, by simp⟩

/-- A completion does nothing, or updates the create screen, hides the loader and leaves the
registration screens. -/
theorem runCompletion_cases (call : Call) :
    cl.runCompletion names call = cl ∨
    ∃ screen create,
      cl.runCompletion names call = ({ cl with create }.showLoader false).popToRoot screen ∧
      ((∃ newInfo m, call.program = .done (.newInfo newInfo, m) ∧
          create = cl.create.updateCharacter names.sameName newInfo) ∨
        ∃ dialogues m selected, call.program = .done (.dialogues dialogues, m) ∧
          create = cl.create.addedDialogue dialogues selected) := by
  unfold runCompletion
  split
  · rename_i completion m hprogram
    unfold complete
    split
    · rename_i screen newInfo _
      exact Or.inr ⟨screen, _, rfl, Or.inl ⟨newInfo, m, hprogram, rfl⟩⟩
    · rename_i screen dialogues _
      split
      · rename_i info selected _
        exact Or.inr ⟨screen, _, rfl, Or.inr ⟨dialogues, m, selected, hprogram, rfl⟩⟩
      · exact Or.inl rfl
    · exact Or.inl rfl
  · exact Or.inl rfl

@[simp] theorem runCompletion_calls (call : Call) : (cl.runCompletion names call).calls = cl.calls := by
  rcases runCompletion_cases call with h | ⟨screen, create, h, -⟩
  · rw [h]
  · rw [h, popToRoot_calls]
    rfl

@[simp] theorem runCompletion_device (call : Call) :
    (cl.runCompletion names call).device = cl.device := by
  rcases runCompletion_cases call with h | ⟨screen, create, h, -⟩
  · rw [h]
  · rw [h, popToRoot_device]
    rfl

@[simp] theorem runCompletion_bottomDialogues (call : Call) :
    (cl.runCompletion names call).create.bottomDialogues = cl.create.bottomDialogues := by
  rcases runCompletion_cases call with h | ⟨screen, create, h, hcreate⟩
  · rw [h]
  · rw [h, popToRoot_create]
    rcases hcreate with ⟨newInfo, m, -, rfl⟩ | ⟨dialogues, m, selected, -, rfl⟩
    · rfl
    · rfl

/-- A completion only takes screens off the stack. -/
theorem runCompletion_screens (call : Call) :
    ∃ f : RegisterScreen → Bool,
      (cl.runCompletion names call).screens = cl.screens.map fun s => { s with onStack := f s } := by
  rcases runCompletion_cases call with h | ⟨screen, create, h, -⟩
  · rw [h]
    exact ⟨fun s => s.onStack, by simp⟩
  · rw [h]
    exact popToRoot_screens screen

/-- What an answer does to its upload. -/
theorem answer_call (h : answer names client b cl k o = some (b', cl')) {call : Call}
    (hcall : cl.calls[k]? = some call) :
    ∃ r next reply m, call.program = .call r next ∧
      b.perform cl.create cl.device o r = some (b', reply) ∧
      cl'.calls[k]? = some (call.resume (next (reply, m)) (cl.soundOf r o)) := by
  obtain ⟨call₀, r, next, reply, hcall₀, hprogram, hperform, call', rfl, rfl⟩ := answer_cases h
  obtain rfl : call = call₀ := Option.some.inj (hcall.symm.trans hcall₀)
  refine ⟨r, next, reply, cl.moment names client k (call.callbacks + 1) o.now, hprogram, hperform,
    ?_⟩
  rw [runCompletion_calls]
  exact List.getElem?_set_self (List.getElem?_eq_some_iff.1 hcall).1

theorem answer_program (h : answer names client b cl k o = some (b', cl')) {call : Call}
    (hcall : cl.calls[k]? = some call) {r : Request} {next : Reply r × Moment → Running Completion}
    (hprogram : call.program = .call r next) :
    ∃ reply m, b.perform cl.create cl.device o r = some (b', reply) ∧
      cl'.calls[k]? = some (call.resume (next (reply, m)) (cl.soundOf r o)) := by
  obtain ⟨r₀, next₀, reply, m, hprogram₀, hperform, hget⟩ := answer_call h hcall
  rw [hprogram] at hprogram₀
  obtain ⟨rfl, hnext⟩ := Async.call.inj hprogram₀
  obtain rfl := eq_of_heq hnext
  exact ⟨reply, m, hperform, hget⟩

/-- After an answer the completion of its upload runs, if the upload has come to it. -/
theorem answer_runCompletion (h : answer names client b cl k o = some (b', cl')) {call : Call}
    (hcall : cl'.calls[k]? = some call) :
    ∃ cl₁ : Client, cl' = cl₁.runCompletion names call ∧ cl₁.create = cl.create ∧
      cl₁.screens = cl.screens := by
  obtain ⟨call₀, r, next, reply, hcall₀, -, -, call', -, rfl⟩ := answer_cases h
  rw [runCompletion_calls, List.getElem?_set_self (List.getElem?_eq_some_iff.1 hcall₀).1] at hcall
  obtain rfl := Option.some.inj hcall
  exact ⟨_, rfl, rfl, rfl⟩

/-- A step leaves an upload as it is, unless it answers its request. -/
theorem step_call {url : URLParser} {e : Event} {call : Call}
    (h : cl.step names url client b e = some (b', cl')) (hk : cl.calls[k]? = some call) :
    (∃ o, e = .answer k o) ∨ cl'.calls[k]? = some call := by
  have hlt := (List.getElem?_eq_some_iff.1 hk).1
  cases step_cases h with
  | registerConversation => exact Or.inr ((List.getElem?_append_left hlt).trans hk)
  | registerCharacter => exact Or.inr ((List.getElem?_append_left hlt).trans hk)
  | registerDialogue => exact Or.inr ((List.getElem?_append_left hlt).trans hk)
  | @answer k' o' _ _ hanswer =>
    by_cases hkk : k' = k
    · subst hkk
      exact Or.inl ⟨o', rfl⟩
    · obtain ⟨call', r, next, reply, -, -, -, call'', -, rfl⟩ := answer_cases hanswer
      rw [runCompletion_calls]
      exact Or.inr ((List.getElem?_set_ne hkk).trans hk)
  | _ => exact Or.inr hk

/-- Where an upload after a step comes from. -/
inductive CallStep (names : Names) (client : ℕ) (b : Backend) (cl : Client) :
    Event → ℕ → Call → Prop
  | kept {e : Event} {k : ℕ} {call : Call} (h : cl.calls[k]? = some call) :
      CallStep names client b cl e k call
  | conversation {now : Timestamp} {call : Call} (horigin : call.origin = .conversation)
      (hsounds : call.sounds = []) :
      CallStep names client b cl (.didTapRegisterButton now) cl.calls.length call
  | character {screen : ℕ} {s : RegisterScreen} {now : Timestamp} {m : Moment}
      (hs : cl.screens[screen]? = some s) (hkind : s.kind = .character) :
      CallStep names client b cl (.register screen now) cl.calls.length
        { origin := .character screen
          program := (.newInfo <$> CharacterService.uploadCharacter
            { image := s.selectedImage, audio := s.audioUrl, text := s.audioText,
              name := s.nameText }).run m
          callbacks := 0, completions := 0, sounds := [] }
  | dialogue {screen : ℕ} {s : RegisterScreen} {now : Timestamp} {m : Moment}
      {info : CharacterInfo} {selected : Character}
      (hs : cl.screens[screen]? = some s) (hkind : s.kind = .dialogue (some info) selected) :
      CallStep names client b cl (.register screen now) cl.calls.length
        { origin := .dialogue screen
          program := (.dialogues <$> DialogueService.uploadDialogue
            { id := info.id, imageUrl := info.imageUrl.absoluteString, audio := s.audioUrl,
              text := s.audioText, character := info.name }).run m
          callbacks := 0, completions := 0, sounds := [] }
  | resumed {k : ℕ} {o : Outcome} {call : Call} {r : Request}
      {next : Reply r × Moment → Running Completion} {reply : Reply r} {m : Moment}
      (hcall : cl.calls[k]? = some call) (hprogram : call.program = .call r next) :
      CallStep names client b cl (.answer k o) k (call.resume (next (reply, m)) (cl.soundOf r o))

theorem getElem?_concat_cases {α : Type*} {l : List α} {a x : α} {n : ℕ}
    (h : (l ++ [a])[n]? = some x) : l[n]? = some x ∨ n = l.length ∧ x = a := by
  rw [List.getElem?_append] at h
  split_ifs at h with hlt
  · exact Or.inl h
  · obtain ⟨hn, rfl⟩ := List.getElem?_eq_some_iff.1 h
    rw [List.length_singleton] at hn
    exact Or.inr ⟨by omega, by simp⟩

/-- Each upload after a step was there before, or has been started or resumed by the step. -/
theorem step_calls {url : URLParser} {e : Event} {call : Call}
    (h : cl.step names url client b e = some (b', cl')) (hk : cl'.calls[k]? = some call) :
    CallStep names client b cl e k call := by
  cases step_cases h with
  | registerConversation =>
    rcases getElem?_concat_cases hk with hk | ⟨rfl, rfl⟩
    · exact .kept hk
    · exact .conversation rfl rfl
  | registerCharacter hs hkind =>
    rcases getElem?_concat_cases hk with hk | ⟨rfl, rfl⟩
    · exact .kept hk
    · exact .character hs hkind
  | registerDialogue hs hkind =>
    rcases getElem?_concat_cases hk with hk | ⟨rfl, rfl⟩
    · exact .kept hk
    · exact .dialogue hs hkind
  | @answer k' o _ _ hanswer =>
    by_cases hkk : k' = k
    · subst hkk
      obtain ⟨call₀, -, -, -, hcall, -⟩ := answer_cases hanswer
      obtain ⟨r, next, reply, m, hprogram, -, hget⟩ := answer_call hanswer hcall
      obtain rfl := Option.some.inj (hk.symm.trans hget)
      exact .resumed hcall hprogram
    · obtain ⟨call', r, next, reply, -, -, -, call'', -, rfl⟩ := answer_cases hanswer
      rw [runCompletion_calls, List.getElem?_set_ne hkk] at hk
      exact .kept hk
  | _ => exact .kept hk

end answer

/-! ## The registration screens -/

section screens

variable {names : Names} {url : URLParser} {client : ℕ} {b b' : Backend} {cl cl' : Client}

/-- The kinds of the screens opened so far. -/
def kinds (cl : Client) : List RegisterScreen.Kind := cl.screens.map (·.kind)

theorem kinds_getElem? {screen : ℕ} {s : RegisterScreen} (hs : cl.screens[screen]? = some s) :
    cl.kinds[screen]? = some s.kind := by
  rw [kinds, List.getElem?_map, hs]
  rfl

theorem kinds_set {screen : ℕ} {s s' : RegisterScreen} (hs : cl.screens[screen]? = some s)
    (hkind : s'.kind = s.kind) : (cl.screens.set screen s').map (·.kind) = cl.kinds := by
  obtain ⟨hlt, rfl⟩ := List.getElem?_eq_some_iff.1 hs
  have hlt' : screen < (cl.screens.map (·.kind)).length := by
    rw [List.length_map]
    exact hlt
  have hget : (cl.screens.map (·.kind))[screen] = cl.screens[screen].kind := List.getElem_map _
  rw [List.map_set, hkind, ← hget, List.set_getElem_self]
  rfl

/-- A step opens screens, with their characters, and leaves the kinds of the others alone. -/
theorem step_kinds {e : Event} (h : cl.step names url client b e = some (b', cl')) :
    ∃ opened, cl'.kinds = cl.kinds ++ opened ∧ ∀ kind ∈ opened, kind.HasInfo := by
  have hsame : ∀ cl' : Client, cl'.kinds = cl.kinds →
      ∃ opened, cl'.kinds = cl.kinds ++ opened ∧ ∀ kind ∈ opened, kind.HasInfo :=
    fun cl' heq => ⟨[], by rw [heq, List.append_nil], nofun⟩
  cases step_cases h with
  | addDialogue =>
    refine ⟨[_], List.map_append, fun kind hkind => ?_⟩
    obtain rfl := List.mem_singleton.1 hkind
    exact Option.some_ne_none _
  | showRegister =>
    refine ⟨[.character], List.map_append, fun kind hkind => ?_⟩
    obtain rfl := List.mem_singleton.1 hkind
    trivial
  | back hs => exact hsame _ (kinds_set hs rfl)
  | onScreen hs => exact hsame _ (kinds_set hs (RegisterScreen.handle_kind _ _ _ _))
  | answer hanswer =>
    obtain ⟨call, r, next, reply, -, -, -, call', -, rfl⟩ := answer_cases hanswer
    obtain ⟨f, hf⟩ := runCompletion_screens call'
    refine hsame _ ?_
    rw [kinds, hf, List.map_map]
    rfl
  | _ => exact hsame _ rfl

/-- A screen stays of its kind. -/
theorem step_kinds_getElem? {e : Event} {screen : ℕ} {kind : RegisterScreen.Kind}
    (h : cl.step names url client b e = some (b', cl')) (hkind : cl.kinds[screen]? = some kind) :
    cl'.kinds[screen]? = some kind := by
  obtain ⟨opened, hkinds, -⟩ := step_kinds h
  rw [hkinds, List.getElem?_append_left (List.getElem?_eq_some_iff.1 hkind).1]
  exact hkind

end screens

end Client

end DialogueApp
