import DialogueApp.Proof.ClientSteps
import DialogueApp.Proof.Uploads
import DialogueApp.World

/-!
# The invariant of a client

What a client holds has been decoded from stored documents: the lists of its create screen, the
character its registration screens carry, and what its uploads will hand to their completions.  Each
of its uploads keeps its contract, and the uploads it has not started have written nothing.

`step_inv` is the step of the rely/guarantee rule for the world, and `run_inv` the result for runs.
-/

namespace DialogueApp

open Backend

/-- The screen's lists have been decoded from stored documents. -/
structure Decoded (b : Backend) (c : CreateChatController) : Prop where
  dialogues : ∀ d ∈ c.dialogues, b.KnownDialogue d
  selectedDialogues : ∀ d ∈ c.selectedDialogues, b.KnownDialogue d
  bottomDialogues : ∀ d ∈ c.bottomDialogues, b.KnownDialogue d
  listCharacters : ∀ x ∈ c.listCharacters, b.KnownCharacter x
  selectedCharacter : ∀ x ∈ c.selectedCharacter, b.KnownCharacter x

/-- The event brings only what has been decoded from stored documents. -/
def DecodedEvent (b : Backend) : CreateChatController.Event → Prop
  | .fetchCharacters characters => ∀ x ∈ characters, b.KnownCharacter x
  | .fetchDialogues dialogues => ∀ d ∈ dialogues, b.KnownDialogue d
  | .selectCharacter character => b.KnownCharacter character
  | .updateCharacter newInfo =>
    (∀ x ∈ newInfo.characters, b.KnownCharacter x) ∧ ∀ d ∈ newInfo.dialogues, b.KnownDialogue d
  | .addedDialogue dialogues _ => ∀ d ∈ dialogues, b.KnownDialogue d
  | _ => True

variable {b b' : Backend} {c c' : CreateChatController}

theorem Decoded.grows (h : Decoded b c) (hb : Grows b b') : Decoded b' c where
  dialogues d hd := hb.knownDialogue (h.dialogues d hd)
  selectedDialogues d hd := hb.knownDialogue (h.selectedDialogues d hd)
  bottomDialogues d hd := hb.knownDialogue (h.bottomDialogues d hd)
  listCharacters x hx := hb.knownCharacter (h.listCharacters x hx)
  selectedCharacter x hx := hb.knownCharacter (h.selectedCharacter x hx)

/-- A loop that may replace the selection by the line it is at selects lines only. -/
theorem mem_foldl_select {α : Type*} {p : α → Bool} {P : α → Prop} {l selected : List α}
    (hselected : ∀ d ∈ selected, P d) (hl : ∀ d ∈ l, P d) :
    ∀ d ∈ l.foldl (fun selected d => if p d then [d] else selected) selected, P d := by
  induction l generalizing selected with
  | nil => exact hselected
  | cons d l ih =>
    refine ih ?_ fun e he => hl e (List.mem_cons_of_mem d he)
    intro e he
    dsimp only at he
    split_ifs at he
    · obtain rfl := List.mem_singleton.1 he
      exact hl e List.mem_cons_self
    · exact hselected e he

theorem decoded_presented : Decoded b CreateChatController.presented where
  dialogues _ h := absurd h List.not_mem_nil
  selectedDialogues _ h := absurd h List.not_mem_nil
  bottomDialogues _ h := absurd h List.not_mem_nil
  listCharacters _ h := absurd h List.not_mem_nil
  selectedCharacter _ h := nomatch h

theorem Decoded.setBottomDialogues (h : Decoded b c) {dialogues : List Dialogue}
    (hd : ∀ d ∈ dialogues, b.KnownDialogue d) : Decoded b (c.setBottomDialogues dialogues) := by
  unfold CreateChatController.setBottomDialogues
  split_ifs
  · exact ⟨h.dialogues, h.selectedDialogues, hd, h.listCharacters, h.selectedCharacter⟩
  · exact ⟨h.dialogues, h.selectedDialogues, hd, h.listCharacters, h.selectedCharacter⟩

theorem Decoded.defaultUI (h : Decoded b c) (onScreen : ℕ → Bool) :
    Decoded b (c.defaultUI onScreen) := by
  have hshown : Decoded b
      { c with bottomChatDescriptionHidden := false, startButtonHidden := true } :=
    ⟨h.dialogues, h.selectedDialogues, h.bottomDialogues, h.listCharacters, h.selectedCharacter⟩
  have hcleared := hshown.setBottomDialogues (fun d hd => absurd hd List.not_mem_nil)
  unfold CreateChatController.defaultUI
  dsimp only
  split_ifs
  · exact ⟨hcleared.dialogues, fun d hd => absurd hd List.not_mem_nil, hcleared.bottomDialogues,
      hcleared.listCharacters, nofun⟩
  · exact ⟨hcleared.dialogues, hcleared.selectedDialogues, hcleared.bottomDialogues,
      hcleared.listCharacters, hcleared.selectedCharacter⟩

theorem step_decoded (sameName : String → String → Bool) {e : CreateChatController.Event}
    (h : Decoded b c) (he : DecodedEvent b e) (hstep : c.step sameName e = some c') :
    Decoded b c' := by
  cases e with
  | fetchCharacters characters =>
    obtain rfl := Option.some.inj hstep
    refine ⟨h.dialogues, h.selectedDialogues, h.bottomDialogues, ?_, h.selectedCharacter⟩
    intro x hx
    rcases List.mem_append.1 hx with hx | hx
    · exact h.listCharacters x hx
    · exact he x hx
  | fetchDialogues dialogues =>
    obtain rfl := Option.some.inj hstep
    exact ⟨he, h.selectedDialogues, h.bottomDialogues, h.listCharacters, h.selectedCharacter⟩
  | selectCharacter character =>
    obtain rfl := Option.some.inj hstep
    refine ⟨h.dialogues, ?_, h.bottomDialogues, h.listCharacters, ?_⟩
    · exact fun d hd => h.dialogues d (List.mem_filter.1 hd).1
    · rintro x hx
      obtain rfl := Option.some.inj hx
      exact he
  | didSelectRow row =>
    obtain ⟨dialogue, -, hget, rfl⟩ := CreateChatController.step_didSelectRow hstep
    have hpicked : ∀ d ∈ c.bottomDialogues ++ [dialogue], b.KnownDialogue d := by
      intro d hd
      rcases List.mem_append.1 hd with hd | hd
      · exact h.bottomDialogues d hd
      · obtain rfl := List.mem_singleton.1 hd
        exact h.selectedDialogues d (List.mem_of_getElem? hget)
    have h' := h.setBottomDialogues hpicked
    exact ⟨h'.dialogues, h'.selectedDialogues, h'.bottomDialogues, h'.listCharacters,
      h'.selectedCharacter⟩
  | defaultUI onScreen =>
    obtain rfl := Option.some.inj hstep
    exact h.defaultUI onScreen
  | updateCharacter newInfo =>
    obtain rfl := Option.some.inj hstep
    refine ⟨he.2, mem_foldl_select h.selectedDialogues he.2, h.bottomDialogues, he.1, ?_⟩
    intro x hx
    exact he.1 x (List.mem_of_mem_head? hx)
  | addedDialogue dialogues selected =>
    obtain rfl := Option.some.inj hstep
    refine ⟨he, ?_, h.bottomDialogues, h.listCharacters, h.selectedCharacter⟩
    exact fun d hd => he d (List.mem_filter.1 hd).1
  | editTitle text =>
    obtain rfl := Option.some.inj hstep
    exact ⟨h.dialogues, h.selectedDialogues, h.bottomDialogues, h.listCharacters,
      h.selectedCharacter⟩
  | showKeyboard height =>
    obtain rfl := Option.some.inj hstep
    exact ⟨h.dialogues, h.selectedDialogues, h.bottomDialogues, h.listCharacters,
      h.selectedCharacter⟩
  | didTapRegisterButton =>
    obtain ⟨-, rfl⟩ := CreateChatController.step_didTapRegisterButton hstep
    exact ⟨h.dialogues, h.selectedDialogues, h.bottomDialogues, h.listCharacters,
      h.selectedCharacter⟩

/-! ## Uploads in flight -/

/-- The upload registers a new character. -/
def Origin.IsCharacter : Origin → Prop
  | .character _ => True
  | _ => False

/-- The invariant of upload `i` of a client with the picked lines `bottom`. -/
structure CallInv (names : Names) (frozen paired : Prop) (i : Owner) (b : Backend)
    (bottom : List Dialogue) (call : Call) : Prop where
  /-- While the animation runs, `bottom` are the lines that the register tap has read. -/
  holds : ∃ picks, (frozen → call.program.request? = some .animate → bottom = picks) ∧
    call.program.Holds (contract names frozen paired call.origin.IsCharacter i picks)
      (fun t p => t.Known p.1 ∧ Final names paired call.origin.IsCharacter i t)
      (Final names paired call.origin.IsCharacter i) b
  animate_first : call.program.OnlyFirst (· = .animate)
  line_last : call.origin.IsCharacter → call.program.After IsLineWrite IsRead
  no_character : ¬ call.origin.IsCharacter → ¬ StoredBy names b .characters i

section

variable {names : Names} {frozen paired : Prop} {i : Owner} {bottom bottom' : List Dialogue}
  {call : Call}

theorem Backend.Grows.known (h : Grows b b') {completion : Completion} (hb : b.Known completion) :
    b'.Known completion := by
  cases completion with
  | newInfo newInfo =>
    exact ⟨fun x hx => h.knownCharacter (hb.1 x hx), fun d hd => h.knownDialogue (hb.2 d hd)⟩
  | dialogues dialogues => exact fun d hd => h.knownDialogue (hb d hd)
  | conversation => trivial

theorem CallInv.rely (h : CallInv names frozen paired i b bottom call) (hr : Rely names i b b') :
    CallInv names frozen paired i b' bottom call := by
  obtain ⟨picks, hpicks, hholds⟩ := h.holds
  refine ⟨⟨picks, hpicks, hholds.rely hr ?_ ?_⟩, h.animate_first, h.line_last, fun hnot => ?_⟩
  · exact fun s t p hst hp => ⟨hst.known hp.1, hst.final hp.2⟩
  · exact fun s t hst hs => hst.final hs
  · rw [hr.storedBy_iff]
    exact h.no_character hnot

/-- The picked lines matter only while the animation runs. -/
theorem CallInv.repick (h : CallInv names frozen paired i b bottom call)
    (hsame : frozen → call.program.request? = some .animate → bottom' = bottom) :
    CallInv names frozen paired i b bottom' call := by
  obtain ⟨picks, hpicks, hholds⟩ := h.holds
  refine ⟨⟨picks, fun hf hr => ?_, hholds⟩, h.animate_first, h.line_last, h.no_character⟩
  rw [hsame hf hr, hpicks hf hr]

/-- The pending request of an upload meets its demands. -/
theorem CallInv.demands (h : CallInv names frozen paired i b bottom call)
    (hb : b.Consistent names frozen paired) {r : Request}
    {next : Reply r × Moment → Running Completion} (hprogram : call.program = .call r next) :
    Demands names frozen call.origin.IsCharacter i b r := by
  obtain ⟨picks, -, hholds⟩ := h.holds
  rw [hprogram] at hholds
  exact (hholds.answer hb).1

/-- The answer to the pending request of an upload keeps the store invariant and the upload's. -/
theorem CallInv.resume (h : CallInv names frozen paired i b bottom call)
    (hb : b.Consistent names frozen paired) {r : Request}
    {next : Reply r × Moment → Running Completion} (hprogram : call.program = .call r next)
    {create : CreateChatController} {device : Device} {o : Outcome} {reply : Reply r} {m : Moment}
    (hperform : b.perform create device o r = some (b', reply)) (hm : names.OwnsMoment i m)
    (hknown : ∀ d ∈ create.bottomDialogues, b.KnownDialogue d)
    (hbottom : create.bottomDialogues = bottom)
    (hpaired : paired → call.origin.IsCharacter → IsLineWrite r →
      (o.ok = true ↔ StoredBy names b .characters i)) (sounds : List Recording) :
    b'.Consistent names frozen paired ∧ Effect names i b b' ∧
      CallInv names frozen paired i b' bottom (call.resume (next (reply, m)) sounds) ∧
      ∀ completion m', next (reply, m) = .done (completion, m') → b'.Known completion := by
  obtain ⟨picks, hpicks, hholds⟩ := h.holds
  have hfirst := h.animate_first
  have hlast := h.line_last
  rw [hprogram] at hpicks hholds hfirst hlast
  obtain ⟨hdemands, hnext⟩ := hholds.answer hb
  have hanswer : Answer names frozen paired call.origin.IsCharacter i picks b r (reply, m) b' := by
    refine ⟨⟨create, device, o, hperform, hknown, fun hf hr => ?_, hpaired⟩, hm⟩
    subst hr
    exact hbottom.trans (hpicks hf rfl)
  have hholds' := hnext (reply, m) b' hanswer
  have honly := hfirst (reply, m)
  refine ⟨perform_consistent hb hdemands hpaired hperform, perform_effect hdemands hperform,
    ⟨⟨picks, fun _ hr => ?_, hholds'⟩, honly.onlyFirst, fun hc => (hlast hc).2 _,
      fun hnot => ?_⟩, ?_⟩
  · -- no further animation
    show bottom = picks
    have hr' : (next (reply, m)).request? = some .animate := hr
    cases hp : next (reply, m) with
    | done a => simp [hp, Async.request?] at hr'
    | stop => simp [hp, Async.request?] at hr'
    | call r' k =>
      rw [hp] at hr' honly
      exact absurd (Option.some.inj hr') honly.1
  · exact perform_no_character hdemands hnot hperform (h.no_character hnot)
  · intro completion m' hdone
    rw [hdone] at hholds'
    exact hholds'.1

end

/-- The registration screen carries a character as it is stored. -/
def DecodedScreen (b : Backend) (s : RegisterScreen) : Prop :=
  ∀ info selected, s.kind = .dialogue (some info) selected →
    b.HasCharacter info.id info.name info.imageUrl.absoluteString

/-- Some upload waits for the end of its animation. -/
def Client.Animating (cl : Client) : Prop :=
  ∃ call ∈ cl.calls, call.program.request? = some .animate

/-- The upload has written nothing. -/
def Untouched (names : Names) (i : Owner) (b : Backend) : Prop :=
  (∀ collection, ¬ StoredBy names b collection i) ∧ NoObject names i b

/-- The invariant of the client with the given number. -/
structure ClientInv (names : Names) (frozen paired : Prop) (client : ℕ) (b : Backend)
    (cl : Client) : Prop where
  create : Decoded b cl.create
  screens : ∀ s ∈ cl.screens, DecodedScreen b s
  calls : ∀ (k : ℕ) (call : Call), cl.calls[k]? = some call →
    CallInv names frozen paired ⟨client, k⟩ b cl.create.bottomDialogues call
  fresh : ∀ k, cl.calls.length ≤ k → Untouched names ⟨client, k⟩ b

section

variable {names : Names} {frozen paired : Prop} {url : URLParser} {client : ℕ} {cl cl' : Client}

theorem Untouched.rely {i : Owner} (h : Untouched names i b) (hr : Rely names i b b') :
    Untouched names i b' := by
  refine ⟨fun collection => ?_, fun path hpath => hr.free hpath (h.2 path hpath)⟩
  rw [hr.storedBy_iff]
  exact h.1 collection

theorem ClientInv.rely (h : ClientInv names frozen paired client b cl)
    (hr : ∀ k, Rely names ⟨client, k⟩ b b') : ClientInv names frozen paired client b' cl where
  create := h.create.grows (hr 0).toGrows
  screens s hs info selected hkind := (hr 0).hasCharacter (h.screens s hs info selected hkind)
  calls k call hcall := (h.calls k call hcall).rely (hr k)
  fresh k hk := (h.fresh k hk).rely (hr k)

/-- A step that leaves the uploads alone. -/
theorem ClientInv.update (h : ClientInv names frozen paired client b cl)
    (hcalls : cl'.calls = cl.calls) (hcreate : Decoded b cl'.create)
    (hscreens : ∀ s ∈ cl'.screens, DecodedScreen b s)
    (hkept : frozen → cl.Animating → cl'.create.bottomDialogues = cl.create.bottomDialogues) :
    ClientInv names frozen paired client b cl' := by
  refine ⟨hcreate, hscreens, fun k call hcall => ?_, fun k hk => ?_⟩
  · rw [hcalls] at hcall
    refine (h.calls k call hcall).repick fun hf hr => ?_
    exact hkept hf ⟨call, List.mem_of_getElem? hcall, hr⟩
  · rw [hcalls] at hk
    exact h.fresh k hk

/-- A step that starts an upload. -/
theorem ClientInv.start (h : ClientInv names frozen paired client b cl) {call : Call}
    (hcalls : cl'.calls = cl.calls ++ [call]) (hscreens : cl'.screens = cl.screens)
    (hcreate : Decoded b cl'.create)
    (hkept : cl'.create.bottomDialogues = cl.create.bottomDialogues)
    (hcall : Untouched names ⟨client, cl.calls.length⟩ b →
      CallInv names frozen paired ⟨client, cl.calls.length⟩ b cl.create.bottomDialogues call) :
    ClientInv names frozen paired client b cl' := by
  refine ⟨hcreate, hscreens ▸ h.screens, fun k call' hcall' => ?_, fun k hk => ?_⟩
  · rw [hkept]
    rw [hcalls] at hcall'
    rcases Client.getElem?_concat_cases hcall' with hcall' | ⟨rfl, rfl⟩
    · exact h.calls k call' hcall'
    · exact hcall (h.fresh _ (Nat.le_refl _))
  · rw [hcalls, List.length_append] at hk
    exact h.fresh k (by omega)

theorem ownsMoment (k callback : ℕ) (now : Timestamp) :
    names.OwnsMoment ⟨client, k⟩ (cl.moment names client k callback now) :=
  ⟨⟨callback, rfl⟩, ⟨callback, rfl⟩⟩

/-! ## The steps of a client -/

/-- A decoded character is stored. -/
theorem Backend.Consistent.hasCharacter (hb : b.Consistent names frozen paired) {x : Character}
    (hx : b.KnownCharacter x) : b.HasCharacter x.characterID x.character x.imageUrl := by
  obtain ⟨⟨documentID, data⟩, hmem, now, rfl⟩ := hx
  obtain ⟨name, imageUrl, timeStamp, hdata, -⟩ := hb.character_data _ hmem
  dsimp only at hdata
  subst hdata
  exact ⟨timeStamp, hmem⟩

section start

variable {i : Owner} {m : Moment}

theorem callInv_character {item : CharacterItem} {screen : ℕ} {picked : List Dialogue}
    (hu : Untouched names i b) (hm : names.OwnsMoment i m) :
    CallInv names frozen paired i b picked
      { origin := .character screen
        program := (.newInfo <$> CharacterService.uploadCharacter item).run m
        callbacks := 0, completions := 0, sounds := [] } where
  holds := ⟨picked, fun _ _ => rfl, Chain.holds_map (holds_uploadCharacter hm hu.2 hu.1 trivial)⟩
  animate_first := (Chain.only_map uploadCharacter_ne_animate).onlyFirst
  line_last _ := Chain.after_map uploadCharacter_after
  no_character _ := hu.1 _

theorem callInv_dialogue {item : DialogueItem} {screen : ℕ} {picked : List Dialogue}
    (hu : Untouched names i b) (hm : names.OwnsMoment i m)
    (hitem : b.HasCharacter item.id item.character item.imageUrl) :
    CallInv names frozen paired i b picked
      { origin := .dialogue screen
        program := (.dialogues <$> DialogueService.uploadDialogue item).run m
        callbacks := 0, completions := 0, sounds := [] } where
  holds := ⟨picked, fun _ _ => rfl,
    Chain.holds_map (holds_uploadDialogue hm hu.2 hu.1 (fun h => h) hitem)⟩
  animate_first := (Chain.only_map uploadDialogue_ne_animate).onlyFirst
  line_last h := h.elim
  no_character _ := hu.1 _

theorem callInv_conversation (hu : Untouched names i b)
    (hknown : ∀ d ∈ c.bottomDialogues, b.KnownDialogue d) :
    CallInv names frozen paired i b c.bottomDialogues
      { origin := .conversation
        program := ((fun _ => .conversation) <$> c.didTapRegisterButton.2).run m
        callbacks := 0, completions := 0, sounds := [] } where
  holds := by
    refine ⟨c.bottomDialogues, fun _ _ => rfl, Chain.holds_map ?_⟩
    exact holds_didTapRegisterButton (hu.1 _) hknown rfl
      (fun _ _ => ⟨trivial, fun _ h => h.elim⟩) fun _ _ h => h.elim
  animate_first := didTapRegisterButton_animate_first c _
  line_last h := h.elim
  no_character _ := hu.1 _

end start

/-- The register tap of a screen for a further line. -/
theorem ClientInv.registerDialogue (h : ClientInv names frozen paired client b cl) {screen : ℕ}
    {s : RegisterScreen} {now : Timestamp} {info : CharacterInfo} {selected : Character}
    (hs : cl.screens[screen]? = some s) (hkind : s.kind = .dialogue (some info) selected) :
    ClientInv names frozen paired client b
      (cl.uploadDialogue names client screen s (some info) now) := by
  have hinfo := h.screens s (List.mem_of_getElem? hs) info selected hkind
  exact h.start rfl rfl h.create rfl fun hu => callInv_dialogue hu (ownsMoment _ _ _) hinfo

/-- The register tap of the create screen. -/
theorem ClientInv.registerConversation (h : ClientInv names frozen paired client b cl)
    (now : Timestamp) :
    ClientInv names frozen paired client b
      ({ cl with create := cl.create.didTapRegisterButton.1 }.startCall names client .conversation
        ((fun _ => .conversation) <$> cl.create.didTapRegisterButton.2) now) := by
  refine h.start rfl rfl ?_ rfl fun hu => callInv_conversation hu h.create.bottomDialogues
  exact ⟨h.create.dialogues, h.create.selectedDialogues, h.create.bottomDialogues,
    h.create.listCharacters, h.create.selectedCharacter⟩

/-- The screen for a further line takes the selected character along. -/
theorem ClientInv.addDialogue (h : ClientInv names frozen paired client b cl)
    (hb : b.Consistent names frozen paired) {selectedCharacter : Character} {imageUrl : URL}
    (hselected : cl.create.selectedCharacter = some selectedCharacter)
    (hurl : url.parse selectedCharacter.imageUrl = some imageUrl) :
    ClientInv names frozen paired client b
      { cl with screens := cl.screens ++
          [RegisterScreen.new (.dialogue
            (some ⟨selectedCharacter.characterID, imageUrl, selectedCharacter.character⟩)
            selectedCharacter)] } := by
  refine h.update rfl h.create (fun s hs => ?_) fun _ _ => rfl
  rcases List.mem_append.1 hs with hs | hs
  · exact h.screens s hs
  · obtain rfl := List.mem_singleton.1 hs
    intro info selected hkind
    have hcharacter := hb.hasCharacter (h.create.selectedCharacter selectedCharacter hselected)
    injection hkind with hinfo
    obtain rfl := Option.some.inj hinfo
    rw [← url.absoluteString_parse _ _ hurl] at hcharacter
    exact hcharacter

/-- A change of one registration screen that keeps its kind. -/
theorem ClientInv.setScreen (h : ClientInv names frozen paired client b cl) {screen : ℕ}
    {s s' : RegisterScreen} (hs : cl.screens[screen]? = some s) (hkind : s'.kind = s.kind)
    (hcalls : cl'.calls = cl.calls) (hcreate : cl'.create = cl.create)
    (hscreens : cl'.screens = cl.screens.set screen s') :
    ClientInv names frozen paired client b cl' := by
  refine h.update hcalls (hcreate ▸ h.create) (fun t ht => ?_) fun _ _ => by rw [hcreate]
  rw [hscreens] at ht
  rcases List.mem_or_eq_of_mem_set ht with ht | rfl
  · exact h.screens t ht
  · intro info selected hinfo
    exact h.screens s (List.mem_of_getElem? hs) info selected (hkind ▸ hinfo)

end

end DialogueApp
