import DialogueApp.Proof.NewCharacter
import DialogueApp.Proof.Selection

/-!
# A further line of a character

The character selected at the tap on the add-line button goes with its screen, from there into the
item that is uploaded, into the stored dictionary and back through the decoder to the filter of
`updateDialogues`.  Where nothing else writes lines, the fetch at the end of the upload lists the
lines stored before with the new one in front of them.
-/

namespace DialogueApp

open Runs Backend Program DialogueService CreateChatController

/-- The order in which the server lists the documents of a query: by descending time stamps, and
equal ones the same way each time. -/
structure ServerOrder where
  before : Document → Document → Prop
  asymm : ∀ c d, before c d → ¬ before d c
  descending : ∀ c d, before c d → d.timeStamp ≤ c.timeStamp

/-- Documents with equal time stamps are listed by their ids. -/
def ServerOrder.byID : ServerOrder where
  before c d := d.timeStamp < c.timeStamp ∨
    (d.timeStamp = c.timeStamp ∧ d.documentID < c.documentID)
  asymm c d h h' := by
    rcases h with hlt | ⟨heq, hid⟩
    · rcases h' with hlt' | ⟨heq', -⟩
      · exact absurd hlt hlt'.asymm
      · exact absurd hlt heq'.le.not_gt
    · rcases h' with hlt' | ⟨-, hid'⟩
      · exact absurd hlt' heq.le.not_gt
      · exact String.lt_asymm hid hid'
  descending c d h := by
    rcases h with hlt | ⟨heq, -⟩
    · exact hlt.le
    · exact heq.le

/-- The document has a time stamp. -/
def Document.Stamped (d : Document) : Prop :=
  ∃ t, d.data.lookup "timeStamp" = some (.timestamp t)

/-- The document of the line that an upload writes. -/
def newLine (id : String) (item : DialogueItem) (audioURL : String) (stamp : Timestamp) :
    Document :=
  ⟨id, dialogueData item.id id item.text audioURL item.character item.imageUrl stamp⟩

/-- The fetched lines are those stored before, with the new line, listed by the server. -/
def AddsLine (q : ServerOrder) (stored : List Document) (id : String) (item : DialogueItem)
    (lines : List Dialogue) : Prop :=
  ∃ audioURL stamp docs now, (∀ d ∈ stored, d.timeStamp < stamp) ∧
    List.Listed q.before docs (stored ++ [newLine id item audioURL stamp]) ∧
    lines = docs.map fun d => Dialogue.init d.data now

/-! ## The upload -/

/-- How the upload of a line runs where its steps succeed and nothing else writes lines. -/
def addLine (q : ServerOrder) : Contract Backend Request fun r => Reply r × Moment where
  inv _ := True
  rely s t := t.dialogues = s.dialogues
  demands _ _ := True
  answers s r a t := ∃ create device o, s.perform create device o r = some (t, a.1) ∧
    o.ok = true ∧
    ((∃ path, r = .downloadURL path) → ∀ d ∈ s.dialogues, d.timeStamp < a.2.now) ∧
    (r = .getDocuments .dialogues →
      List.Listed q.before (s.find .dialogues o.found) s.dialogues)
  rely_refl _ := rfl
  rely_trans _ _ _ h h' := h'.trans h

section upload

variable {q : ServerOrder} {m : Moment} {b : Backend} {item : DialogueItem}

/-- Storage leaves the stored lines alone. -/
theorem perform_storage {b b' : Backend} {create : CreateChatController} {device : Device}
    {o : Outcome} {r : Request} {reply : Reply r} (hr : IsStorage r)
    (h : b.perform create device o r = some (b', reply)) : b'.dialogues = b.dialogues := by
  cases r with
  | putData path data =>
    rcases perform_putData h with rfl | rfl
    · rfl
    · rfl
  | putFile path file =>
    rcases perform_putFile h with ⟨rfl, -⟩ | ⟨recording, -, -, rfl⟩
    · rfl
    · rfl
  | downloadURL path =>
    obtain ⟨rfl, -⟩ := perform_downloadURL h
    rfl
  | animate | setData | getDocuments => exact hr.elim

/-- The sound's upload ends with a clock that is later than the stored lines. -/
theorem holds_uploadSound {audio : URL} {stored : List Document} (hb : b.dialogues = stored) :
    ((DataUploader.uploadDialogue audio).run m).Holds (addLine q)
      (fun t p => t.dialogues = stored ∧ ∀ d ∈ stored, d.timeStamp < p.2.now)
      (fun _ => True) b := by
  unfold DataUploader.uploadDialogue
  refine Chain.holds_bind (Chain.holds_read ?_)
  refine Chain.holds_bind (Chain.holds_request fun t₁ h₁ _ => ⟨trivial, fun a₁ t₂ ha₁ => ?_⟩)
  obtain ⟨create₁, device₁, o₁, hperform₁, -⟩ := ha₁
  have hstored₂ : t₂.dialogues = stored :=
    (perform_storage (r := .putFile _ _) trivial hperform₁).trans (h₁.trans hb)
  refine Chain.holds_bind (Chain.holds_request fun t₃ h₃ _ => ⟨trivial, fun a₂ t₄ ha₂ => ?_⟩)
  obtain ⟨create₂, device₂, o₂, hperform₂, -, hlate, -⟩ := ha₂
  have hstored₃ : t₃.dialogues = stored := h₃.trans hstored₂
  have hstored₄ : t₄.dialogues = stored :=
    (perform_storage (r := .downloadURL _) trivial hperform₂).trans hstored₃
  cases a₂.1 with
  | none => exact Chain.holds_stop trivial
  | some audioURL =>
    exact Chain.holds_pure ⟨hstored₄, hstored₃ ▸ hlate ⟨_, rfl⟩⟩

/-- The upload of a line hands the stored lines with the new one to its completion. -/
theorem holds_addLine {stored : List Document} (hb : b.dialogues = stored)
    (hfresh : ∀ d ∈ stored, d.documentID ≠ m.documentID) :
    ((uploadDialogue item).run m).Holds (addLine q)
      (fun _ p => AddsLine q stored m.documentID item p.1) (fun _ => True) b := by
  unfold uploadDialogue
  refine Chain.holds_bind (Chain.holds_read (Chain.holds_bind ?_))
  refine (holds_uploadSound hb).mono ?_ fun _ h => h
  rintro t₁ ⟨audioURL, m₁⟩ ⟨hstored₁, hlate⟩
  refine Chain.holds_bind (Chain.holds_read ?_)
  refine Chain.holds_bind (Chain.holds_request fun t₂ h₂ _ => ⟨trivial, fun a₂ t₃ ha₂ => ?_⟩)
  have hstored₂ : t₂.dialogues = stored := h₂.trans hstored₁
  have hstored₃ : t₃.dialogues = stored ++ [newLine m.documentID item audioURL m₁.now] := by
    obtain ⟨create₂, device₂, o₂, hperform₂, hok, -⟩ := ha₂
    rcases perform_setData hperform₂ with ⟨-, heq⟩ | ⟨hno, -⟩
    · rw [heq]
      show List.upsert Document.documentID _ t₂.dialogues = _
      rw [hstored₂]
      exact List.upsert_of_fresh hfresh
    · rw [hok] at hno
      cases hno
  unfold fetchDialogue fetchDocuments
  refine Chain.holds_bind (Chain.holds_request fun t₄ h₄ _ => ⟨trivial, fun a₄ t₅ ha₄ => ?_⟩)
  obtain ⟨create₄, device₄, o₄, hperform₄, hok, -, hlisted⟩ := ha₄
  obtain ⟨reply, m₄⟩ := a₄
  simp only [perform, hok, if_true, Option.some.injEq, Prod.mk.injEq] at hperform₄
  obtain ⟨-, rfl⟩ := hperform₄
  refine Chain.holds_bind (Chain.holds_read (Chain.holds_pure ?_))
  have hlisted₄ := hlisted rfl
  rw [show t₄.dialogues = _ from h₄.trans hstored₃] at hlisted₄
  exact ⟨audioURL, m₁.now, _, m₄.now, hlate, hlisted₄, rfl⟩

/-- A document with a time stamp decodes to the same line at any time. -/
theorem Document.Stamped.init_eq {d : Document} (h : d.Stamped) (now now' : Timestamp) :
    Dialogue.init d.data now = Dialogue.init d.data now' := by
  obtain ⟨t, ht⟩ := h
  simp [Dialogue.init, Dictionary.timestamp, ht]

/-- The fields of the new line, read back. -/
theorem init_newLine (id audioURL : String) (stamp now : Timestamp) :
    Dialogue.init (newLine id item audioURL stamp).data now =
      { dialogue := item.text, audioUrl := audioURL, timeStamp := stamp, dialogueID := id
        character := item.character, imageUrl := item.imageUrl, characterID := item.id } :=
  rfl

/-- The new line comes in front of the lines that were listed before, all decoded at one time. -/
theorem AddsLine.eq_cons {stored before : List Document} {id : String} {lines : List Dialogue}
    (h : AddsLine q stored id item lines) (hbefore : List.Listed q.before before stored) :
    ∃ (line : Dialogue) (now : Timestamp), line.dialogue = item.text ∧
      line.characterID = item.id ∧ line.character = item.character ∧
      line.imageUrl = item.imageUrl ∧
      lines = line :: before.map fun d => Dialogue.init d.data now := by
  obtain ⟨audioURL, stamp, docs, now, hlate, hlisted, rfl⟩ := h
  have hfirst : docs = newLine id item audioURL stamp :: before :=
    List.Listed.cons_of_latest q.asymm q.descending hlate hlisted hbefore
  refine ⟨⟨item.text, audioURL, stamp, id, item.character, item.imageUrl, item.id⟩, now,
    rfl, rfl, rfl, rfl, ?_⟩
  rw [hfirst, List.map_cons, init_newLine]

end upload

/-! ## The screen of the line -/

namespace Client

variable {names : Names} {url : URLParser} {client : ℕ} {b b' : Backend} {cl cl' : Client}

/-- The register tap of a screen for a further line starts the upload of what the screen holds. -/
theorem register_dialogue {screen : ℕ} {now : Timestamp} {s : RegisterScreen}
    {info : CharacterInfo} {selected : Character}
    (h : cl.step names url client b (.register screen now) = some (b', cl'))
    (hs : cl.screens[screen]? = some s) (hkind : s.kind = .dialogue (some info) selected) :
    b' = b ∧ cl' = cl.uploadDialogue names client screen s (some info) now := by
  cases step_cases h with
  | @registerCharacter _ s' _ hs' hkind' =>
    obtain rfl := Option.some.inj (hs.symm.trans hs')
    rw [hkind] at hkind'
    cases hkind'
  | @registerDialogue _ s' _ info' selected' hs' hkind' =>
    obtain rfl := Option.some.inj (hs.symm.trans hs')
    rw [hkind] at hkind'
    obtain ⟨⟨rfl⟩, -⟩ := RegisterScreen.Kind.dialogue.inj hkind'
    exact ⟨rfl, rfl⟩
  | @registerNothing _ s' _ selected' hs' hkind' =>
    obtain rfl := Option.some.inj (hs.symm.trans hs')
    rw [hkind] at hkind'
    cases hkind'
  | screen he => cases he

/-- The answer that completes the upload of a line shows the lines of the character that the screen
has captured. -/
theorem answer_addedDialogue {k screen : ℕ} {o : Outcome} {call : Call} {info : CharacterInfo}
    {selected : Character} (h : cl.answer names client b k o = some (b', cl'))
    (hcall : cl'.calls[k]? = some call) (horigin : call.origin = .dialogue screen)
    (hkind : cl.kinds[screen]? = some (.dialogue (some info) selected)) {dialogues : List Dialogue}
    {m : Moment} (hdone : call.program = .done (.dialogues dialogues, m)) :
    cl'.create = cl.create.addedDialogue dialogues selected := by
  obtain ⟨cl₁, rfl, hcreate, hscreens⟩ := answer_runCompletion h hcall
  have hcaptured : cl₁.screens[screen]?.map RegisterScreen.kind =
      some (.dialogue (some info) selected) := by
    rw [hscreens]
    exact List.getElem?_map.symm.trans hkind
  rw [← hcreate]
  simp only [runCompletion, hdone, complete, horigin, hcaptured, popToRoot_create]
  rfl

end Client

/-! ## Runs of all clients -/

namespace World

variable {names : Names} {url : URLParser} {q : ServerOrder} {i : Owner} {w w' : World}
  {screen : ℕ} {info : CharacterInfo} {selected : Character} {stored : List Document} {id : String}
  {item : DialogueItem}

/-- The answers to the upload are successes: the clock is ahead of the stored lines when the time
stamp is taken, and the fetch lists all lines.  No other event writes lines. -/
structure AddsAlone (names : Names) (url : URLParser) (q : ServerOrder) (i : Owner) (w : World)
    (e : ℕ × Client.Event) : Prop where
  success : ∀ o, e = (i.client, .answer i.call o) → o.ok = true
  latest : ∀ o path, e = (i.client, .answer i.call o) →
    (w.parts i.client).waitsFor i.call = some (.downloadURL path) →
    ∀ d ∈ w.shared.dialogues, d.timeStamp < o.now
  listed : ∀ o, e = (i.client, .answer i.call o) →
    (w.parts i.client).waitsFor i.call = some (.getDocuments .dialogues) →
    List.Listed q.before (w.shared.find .dialogues o.found) w.shared.dialogues
  others : (∀ o, e ≠ (i.client, .answer i.call o)) → ∀ w', step names url w e = some w' →
    w'.shared.dialogues = w.shared.dialogues

/-- The upload of the line keeps its contract, and its screen has captured the character. -/
structure Adding (q : ServerOrder) (i : Owner) (screen : ℕ) (info : CharacterInfo)
    (selected : Character) (stored : List Document) (id : String) (item : DialogueItem)
    (w : World) : Prop where
  kind : (w.parts i.client).kinds[screen]? = some (.dialogue (some info) selected)
  call : ∃ call, (w.parts i.client).calls[i.call]? = some call ∧ call.origin = .dialogue screen ∧
    call.program.Holds (addLine q)
      (fun _ p => ∃ lines, p.1 = .dialogues lines ∧ AddsLine q stored id item lines)
      (fun _ => True) w.shared

/-- A screen stays of its kind, whatever happens in the world. -/
theorem step_kinds {e : ℕ × Client.Event} {client : ℕ} {kind : RegisterScreen.Kind}
    (hstep : step names url w e = some w')
    (hkind : (w.parts client).kinds[screen]? = some kind) :
    (w'.parts client).kinds[screen]? = some kind :=
  Shared.advance_part (L := fun cl => cl.kinds[screen]? = some kind)
    (fun _ _ _ _ _ h (_ : True) hclient => Client.step_kinds_getElem? hclient h) hkind
    (fun _ => trivial) hstep

/-- An event that does not answer the upload. -/
theorem Adding.other {e : ℕ × Client.Event}
    (h : w.Adding q i screen info selected stored id item) (hstep : step names url w e = some w')
    (hother : ∀ o, e ≠ (i.client, .answer i.call o))
    (hsame : w'.shared.dialogues = w.shared.dialogues) :
    w'.Adding q i screen info selected stored id item := by
  obtain ⟨call, hcall, horigin, hholds⟩ := h.call
  refine ⟨step_kinds hstep h.kind, call, step_call hstep hcall hother, horigin, ?_⟩
  exact hholds.rely hsame (fun _ _ _ _ hlines => hlines) fun _ _ _ _ => trivial

/-- The answer to the request that the upload waits for. -/
theorem Adding.answer {o : Outcome} (h : w.Adding q i screen info selected stored id item)
    (hwell : AddsAlone names url q i w (i.client, .answer i.call o))
    (hstep : step names url w (i.client, .answer i.call o) = some w') :
    w'.Adding q i screen info selected stored id item := by
  obtain ⟨hclient, -⟩ := Shared.advance_eq_some hstep
  obtain ⟨call, hcall, horigin, hholds⟩ := h.call
  obtain ⟨call₀, r, next, reply, hcall₀, hprogram, hperform, call', rfl, hcl'⟩ :=
    Client.answer_cases hclient
  obtain rfl : call = call₀ := Option.some.inj (hcall.symm.trans hcall₀)
  rw [hprogram] at hholds
  have hwaits := Client.waitsFor_of_call hcall hprogram
  have hget : (w'.parts i.client).calls[i.call]? = some (call.resume
      (next (reply, (w.parts i.client).moment names i.client i.call (call.callbacks + 1) o.now))
      ((w.parts i.client).soundOf r o)) := by
    rw [hcl', Client.runCompletion_calls]
    exact List.getElem?_set_self (List.getElem?_eq_some_iff.1 hcall).1
  refine ⟨step_kinds hstep h.kind, _, hget, horigin, ?_⟩
  refine (hholds.answer trivial).2 (reply, _) w'.shared
    ⟨_, _, o, hperform, hwell.success o rfl, ?_, ?_⟩
  · rintro ⟨path, rfl⟩
    exact hwell.latest o path rfl hwaits
  · rintro rfl
    exact hwell.listed o rfl hwaits

theorem adding_step (w : World) (e : ℕ × Client.Event) (w' : World)
    (h : w.Adding q i screen info selected stored id item) (hwell : AddsAlone names url q i w e)
    (hstep : step names url w e = some w') : w'.Adding q i screen info selected stored id item := by
  rcases answers_or_other i e with ⟨o, rfl⟩ | hother
  · exact h.answer hwell hstep
  · exact h.other hstep hother (hwell.others hother w' hstep)

/-- The client has tapped the add-line button with the character selected and, any events later, the
register button of the screen that this tap has opened. -/
structure RegistersLine (names : Names) (url : URLParser) (i : Owner) (c : Character)
    (s : RegisterScreen) (w₀ w w' : World) : Prop where
  selected : (w₀.parts i.client).create.selectedCharacter = some c
  imageUrl : (url.parse c.imageUrl).isSome
  opened : ∃ es, run names url w₀ ((i.client, .didTapAddDialogueButton) :: es) = some w
  screen : (w.parts i.client).screens[(w₀.parts i.client).screens.length]? = some s
  number : i.call = (w.parts i.client).calls.length
  registered : ∃ now,
    step names url w (i.client, .register (w₀.parts i.client).screens.length now) = some w'

/-- The item that the register tap uploads. -/
def lineItem (c : Character) (s : RegisterScreen) : DialogueItem :=
  { id := c.characterID, imageUrl := c.imageUrl, audio := s.audioUrl, text := s.audioText,
    character := c.character }

/-- The screen that the tap on the add-line button opens captures the selected character. -/
theorem RegistersLine.kind {c : Character} {s : RegisterScreen} {w₀ : World}
    (h : RegistersLine names url i c s w₀ w w') :
    ∃ imageUrl : URL, imageUrl.absoluteString = c.imageUrl ∧
      s.kind = .dialogue (some ⟨c.characterID, imageUrl, c.character⟩) c := by
  obtain ⟨imageUrl, hurl⟩ := Option.isSome_iff_exists.1 h.imageUrl
  obtain ⟨es, hrun⟩ := h.opened
  obtain ⟨w₁, hopen, hrest⟩ := Runs.run_cons_eq_some.1 hrun
  obtain ⟨hclient, -⟩ := Shared.advance_eq_some hopen
  have hopened : (w₁.parts i.client).kinds[(w₀.parts i.client).screens.length]? =
      some (.dialogue (some ⟨c.characterID, imageUrl, c.character⟩) c) := by
    rw [Client.step] at hclient
    split_ifs at hclient
    obtain ⟨-, hcl⟩ := Prod.mk.inj (Option.some.inj hclient)
    rw [← hcl, Client.didTapAddDialogueButton, h.selected]
    simp only [hurl]
    refine Client.kinds_getElem? (s := RegisterScreen.new _) ?_
    exact List.getElem?_concat_length
  have hkind : (w.parts i.client).kinds[(w₀.parts i.client).screens.length]? =
      some (.dialogue (some ⟨c.characterID, imageUrl, c.character⟩) c) :=
    run_invariant (fun _ _ _ hk hstep => step_kinds hstep hk) hopened hrest
  rw [Client.kinds_getElem? h.screen] at hkind
  exact ⟨imageUrl, url.absoluteString_parse _ _ hurl, Option.some.inj hkind⟩

/-- The register tap starts the upload of the line. -/
theorem RegistersLine.adding {c : Character} {s : RegisterScreen} {w₀ : World}
    (h : RegistersLine names url i c s w₀ w w')
    (hfresh : ∀ d ∈ w.shared.dialogues,
      d.documentID ≠ names.documentID ⟨i.client, i.call, 0⟩) :
    ∃ info, w'.Adding q i (w₀.parts i.client).screens.length info c w.shared.dialogues
      (names.documentID ⟨i.client, i.call, 0⟩) (lineItem c s) := by
  obtain ⟨imageUrl, habsolute, hkind⟩ := h.kind
  obtain ⟨now, hregister⟩ := h.registered
  obtain ⟨hclient, -⟩ := Shared.advance_eq_some hregister
  obtain ⟨hstore, hcl⟩ := Client.register_dialogue hclient h.screen hkind
  have hcaptured := (Client.kinds_getElem? h.screen).trans (congrArg some hkind)
  refine ⟨_, step_kinds hregister hcaptured, ?_⟩
  rw [hcl, hstore, h.number]
  refine ⟨_, List.getElem?_concat_length, rfl, Chain.holds_map ?_⟩
  rw [h.number] at hfresh
  have hitem : lineItem c s =
      ⟨c.characterID, imageUrl.absoluteString, s.audioUrl, s.audioText, c.character⟩ := by
    rw [habsolute]
    rfl
  rw [hitem]
  exact (holds_addLine rfl hfresh).mono (fun _ p hlines => ⟨p.1, rfl, hlines⟩) fun _ h => h

/-- Where every step of the upload of a line succeeds and nothing else writes lines meanwhile, the
lines shown after its completion are those of its character as they were stored before, with one new
line in front: it has the registered text and the character's id, name and picture.  The lines of
every other character are what they were.  Stored lines without a time stamp are decoded with the
clock at the fetch. -/
theorem addsExactlyThatLine (q : ServerOrder) (i : Owner) (c : Character) (s : RegisterScreen)
    (w₀ w w' w'' : World) (es : List (ℕ × Client.Event)) (o : Outcome) (call : Call)
    (before : List Document) (hregisters : RegistersLine names url i c s w₀ w w')
    (hrun : run names url w' (es ++ [(i.client, .answer i.call o)]) = some w'')
    (hcall : (w''.parts i.client).calls[i.call]? = some call)
    (hdone : call.program.finished = true)
    (halone : AllSteps (step names url) (AddsAlone names url q i) w'
      (es ++ [(i.client, .answer i.call o)]))
    (hfresh : ∀ d ∈ w.shared.dialogues, d.documentID ≠ names.documentID ⟨i.client, i.call, 0⟩)
    (hbefore : List.Listed q.before before w.shared.dialogues) :
    ∃ (line : Dialogue) (fetched : Timestamp), line.dialogue = s.audioText ∧
      line.characterID = c.characterID ∧ line.character = c.character ∧
      line.imageUrl = c.imageUrl ∧
      ∀ now, (now = fetched ∨ ∀ d ∈ w.shared.dialogues, d.Stamped) →
        let held := before.map fun d => Dialogue.init d.data now
        (w''.parts i.client).create.selectedDialogues = line :: linesOf held c ∧
        ∀ other : Character, other.characterID ≠ c.characterID →
          ((w''.parts i.client).create.updateDialogues other).selectedDialogues =
            linesOf held other := by
  obtain ⟨info, hadding⟩ := hregisters.adding hfresh
  have hadded := run_invariant_of_allSteps adding_step hadding halone hrun
  -- the state before the last answer, and what that answer shows
  obtain ⟨w₁, hrun₁, hlast⟩ := run_concat_eq_some.1 hrun
  have hadding₁ := run_invariant_of_allSteps adding_step hadding (allSteps_append.1 halone).1 hrun₁
  obtain ⟨hclient, -⟩ := Shared.advance_eq_some hlast
  obtain ⟨call', hcall', horigin, hholds⟩ := hadded.call
  obtain rfl : call = call' := Option.some.inj (hcall.symm.trans hcall')
  obtain ⟨⟨completion, m⟩, hprogram⟩ := Async.exists_done hdone
  rw [hprogram] at hholds
  obtain ⟨lines, heq, hlines⟩ := hholds
  obtain rfl : completion = .dialogues lines := heq
  have hcreate := Client.answer_addedDialogue hclient hcall horigin hadding₁.kind hprogram
  obtain ⟨line, fetched, htext, hid, hname, himage, hcons⟩ := hlines.eq_cons hbefore
  refine ⟨line, fetched, htext, hid, hname, himage, fun now hnow => ?_⟩
  have hheld : lines = line :: before.map fun d => Dialogue.init d.data now := by
    rw [hcons]
    rcases hnow with rfl | hstamped
    · rfl
    · refine congrArg _ (List.map_congr_left fun d hd => ?_)
      exact (hstamped d (hbefore.perm.mem_iff.1 hd)).init_eq fetched now
  rw [hcreate, hheld]
  refine ⟨linesOf_cons_self hid, fun other hother => linesOf_cons_of_ne ?_⟩
  rw [hid]
  exact hother.symm

/-- An answer to the request that the upload waits for is one of `AddsAlone`. -/
theorem addsAlone_answer {o : Outcome} {r : Request}
    (hwaits : (w.parts i.client).waitsFor i.call = some r) (hok : o.ok = true)
    (hlate : (∃ path, r = .downloadURL path) → ∀ d ∈ w.shared.dialogues, d.timeStamp < o.now)
    (hlisted : r = .getDocuments .dialogues →
      List.Listed q.before (w.shared.find .dialogues o.found) w.shared.dialogues) :
    AddsAlone names url q i w (i.client, .answer i.call o) := by
  refine ⟨fun o' heq => ?_, fun o' path heq hwaits' => ?_, fun o' heq hwaits' => ?_, fun hne => ?_⟩
  · obtain rfl : o = o' := by simpa using heq
    exact hok
  · obtain rfl : o = o' := by simpa using heq
    exact hlate ⟨path, Option.some.inj (hwaits.symm.trans hwaits')⟩
  · obtain rfl : o = o' := by simpa using heq
    exact hlisted (Option.some.inj (hwaits.symm.trans hwaits'))
  · exact absurd rfl (hne o)

/-- A further line of the character that has been registered. -/
def registerLine : List (ℕ × Client.Event) :=
  [(0, .didTapAddDialogueButton), (0, .onScreen 1 (.didTapRecordButton 0 true)),
   (0, .onScreen 1 (.textViewDidChange 0 "Goodbye")),
   (0, .onScreen 1 (.didTapRecordButton 0 true)), (0, .register 1 1)]

/-- The answers to its upload. -/
def lineAnswers : List (ℕ × Client.Event) :=
  [(0, .answer 1 ⟨true, "audio url", [], 1⟩), (0, .answer 1 ⟨true, "", [], 1⟩),
   (0, .answer 1 ⟨true, "", [], 1⟩), (0, .answer 1 ⟨true, "", [1, 0], 1⟩)]

/-- The fetch of the two lines lists the later one first. -/
theorem listed_pair {b : Backend} {d d' : Document} (hstored : b.dialogues = [d, d'])
    (hlate : d.timeStamp < d'.timeStamp) :
    List.Listed ServerOrder.byID.before (b.find .dialogues [1, 0]) b.dialogues := by
  have hfind : b.find .dialogues [1, 0] = [d', d] := by
    simp [find, documents, hstored]
  rw [hfind, hstored]
  refine ⟨List.Perm.swap d d' [], ?_⟩
  rw [List.pairwise_pair]
  exact Or.inl hlate

theorem addsExactlyThatLine_secondLine :
    ∃ (w : World) (d : Document) (line : Dialogue),
      run Names.letters URLParser.nonempty (init fun _ => .new "documents")
        (registerCharacter ++ registerLine ++ lineAnswers) = some w ∧
      line.dialogue = "Goodbye" ∧
      (w.parts 0).create.selectedDialogues = [line, Dialogue.init d.data 0] := by
  have hworlds : ∃ (w₀ w w' w'' : World) (c : Character) (s : RegisterScreen) (call : Call)
      (d : Document),
      run Names.letters URLParser.nonempty (init fun _ => .new "documents") registerCharacter =
        some w₀ ∧
      run Names.letters URLParser.nonempty (init fun _ => .new "documents")
        (registerCharacter ++ registerLine ++ lineAnswers) = some w'' ∧
      RegistersLine Names.letters URLParser.nonempty ⟨0, 1⟩ c s w₀ w w' ∧
      run Names.letters URLParser.nonempty w' lineAnswers = some w'' ∧
      (w''.parts 0).calls[1]? = some call ∧ call.program.finished = true ∧
      w.shared.dialogues = [d] ∧ d.documentID = "ccccc" ∧ d.Stamped ∧
      s.audioText = "Goodbye" ∧ c.characterID = "" ∧
      (Dialogue.init d.data 0).characterID = "" ∧
      AllSteps (step Names.letters URLParser.nonempty)
        (AddsAlone Names.letters URLParser.nonempty ServerOrder.byID ⟨0, 1⟩) w' lineAnswers := by
    refine ⟨_, _, _, _, _, _, _, _, rfl, rfl,
      ⟨rfl, rfl, ⟨registerLine.dropLast.tail, rfl⟩, rfl, rfl, ⟨1, rfl⟩⟩, rfl, rfl, rfl, rfl, rfl,
      ⟨_, rfl⟩, rfl, rfl, rfl, ?_⟩
    refine allSteps_cons rfl (addsAlone_answer rfl rfl nofun nofun) ?_
    refine allSteps_cons rfl (addsAlone_answer rfl rfl (fun _ => ?_) nofun) ?_
    · exact List.forall_mem_singleton.2 (by decide)
    refine allSteps_cons rfl (addsAlone_answer rfl rfl nofun nofun) ?_
    refine allSteps_cons rfl (addsAlone_answer rfl rfl nofun fun _ => ?_) trivial
    exact listed_pair rfl (by decide)
  obtain ⟨w₀, w, w', w'', c, s, call, d, -, hall, hregisters, hrun, hcall, hdone, hstored, hid,
    hstamped, htext, hc, hline, halone⟩ := hworlds
  obtain ⟨line, fetched, hdialogue, -, -, -, hshown⟩ :=
    addsExactlyThatLine ServerOrder.byID ⟨0, 1⟩ c s w₀ w w' w'' (lineAnswers.dropLast)
      ⟨true, "", [1, 0], 1⟩ call [d] hregisters hrun hcall hdone halone
      (by rw [hstored, List.forall_mem_singleton, hid]; decide)
      (by rw [hstored]; exact ⟨List.Perm.refl _, List.pairwise_singleton _ _⟩)
  refine ⟨w'', d, line, hall, hdialogue.trans htext, ?_⟩
  rw [(hshown 0 (Or.inr (by rw [hstored]; exact List.forall_mem_singleton.2 hstamped))).1]
  rw [List.map_singleton, linesOf, List.filter_singleton, hline, hc]
  rfl

end World

end DialogueApp
