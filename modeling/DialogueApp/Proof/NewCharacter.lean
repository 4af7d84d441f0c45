import DialogueApp.Lib.Latest
import DialogueApp.Proof.WorldInvariant
import Mathlib.Data.Int.Order.Basic

/-!
# The character a client goes on with

`updateCharacter` selects the first of the characters that `uploadCharacter` fetches at its end.
That is the new character itself exactly where, when this fetch is answered, no other stored
character has a time stamp that puts it first: another client may have written one in between, or
with a faster clock.
-/

namespace DialogueApp

open Runs Backend Program CharacterService DialogueService

/-- The id of the character that an upload creates, drawn before its first request. -/
def Names.characterID (names : Names) (i : Owner) : String :=
  names.documentID ⟨i.client, i.call, 0⟩

/-- What `order(by: "timeStamp", descending: true)` orders by. -/
def Document.timeStamp (d : Document) : Timestamp := d.data.timestamp "timeStamp" 0

namespace Backend

variable (names : Names) (i : Owner) (b : Backend) (found : List ℕ)

/-- The answer holds every stored character, in descending order of the time stamps. -/
def FoundInOrder : Prop :=
  (b.find .characters found).Perm b.characters ∧
    (b.find .characters found).Pairwise fun c d => d.timeStamp ≤ c.timeStamp

/-- Each other stored character has an earlier time stamp than the upload's own, or the same one and
no place before it in the answer. -/
def OwnLeads : Prop :=
  ∀ own ∈ b.characters, own.documentID = names.characterID i →
    List.Leads Document.timeStamp (b.find .characters found) b.characters own

/-- The upload's character is stored. -/
def HasOwn : Prop := ∃ own ∈ b.characters, own.documentID = names.characterID i

end Backend

/-- The request that an upload of the client waits for. -/
def Client.waitsFor (cl : Client) (k : ℕ) : Option Request :=
  cl.calls[k]?.bind fun call => call.program.request?

theorem Client.waitsFor_of_call {cl : Client} {k : ℕ} {call : Call} {r : Request}
    {next : Reply r × Moment → Running Completion} (hcall : cl.calls[k]? = some call)
    (hprogram : call.program = .call r next) : cl.waitsFor k = some r := by
  rw [Client.waitsFor, hcall, Option.bind_some, hprogram]
  rfl

/-- The first of the fetched characters is the upload's own. -/
def NewInfo.OwnFirst (names : Names) (i : Owner) (newInfo : NewInfo) : Prop :=
  newInfo.characters.head?.map Character.characterID = some (names.characterID i)

/-- How the upload of a character runs where its steps succeed and its `fetchCharacter` is answered
in order.  A state is the store, and whether the own character has led the answers so far. -/
def newCharacter (names : Names) (i : Owner) :
    Contract (Backend × Prop) Request fun r => Reply r × Moment where
  inv s := s.1.Consistent names False False
  rely s t := Grows s.1 t.1 ∧ t.2 = s.2
  demands _ _ := True
  answers s r a t := ∃ create device o, s.1.perform create device o r = some (t.1, a.1) ∧
    Grows s.1 t.1 ∧ o.ok = true ∧ (r = .getDocuments .characters → s.1.FoundInOrder o.found) ∧
    t.2 = (s.2 ∧ (r = .getDocuments .characters → s.1.OwnLeads names i o.found))
  rely_refl s := ⟨Grows.refl s.1, rfl⟩
  rely_trans _ _ _ h h' := ⟨h.1.trans h'.1, h'.2.trans h.2⟩

section upload

variable {names : Names} {i : Owner} {b b' : Backend} {m : Moment} {s : Backend × Prop}

theorem Backend.Grows.hasOwn (h : Grows b b') (hown : b.HasOwn names i) : b'.HasOwn names i := by
  obtain ⟨own, hmem, hid⟩ := hown
  exact ⟨own, h.documents .characters own hmem, hid⟩

/-- A request other than `fetchCharacter` leaves the verdict alone. -/
theorem newCharacter_answers {r : Request} (hr : r ≠ .getDocuments .characters)
    {a : Reply r × Moment} {t : Backend × Prop} (h : (newCharacter names i).answers s r a t) :
    Grows s.1 t.1 ∧ t.2 = s.2 := by
  obtain ⟨create, device, o, -, hgrows, -, -, hverdict⟩ := h
  refine ⟨hgrows, hverdict.trans ?_⟩
  simp [hr]

/-- Code without `fetchCharacter` keeps what the stored characters and the verdict say. -/
theorem holds_of_ne_fetch {α : Type} {J : Backend × Prop → Prop}
    (hJ : ∀ s t : Backend × Prop, J s → Grows s.1 t.1 → t.2 = s.2 → J t) {x : Program α}
    (hx : (x.run m).Only (· ≠ .getDocuments .characters)) (hs : J s)
    {Q : Backend × Prop → α × Moment → Prop} (hQ : ∀ t p, J t → Q t p) :
    (x.run m).Holds (newCharacter names i) Q (fun _ => True) s := by
  have hkeeps : (x.run m).Holds (newCharacter names i) (fun t _ => J t) J s := by
    refine Async.holds_of_only (fun s t h (hr : Grows s.1 t.1 ∧ t.2 = s.2) =>
      hJ s t h hr.1 hr.2) (fun s r h _ hr => ?_) hx hs
    refine ⟨trivial, fun a t ha => ?_⟩
    obtain ⟨hgrows, hverdict⟩ := newCharacter_answers hr ha
    exact hJ s t h hgrows hverdict
  exact hkeeps.mono hQ fun _ _ => trivial

/-- The id of a stored character is that of its document. -/
theorem Backend.Consistent.characterID_init (hb : b.Consistent names False False) {d : Document}
    (hd : d ∈ b.characters) (now : Timestamp) :
    (Character.init d.data now).characterID = d.documentID := by
  obtain ⟨name, imageUrl, timeStamp, hdata, -⟩ := hb.character_data d hd
  rw [hdata]
  rfl

/-- In an answer in order the own character comes first exactly where it leads. -/
theorem head?_ownFirst (hb : b.Consistent names False False) (hown : b.HasOwn names i)
    {found : List ℕ} (hfound : b.FoundInOrder found) (now : Timestamp) :
    ((b.find .characters found).map fun d => Character.init d.data now).head?.map
        Character.characterID = some (names.characterID i) ↔ b.OwnLeads names i found := by
  obtain ⟨own, hmem, hid⟩ := hown
  have hunique : ∀ d ∈ b.characters, d.documentID = names.characterID i → d = own := by
    intro d hd hdid
    exact hb.character_unique i d hd own hmem ⟨0, hdid⟩ ⟨0, hid⟩
  have hleads : b.OwnLeads names i found ↔
      List.Leads Document.timeStamp (b.find .characters found) b.characters own := by
    constructor
    · intro h
      exact h own hmem hid
    · intro h d hd hdid
      rwa [hunique d hd hdid]
  rw [hleads, ← List.head?_eq_some_iff_leads hfound.1 hfound.2 hmem, List.head?_map]
  cases hhead : (b.find .characters found).head? with
  | none => simp
  | some d =>
    have hd : d ∈ b.characters := @mem_find b .characters found d (List.mem_of_mem_head? hhead)
    simp only [Option.map_some, Option.some.injEq, hb.characterID_init hd]
    constructor
    · exact hunique d hd
    · rintro rfl
      exact hid

/-- A successful write of the character stores it. -/
theorem hasOwn_of_setData {id : String} {data : Dictionary} {a : Bool × Moment}
    {t : Backend × Prop}
    (h : (newCharacter names i).answers s (.setData .characters id data) a t) :
    ∃ d ∈ t.1.characters, d.documentID = id := by
  obtain ⟨create, device, o, hperform, -, hok, -⟩ := h
  rcases perform_setData hperform with ⟨-, heq⟩ | ⟨hno, -⟩
  · rw [heq]
    refine ⟨⟨id, data⟩, ?_, rfl⟩
    exact List.mem_upsert.2 (Or.inr rfl)
  · rw [hok] at hno
    cases hno

/-- `fetchCharacter` gives the verdict. -/
theorem holds_fetchCharacter (hown : s.1.HasOwn names i) (hverdict : s.2) :
    (fetchCharacter.run m).Holds (newCharacter names i)
      (fun t p => NewInfo.OwnFirst names i ⟨p.1, []⟩ ↔ t.2) (fun _ => True) s := by
  unfold fetchCharacter fetchDocuments
  refine Chain.holds_bind (Chain.holds_request fun t hst hinv => ⟨trivial, fun a t' ha => ?_⟩)
  obtain ⟨create, device, o, hperform, -, hok, hfound, hverdict'⟩ := ha
  obtain ⟨reply, m'⟩ := a
  simp only [perform, hok, if_true, Option.some.injEq, Prod.mk.injEq] at hperform
  obtain ⟨-, rfl⟩ := hperform
  refine Chain.holds_bind (Chain.holds_read (Chain.holds_pure ?_))
  have hcame : t'.2 = t.1.OwnLeads names i o.found := by
    rw [hverdict', hst.2]
    simp [hverdict]
  rw [hcame]
  exact head?_ownFirst hinv (hst.1.hasOwn hown) (hfound rfl) m'.now

/-- Where it succeeds, the upload hands the own character to its completion as the first one exactly
where the own character has led. -/
theorem holds_newCharacter {item : CharacterItem} (hm : m.documentID = names.characterID i)
    (hverdict : s.2) :
    ((uploadCharacter item).run m).Holds (newCharacter names i)
      (fun t p => p.1.OwnFirst names i ↔ t.2) (fun _ => True) s := by
  unfold uploadCharacter
  refine Chain.holds_bind (Chain.holds_read (Chain.holds_bind ?_))
  refine holds_of_ne_fetch (J := fun t => t.2) (fun s t h _ heq => heq ▸ h)
    (fistUploadDialogue_only.mono fun r hr => hr.ne_getDocuments _) hverdict ?_
  intro t₁ urls hverdict₁
  refine Chain.holds_bind (Chain.holds_read ?_)
  refine Chain.holds_bind (Chain.holds_request fun t₂ h₂ _ => ⟨trivial, fun a₂ t₃ ha₂ => ?_⟩)
  have hown₃ : t₃.1.HasOwn names i := by
    obtain ⟨own, hmem, hid⟩ := hasOwn_of_setData ha₂
    exact ⟨own, hmem, hid.trans hm⟩
  have hverdict₃ : t₃.2 = t₁.2 := (newCharacter_answers (by simp) ha₂).2.trans h₂.2
  refine Chain.holds_bind (Chain.holds_read (Chain.holds_bind (Chain.holds_read ?_)))
  refine Chain.holds_bind (Chain.holds_request fun t₄ h₄ _ => ⟨trivial, fun a₄ t₅ ha₄ => ?_⟩)
  obtain ⟨hgrows₅, hverdict₅⟩ := newCharacter_answers (by simp) ha₄
  have hown₅ : t₅.1.HasOwn names i := hgrows₅.hasOwn (h₄.1.hasOwn hown₃)
  have htrue₅ : t₅.2 := by
    rw [hverdict₅, h₄.2, hverdict₃]
    exact hverdict₁
  refine Chain.holds_bind ((holds_fetchCharacter hown₅ htrue₅).mono ?_ fun _ h => h)
  intro t₆ p hfirst
  -- the lines are fetched after the characters
  refine Chain.holds_bind (holds_of_ne_fetch
    (J := fun t => NewInfo.OwnFirst names i ⟨p.1, []⟩ ↔ t.2) (fun s t h _ heq => heq ▸ h)
    fetchDialogue_ne_characters hfirst ?_)
  exact fun t₇ dialogues h => Chain.holds_pure h

end upload

/-! ## The steps of a client -/

namespace Client

variable {names : Names} {url : URLParser} {client : ℕ} {b b' : Backend} {cl cl' : Client} {k : ℕ}

/-- The upload of a character that a step starts. -/
theorem step_started {e : Event} {call : Call}
    (h : cl.step names url client b e = some (b', cl')) (hnone : cl.calls[k]? = none)
    (hcall : cl'.calls[k]? = some call) (hc : call.origin.IsCharacter) :
    ∃ item now, call.program = (.newInfo <$> CharacterService.uploadCharacter item).run
      (cl.moment names client k 0 now) := by
  have hold : cl'.calls = cl.calls → False := by
    intro heq
    rw [heq, hnone] at hcall
    cases hcall
  have hnew : ∀ {call'}, cl'.calls = cl.calls ++ [call'] →
      k = cl.calls.length ∧ call = call' := by
    intro call' heq
    rw [heq] at hcall
    rcases getElem?_concat_cases hcall with hget | hget
    · rw [hnone] at hget
      cases hget
    · exact hget
  cases step_cases h with
  | registerConversation =>
    obtain ⟨-, rfl⟩ := hnew rfl
    exact hc.elim
  | registerCharacter =>
    obtain ⟨rfl, rfl⟩ := hnew rfl
    exact ⟨_, _, rfl⟩
  | registerDialogue =>
    obtain ⟨-, rfl⟩ := hnew rfl
    exact hc.elim
  | @answer k' o _ _ hanswer =>
    obtain ⟨call', r, next, reply, -, -, -, call'', -, rfl⟩ := answer_cases hanswer
    rw [runCompletion_calls] at hcall
    have hlt := (List.getElem?_eq_some_iff.1 hcall).1
    rw [List.length_set] at hlt
    exact absurd hnone (by simp [hlt])
  | _ => exact (hold rfl).elim

/-- The answer that completes the upload of a character updates the create screen. -/
theorem answer_updateCharacter {o : Outcome} {call : Call}
    (h : cl.answer names client b k o = some (b', cl')) (hcall : cl'.calls[k]? = some call)
    (hc : call.origin.IsCharacter) {newInfo : NewInfo} {m : Moment}
    (hdone : call.program = .done (.newInfo newInfo, m)) :
    cl'.create = cl.create.updateCharacter names.sameName newInfo := by
  obtain ⟨cl₁, rfl, hcreate, -⟩ := answer_runCompletion h hcall
  rw [← hcreate, runCompletion, hdone]
  cases horigin : call.origin with
  | character screen =>
    simp only [complete, popToRoot_create]
    rfl
  | dialogue screen =>
    rw [horigin] at hc
    exact hc.elim
  | conversation =>
    rw [horigin] at hc
    exact hc.elim

/-- The selected character has this id, and the screen for a further line carries it. -/
structure WorksOn (url : URLParser) (cl : Client) (characterID : String) : Prop where
  selected : cl.create.selectedCharacter.map Character.characterID = some characterID
  next_line : ∀ s ∈ (cl.didTapAddDialogueButton url).screens, s ∈ cl.screens ∨
    ∃ info character, s.kind = .dialogue (some info) character ∧ info.id = characterID

theorem worksOn_iff {characterID : String} : cl.WorksOn url characterID ↔
    cl.create.selectedCharacter.map Character.characterID = some characterID := by
  refine ⟨WorksOn.selected, fun h => ⟨h, fun s hs => ?_⟩⟩
  obtain ⟨character, hselected, rfl⟩ := Option.map_eq_some_iff.1 h
  simp only [didTapAddDialogueButton, hselected] at hs
  split at hs
  · exact Or.inl hs
  · rcases List.mem_append.1 hs with hs | hs
    · exact Or.inl hs
    · obtain rfl := List.mem_singleton.1 hs
      exact Or.inr ⟨_, _, rfl, rfl⟩

end Client

/-! ## Runs of all clients -/

namespace World

variable {names : Names} {url : URLParser} {w w' : World} {i : Owner} {verdict : Prop}

/-- Every answer to the upload is a success, and its `fetchCharacter` finds the characters in
order. -/
def SucceedsInOrder (i : Owner) (w : World) (e : ℕ × Client.Event) : Prop :=
  ∀ o, e = (i.client, .answer i.call o) → o.ok = true ∧
    ((w.parts i.client).waitsFor i.call = some (.getDocuments .characters) →
      w.shared.FoundInOrder o.found)

/-- The condition on an event: when the upload's `fetchCharacter` is answered, its own character
leads the answer. -/
def OwnLeadsAnswer (names : Names) (i : Owner) (w : World) (e : ℕ × Client.Event) : Prop :=
  ∀ o, e = (i.client, .answer i.call o) →
    (w.parts i.client).waitsFor i.call = some (.getDocuments .characters) →
      w.shared.OwnLeads names i o.found

/-- The upload keeps its contract, with `verdict` on the answers so far. -/
structure Tracked (names : Names) (i : Owner) (w : World) (verdict : Prop) : Prop where
  inv : w.Inv names False False
  call : ∀ call, (w.parts i.client).calls[i.call]? = some call → call.origin.IsCharacter →
    call.program.Holds (newCharacter names i)
      (fun t p => ∃ newInfo, p.1 = .newInfo newInfo ∧ (newInfo.OwnFirst names i ↔ t.2))
      (fun _ => True) (w.shared, verdict)
  fresh : (w.parts i.client).calls[i.call]? = none → verdict

/-- An event that starts the upload. -/
theorem Tracked.started {e : ℕ × Client.Event} {call : Call} (h : w.Tracked names i verdict)
    (hstep : step names url w e = some w') (hnone : (w.parts i.client).calls[i.call]? = none)
    (hcall : (w'.parts i.client).calls[i.call]? = some call) (hc : call.origin.IsCharacter) :
    call.program.Holds (newCharacter names i)
      (fun t p => ∃ newInfo, p.1 = .newInfo newInfo ∧ (newInfo.OwnFirst names i ↔ t.2))
      (fun _ => True) (w'.shared, verdict) := by
  obtain ⟨item, now, hprogram⟩ :=
    Client.step_started (step_of_started hstep hnone hcall) hnone hcall hc
  rw [hprogram]
  refine Chain.holds_map ((holds_newCharacter rfl (h.fresh hnone)).mono ?_ fun _ h => h)
  exact fun t p hfirst => ⟨p.1, rfl, hfirst⟩

/-- An event that does not answer the upload. -/
theorem Tracked.other {e : ℕ × Client.Event} (h : w.Tracked names i verdict)
    (hstep : step names url w e = some w') (hother : ∀ o, e ≠ (i.client, .answer i.call o)) :
    w'.Tracked names i verdict := by
  have hinv := step_inv_false w e w' h.inv hstep
  have hgrows := (step_rely h.inv hstep i hother).toGrows
  refine ⟨hinv, fun call hcall hc => ?_, fun hnone => ?_⟩
  · cases hold : (w.parts i.client).calls[i.call]? with
    | some call₀ =>
      obtain rfl := Option.some.inj (hcall.symm.trans (step_call hstep hold hother))
      refine (h.call call hold hc).rely ⟨hgrows, rfl⟩ ?_ fun _ _ _ _ => trivial
      rintro s t p ⟨-, heq⟩ ⟨newInfo, hp, hfirst⟩
      exact ⟨newInfo, hp, heq ▸ hfirst⟩
    | none => exact h.started hstep hold hcall hc
  · cases hold : (w.parts i.client).calls[i.call]? with
    | some call₀ =>
      rw [step_call hstep hold hother] at hnone
      cases hnone
    | none => exact h.fresh hold

/-- The answer to the request that the upload waits for. -/
theorem Tracked.answer {o : Outcome} (h : w.Tracked names i verdict)
    (hwell : SucceedsInOrder i w (i.client, .answer i.call o))
    (hstep : step names url w (i.client, .answer i.call o) = some w') :
    w'.Tracked names i (verdict ∧ OwnLeadsAnswer names i w (i.client, .answer i.call o)) := by
  obtain ⟨hclient, -⟩ := Shared.advance_eq_some hstep
  obtain ⟨call₀, r, next, -, hcall₀, hprogram, -, -⟩ := Client.answer_cases hclient
  obtain ⟨reply, m, hperform, hget⟩ := Client.answer_program hclient hcall₀ hprogram
  refine ⟨step_inv_false w _ w' h.inv hstep, fun call hcall hc => ?_, fun hnone => ?_⟩
  · obtain rfl := Option.some.inj (hcall.symm.trans hget)
    have hholds := h.call call₀ hcall₀ hc
    rw [hprogram] at hholds
    have hdemands := ((h.inv.2 i.client).calls i.call call₀ hcall₀).demands h.inv.1 hprogram
    have hwaits := Client.waitsFor_of_call hcall₀ hprogram
    obtain ⟨hok, hfound⟩ := hwell o rfl
    refine (hholds.answer h.inv.1).2 (reply, m) (w'.shared, _)
      ⟨_, _, o, hperform, (perform_effect hdemands hperform).grows, hok, ?_, ?_⟩
    · rintro rfl
      exact hfound hwaits
    · refine propext (and_congr_right fun _ => ?_)
      constructor
      · rintro hleads rfl
        exact hleads o rfl hwaits
      · intro hleads o' heq hwaits'
        obtain ⟨-, -, rfl⟩ := by simpa using heq
        exact hleads (Option.some.inj (hwaits.symm.trans hwaits'))
  · rw [hget] at hnone
    cases hnone

theorem tracked_step (w : World) (verdict : Prop) (e : ℕ × Client.Event) (w' : World)
    (h : w.Tracked names i verdict) (hwell : SucceedsInOrder i w e)
    (hstep : step names url w e = some w') :
    w'.Tracked names i (verdict ∧ OwnLeadsAnswer names i w e) := by
  rcases answers_or_other i e with ⟨o, rfl⟩ | hother
  · exact h.answer hwell hstep
  · have hsame : (verdict ∧ OwnLeadsAnswer names i w e) = verdict :=
      propext (and_iff_left fun o heq => absurd heq (hother o))
    rw [hsame]
    exact h.other hstep hother

theorem tracked_init (disks : ℕ → Disk) :
    (init disks).Tracked names i True :=
  ⟨inv_init disks, nofun, fun _ => trivial⟩

variable {disks : ℕ → Disk}

/-- When a client's upload of a new character completes with every step successful, the client goes
on with the character that this upload has created exactly when that character led the answer to the
upload's `fetchCharacter`. -/
theorem worksOnNewCharacter_iff (i : Owner) (es : List (ℕ × Client.Event)) (o : Outcome) (w : World)
    (call : Call)
    (hrun : run names url (init disks) (es ++ [(i.client, .answer i.call o)]) = some w)
    (hcall : (w.parts i.client).calls[i.call]? = some call) (hc : call.origin.IsCharacter)
    (hdone : call.program.finished = true)
    (hwell : AllSteps (step names url) (SucceedsInOrder i) (init disks)
      (es ++ [(i.client, .answer i.call o)])) :
    (w.parts i.client).WorksOn url (names.characterID i) ↔
      AllSteps (step names url) (OwnLeadsAnswer names i) (init disks)
        (es ++ [(i.client, .answer i.call o)]) := by
  have htracked := run_verdict tracked_step (tracked_init disks) hwell hrun
  rw [true_and] at htracked
  have hholds := htracked.call call hcall hc
  obtain ⟨⟨completion, m⟩, hprogram⟩ := Async.exists_done hdone
  rw [hprogram] at hholds
  obtain ⟨newInfo, heq, hfirst⟩ := hholds
  obtain rfl : completion = .newInfo newInfo := heq
  -- the last answer puts the fetched characters in place
  obtain ⟨w₀, -, hstep⟩ := run_concat_eq_some.1 hrun
  obtain ⟨hclient, -⟩ := Shared.advance_eq_some hstep
  have hcreate := Client.answer_updateCharacter hclient hcall hc hprogram
  rw [Client.worksOn_iff, hcreate]
  exact hfirst

/-- A client registers a character; its clock stands still, and its queries find these documents. -/
def registrationBy (client : ℕ) (clock : Timestamp) (found : List ℕ) : List (ℕ × Client.Event) :=
  [(client, .showRegisterViewController),
   (client, .onScreen 0 (.didFinishPicking ⟨some [1]⟩)),
   (client, .onScreen 0 (.didTapRecordButton 0 true)),
   (client, .onScreen 0 (.didTapRecordButton 0 true)), (client, .register 0 clock),
   (client, .answer 0 ⟨true, "image url", [], clock⟩), (client, .answer 0 ⟨true, "", [], clock⟩),
   (client, .answer 0 ⟨true, "audio url", [], clock⟩), (client, .answer 0 ⟨true, "", [], clock⟩),
   (client, .answer 0 ⟨true, "", [], clock⟩), (client, .answer 0 ⟨true, "", [], clock⟩),
   (client, .answer 0 ⟨true, "", found, clock⟩), (client, .answer 0 ⟨true, "", found, clock⟩)]

/-- Another client has just written its character when the first one registers. -/
def registrations (clock : Timestamp) (found : List ℕ) : List (ℕ × Client.Event) :=
  (registrationBy 1 clock []).take 10 ++ registrationBy 0 3 found

/-- What holds of the first client's fetch, and of every other event, holds along the run. -/
theorem allSteps_registrations {ok : World → ℕ × Client.Event → Prop} {clock : Timestamp}
    {found : List ℕ} (hother : ∀ w e, (∀ o, e ≠ (0, .answer 0 o)) → ok w e)
    (hrequest : ∀ w o r, (w.parts 0).waitsFor 0 = some r → r ≠ .getDocuments .characters →
      o.ok = true → ok w (0, .answer 0 o))
    (hfetch : ∀ w c d o, w.shared.characters = [c, d] → c.timeStamp = clock → d.timeStamp = 3 →
      c.documentID = Names.letters.characterID ⟨1, 0⟩ →
      d.documentID = Names.letters.characterID ⟨0, 0⟩ → o.ok = true → o.found = found →
      ok w (0, .answer 0 o)) :
    AllSteps (step Names.letters URLParser.nonempty) ok (init fun _ => .new "documents")
      (registrations clock found) := by
  show AllSteps _ ok _ (((registrationBy 1 clock []).take 10 ++
    (registrationBy 0 3 found).take 5) ++ (registrationBy 0 3 found).drop 5)
  refine allSteps_append.2 ⟨allSteps_of_forall fun e he w => hother w e ?_, fun w hw => ?_⟩
  · rintro o rfl
    simp [registrationBy] at he
  obtain rfl := Option.some.inj hw
  -- the answers up to the fetch
  refine allSteps_cons rfl (hrequest _ _ _ rfl nofun rfl) ?_
  refine allSteps_cons rfl (hrequest _ _ _ rfl nofun rfl) ?_
  refine allSteps_cons rfl (hrequest _ _ _ rfl nofun rfl) ?_
  refine allSteps_cons rfl (hrequest _ _ _ rfl nofun rfl) ?_
  refine allSteps_cons rfl (hrequest _ _ _ rfl nofun rfl) ?_
  refine allSteps_cons rfl (hrequest _ _ _ rfl nofun rfl) ?_
  refine allSteps_cons rfl (hfetch _ _ _ _ rfl rfl rfl rfl rfl rfl rfl) ?_
  exact allSteps_cons rfl (hrequest _ _ _ rfl nofun rfl) trivial

/-- In the order `found` the queries of the first client are answered well. -/
theorem succeedsInOrder_registrations {clock : Timestamp} {found : List ℕ}
    (hfound : ∀ (b : Backend) (c d : Document), b.characters = [c, d] → c.timeStamp = clock →
      d.timeStamp = 3 → b.FoundInOrder found) :
    AllSteps (step Names.letters URLParser.nonempty) (SucceedsInOrder ⟨0, 0⟩)
      (init fun _ => .new "documents") (registrations clock found) := by
  refine allSteps_registrations (fun w e hne o heq => absurd heq (hne o)) ?_ ?_
  · intro w o r hwaits hr hok o' heq
    obtain rfl : o = o' := by simpa using heq
    exact ⟨hok, fun h => absurd (Option.some.inj (hwaits.symm.trans h)) hr⟩
  · intro w c d o hcharacters hc hd _ _ hok ho o' heq
    obtain rfl : o = o' := by simpa using heq
    exact ⟨hok, fun _ => ho ▸ hfound w.shared c d hcharacters hc hd⟩

theorem characterID_letters_ne : Names.letters.characterID ⟨1, 0⟩ ≠
    Names.letters.characterID ⟨0, 0⟩ := by
  intro h
  have hdraw := Names.letters.documentID_injective h
  simp at hdraw

theorem worksOnNewCharacter_slowerClock :
    ∃ w, run Names.letters URLParser.nonempty (init fun _ => .new "documents")
        (registrations 2 [1, 0]) = some w ∧
      (w.parts 0).WorksOn URLParser.nonempty (Names.letters.characterID ⟨0, 0⟩) := by
  have hrun : ∃ w call, run Names.letters URLParser.nonempty (init fun _ => .new "documents")
      (registrations 2 [1, 0]) = some w ∧ (w.parts 0).calls[0]? = some call ∧
      call.origin = .character 0 ∧ call.program.finished = true := ⟨_, _, rfl, rfl, rfl, rfl⟩
  obtain ⟨w, call, hrun, hcall, horigin, hdone⟩ := hrun
  refine ⟨w, hrun, ?_⟩
  refine (worksOnNewCharacter_iff ⟨0, 0⟩ (registrations 2 [1, 0]).dropLast
    ⟨true, "", [1, 0], 3⟩ w call hrun hcall (horigin ▸ trivial) hdone ?_).2 ?_
  · refine succeedsInOrder_registrations fun b c d hcharacters hc hd => ?_
    have hfind : b.find .characters [1, 0] = [d, c] := by
      simp [find, documents, hcharacters]
    refine ⟨?_, ?_⟩
    · rw [hfind, hcharacters]
      exact List.Perm.swap c d []
    · rw [hfind]
      simp [hc, hd]
  · refine allSteps_registrations (fun w e hne o heq => absurd heq (hne o)) ?_ ?_
    · intro w o r hwaits hr _ o' heq hwaits'
      exact absurd (Option.some.inj (hwaits.symm.trans hwaits')) hr
    · intro w c d o hcharacters hc hd hcid _ _ _ o' _ _ own hown hid c' hc' hne
      rw [hcharacters] at hown hc'
      have hownd : own = d := by
        rcases List.mem_pair.1 hown with rfl | rfl
        · exact absurd (hcid.symm.trans hid) characterID_letters_ne
        · rfl
      subst hownd
      obtain rfl := (List.mem_pair.1 hc').resolve_right hne
      left
      rw [hc, hd]
      decide

/-- The other client's clock is ahead: its character is selected in place of the new one. -/
theorem not_worksOnNewCharacter_fasterClock :
    ∃ w call, run Names.letters URLParser.nonempty (init fun _ => .new "documents")
        (registrations 7 [0, 1]) = some w ∧
      (w.parts 0).calls[0]? = some call ∧ call.origin = .character 0 ∧
      call.program.finished = true ∧
      AllSteps (step Names.letters URLParser.nonempty) (SucceedsInOrder ⟨0, 0⟩)
        (init fun _ => .new "documents") (registrations 7 [0, 1]) ∧
      (w.parts 0).WorksOn URLParser.nonempty (Names.letters.characterID ⟨1, 0⟩) ∧
      ¬ (w.parts 0).WorksOn URLParser.nonempty (Names.letters.characterID ⟨0, 0⟩) := by
  have hrun : ∃ w call, run Names.letters URLParser.nonempty (init fun _ => .new "documents")
      (registrations 7 [0, 1]) = some w ∧ (w.parts 0).calls[0]? = some call ∧
      call.origin = .character 0 ∧ call.program.finished = true ∧
      (w.parts 0).create.selectedCharacter.map Character.characterID =
        some (Names.letters.characterID ⟨1, 0⟩) := ⟨_, _, rfl, rfl, rfl, rfl, rfl⟩
  obtain ⟨w, call, hrun, hcall, horigin, hdone, hselected⟩ := hrun
  refine ⟨w, call, hrun, hcall, horigin, hdone, ?_, Client.worksOn_iff.2 hselected, fun h => ?_⟩
  · refine succeedsInOrder_registrations fun b c d hcharacters hc hd => ?_
    have hfind : b.find .characters [0, 1] = [c, d] := by
      simp [find, documents, hcharacters]
    refine ⟨?_, ?_⟩
    · rw [hfind, hcharacters]
    · rw [hfind]
      simp [hc, hd]
  · rw [Client.worksOn_iff, hselected] at h
    exact characterID_letters_ne (Option.some.inj h)

end World

end DialogueApp
