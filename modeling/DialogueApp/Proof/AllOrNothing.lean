import DialogueApp.Proof.CopiedData

/-!
# Registering a character, all or nothing

A new character and its first line are written by two steps that do not look at each other's errors.
Both documents are stored or none where the two answers agree; a run in which they disagree once is
left with half a registration for good.
-/

namespace DialogueApp

open Runs Backend

/-- The upload with this number and owner has been started by a registration of a character. -/
def Registering (w : World) (i : Owner) (call : Call) : Prop :=
  (w.parts i.client).calls[i.call]? = some call ∧ call.origin.IsCharacter

/-- Both documents of the registration are stored, or neither is. -/
def BothOrNeither (names : Names) (b : Backend) (i : Owner) : Prop :=
  StoredBy names b .characters i ↔ StoredBy names b .dialogues i

namespace World

/-- No registration of a character has a pending step. -/
def Settled (w : World) : Prop := ∀ i call, Registering w i call → call.program.pending = false

/-- Each finished registration has stored both documents or neither; once all are finished, each
line has its character and each character a line. -/
structure AllOrNothing (names : Names) (w : World) : Prop where
  both_or_neither : ∀ i call, Registering w i call → call.program.pending = false →
    BothOrNeither names w.shared i
  line_has_character : w.Settled → ∀ d ∈ w.shared.dialogues, ∃ c ∈ w.shared.characters,
    d.data.lookup "characterID" = some (.string c.documentID)
  character_has_line : w.Settled → ∀ c ∈ w.shared.characters, ∃ d ∈ w.shared.dialogues,
    d.data.lookup "characterID" = some (.string c.documentID)

variable {names : Names} {url : URLParser} {w w' : World}

/-! ## When the two answers agree -/

/-- A finished upload is where its contract leaves it. -/
theorem final_of_not_pending {frozen paired : Prop} {i : Owner} {b : Backend}
    {picked : List Dialogue} {call : Call} (h : CallInv names frozen paired i b picked call)
    (hdone : call.program.pending = false) : Final names paired call.origin.IsCharacter i b := by
  obtain ⟨picks, -, hholds⟩ := h.holds
  cases hp : call.program with
  | done p =>
    rw [hp] at hholds
    exact hholds.2
  | stop =>
    rw [hp] at hholds
    exact hholds
  | call r k =>
    rw [hp] at hdone
    cases hdone

theorem allOrNothing_of_inv (h : w.Inv names False True) : w.AllOrNothing names := by
  have hboth : ∀ i call, Registering w i call → call.program.pending = false →
      BothOrNeither names w.shared i := by
    intro i call hcall hdone
    exact final_of_not_pending ((h.2 i.client).calls i.call call hcall.1) hdone trivial hcall.2
  refine ⟨hboth, fun _ d hd => ?_, fun hsettled c hc => ?_⟩
  · obtain ⟨characterID, text, audioUrl, name, imageUrl, timeStamp, hdata, -, -, hlink⟩ :=
      h.1.dialogue_data d hd
    obtain ⟨timeStamp', hmem⟩ := hlink.resolve_right fun hno => hno.1 trivial
    refine ⟨_, hmem, ?_⟩
    rw [hdata]
    rfl
  · obtain ⟨i, hi⟩ := h.1.character_owner c hc
    have hclient := h.2 i.client
    have hstored : StoredBy names w.shared .characters i := ⟨c, hc, hi⟩
    -- only a registration of a character has stored it
    have hlt : i.call < (w.parts i.client).calls.length := by
      by_contra hge
      exact (hclient.fresh i.call (by omega)).1 .characters hstored
    have hget := List.getElem?_eq_getElem hlt
    have hischar : ((w.parts i.client).calls[i.call]).origin.IsCharacter := by
      by_contra hnot
      exact (hclient.calls i.call _ hget).no_character hnot hstored
    have hcall : Registering w i ((w.parts i.client).calls[i.call]) := ⟨hget, hischar⟩
    obtain ⟨d, hd, hdi⟩ := (hboth i _ hcall (hsettled i _ hcall)).1 hstored
    obtain ⟨characterID, text, audioUrl, name, imageUrl, timeStamp, hdata, -⟩ :=
      h.1.dialogue_data d hd
    have hid := h.1.dialogue_character i c hc d hd hi hdi
    refine ⟨d, hd, ?_⟩
    rw [hdata] at hid ⊢
    rw [← hid]
    rfl

/-! ## When they disagree -/

/-- Some registration has got past its writes with one document stored. -/
def HalfStored (names : Names) (w : World) : Prop :=
  ∃ i call, Registering w i call ∧ call.program.Only IsRead ∧ ¬ BothOrNeither names w.shared i

/-- The condition on an event: the answer to the write of a new character's line is a success exactly
when the character is stored. -/
def AnswersAgree (names : Names) (w : World) (e : ℕ × Client.Event) : Prop :=
  LineFollowsCharacter names e.1 w.shared (w.parts e.1) e.2

theorem bothOrNeither_rely {b b' : Backend} {i : Owner} (h : Rely names i b b') :
    BothOrNeither names b' i ↔ BothOrNeither names b i := by
  unfold BothOrNeither
  rw [h.storedBy_iff, h.storedBy_iff]

/-- Where the two answers disagree, the line is stored without its character, or not although the
character is. -/
theorem not_bothOrNeither_of_lineWrite {frozen isCharacter : Prop} {b b' : Backend} {i : Owner}
    {create : CreateChatController} {device : Device} {o : Outcome} {r : Request} {reply : Reply r}
    (hd : Demands names frozen isCharacter i b r) (hline : IsLineWrite r)
    (hperform : b.perform create device o r = some (b', reply))
    (hne : ¬ (o.ok = true ↔ StoredBy names b .characters i)) : ¬ BothOrNeither names b' i := by
  cases r with
  | setData collection id data =>
    cases collection with
    | dialogues =>
      obtain ⟨hown, hfresh⟩ := demands_setData hd
      intro hboth
      apply hne
      rcases perform_setData hperform with ⟨hok, rfl⟩ | ⟨hno, rfl⟩
      · have hstored : StoredBy names (b.setData .dialogues ⟨id, data⟩) .dialogues i :=
          ⟨⟨id, data⟩, (mem_setData_self_iff hown hfresh).2 (Or.inr rfl), hown⟩
        exact iff_of_true hok (hboth.2 hstored)
      · have hnone : ¬ StoredBy names b' .characters i := fun hc => hfresh (hboth.1 hc)
        exact iff_of_false (by rw [hno]; exact Bool.false_ne_true) hnone
    | _ => exact hline.elim
  | _ => exact hline.elim

/-- A missed answer leaves half a registration. -/
theorem halfStored_of_miss {e : ℕ × Client.Event} (h : w.Inv names False False)
    (hstep : step names url w e = some w') (hmiss : ¬ AnswersAgree names w e) :
    HalfStored names w' := by
  obtain ⟨client, e⟩ := e
  obtain ⟨hclient, -⟩ := Shared.advance_eq_some hstep
  cases e with
  | answer k o =>
    simp only [AnswersAgree, LineFollowsCharacter, not_forall] at hmiss
    obtain ⟨call, r, next, hcall, hprogram, hischar, hline, hne⟩ := hmiss
    obtain ⟨reply, m, hperform, hget⟩ := Client.answer_program hclient hcall hprogram
    have hinv := (h.2 client).calls k call hcall
    have hlast := hinv.line_last hischar
    rw [hprogram] at hlast
    refine ⟨⟨client, k⟩, _, ⟨hget, hischar⟩, hlast.1 hline (reply, m), ?_⟩
    exact not_bothOrNeither_of_lineWrite (hinv.demands h.1 hprogram) hline hperform hne
  | _ => exact absurd trivial hmiss

/-- Nobody makes good for half a registration. -/
theorem halfStored_keep {e : ℕ × Client.Event} (h : w.Inv names False False)
    (hhalf : HalfStored names w) (hstep : step names url w e = some w') : HalfStored names w' := by
  obtain ⟨i, call, ⟨hcall, hischar⟩, hreads, hhalf⟩ := hhalf
  rcases answers_or_other i e with ⟨o, rfl⟩ | hother
  · -- the upload itself goes on, with a query
    obtain ⟨hclient, -⟩ := Shared.advance_eq_some hstep
    obtain ⟨r, next, reply, m, hprogram, hperform, hget⟩ := Client.answer_call hclient hcall
    rw [hprogram] at hreads
    have hsame : w'.shared = w.shared := by
      cases r with
      | getDocuments collection => exact (perform_getDocuments hperform).1
      | _ => exact hreads.1.elim
    refine ⟨i, _, ⟨hget, hischar⟩, hreads.2 (reply, m), ?_⟩
    rw [hsame]
    exact hhalf
  · refine ⟨i, call, ⟨step_call hstep hcall hother, hischar⟩, hreads, ?_⟩
    rw [bothOrNeither_rely (step_rely h hstep i hother)]
    exact hhalf

/-- An upload with one document stored is not all or nothing once it has finished. -/
theorem not_halfStored (hsettled : w.Settled) (h : w.AllOrNothing names) : ¬ HalfStored names w := by
  rintro ⟨i, call, hcall, -, hhalf⟩
  exact hhalf (h.both_or_neither i call hcall (hsettled i call hcall))

/-- An answer to another request meets the condition. -/
theorem answersAgree_of_request {client k : ℕ} {o : Outcome} {r : Request}
    (h : (w.parts client).calls[k]?.bind (fun call => call.program.request?) = some r)
    (hr : ¬ IsLineWrite r) : AnswersAgree names w (client, .answer k o) := by
  intro call r' next hcall hprogram _ hline
  rw [hcall, Option.bind_some, hprogram] at h
  obtain rfl : r' = r := Option.some.inj h
  exact absurd hline hr

variable {disks : ℕ → Disk}

/-- In every run whose answers agree, registering a character is all or nothing; a run that has come
to an end all or nothing had answers that agree. -/
theorem allOrNothing (es : List (ℕ × Client.Event)) (w : World)
    (hrun : run names url (init disks) es = some w) :
    (AllSteps (step names url) (AnswersAgree names) (init disks) es →
      w.AllOrNothing names) ∧
    (w.Settled → w.AllOrNothing names →
      AllSteps (step names url) (AnswersAgree names) (init disks) es) := by
  constructor
  · intro hagree
    exact allOrNothing_of_inv (run_inv hrun (hagree.imp fun _ _ h => ⟨False.elim, fun _ => h⟩))
  · intro hsettled hall
    exact allSteps_of_not_bad step_inv_false
      (fun _ _ _ h hstep hmiss => halfStored_of_miss h hstep hmiss)
      (fun _ _ _ h hhalf hstep => halfStored_keep h hhalf hstep)
      (inv_init disks) hrun (not_halfStored hsettled hall)

theorem allOrNothing_sample :
    ∃ w, run Names.letters URLParser.nonempty (init fun _ => .new "documents") registerCharacter =
        some w ∧
      w.shared.characters.length = 1 ∧ w.AllOrNothing Names.letters := by
  have hrun : ∃ w, run Names.letters URLParser.nonempty (init fun _ => .new "documents")
      registerCharacter = some w ∧ w.shared.characters.length = 1 := ⟨_, rfl, rfl⟩
  obtain ⟨w, hrun, hone⟩ := hrun
  refine ⟨w, hrun, hone, (allOrNothing _ w hrun).1 ?_⟩
  -- the touches, and the five answers up to the write of the line
  refine allSteps_cons rfl trivial (allSteps_cons rfl trivial (allSteps_cons rfl trivial ?_))
  refine allSteps_cons rfl trivial (allSteps_cons rfl trivial ?_)
  refine allSteps_cons rfl (answersAgree_of_request rfl id) ?_
  refine allSteps_cons rfl (answersAgree_of_request rfl id) ?_
  refine allSteps_cons rfl (answersAgree_of_request rfl id) ?_
  refine allSteps_cons rfl (answersAgree_of_request rfl id) ?_
  refine allSteps_cons rfl (answersAgree_of_request rfl id) ?_
  refine allSteps_cons rfl ?_ ?_
  · intro call r next _ _ _ _
    exact iff_of_true rfl ⟨_, List.mem_cons_self, _, rfl⟩
  refine allSteps_cons rfl (answersAgree_of_request rfl id) ?_
  exact allSteps_cons rfl (answersAgree_of_request rfl id) trivial

/-- An answer that reports an error. -/
def failure : Outcome := ⟨false, "", [], 0⟩

/-- The write of the character fails, the write of its line does not. -/
def registerHalf : List (ℕ × Client.Event) :=
  registerCharacter.set 9 (0, .answer 0 failure)

theorem not_allOrNothing_registerHalf :
    ∃ w, run Names.letters URLParser.nonempty (init fun _ => .new "documents") registerHalf = some w ∧
      w.shared.characters.length = 0 ∧ w.shared.dialogues.length = 1 ∧
      ¬ w.AllOrNothing Names.letters := by
  have hrun : ∃ w call d, run Names.letters URLParser.nonempty (init fun _ => .new "documents")
      registerHalf = some w ∧ w.shared.characters = [] ∧ w.shared.dialogues = [d] ∧
      d.documentID = Names.letters.documentID ⟨0, 0, 5⟩ ∧ (w.parts 0).calls[0]? = some call ∧
      call.origin = .character 0 ∧ call.program.pending = false :=
    ⟨_, _, _, rfl, rfl, rfl, rfl, rfl, rfl, rfl⟩
  obtain ⟨w, call, d, hrun, hnone, hone, hid, hcall, horigin, hdone⟩ := hrun
  refine ⟨w, hrun, by rw [hnone]; rfl, by rw [hone]; rfl, fun hall => ?_⟩
  have hregistering : Registering w ⟨0, 0⟩ call := ⟨hcall, by rw [horigin]; trivial⟩
  have hline : StoredBy Names.letters w.shared .dialogues ⟨0, 0⟩ := by
    refine ⟨d, ?_, 5, hid⟩
    show d ∈ w.shared.dialogues
    rw [hone]
    exact List.mem_singleton_self d
  obtain ⟨c, hc, -⟩ := (hall.both_or_neither ⟨0, 0⟩ call hregistering hdone).2 hline
  have hc' : c ∈ w.shared.characters := hc
  rw [hnone] at hc'
  exact absurd hc' List.not_mem_nil

end World

end DialogueApp
