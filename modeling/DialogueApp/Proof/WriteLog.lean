import DialogueApp.Proof.WorldInvariant
import DialogueApp.Lib.Keyed

/-!
# The store is a log

The store is written under keys, so that a write could replace an earlier one.  It never does: the
writes that have succeeded in a run have different addresses, and each collection lists them in the
order in which they were answered.  What has been read once reads the same in every later state.
-/

namespace DialogueApp

open Runs

/-- What one request has written. -/
inductive LogEntry
  | document (collection : Collection) (document : Document)
  | object (object : StorageObject)

/-- Where it is written. -/
inductive Address
  | document (collection : Collection) (documentID : String)
  | object (path : String)
  deriving DecidableEq, Repr

namespace LogEntry

/-- The place of a write. -/
def address : LogEntry → Address
  | .document collection d => .document collection d.documentID
  | .object o => .object o.path

/-- The document, if it is one of the collection. -/
def document? (collection : Collection) : LogEntry → Option Document
  | .document c d => if c = collection then some d else none
  | .object _ => none

/-- The Storage object, if it is one. -/
def object? : LogEntry → Option StorageObject
  | .document _ _ => none
  | .object o => some o

/-- The write itself. -/
def write (b : Backend) : LogEntry → Backend
  | .document collection d => b.setData collection d
  | .object o => b.put o

end LogEntry

/-- What a request with this outcome writes. -/
def Request.written (device : Device) (o : Outcome) : Request → Option LogEntry
  | .putData path data => if o.ok then some (.object ⟨path, o.url, .data data⟩) else none
  | .putFile path file =>
    match device.read file with
    | some recording => if o.ok then some (.object ⟨path, o.url, .recording recording⟩) else none
    | none => none
  | .setData collection id data =>
    if o.ok then some (.document collection ⟨id, data⟩) else none
  | _ => none

/-- The request an event of the client answers, with its outcome. -/
def Client.answered? (cl : Client) : Client.Event → Option (Request × Outcome)
  | .answer k o => (cl.calls[k]?.bind (·.program.request?)).map fun r => (r, o)
  | _ => none

namespace World

/-- What an event of the world writes. -/
def written (w : World) (e : ℕ × Client.Event) : Option LogEntry :=
  ((w.parts e.1).answered? e.2).bind fun (r, o) => r.written (w.parts e.1).device o

/-- The log after an event. -/
def record (w : World) (e : ℕ × Client.Event) (log : List LogEntry) : List LogEntry :=
  log ++ (w.written e).toList

end World

/-! ## One request -/

namespace Backend

variable {names : Names} {frozen paired isCharacter : Prop} {i : Owner} {b b' : Backend}
  {create : CreateChatController} {device : Device} {o : Outcome}

/-- The address holds nothing yet. -/
def Unwritten (b : Backend) : Address → Prop
  | .document collection id => ∀ d ∈ b.documents collection, d.documentID ≠ id
  | .object path => b.Free path

/-- A request writes its entry, and nothing else. -/
theorem perform_entry {r : Request} {reply : Reply r}
    (h : b.perform create device o r = some (b', reply)) :
    b' = (r.written device o).elim b (LogEntry.write b) := by
  cases r with
  | animate => exact (perform_animate h).1
  | putData path data =>
    simp only [perform] at h
    split_ifs at h with hok
    · obtain ⟨rfl, -⟩ := Prod.mk.inj (Option.some.inj h)
      simp [Request.written, hok, LogEntry.write]
    · obtain ⟨rfl, -⟩ := Prod.mk.inj (Option.some.inj h)
      simp [Request.written, hok]
  | putFile path file =>
    rcases perform_putFile h with ⟨rfl, hnone⟩ | ⟨recording, hok, hread, rfl⟩
    · by_cases hok : o.ok = true
      · simp [Request.written, hnone hok]
      · cases hread : device.read file <;> simp [Request.written, hread, hok]
    · simp [Request.written, hok, hread, LogEntry.write]
  | downloadURL path => exact (perform_downloadURL h).1
  | setData collection id data =>
    rcases perform_setData h with ⟨hok, rfl⟩ | ⟨hno, rfl⟩
    · simp [Request.written, hok, LogEntry.write]
    · simp [Request.written, hno]
  | getDocuments collection => exact (perform_getDocuments h).1

/-- A document id that the upload has drawn is new where the upload has stored nothing. -/
theorem unwritten_of_owns {collection : Collection} {id : String} (hown : names.Owns i id)
    (hfresh : ¬ StoredBy names b collection i) : b.Unwritten (.document collection id) := by
  rintro d hd rfl
  exact hfresh ⟨d, hd, hown⟩

/-- An upload writes to new addresses only. -/
theorem unwritten_of_demands {r : Request} (hd : Demands names frozen isCharacter i b r)
    {entry : LogEntry} (h : r.written device o = some entry) : b.Unwritten entry.address := by
  cases r with
  | putData path data =>
    simp only [Request.written] at h
    split_ifs at h
    obtain rfl := Option.some.inj h
    exact hd.2
  | putFile path file =>
    simp only [Request.written] at h
    split at h
    · split_ifs at h
      obtain rfl := Option.some.inj h
      exact hd.2
    · cases h
  | setData collection id data =>
    simp only [Request.written] at h
    split_ifs at h
    obtain rfl := Option.some.inj h
    exact unwritten_of_owns (demands_setData hd).1 (demands_setData hd).2
  | _ => cases h

/-- The store holds what the log says, and no address has been written twice. -/
structure Logged (b : Backend) (log : List LogEntry) : Prop where
  documents : ∀ collection, b.documents collection = log.filterMap (·.document? collection)
  objects : b.objects = log.filterMap (·.object?)
  nodup : (log.map (·.address)).Nodup

theorem Logged.unwritten_iff {log : List LogEntry} (h : b.Logged log) {a : Address} :
    b.Unwritten a ↔ ∀ entry ∈ log, entry.address ≠ a := by
  cases a with
  | document collection id =>
    simp only [Unwritten, h.documents, List.mem_filterMap]
    constructor
    · rintro hfree (⟨c, d⟩ | object) hentry heq
      · obtain ⟨rfl, rfl⟩ := Address.document.inj heq
        exact hfree d ⟨_, hentry, if_pos rfl⟩ rfl
      · cases heq
    · rintro hnew d ⟨_ | _, hentry, heq⟩ rfl
      · simp only [LogEntry.document?] at heq
        split_ifs at heq with hc
        obtain rfl := Option.some.inj heq
        exact hnew _ hentry (by rw [LogEntry.address, hc])
      · cases heq
  | object path =>
    simp only [Unwritten, Free, h.objects, List.mem_filterMap]
    constructor
    · rintro hfree (⟨c, d⟩ | object) hentry heq
      · cases heq
      · exact hfree object ⟨_, hentry, rfl⟩ (Address.object.inj heq)
    · rintro hnew object ⟨_ | _, hentry, heq⟩ rfl
      · cases heq
      · obtain rfl := Option.some.inj heq
        exact hnew _ hentry rfl

/-- A document id stands for one document. -/
theorem Logged.document_unique {log : List LogEntry} (h : b.Logged log) {collection : Collection}
    {d d' : Document} (hd : d ∈ b.documents collection) (hd' : d' ∈ b.documents collection)
    (hid : d.documentID = d'.documentID) : d = d' := by
  have hmem : ∀ d ∈ b.documents collection, LogEntry.document collection d ∈ log := by
    intro d hd
    rw [h.documents, List.mem_filterMap] at hd
    obtain ⟨_ | _, hentry, heq⟩ := hd
    · simp only [LogEntry.document?] at heq
      split_ifs at heq with hc
      obtain rfl := Option.some.inj heq
      rwa [← hc]
    · cases heq
  have heq := List.inj_on_of_nodup_map h.nodup (hmem d hd) (hmem d' hd')
    (by rw [LogEntry.address, LogEntry.address, hid])
  exact (LogEntry.document.inj heq).2

/-- A write to a new address appends to the store and to the log. -/
theorem Logged.write {log : List LogEntry} (h : b.Logged log) {entry : LogEntry}
    (hnew : b.Unwritten entry.address) : (entry.write b).Logged (log ++ [entry]) := by
  have hnodup : ((log ++ [entry]).map (·.address)).Nodup :=
    List.nodup_map_concat h.nodup (h.unwritten_iff.1 hnew)
  cases entry with
  | document collection d =>
    refine ⟨fun c => ?_, ?_, hnodup⟩
    · rw [List.filterMap_append, ← h.documents, LogEntry.write]
      by_cases hc : c = collection
      · subst hc
        rw [documents_setData_self, List.upsert_of_fresh hnew]
        simp [LogEntry.document?]
      · rw [documents_setData_ne d hc]
        simp [LogEntry.document?, Ne.symm hc]
    · rw [List.filterMap_append, ← h.objects, LogEntry.write, objects_setData]
      simp [LogEntry.object?]
  | object object =>
    refine ⟨fun c => ?_, ?_, hnodup⟩
    · rw [List.filterMap_append, ← h.documents, LogEntry.write, documents_put]
      simp [LogEntry.document?]
    · rw [List.filterMap_append, ← h.objects]
      show b.objects.upsert StorageObject.path object = _
      rw [List.upsert_of_fresh hnew]
      rfl

/-- A write to a new address, if there is one, only adds at the end. -/
theorem growing_write {entry : Option LogEntry} (hnew : ∀ x ∈ entry, b.Unwritten x.address)
    (collection : Collection) :
    b.documents collection <+: (entry.elim b (LogEntry.write b)).documents collection := by
  cases entry with
  | none => exact List.prefix_refl _
  | some entry =>
    have hnew := hnew entry rfl
    cases entry with
    | document c d =>
      by_cases hc : collection = c
      · subst hc
        rw [Option.elim_some, LogEntry.write, documents_setData_self, List.upsert_of_fresh hnew]
        exact List.prefix_append _ _
      · exact (documents_setData_ne d hc).symm ▸ List.prefix_refl (b.documents collection)
    | object object =>
      exact (documents_put (b := b) object collection).symm ▸
        List.prefix_refl (b.documents collection)

end Backend

/-! ## What a client holds -/

namespace Client

/-- The lines a client shows and those it has picked. -/
def lines (cl : Client) : List Dialogue :=
  cl.create.dialogues ++ cl.create.selectedDialogues ++ cl.create.bottomDialogues

/-- The characters a client lists and the one it has selected. -/
def characters (cl : Client) : List Character :=
  cl.create.listCharacters ++ cl.create.selectedCharacter.toList

variable {b : Backend} {cl : Client}

theorem known_line (h : Decoded b cl.create) {line : Dialogue} (hline : line ∈ cl.lines) :
    b.KnownDialogue line := by
  simp only [lines, List.mem_append] at hline
  rcases hline with (hline | hline) | hline
  · exact h.dialogues line hline
  · exact h.selectedDialogues line hline
  · exact h.bottomDialogues line hline

theorem known_character (h : Decoded b cl.create) {character : Character}
    (hcharacter : character ∈ cl.characters) : b.KnownCharacter character := by
  rcases List.mem_append.1 hcharacter with hcharacter | hcharacter
  · exact h.listCharacters character hcharacter
  · exact h.selectedCharacter character (Option.mem_toList.1 hcharacter)

end Client

/-! ## Every run -/

section

variable {names : Names} {url : URLParser} {client : ℕ} {b b' : Backend} {cl cl' : Client}

/-- A step writes the entry of its event, to a new address. -/
theorem step_entry {e : Client.Event} (hb : b.Consistent names False False)
    (h : ClientInv names False False client b cl)
    (hstep : cl.step names url client b e = some (b', cl')) :
    let entry := (cl.answered? e).bind fun (r, o) => r.written cl.device o
    b' = entry.elim b (LogEntry.write b) ∧ ∀ x ∈ entry, b.Unwritten x.address := by
  cases Client.step_cases hstep with
  | @screen e e' create he hcreate => cases e <;> first | exact ⟨rfl, nofun⟩ | cases he
  | @answer k o _ _ hanswer =>
    obtain ⟨call, r, next, reply, hcall, hprogram, hperform, -⟩ := Client.answer_cases hanswer
    have hanswered : cl.answered? (.answer k o) = some (r, o) := by
      simp [Client.answered?, hcall, hprogram, Async.request?]
    rw [hanswered]
    refine ⟨Backend.perform_entry hperform, fun x hx => ?_⟩
    exact Backend.unwritten_of_demands ((h.calls k call hcall).demands hb hprogram) hx
  | _ => exact ⟨rfl, nofun⟩

end

namespace World

variable {names : Names} {url : URLParser} {disks : ℕ → Disk} {w w' : World}

/-- One event keeps the store and the log together. -/
theorem logged_step {e : ℕ × Client.Event} {log : List LogEntry} (h : w.Inv names False False)
    (hlog : w.shared.Logged log) (hstep : step names url w e = some w') :
    w'.shared.Logged (w.record e log) := by
  obtain ⟨client, e⟩ := e
  obtain ⟨hclient, -⟩ := Shared.advance_eq_some hstep
  obtain ⟨hshared, hnew⟩ := step_entry h.1 (h.2 client) hclient
  rw [hshared, record]
  cases hentry : w.written (client, e) with
  | none =>
    rw [written] at hentry
    rw [hentry]
    simpa using hlog
  | some entry =>
    rw [written] at hentry
    rw [hentry] at hnew ⊢
    exact hlog.write (hnew entry rfl)

/-- The store is the log of the writes that the run has answered without an error. -/
theorem store_logged {es : List (ℕ × Client.Event)}
    (hrun : run names url (init disks) es = some w) :
    w.shared.Logged (observe (step names url) record (init disks) es []) := by
  have hinit : (init disks).shared.Logged [] := by
    refine ⟨fun collection => ?_, rfl, List.nodup_nil⟩
    cases collection <;> rfl
  have hboth := run_observe_invariant
    (J := fun w log => w.Inv names False False ∧ w.shared.Logged log)
    (fun w e w' log h hstep => ⟨step_inv_false w e w' h.1 hstep, logged_step h.1 h.2 hstep⟩)
    ⟨inv_init disks, hinit⟩ hrun
  exact hboth.2

/-- In every run, each collection is the list of the documents written to it, and Storage the list of
the objects put, in the order of the answers; no document and no object is ever written twice. -/
theorem writeLog (es : List (ℕ × Client.Event)) (w : World)
    (hrun : run names url (init disks) es = some w) :
    (∀ collection, w.shared.documents collection =
      (observe (step names url) record (init disks) es []).filterMap
        (·.document? collection)) ∧
    w.shared.objects =
      (observe (step names url) record (init disks) es []).filterMap (·.object?) ∧
    ((observe (step names url) record (init disks) es []).map (·.address)).Nodup := by
  have hlog := store_logged hrun
  exact ⟨hlog.documents, hlog.objects, hlog.nodup⟩

theorem writeLog_sample :
    ∃ w, run Names.letters URLParser.nonempty (init fun _ => .new "documents") registerCharacter =
        some w ∧
      w.shared.dialogues.length = 1 ∧
      w.shared.dialogues = (observe (step Names.letters URLParser.nonempty) record
        (init fun _ => .new "documents") registerCharacter []).filterMap (·.document? .dialogues) := by
  have hrun : ∃ w, run Names.letters URLParser.nonempty (init fun _ => .new "documents")
      registerCharacter = some w ∧ w.shared.dialogues.length = 1 := ⟨_, rfl, rfl⟩
  obtain ⟨w, hrun, hone⟩ := hrun
  exact ⟨w, hrun, hone, (writeLog _ w hrun).1 .dialogues⟩

/-! ## What has been read -/

/-- A later state only adds documents at the end. -/
theorem documents_growing {es : List (ℕ × Client.Event)} (h : w.Inv names False False)
    (hrun : run names url w es = some w') (collection : Collection) :
    w.shared.documents collection <+: w'.shared.documents collection := by
  have hboth := run_invariant
    (I := fun x : World => x.Inv names False False ∧
      w.shared.documents collection <+: x.shared.documents collection)
    (fun x e x' hx hstep => ?_) ⟨h, List.prefix_refl _⟩ hrun
  · exact hboth.2
  · refine ⟨step_inv_false x e x' hx.1 hstep, hx.2.trans ?_⟩
    obtain ⟨hclient, -⟩ := Shared.advance_eq_some hstep
    obtain ⟨hshared, hnew⟩ := step_entry hx.1.1 (hx.1.2 e.1) hclient
    rw [hshared]
    exact Backend.growing_write hnew collection

/-- A document that a later state holds under the same id is the same document. -/
theorem document_stays {es : List (ℕ × Client.Event)} {fs : List (ℕ × Client.Event)}
    (hrun : run names url (init disks) es = some w)
    (hrest : run names url w fs = some w') (collection : Collection) {d d' : Document}
    (hd : d ∈ w.shared.documents collection) (hd' : d' ∈ w'.shared.documents collection)
    (hid : d'.documentID = d.documentID) : d' = d := by
  have hkept := (documents_growing (run_inv_false hrun) hrest collection).subset hd
  have hboth : run names url (init disks) (es ++ fs) = some w' := by
    rw [run, run_append]
    exact Option.bind_eq_some_iff.2 ⟨w, hrun, hrest⟩
  exact (store_logged hboth).document_unique hd' hkept hid

end World

end DialogueApp
