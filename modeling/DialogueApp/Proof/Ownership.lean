import DialogueApp.Client

/-!
# Who writes what

Every upload draws its document ids and file names itself, so each document and each Storage object
belongs to one upload.  `Rely i` says what the other uploads may do to the store while upload `i`
waits: they add documents and objects, none of which belongs to `i`.
-/

namespace DialogueApp

/-- An upload of a client. -/
structure Owner where
  client : ℕ
  call : ℕ
  deriving DecidableEq

namespace Names

variable (names : Names) (i : Owner)

/-- The upload has drawn this document id. -/
def Owns (id : String) : Prop := ∃ n, id = names.documentID ⟨i.client, i.call, n⟩

/-- The upload has drawn this file name. -/
def OwnsFile (filename : String) : Prop := ∃ n, filename = names.uuid ⟨i.client, i.call, n⟩

/-- The path is one of the upload's files. -/
def OwnsPath (path : String) : Prop :=
  ∃ filename, names.OwnsFile i filename ∧
    (path = DataUploader.imagePath filename ∨ path = DataUploader.audioPath filename)

variable {names i} {j : Owner}

theorem Owns.unique {id : String} (hi : names.Owns i id) (hj : names.Owns j id) : i = j := by
  obtain ⟨n, rfl⟩ := hi
  obtain ⟨n', h⟩ := hj
  have hdraw := names.documentID_injective h
  rw [Draw.mk.injEq] at hdraw
  cases i
  cases j
  rw [Owner.mk.injEq]
  exact ⟨hdraw.1, hdraw.2.1⟩

theorem OwnsFile.unique {filename : String} (hi : names.OwnsFile i filename)
    (hj : names.OwnsFile j filename) : i = j := by
  obtain ⟨n, rfl⟩ := hi
  obtain ⟨n', h⟩ := hj
  have hdraw := names.uuid_injective h
  rw [Draw.mk.injEq] at hdraw
  cases i
  cases j
  rw [Owner.mk.injEq]
  exact ⟨hdraw.1, hdraw.2.1⟩

theorem imagePath_injective {f g : String}
    (h : DataUploader.imagePath f = DataUploader.imagePath g) : f = g :=
  (String.append_right_inj _).1 h

theorem audioPath_injective {f g : String}
    (h : DataUploader.audioPath f = DataUploader.audioPath g) : f = g :=
  (String.append_right_inj _).1 h

theorem imagePath_ne_audioPath (f g : String) :
    DataUploader.imagePath f ≠ DataUploader.audioPath g := by
  intro h
  have hlists := congrArg String.toList h
  simp [DataUploader.imagePath, DataUploader.audioPath] at hlists

theorem OwnsPath.unique {path : String} (hi : names.OwnsPath i path) (hj : names.OwnsPath j path) :
    i = j := by
  obtain ⟨f, hf, hpath⟩ := hi
  obtain ⟨g, hg, hpath'⟩ := hj
  rcases hpath with rfl | rfl <;> rcases hpath' with h | h
  · exact hf.unique (imagePath_injective h ▸ hg)
  · exact absurd h (imagePath_ne_audioPath f g)
  · exact absurd h.symm (imagePath_ne_audioPath g f)
  · exact hf.unique (audioPath_injective h ▸ hg)

end Names

namespace Backend

/-- A collection holds a document of the upload. -/
def StoredBy (names : Names) (b : Backend) (collection : Collection) (i : Owner) : Prop :=
  ∃ d ∈ b.documents collection, names.Owns i d.documentID

/-- The URL is the download URL of an object in Storage. -/
def Present (b : Backend) (url : String) : Prop := ∃ o ∈ b.objects, o.url = url

/-- No object has this path. -/
def Free (b : Backend) (path : String) : Prop := ∀ o ∈ b.objects, o.path ≠ path

/-- Documents and objects are only added. -/
structure Grows (b b' : Backend) : Prop where
  documents : ∀ collection, ∀ d ∈ b.documents collection, d ∈ b'.documents collection
  objects : ∀ o ∈ b.objects, o ∈ b'.objects

/-- The store has grown, without a document of upload `i`. -/
structure Later (names : Names) (i : Owner) (b b' : Backend) : Prop extends Grows b b' where
  own_documents : ∀ collection, ∀ d ∈ b'.documents collection,
    names.Owns i d.documentID → d ∈ b.documents collection

/-- What other uploads do while upload `i` waits. -/
structure Rely (names : Names) (i : Owner) (b b' : Backend) : Prop extends Later names i b b' where
  own_objects : ∀ o ∈ b'.objects, names.OwnsPath i o.path → o ∈ b.objects

variable {names : Names} {i : Owner} {b b' b'' : Backend}

theorem Grows.refl (b : Backend) : Grows b b := ⟨fun _ _ h => h, fun _ h => h⟩

theorem Grows.trans (h : Grows b b') (h' : Grows b' b'') : Grows b b'' where
  documents c d hd := h'.documents c d (h.documents c d hd)
  objects o ho := h'.objects o (h.objects o ho)

theorem Later.refl (b : Backend) : Later names i b b := ⟨Grows.refl b, fun _ _ h _ => h⟩

theorem Later.trans (h : Later names i b b') (h' : Later names i b' b'') : Later names i b b'' where
  toGrows := h.toGrows.trans h'.toGrows
  own_documents c d hd hown := h.own_documents c d (h'.own_documents c d hd hown) hown

theorem Rely.refl (b : Backend) : Rely names i b b := ⟨Later.refl b, fun _ h _ => h⟩

theorem Rely.trans (h : Rely names i b b') (h' : Rely names i b' b'') : Rely names i b b'' where
  toLater := h.toLater.trans h'.toLater
  own_objects o ho hown := h.own_objects o (h'.own_objects o ho hown) hown

theorem Later.storedBy_iff (h : Later names i b b') (collection : Collection) :
    StoredBy names b' collection i ↔ StoredBy names b collection i := by
  constructor
  · rintro ⟨d, hd, hown⟩
    exact ⟨d, h.own_documents collection d hd hown, hown⟩
  · rintro ⟨d, hd, hown⟩
    exact ⟨d, h.documents collection d hd, hown⟩

theorem Rely.free (h : Rely names i b b') {path : String} (hown : names.OwnsPath i path)
    (hfree : b.Free path) : b'.Free path := by
  rintro o ho rfl
  exact hfree o (h.own_objects o ho hown) rfl

theorem Grows.present (h : Grows b b') {url : String} (hurl : b.Present url) : b'.Present url := by
  obtain ⟨o, ho, rfl⟩ := hurl
  exact ⟨o, h.objects o ho, rfl⟩

/-! ## What each request does -/

section perform

variable {create : CreateChatController} {device : Device} {o : Outcome}

theorem perform_animate {reply : CreateChatController}
    (h : b.perform create device o .animate = some (b', reply)) : b' = b ∧ reply = create := by
  obtain ⟨rfl, rfl⟩ := Prod.mk.inj (Option.some.inj h)
  exact ⟨rfl, rfl⟩

theorem perform_putData {path : String} {data : Data} {reply : Bool}
    (h : b.perform create device o (.putData path data) = some (b', reply)) :
    b' = b ∨ b' = b.put ⟨path, o.url, .data data⟩ := by
  simp only [perform] at h
  split_ifs at h
  · obtain ⟨rfl, -⟩ := Prod.mk.inj (Option.some.inj h)
    exact Or.inr rfl
  · obtain ⟨rfl, -⟩ := Prod.mk.inj (Option.some.inj h)
    exact Or.inl rfl

theorem perform_putFile {path : String} {file : URL} {reply : Bool}
    (h : b.perform create device o (.putFile path file) = some (b', reply)) :
    (b' = b ∧ (o.ok = true → device.read file = none)) ∨
      ∃ recording, o.ok = true ∧ device.read file = some recording ∧
        b' = b.put ⟨path, o.url, .recording recording⟩ := by
  simp only [perform] at h
  split at h
  · rename_i recording hread
    split_ifs at h with hok
    · obtain ⟨rfl, -⟩ := Prod.mk.inj (Option.some.inj h)
      exact Or.inr ⟨recording, hok, hread, rfl⟩
    · obtain ⟨rfl, -⟩ := Prod.mk.inj (Option.some.inj h)
      exact Or.inl ⟨rfl, fun h => absurd h hok⟩
  · rename_i hread
    obtain ⟨rfl, -⟩ := Prod.mk.inj (Option.some.inj h)
    exact Or.inl ⟨rfl, fun _ => hread⟩

theorem perform_downloadURL {path : String} {reply : Option String}
    (h : b.perform create device o (.downloadURL path) = some (b', reply)) :
    b' = b ∧ ∀ url, reply = some url → b.Present url := by
  simp only [perform] at h
  split_ifs at h
  · split at h
    · rename_i object hfind
      obtain ⟨rfl, rfl⟩ := Prod.mk.inj (Option.some.inj h)
      refine ⟨rfl, ?_⟩
      rintro url hurl
      obtain rfl := Option.some.inj hurl
      exact ⟨object, List.mem_of_find?_eq_some hfind, rfl⟩
    · cases h
  · obtain ⟨rfl, rfl⟩ := Prod.mk.inj (Option.some.inj h)
    exact ⟨rfl, nofun⟩

theorem perform_setData {collection : Collection} {id : String} {data : Dictionary} {reply : Bool}
    (h : b.perform create device o (.setData collection id data) = some (b', reply)) :
    (o.ok = true ∧ b' = b.setData collection ⟨id, data⟩) ∨ (o.ok = false ∧ b' = b) := by
  simp only [perform] at h
  split_ifs at h with hok
  · obtain ⟨rfl, -⟩ := Prod.mk.inj (Option.some.inj h)
    exact Or.inl ⟨hok, rfl⟩
  · obtain ⟨rfl, -⟩ := Prod.mk.inj (Option.some.inj h)
    exact Or.inr ⟨Bool.eq_false_iff.2 hok, rfl⟩

theorem mem_find {collection : Collection} {found : List ℕ} {d : Document}
    (h : d ∈ b.find collection found) : d ∈ b.documents collection := by
  obtain ⟨n, -, hn⟩ := List.mem_filterMap.1 h
  exact List.mem_of_getElem? hn

theorem perform_getDocuments {collection : Collection} {reply : Option (List Document)}
    (h : b.perform create device o (.getDocuments collection) = some (b', reply)) :
    b' = b ∧ ∀ documents, reply = some documents → ∀ d ∈ documents, d ∈ b.documents collection := by
  simp only [perform] at h
  split_ifs at h
  · obtain ⟨rfl, rfl⟩ := Prod.mk.inj (Option.some.inj h)
    refine ⟨rfl, ?_⟩
    rintro documents hdocuments d hd
    obtain rfl := Option.some.inj hdocuments
    exact mem_find hd
  · obtain ⟨rfl, rfl⟩ := Prod.mk.inj (Option.some.inj h)
    exact ⟨rfl, nofun⟩

end perform

@[simp] theorem documents_put (object : StorageObject) (collection : Collection) :
    (b.put object).documents collection = b.documents collection := by
  cases collection <;> rfl

@[simp] theorem objects_setData (collection : Collection) (d : Document) :
    (b.setData collection d).objects = b.objects := by
  cases collection <;> rfl

theorem documents_setData_self (collection : Collection) (d : Document) :
    (b.setData collection d).documents collection =
      (b.documents collection).upsert Document.documentID d := by
  cases collection <;> rfl

theorem documents_setData_ne {collection collection' : Collection} (d : Document)
    (h : collection' ≠ collection) :
    (b.setData collection d).documents collection' = b.documents collection' := by
  cases collection <;> cases collection' <;> first | rfl | exact absurd rfl h

end Backend

end DialogueApp
