/-
Royd.Api.Storing — the handlers that store uploads, with the disk they write to.

`Api.Requests` has these handlers as far as the database goes. Here they are
once more, step by step as the source has them, with the writes in their
places: bytes go to the disk as each file is checked, and no handler takes
them back. `attachFileOn_on` and its like say that nothing else is new: each
returns what its handler of `Api.Requests` returns.
-/
import Royd.Api.Deeds
import Royd.Api.Steps
import Royd.Services.StoredNames

namespace Royd.Api

variable (cfg : Settings) (st : Storage) (db : Db)

/-! ## The handlers -/

/-- What `attach_file` does once the file is stored. -/
def recordFile (fileMeta : FileMeta) (w : Work) (uploader : User) (isAnswer : Bool) (now : Int) :
    Work :=
  let record := fileRecord w.req uploader isAnswer fileMeta now
  let s := w.session.add fun id => .file (record id)
  let s := logAction s (some uploader.id) "request.file_upload" "request" w.req.id []
    [("file_name", .text fileMeta.fileName), ("size", .num fileMeta.fileSize)]
  { w with session := publishFileAdded cfg db s w.req (record w.session.nextId) }

/-- `attach_file`. -/
def attachFileOn (w : Work) (uploader : User) (isAnswer : Bool) (upload : Upload) (now : Int) :
    Storing Work := do
  let fileMeta ← st.saveUploadOn cfg.maxUploadMb upload w.req.id
  pure (recordFile cfg db fileMeta w uploader isAnswer now)

/-- What `answer` does once its files are attached. -/
def sendAnswer (w : Work) (actor : User) (text : String) (now : Int) : Except Exc Work := do
  let attached := w.session.files
  let oldStatus := w.req.status
  let w ← answerRequest cfg w actor text now
  let req := w.req
  let s := logAction w.session (some actor.id) "request.answer" "request" req.id
    [("status", .text oldStatus.code)]
    [("status", .text req.status.code), ("files", .texts (attached.map (·.fileName)))]
  let s := notifyUser cfg db s req.studentId .requestStatus
    ("Murojaatingizga javob berildi: " ++ req.trackingNo)
    (answerLines req ("'" ++ req.title ++ "' murojaatingiz bo'yicha yakuniy javob:")) req
    "/student/requests"
  let s := publish cfg db s req
    (.statusChanged oldStatus none (some (answerEvent req (some actor.fullName) attached)))
  .ok { w with session := s }

/-- `answer`. -/
def answerOn (userId requestId : Nat) (text : String) (files : List Upload) (now : Int) :
    Storing Work := do
  let actor ← Storing.lift (requireRoles db userId Role.canTransition)
  let w ← Storing.lift (getRequestForUser db requestId actor)
  -- Checked before any file touches the disk.
  Storing.lift (assertCanAnswer w.req actor)
  Storing.lift (checkFileCount files)
  let w ← files.foldlM (fun w f => attachFileOn cfg st db w actor true f now) w
  Storing.lift (sendAnswer cfg db w actor text now)

/-- `upload_file`. -/
def uploadFileOn (userId requestId : Nat) (upload : Upload) (now : Int) : Storing Work := do
  let user ← Storing.lift (currentUser db userId)
  let w ← Storing.lift (getRequestForUser db requestId user)
  Storing.lift (assertMayMutate user)
  Storing.lift (assertOpen w.req)
  attachFileOn cfg st db w user false upload now

/-- `upload_file` of the integration. -/
def clientUploadOn (client : ApiClient) (requestId : Nat) (upload : Upload) (now : Int) :
    Storing Work := do
  let w ← Storing.lift (ownedRequest db requestId client)
  Storing.lift (assertOpen w.req)
  let student ← Storing.lift (studentOf db w.req)
  attachFileOn cfg st db w student false upload now

/-- The checks `add_auto_reply_file` makes before it stores the file. -/
def checkAutoReplyFile (cat : RequestCategory) : Except Exc Unit :=
  if cat.parentId.isNone ∨ cat.routing ≠ .autoReply then
    .error (.http 400
      "Fayl faqat «Avtomatik javob» yo'nalishidagi xizmat turiga biriktiriladi")
  else if (listAutoReplyFiles db cat).length ≥ maxAnswerFiles then
    .error (.http 422 s!"Javobga ko'pi bilan {maxAnswerFiles} ta fayl biriktiring")
  else .ok ()

/-- `add_auto_reply_file`. -/
def addAutoReplyFileOn (cat : RequestCategory) (upload : Upload) (uploader : Nat) (now : Int) :
    Storing Db := do
  Storing.lift (checkAutoReplyFile db cat)
  let fileMeta ← st.saveAutoReplyUploadOn cfg.maxUploadMb upload cat.id
  pure { db with
    nextId := db.nextId + 1
    autoReplyFiles := db.autoReplyFiles ++
      [{ id := db.nextId
         categoryId := cat.id
         uploadedBy := uploader
         filePath := fileMeta.filePath
         fileName := fileMeta.fileName
         fileSize := fileMeta.fileSize
         mimeType := fileMeta.mimeType
         createdAt := now }] }

/-! ## What they write -/

variable {cfg st db} {now : Int} {d : Volume}

/-- `attach_file` returns what it always did, and leaves the disk as `_store`
leaves it. -/
theorem attachFileOn_on {w : Work} {uploader : User} {isAnswer : Bool} {upload : Upload} :
    (attachFileOn cfg st db w uploader isAnswer upload now).on d =
      (attachFile cfg db w uploader isAnswer upload now,
        st.left d (toString w.req.id) upload.content
          (saveUpload cfg.maxUploadMb upload w.req.id)) := by
  rw [attachFileOn, Storage.saveUploadOn, Storing.on_bind, Storage.storeOn_on, attachFile,
    saveUpload]
  cases store cfg.maxUploadMb upload (toString w.req.id) with
  | error e => rfl
  | ok fileMeta => rfl

/-- The disk after the uploads of a list were stored in a folder one after the
other, up to the first that is refused. -/
def leftAll (maxUploadMb : Nat) (st : Storage) (folder : String) (d : Volume) : List Upload → Volume
  | [] => d
  | upload :: uploads =>
    let d' := st.left d folder upload.content (store maxUploadMb upload folder)
    match store maxUploadMb upload folder with
    | .ok _ => leftAll maxUploadMb st folder d' uploads
    | .error _ => d'

/-- `attach_file` leaves the request alone, and stops where the upload is refused. -/
theorem attachFile_isOk (cfg : Settings) (db : Db) (now : Int) (w : Work) (uploader : User)
    (isAnswer : Bool) (upload : Upload) :
    (∃ e, saveUpload cfg.maxUploadMb upload w.req.id = .error e ∧
      attachFile cfg db w uploader isAnswer upload now = .error e) ∨
    ∃ fileMeta w', saveUpload cfg.maxUploadMb upload w.req.id = .ok fileMeta ∧
      attachFile cfg db w uploader isAnswer upload now = .ok w' ∧ w'.req = w.req := by
  unfold attachFile
  cases hsaved : saveUpload cfg.maxUploadMb upload w.req.id with
  | error e => exact .inl ⟨e, rfl, rfl⟩
  | ok fileMeta => exact .inr ⟨fileMeta, _, rfl, rfl, rfl⟩

/-- The loop over an answer's files. -/
theorem attachFilesOn_on {actor : User} {files : List Upload} {w : Work} :
    (files.foldlM (fun w f => attachFileOn cfg st db w actor true f now) w).on d =
      (files.foldlM (fun w f => attachFile cfg db w actor true f now) w,
        leftAll cfg.maxUploadMb st (toString w.req.id) d files) := by
  induction files generalizing w d with
  | nil => rfl
  | cons f files ih =>
    have hfolder : store cfg.maxUploadMb f (toString w.req.id) =
        saveUpload cfg.maxUploadMb f w.req.id := rfl
    rw [List.foldlM_cons, List.foldlM_cons, Storing.on_bind, attachFileOn_on, leftAll, hfolder]
    obtain ⟨e, hsaved, hattach⟩ | ⟨fileMeta, w', hsaved, hattach, hreq⟩ :=
      attachFile_isOk cfg db now w actor true f
    · rw [hattach, hsaved]
      rfl
    · rw [hattach, hsaved]
      dsimp only
      rw [ih, hreq]
      rfl

/-! ## The same, as commits -/

/-- A call's handler, with the disk. -/
def Call.storing (cfg : Settings) (st : Storage) (db : Db) (now : Int) : Call → Storing Work
  | .answer userId requestId text files => answerOn cfg st db userId requestId text files now
  | .upload userId requestId file => uploadFileOn cfg st db userId requestId file now
  | .clientUpload client requestId file => clientUploadOn cfg st db client requestId file now
  | c => Storing.lift (c.handle cfg db now)

/-- An edit of the catalogue, with the disk. -/
def CatalogueEdit.storing (cfg : Settings) (st : Storage) (db : Db) (now : Int) :
    CatalogueEdit → Storing Db
  | .addFile categoryId upload userId => do
    let cat ← Storing.lift (categoryOf db categoryId)
    addAutoReplyFileOn cfg st db cat upload userId now
  | edit => Storing.lift (edit.apply cfg db now)

/-- What a step commits, with the disk. -/
def Step.storing (cfg : Settings) (st : Storage) (db : Db) (now : Int) : Step → Storing Db
  | .call c => do
    let w ← c.storing cfg st db now
    pure (db.finish w)
  | .catalogue edit => edit.storing cfg st db now
  | step => Storing.lift (step.apply cfg db now)

/-- The uploads a call carries, with the folder each goes to. -/
def Call.uploads : Call → List (Folder × Upload)
  | .answer _ requestId _ files => files.map fun f => (.request requestId, f)
  | .upload _ requestId file => [(.request requestId, file)]
  | .clientUpload _ requestId file => [(.request requestId, file)]
  | _ => []

/-- The upload an edit of the catalogue carries. -/
def CatalogueEdit.uploads : CatalogueEdit → List (Folder × Upload)
  | .addFile categoryId upload _ => [(.service categoryId, upload)]
  | _ => []

/-- The uploads a step carries. -/
def Step.uploads : Step → List (Folder × Upload)
  | .call c => c.uploads
  | .catalogue edit => edit.uploads
  | _ => []

variable {uploader actor : User} {upload : Upload} {uploads : List Upload} {w : Work}

open Storing

/-- One upload goes to its request's folder. -/
theorem attachFileOn_yields {isAnswer : Bool} (hdraws : d.Draws [upload]) :
    Yields (attachFileOn cfg st db w uploader isAnswer upload now)
      (attachFile cfg db w uploader isAnswer upload now) d
      (Wrote cfg.maxUploadMb st d [(.request w.req.id, upload)]) := by
  rw [Yields, attachFileOn_on]
  refine ⟨rfl, ?_⟩
  have hdrawn := hdraws.drawn upload List.mem_cons_self
  obtain ⟨e, hsaved, hattach⟩ | ⟨fileMeta, w', hsaved, hattach, -⟩ :=
    attachFile_isOk cfg db now w uploader isAnswer upload
  · rw [hsaved, hattach]
    exact .refused e
  · rw [hsaved, hattach]
    have hstored := hdrawn.stored st (.request w.req.id) hsaved
    exact Wrote.cons hstored (.nothing _)

/-- And so do those of an answer, in their order. -/
theorem attachFilesOn_yields (hdraws : d.Draws uploads) :
    Yields (uploads.foldlM (fun w f => attachFileOn cfg st db w actor true f now) w)
      (uploads.foldlM (fun w f => attachFile cfg db w actor true f now) w) d
      (Wrote cfg.maxUploadMb st d (uploads.map fun f => (.request w.req.id, f))) := by
  rw [Yields, attachFilesOn_on]
  refine ⟨rfl, ?_⟩
  induction uploads generalizing w d with
  | nil => exact .nothing _
  | cons f files ih =>
    have hdrawn := hdraws.drawn f List.mem_cons_self
    rw [List.foldlM_cons, leftAll]
    obtain ⟨e, hsaved, hattach⟩ | ⟨fileMeta, w', hsaved, hattach, hreq⟩ :=
      attachFile_isOk cfg db now w actor true f
    · change store cfg.maxUploadMb f (toString w.req.id) = .error e at hsaved
      rw [hattach, hsaved]
      exact .refused e
    · have hstored := hdrawn.stored st (.request w.req.id) hsaved
      have hrest := ih (hdraws.tail st (.request w.req.id) hsaved) (w := w')
      change store cfg.maxUploadMb f (toString w.req.id) = .ok fileMeta at hsaved
      rw [hattach, hsaved]
      rw [hreq] at hrest
      exact Wrote.cons hstored hrest

/-! ### The handlers -/

variable {userId requestId : Nat}

theorem answerOn_yields {text : String} (hdraws : d.Draws uploads) :
    Yields (answerOn cfg st db userId requestId text uploads now)
      (answer cfg db userId requestId text uploads now) d
      (Wrote cfg.maxUploadMb st d (uploads.map fun f => (.request requestId, f))) := by
  unfold answerOn answer
  apply Yields.check (fun e => .refused e)
  intro actor _
  apply Yields.check (fun e => .refused e)
  intro w hload
  apply Yields.check (fun e => .refused e)
  intro _ _
  apply Yields.check (fun e => .refused e)
  intro _ _
  obtain ⟨r, -, hid, -, rfl⟩ := getRequestForUser_view hload
  rw [← hid]
  exact (attachFilesOn_yields hdraws).andThen fun d' h => h.bind _

theorem uploadFileOn_yields (hdraws : d.Draws [upload]) :
    Yields (uploadFileOn cfg st db userId requestId upload now)
      (uploadFile cfg db userId requestId upload now) d
      (Wrote cfg.maxUploadMb st d [(.request requestId, upload)]) := by
  unfold uploadFileOn uploadFile
  apply Yields.check (fun e => .refused e)
  intro user _
  apply Yields.check (fun e => .refused e)
  intro w hload
  apply Yields.check (fun e => .refused e)
  intro _ _
  apply Yields.check (fun e => .refused e)
  intro _ _
  obtain ⟨r, -, hid, -, rfl⟩ := getRequestForUser_view hload
  rw [← hid]
  exact attachFileOn_yields hdraws

theorem clientUploadOn_yields {client : ApiClient} (hdraws : d.Draws [upload]) :
    Yields (clientUploadOn cfg st db client requestId upload now)
      (clientUpload cfg db client requestId upload now) d
      (Wrote cfg.maxUploadMb st d [(.request requestId, upload)]) := by
  unfold clientUploadOn clientUpload
  apply Yields.check (fun e => .refused e)
  intro w howned
  apply Yields.check (fun e => .refused e)
  intro _ _
  apply Yields.check (fun e => .refused e)
  intro student _
  obtain ⟨r, -, hid, -, rfl⟩ := ownedRequest_view howned
  rw [← hid]
  exact attachFileOn_yields hdraws

/-- `add_auto_reply_file`, in the order of its steps. -/
theorem addAutoReplyFile_eq (cat : RequestCategory) (uploader : Nat) :
    addAutoReplyFile cfg db cat upload uploader now = (do
      checkAutoReplyFile db cat
      let fileMeta ← saveAutoReplyUpload cfg.maxUploadMb upload cat.id
      .ok { db with
        nextId := db.nextId + 1
        autoReplyFiles := db.autoReplyFiles ++
          [{ id := db.nextId
             categoryId := cat.id
             uploadedBy := uploader
             filePath := fileMeta.filePath
             fileName := fileMeta.fileName
             fileSize := fileMeta.fileSize
             mimeType := fileMeta.mimeType
             createdAt := now }] }) := by
  unfold addAutoReplyFile checkAutoReplyFile
  split
  · rfl
  split
  · rfl
  · cases saveAutoReplyUpload cfg.maxUploadMb upload cat.id with
    | error e => rfl
    | ok fileMeta => rfl

theorem addAutoReplyFileOn_yields {cat : RequestCategory} {uploader : Nat}
    (hdraws : d.Draws [upload]) :
    Yields (addAutoReplyFileOn cfg st db cat upload uploader now)
      (addAutoReplyFile cfg db cat upload uploader now) d
      (Wrote cfg.maxUploadMb st d [(.service cat.id, upload)]) := by
  rw [addAutoReplyFile_eq]
  unfold addAutoReplyFileOn
  apply Yields.check (fun e => .refused e)
  intro _ _
  have hsaved : Yields (st.saveAutoReplyUploadOn cfg.maxUploadMb upload cat.id)
      (saveAutoReplyUpload cfg.maxUploadMb upload cat.id) d
      (Wrote cfg.maxUploadMb st d [(.service cat.id, upload)]) := by
    rw [Yields, Storage.saveAutoReplyUploadOn, Storage.storeOn_on]
    refine ⟨rfl, ?_⟩
    cases hstore : store cfg.maxUploadMb upload ("auto_reply/" ++ toString cat.id) with
    | error e =>
      rw [saveAutoReplyUpload, hstore]
      exact .refused e
    | ok fileMeta =>
      rw [saveAutoReplyUpload, hstore]
      have hdrawn := hdraws.drawn upload List.mem_cons_self
      exact Wrote.cons (hdrawn.stored st (.service cat.id) hstore) (.nothing _)
  exact hsaved.returns fun d' h => h.bind _

/-! ### Every step -/

theorem categoryOf_id {categoryId : Nat} {cat : RequestCategory}
    (h : categoryOf db categoryId = .ok cat) : cat.id = categoryId := by
  unfold categoryOf at h
  split at h
  · rename_i hfound
    cases h
    simpa using List.find?_some hfound
  · cases h

/-- What a step commits is what it always did, and what it writes are its uploads. -/
theorem step_yields (cfg : Settings) (st : Storage) (db : Db) (now : Int) (step : Step)
    (hdraws : d.Draws (step.uploads.map (·.2))) :
    Yields (step.storing cfg st db now) (step.apply cfg db now) d
      (Wrote cfg.maxUploadMb st d step.uploads) := by
  cases step with
  | create _ _ _ _ => exact yields_lift (Wrote.nothing _)
  | clientCreate _ _ _ _ _ => exact yields_lift (Wrote.nothing _)
  | sweep useLock won =>
    exact yields_lift (x := (Step.sweep useLock won).apply cfg db now) (Wrote.nothing _)
  | people users departments faculties studentGroups =>
    exact yields_lift (x := (Step.people users departments faculties studentGroups).apply cfg db now)
      (Wrote.nothing _)
  | call c =>
    have hcall : Yields (c.storing cfg st db now) (c.handle cfg db now) d
        (Wrote cfg.maxUploadMb st d c.uploads) := by
      cases c with
      | answer userId requestId text files =>
        apply answerOn_yields
        simpa [Step.uploads, Call.uploads, Function.comp_def] using hdraws
      | upload userId requestId file => exact uploadFileOn_yields hdraws
      | clientUpload client requestId file => exact clientUploadOn_yields hdraws
      | assign _ _ _ => exact yields_lift (Wrote.nothing _)
      | transition _ _ _ => exact yields_lift (Wrote.nothing _)
      | resubmit _ _ _ => exact yields_lift (Wrote.nothing _)
      | message _ _ _ => exact yields_lift (Wrote.nothing _)
      | clientMessage _ _ _ => exact yields_lift (Wrote.nothing _)
      | clientResubmit _ _ _ => exact yields_lift (Wrote.nothing _)
    exact hcall.returns fun d' h => h.bind _
  | catalogue edit =>
    cases edit with
    | addFile categoryId upload userId =>
      apply Yields.check (fun e => .refused e)
      intro cat hcat
      have hadded : Yields (addAutoReplyFileOn cfg st db cat upload userId now)
          (addAutoReplyFile cfg db cat upload userId now) d
          (Wrote cfg.maxUploadMb st d [(.service cat.id, upload)]) :=
        addAutoReplyFileOn_yields hdraws
      rw [categoryOf_id hcat] at hadded
      exact hadded
    | create _ => exact yields_lift (Wrote.nothing _)
    | update _ _ => exact yields_lift (Wrote.nothing _)
    | deactivate _ => exact yields_lift (Wrote.nothing _)
    | removeFile _ _ => exact yields_lift (Wrote.nothing _)

end Royd.Api
