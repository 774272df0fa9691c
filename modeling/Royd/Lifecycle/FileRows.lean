/-
Royd.Lifecycle.FileRows — what one commit does to the two tables of files.

A row keeps what `_store` made of an upload (`fileMeta`). `step_fileRows` says
for every commit which rows it adds: one for each upload the step carries, in
their order, or, where a service answers by itself, one for each file of the
service. Rows of requests are never taken out; rows of services are, and that is
all that happens to them.
-/
import Royd.Api.Storing
import Royd.Lifecycle.Acts
import Royd.Lifecycle.Catalogue
import Royd.Lifecycle.History
import Royd.Services.CategoryTree

namespace Royd

open Api

/-- What a row keeps of its file. -/
def RequestFile.fileMeta (f : RequestFile) : FileMeta :=
  ⟨f.filePath, f.fileName, f.fileSize, f.mimeType⟩

/-- What a service's row keeps of its file. -/
def AutoReplyFile.fileMeta (f : AutoReplyFile) : FileMeta :=
  ⟨f.filePath, f.fileName, f.fileSize, f.mimeType⟩

variable {cfg : Settings} {db db' : Db} {now : Int}

/-- What `_store` makes of an upload sent to a folder. -/
def storedAs (maxUploadMb : Nat) (sent : Folder × Upload) : Except Exc FileMeta :=
  store maxUploadMb sent.2 sent.1.name

/-- The rows are those of the uploads. -/
def RowsOf (cfg : Settings) (fs : List RequestFile) (uploads : List (Folder × Upload)) : Prop :=
  fs.map (fun f => Except.ok f.fileMeta) = uploads.map (storedAs cfg.maxUploadMb)

theorem RowsOf.leaves {uploads : List (Folder × Upload)} {s : Session} {hs : List RequestHistory}
    {fs : List RequestFile} {ms : List Message} {ws : List Webhook} (h : RowsOf cfg fs uploads)
    (hs : s.Leaves hs fs ms ws) : RowsOf cfg s.files uploads := by
  rw [RowsOf, hs.files]
  exact h

theorem noRows {s : Session} {hs : List RequestHistory} {ms : List Message} {ws : List Webhook}
    (h : s.Leaves hs [] ms ws) : RowsOf cfg s.files [] :=
  RowsOf.leaves (show RowsOf cfg [] [] from rfl) h

/-! ## Calls -/

/-- The loop of an answer adds one row for each upload. -/
theorem attachFiles_rows {r : Request} {actor : User} : ∀ {uploads : List Upload} {w w' : Work}
    {fs : List RequestFile} {ws : List Webhook}, Work.Ready w r fs ws →
    uploads.foldlM (fun w f => attachFile cfg db w actor true f now) w = .ok w' →
    ∃ fs' ws', Work.Ready w' r (fs ++ fs') ws' ∧
      RowsOf cfg fs' (uploads.map fun f => (.request r.id, f)) := by
  intro uploads
  induction uploads with
  | nil =>
    intro w w' fs ws hw h
    cases h
    exact ⟨[], ws, by rwa [List.append_nil], rfl⟩
  | cons upload uploads ih =>
    intro w w' fs ws hw h
    rw [List.foldlM_cons] at h
    obtain ⟨w₁, hattach, h⟩ := bind_eq_ok.mp h
    obtain ⟨fileMeta, hsaved, hw₁⟩ := attachFile_leaves hw hattach
    obtain ⟨fs', ws', hw', hrows⟩ := ih hw₁ h
    rw [List.append_assoc] at hw'
    refine ⟨_, ws', hw', ?_⟩
    rw [RowsOf, List.map_append, hrows, List.map_cons, List.map_cons]
    change .ok fileMeta :: _ = saveUpload cfg.maxUploadMb upload r.id :: _
    rw [hsaved]
    rfl

theorem answer_rows {userId requestId : Nat} {text : String} {files : List Upload} {w : Work}
    (h : answer cfg db userId requestId text files now = .ok w) :
    RowsOf cfg w.session.files (files.map fun f => (.request requestId, f)) := by
  obtain ⟨actor, -, h⟩ := bind_eq_ok.mp h
  obtain ⟨w₀, hload, h⟩ := bind_eq_ok.mp h
  obtain ⟨_, -, h⟩ := bind_eq_ok.mp h
  obtain ⟨_, -, h⟩ := bind_eq_ok.mp h
  obtain ⟨w₁, hattach, h⟩ := bind_eq_ok.mp h
  obtain ⟨w₂, hanswer, h⟩ := bind_eq_ok.mp h
  cases h
  obtain ⟨r, -, hid, -, rfl⟩ := getRequestForUser_view hload
  obtain ⟨fs, ws, hready, hrows⟩ := attachFiles_rows (Work.ready_load db r) hattach
  obtain ⟨_, _, hanswer⟩ := bind_eq_ok.mp hanswer
  split at hanswer
  · cases hanswer
  obtain ⟨req', -, hanswer⟩ := bind_eq_ok.mp hanswer
  cases hanswer
  rw [← hid]
  exact RowsOf.leaves hrows ((((hready.rows.addHistory req' (some actor.id) _ .completed
    (some "Yakuniy javob yuborildi") now).logAction _ _ _ _ _ _).notifyUser
    cfg db _ _ _ _ _ _).publish cfg db _ _)

/-- One attached file is one row. -/
theorem attachFile_rows {r : Request} {w : Work} {uploader : User} {isAnswer : Bool}
    {upload : Upload}
    (h : attachFile cfg db (Work.load db r) uploader isAnswer upload now = .ok w) :
    RowsOf cfg w.session.files [(.request r.id, upload)] := by
  obtain ⟨fileMeta, hsaved, hready⟩ := attachFile_leaves (Work.ready_load db r) h
  rw [RowsOf, hready.rows.files]
  change [.ok fileMeta] = [saveUpload cfg.maxUploadMb upload r.id]
  rw [hsaved]

/-- A call adds the rows of its uploads. -/
theorem handle_rows {c : Call} {w : Work} (h : c.handle cfg db now = .ok w) :
    RowsOf cfg w.session.files c.uploads := by
  cases c with
  | assign userId requestId data =>
    obtain ⟨actor, -, h⟩ := bind_eq_ok.mp h
    obtain ⟨w₀, hload, h⟩ := bind_eq_ok.mp h
    obtain ⟨w₁, hassign, h⟩ := bind_eq_ok.mp h
    cases h
    obtain ⟨r, -, -, -, rfl⟩ := getRequestForUser_view hload
    obtain ⟨_, -, hassign⟩ := bind_eq_ok.mp hassign
    obtain ⟨_, -, hassign⟩ := bind_eq_ok.mp hassign
    obtain ⟨assignee, -, hassign⟩ := bind_eq_ok.mp hassign
    cases hassign
    exact noRows ((((Session.Leaves.empty _ _).addHistory _ _ _ _ _ _).logAction
      _ _ _ _ _ _).notifyAssigned cfg db _ _)
  | transition userId requestId data =>
    obtain ⟨actor, -, h⟩ := bind_eq_ok.mp h
    obtain ⟨w₀, hload, h⟩ := bind_eq_ok.mp h
    obtain ⟨w₁, hmove, h⟩ := bind_eq_ok.mp h
    cases h
    obtain ⟨r, -, -, -, rfl⟩ := getRequestForUser_view hload
    obtain ⟨target, -, hmove⟩ := bind_eq_ok.mp hmove
    obtain ⟨_, -, hmove⟩ := bind_eq_ok.mp hmove
    obtain ⟨_, -, hmove⟩ := bind_eq_ok.mp hmove
    obtain ⟨req', -, hmove⟩ := bind_eq_ok.mp hmove
    cases hmove
    exact noRows (((((Session.Leaves.empty _ _).addHistory _ _ _ _ _ _).logAction
      _ _ _ _ _ _).notifyUser cfg db _ _ _ _ _ _).publish cfg db _ _)
  | answer userId requestId text files => exact answer_rows h
  | resubmit userId requestId comment =>
    obtain ⟨student, -, h⟩ := bind_eq_ok.mp h
    obtain ⟨w₀, hload, h⟩ := bind_eq_ok.mp h
    obtain ⟨r, -, -, -, rfl⟩ := getRequestForUser_view hload
    exact noRows (resubmitReturned_leaves h).2.2.2.2
  | message userId requestId data =>
    obtain ⟨user, -, h⟩ := bind_eq_ok.mp h
    obtain ⟨w₀, hload, h⟩ := bind_eq_ok.mp h
    obtain ⟨_, -, h⟩ := bind_eq_ok.mp h
    cases h
    obtain ⟨r, -, -, -, rfl⟩ := getRequestForUser_view hload
    exact noRows (postMessage_leaves r user _ _)
  | upload userId requestId file =>
    obtain ⟨user, -, h⟩ := bind_eq_ok.mp h
    obtain ⟨w₀, hload, h⟩ := bind_eq_ok.mp h
    obtain ⟨_, -, h⟩ := bind_eq_ok.mp h
    obtain ⟨_, -, h⟩ := bind_eq_ok.mp h
    obtain ⟨r, -, hid, -, rfl⟩ := getRequestForUser_view hload
    rw [Call.uploads, ← hid]
    exact attachFile_rows h
  | clientMessage client requestId content =>
    obtain ⟨w₀, howned, h⟩ := bind_eq_ok.mp h
    obtain ⟨_, -, h⟩ := bind_eq_ok.mp h
    obtain ⟨student, -, h⟩ := bind_eq_ok.mp h
    cases h
    obtain ⟨r, -, -, -, rfl⟩ := ownedRequest_view howned
    exact noRows (postMessage_leaves r student _ _)
  | clientUpload client requestId file =>
    obtain ⟨w₀, howned, h⟩ := bind_eq_ok.mp h
    obtain ⟨_, -, h⟩ := bind_eq_ok.mp h
    obtain ⟨student, -, h⟩ := bind_eq_ok.mp h
    obtain ⟨r, -, hid, -, rfl⟩ := ownedRequest_view howned
    rw [Call.uploads, ← hid]
    exact attachFile_rows h
  | clientResubmit client requestId comment =>
    obtain ⟨w₀, howned, h⟩ := bind_eq_ok.mp h
    obtain ⟨student, -, h⟩ := bind_eq_ok.mp h
    obtain ⟨r, -, -, -, rfl⟩ := ownedRequest_view howned
    exact noRows (resubmitReturned_leaves h).2.2.2.2

/-! ## Filings -/

/-- The files of a service, as they are read back. -/
def serviceRows (db : Db) (categoryId : Nat) : List AutoReplyFile :=
  db.autoReplyFiles.filter (·.categoryId == categoryId)

theorem addAutoReplyFiles_rows (now : Int) (req : Request) : ∀ (files : List AutoReplyFile) (s : Session),
    (addAutoReplyFiles s req files now).files.map (·.fileMeta) =
      s.files.map (·.fileMeta) ++ files.map (·.fileMeta) := by
  intro files
  induction files with
  | nil =>
    intro s
    rw [List.map_nil, List.append_nil]
    rfl
  | cons f files ih =>
    intro s
    have hrest := ih (s.add fun id => .file
      { id
        requestId := req.id
        uploadedBy := f.uploadedBy
        filePath := f.filePath
        fileName := f.fileName
        fileSize := f.fileSize
        mimeType := f.mimeType
        isAnswer := true
        createdAt := now })
    refine hrest.trans ?_
    rw [List.map_cons, List.append_cons]
    congr 1
    simp [Session.files, Session.add, RequestFile.fileMeta, AutoReplyFile.fileMeta]

/-- What a filing adds: nothing, or the files of the service it is for. -/
theorem fileRequest_rows {student : User} {data : RequestCreate} {trackingNo : String}
    {key : Option String} {client : Option ApiClient} {req : Request} {s : Session}
    (h : fileRequest cfg db student data trackingNo key client now = .ok (req, s)) :
    s.files = [] ∨
      s.files.map (·.fileMeta) = (serviceRows db data.categoryId).map (·.fileMeta) := by
  obtain ⟨⟨req₀, s₀⟩, hcreate, h⟩ := bind_eq_ok.mp h
  obtain ⟨category, hresolve, hcreate⟩ := bind_eq_ok.mp hcreate
  obtain ⟨assignee, -, hcreate⟩ := bind_eq_ok.mp hcreate
  obtain ⟨deadline, -, hcreate⟩ := bind_eq_ok.mp hcreate
  cases hcreate
  cases h
  generalize newRequest db.nextId student category assignee deadline data
    { trackingNo, clientRef := key, apiClientId := client.map (·.id) } now = req
  obtain ⟨hfound, -⟩ := Catalogue.resolveService_iff.mp hresolve
  have hservice : category.id = data.categoryId := by simpa using List.find?_some hfound
  -- Announcing the request adds no file.
  have hannounced : (if req.status = .completed then
      announceAutoAnswer cfg db (announceFiling cfg db (filingRows db
        (.empty (db.nextId + 1) db.nextMessageId) req category assignee now) student req client) req
        ((filingRows db (.empty (db.nextId + 1) db.nextMessageId) req category assignee
          now).files.filter (·.isAnswer))
      else announceFiling cfg db (filingRows db (.empty (db.nextId + 1) db.nextMessageId) req
        category assignee now) student req client).files =
      (filingRows db (.empty (db.nextId + 1) db.nextMessageId) req category assignee now).files := by
    obtain ⟨_, _, fs, -, hrows⟩ := filingRows_leaves db (db.nextId + 1) db.nextMessageId now req
      category assignee
    have hfiling := announceFiling_leaves hrows cfg db student req client
    rw [hrows.files]
    split
    · exact (announceAutoAnswer_leaves hfiling cfg db req _).files
    · exact hfiling.files
  rw [hannounced, filingRows]
  by_cases hauto : category.routing = .autoReply
  · right
    have hcopied := addAutoReplyFiles_rows now req (listAutoReplyFiles db category)
      (.empty (db.nextId + 1) db.nextMessageId)
    rw [if_pos hauto, serviceRows, ← hservice]
    refine Eq.trans ?_ hcopied
    simp [addHistory, Session.files, Session.add]
  · left
    rw [if_neg hauto]
    simp [addHistory, Session.files, Session.add, Session.empty]

/-! ## Commits -/

theorem Session.file_ids (s : Session) :
    (s.files.map (·.id)).Pairwise (· < ·) ∧ ∀ f ∈ s.files, s.start ≤ f.id ∧ f.id < s.nextId :=
  s.ids_of fun row f hrow => by
    cases row <;> simp_all

/-- Ids given out by a commit. -/
structure NewIds (db db' : Db) (ids : List Nat) : Prop where
  nodup : ids.Nodup
  given : ∀ id ∈ ids, db.nextId ≤ id ∧ id < db'.nextId

theorem Session.newIds {s : Session} (hstart : db.nextId ≤ s.start) (hnext : s.nextId ≤ db'.nextId) :
    NewIds db db' (s.files.map (·.id)) := by
  obtain ⟨hincreasing, hrange⟩ := s.file_ids
  refine ⟨hincreasing.imp fun hlt => hlt.ne, ?_⟩
  intro id hid
  obtain ⟨f, hf, rfl⟩ := List.mem_map.mp hid
  obtain ⟨hge, hlt⟩ := hrange f hf
  omega

/-- The service a step files for. -/
def Api.Step.service? : Step → Option Nat
  | .create _ data _ _ => some data.categoryId
  | .clientCreate _ _ data _ _ => some data.categoryId
  | _ => none

/-- What a commit does to the two tables. -/
inductive FileRows (cfg : Settings) (db : Db) : Step → Db → Prop
  | kept {step : Step} {db' : Db} (silent : step.uploads = []) (files : db'.files = db.files)
      (services : db'.autoReplyFiles.Sublist db.autoReplyFiles) (nextId : db.nextId ≤ db'.nextId) :
      FileRows cfg db step db'
  | attached {c : Call} {db' : Db} {fs : List RequestFile} (files : db'.files = db.files ++ fs)
      (services : db'.autoReplyFiles = db.autoReplyFiles) (nextId : db.nextId ≤ db'.nextId)
      (ids : NewIds db db' (fs.map (·.id))) (rows : RowsOf cfg fs c.uploads) :
      FileRows cfg db (.call c) db'
  | copied {step : Step} {db' : Db} {fs : List RequestFile} {categoryId : Nat}
      (service : step.service? = some categoryId) (files : db'.files = db.files ++ fs)
      (services : db'.autoReplyFiles = db.autoReplyFiles) (nextId : db.nextId ≤ db'.nextId)
      (ids : NewIds db db' (fs.map (·.id)))
      (rows : fs.map (·.fileMeta) = (serviceRows db categoryId).map (·.fileMeta)) :
      FileRows cfg db step db'
  | added {categoryId userId : Nat} {upload : Upload} {db' : Db} {f : AutoReplyFile}
      (files : db'.files = db.files) (services : db'.autoReplyFiles = db.autoReplyFiles ++ [f])
      (id : f.id = db.nextId) (nextId : db'.nextId = db.nextId + 1)
      (row : storedAs cfg.maxUploadMb (.service categoryId, upload) = .ok f.fileMeta) :
      FileRows cfg db (.catalogue (.addFile categoryId upload userId)) db'

/-- A filing that is inserted. -/
theorem insertFiling_fileRows {step : Step} {student : User} {data : RequestCreate}
    {trackingNo : String} {key : Option String} {client : Option ApiClient} {f : Filing}
    (hservice : step.service? = some data.categoryId) (hsilent : step.uploads = [])
    (h : fileRequest cfg (db.synced f.sync) student data trackingNo key client now =
      .ok (f.req, f.session)) : FileRows cfg db step (insertFiling db f) := by
  have hsynced : (db.synced f.sync).files = db.files ∧
      (db.synced f.sync).autoReplyFiles = db.autoReplyFiles := by
    unfold Db.synced
    cases f.sync <;> exact ⟨rfl, rfl⟩
  have hbase := (synced_elsewhere db f.sync).nextId
  obtain ⟨_, _, fs, hopened⟩ := fileRequest_opened h
  have hstart := hopened.holds.start
  have hnext : db.nextId ≤ (insertFiling db f).nextId ∧
      f.session.nextId ≤ (insertFiling db f).nextId := by
    rw [insertFiling_eq]
    exact ⟨hbase.trans (Nat.le_max_left _ _), Nat.le_max_right _ _⟩
  have hfiles : (insertFiling db f).files = db.files ++ f.session.files := by
    rw [insertFiling_eq, ← hsynced.1]
    rfl
  have hservices : (insertFiling db f).autoReplyFiles = db.autoReplyFiles := by
    rw [insertFiling_eq, ← hsynced.2]
    rfl
  rcases fileRequest_rows h with hnone | hcopies
  · rw [hnone, List.append_nil] at hfiles
    exact .kept hsilent hfiles (hservices ▸ List.Sublist.refl _) hnext.1
  · have hrows : serviceRows (db.synced f.sync) data.categoryId = serviceRows db data.categoryId := by
      rw [serviceRows, hsynced.2, serviceRows]
    rw [hrows] at hcopies
    exact .copied hservice hfiles hservices hnext.1 (Session.newIds (by omega) hnext.2) hcopies

theorem catalogueEdit_fileRows {edit : CatalogueEdit} (h : edit.apply cfg db now = .ok db') :
    FileRows cfg db (.catalogue edit) db' := by
  cases edit with
  | create data =>
    obtain ⟨cat, -, -, rfl⟩ := buildCategory_ruled h
    exact .kept rfl rfl (List.Sublist.refl _) (Nat.le_succ _)
  | update categoryId payload =>
    obtain ⟨cat, -, h⟩ := bind_eq_ok.mp h
    obtain ⟨cat', -, h⟩ := bind_eq_ok.mp h
    cases h
    exact .kept rfl rfl (List.Sublist.refl _) le_rfl
  | deactivate categoryId =>
    obtain ⟨cat, -, h⟩ := bind_eq_ok.mp h
    cases h
    exact .kept rfl rfl (List.Sublist.refl _) le_rfl
  | addFile categoryId upload userId =>
    obtain ⟨cat, hcat, h⟩ := bind_eq_ok.mp h
    rw [addAutoReplyFile_eq] at h
    obtain ⟨_, -, h⟩ := bind_eq_ok.mp h
    obtain ⟨fileMeta, hsaved, h⟩ := bind_eq_ok.mp h
    cases h
    rw [categoryOf_id hcat] at hsaved
    exact .added rfl rfl rfl rfl hsaved
  | removeFile categoryId fileId =>
    obtain ⟨cat, -, h⟩ := bind_eq_ok.mp h
    unfold removeAutoReplyFile at h
    split at h
    · cases h
    · cases h
      exact .kept rfl rfl List.filter_sublist le_rfl

theorem sweepLoop_fileRows (cfg : Settings) (now : Int) : ∀ (candidates : List Request) (db : Db),
    (candidates.foldl (fun db req => db.finish (sweepOne cfg db req now)) db).files = db.files ∧
      (candidates.foldl (fun db req => db.finish (sweepOne cfg db req now)) db).autoReplyFiles =
        db.autoReplyFiles := by
  intro candidates
  induction candidates with
  | nil => exact fun db => ⟨rfl, rfl⟩
  | cons r rest ih =>
    intro db
    obtain ⟨hfiles, hservices⟩ := ih (db.finish (sweepOne cfg db r now))
    have hone : (db.finish (sweepOne cfg db r now)).files = db.files := by
      have hleaves := (sweepOne_leaves cfg db r now).files
      change db.files ++ (sweepOne cfg db r now).session.files = db.files
      rw [hleaves, List.append_nil]
    exact ⟨hfiles.trans hone, hservices⟩

/-- Every commit. -/
theorem step_fileRows {step : Step} (h : step.apply cfg db now = .ok db') :
    FileRows cfg db step db' := by
  cases step with
  | create userId data key trackingNo =>
    obtain ⟨student, -, rfl | ⟨req, session, hfile, rfl⟩⟩ := runCreate_eq_ok h
    · exact .kept rfl rfl (List.Sublist.refl _) le_rfl
    · exact insertFiling_fileRows rfl rfl hfile
  | clientCreate client profile data key trackingNo =>
    obtain ⟨sync, -, rfl | ⟨req, session, hfile, rfl⟩⟩ := runClientCreate_eq_ok h
    · exact .kept rfl rfl (List.Sublist.refl _) le_rfl
    · exact insertFiling_fileRows rfl rfl hfile
  | call c =>
    obtain ⟨w, hhandle, h⟩ := bind_eq_ok.mp h
    cases h
    obtain ⟨-, -, hchange⟩ := handle_change hhandle
    refine .attached rfl rfl (nextId_le_finish ..) ?_ (handle_rows hhandle)
    exact Session.newIds hchange.stamped.1.ge (Nat.le_max_right _ _)
  | sweep useLock won =>
    cases h
    unfold sweepSlaDeadlines
    split
    · exact .kept rfl rfl (List.Sublist.refl _) le_rfl
    · obtain ⟨hfiles, hservices⟩ := sweepLoop_fileRows cfg now (sweepCandidates cfg db now) db
      exact .kept rfl hfiles (hservices ▸ List.Sublist.refl _) (sweepLoop_catalogue ..).2
  | catalogue edit => exact catalogueEdit_fileRows h
  | people users departments faculties studentGroups =>
    cases h
    exact .kept rfl rfl (List.Sublist.refl _) le_rfl

end Royd
