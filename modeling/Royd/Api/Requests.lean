/-
Royd.Api.Requests — `api/v1/requests.py` and the request endpoints of
`api/v1/integration.py`: what one call does between loading and commit.

An endpoint that changes a request returns the `Work` it is about to
commit; one that files a request returns a `Filing`. `userId` is the user
the access token names, `client` the API client its bearer token names.
-/
import Royd.Services.Events
import Royd.Services.Files
import Royd.Services.Requests
import Royd.Services.Students

namespace Royd.Api

variable (cfg : Settings) (db : Db)

/-! ## Who is calling -/

/-- The user lookup of `get_current_user`. -/
def currentUser (userId : Nat) : Except Exc User :=
  match db.getUser userId with
  | none => .error (.http 401 "User inactive")
  | some user => if user.isActive then .ok user else .error (.http 401 "User inactive")

/-- `require_roles`. -/
def requireRoles (userId : Nat) (roles : List Role) : Except Exc User := do
  let user ← currentUser db userId
  if user.hasRole roles then .ok user else .error (.http 403 "Ruxsat yetarli emas")

/-- An integration, as the endpoints use it. -/
structure ApiClient where
  id : Nat
  clientId : String
  deriving DecidableEq, Repr

/-! ## Filing -/

/-- A request about to be filed: the row, the other rows of its session,
and, on the integration's path, the upsert of the student. -/
structure Filing where
  sync : Option StudentSync := none
  req : Request
  session : Session
  deriving DecidableEq, Repr

/-- The unique constraints a filing can run into when its rows are flushed,
with what the caller is then told (`_CONSTRAINT_MESSAGES`). -/
def checkUnique (db : Db) (f : Filing) : Except Exc Unit :=
  if f.sync.any fun sync => sync.found.isNone && sync.user.studentProfile.any fun sp =>
      db.users.any fun u => u.studentProfile.any fun sp' =>
        sp'.externalStudentId.isSome && sp'.externalStudentId == sp.externalStudentId then
    .error (.http 409 "Bu talaba ID allaqachon mavjud")
  else if db.requests.any (·.trackingNo == f.req.trackingNo) then
    .error (.http 409 "Murojaat raqami to'qnashdi, qayta urinib ko'ring")
  else if db.requests.any fun r =>
      r.clientRef.isSome && r.studentId == f.req.studentId && r.clientRef == f.req.clientRef then
    .error (.http 409 "Bu murojaat allaqachon qabul qilingan (takroriy so'rov)")
  else .ok ()

/-- The rows of a filing reach their tables. -/
def insertFiling (db : Db) (f : Filing) : Db :=
  let db := match f.sync with
    | some sync => db.applySync sync
    | none => db
  let db := db.commit f.session
  { db with requests := db.requests ++ [f.req] }

/-- `db.commit()` of a filing: all of it, or nothing. -/
def commitFiling (db : Db) (f : Filing) : Except Exc Db := do
  checkUnique db f
  .ok (insertFiling db f)

/-- What `file_request` tells when the service answered by itself: an
automatic answer is announced the same way as a handler's. -/
def announceAutoAnswer (s : Session) (req : Request) (answerFiles : List RequestFile) : Session :=
  let s := notifyUser cfg db s req.studentId .requestStatus
    ("Murojaatingizga javob berildi: " ++ req.trackingNo)
    (answerLines req ("'" ++ req.title ++ "' murojaatingiz bo'yicha javob:")) req "/student/requests"
  let s := answerFiles.foldl (fun s f => publishFileAdded cfg db s req f) s
  publish cfg db s req (.statusChanged .new none (some (answerEvent req none answerFiles)))

/-- What `file_request` records of every filing: the audit entry, the
notice to the handler and the `request.created` event. -/
def announceFiling (s : Session) (student : User) (req : Request) (client : Option ApiClient) :
    Session :=
  let s := logAction s (some student.id) "request.create" "request" req.id []
    ([("tracking_no", .text req.trackingNo),
      ("title", .text req.title),
      ("assigned_to", (req.assignedTo.map AuditValue.num).getD .null),
      ("auto_routed", .flag true),
      ("auto_answered", .flag (req.status == .completed))]
      ++ (client.map fun c => ("api_client", AuditValue.text c.clientId)).toList)
  let s := match req.assignedTo with
    | some assigneeId => notifyAssigned cfg db s req assigneeId
    | none => s
  publish cfg db s req .requestCreated

/-- `file_request`: the row with the session everything else went to. -/
def fileRequest (student : User) (data : RequestCreate) (trackingNo : String)
    (clientRef : Option String) (client : Option ApiClient) (now : Int) :
    Except Exc (Request × Session) := do
  let (req, s) ← createRequest cfg db student data
    { trackingNo, clientRef, apiClientId := client.map (·.id) } now
  let answerFiles := s.files.filter (·.isAnswer)
  let s := announceFiling cfg db s student req client
  .ok (req, if req.status = .completed then announceAutoAnswer cfg db s req answerFiles else s)

/-! ## Operations both kinds of caller share -/

/-- `resubmit_returned`. -/
def resubmitReturned (w : Work) (student : User) (comment : Option String) (now : Int) :
    Except Exc Work := do
  let w ← resubmitRequest cfg w student comment now
  let req := w.req
  let s := logAction w.session (some student.id) "request.resubmit" "request" req.id
    [("status", .text RequestStatus.returned.code)] [("status", .text req.status.code)]
  let note := match comment with
    | some c => if c.isEmpty then [] else ["Izoh: " ++ c]
    | none => []
  let s := match req.assignedTo with
    | some assigneeId => notifyUser cfg db s assigneeId .requestStatus
        ("Murojaat qayta yuborildi: " ++ req.trackingNo)
        (["Talaba '" ++ req.title ++ "' murojaatini to'ldirib qayta yubordi."] ++ note)
        req "/registrator/requests"
    | none => s
  .ok { w with session := publish cfg db s req (.statusChanged .returned comment none) }

/-- Who is told of a public message: the other side of the conversation. -/
def messageRecipients (req : Request) (sender : User) : List Nat :=
  let recipients := if sender.id ≠ req.studentId then [req.studentId] else []
  match req.assignedTo with
  | some id => if id ≠ sender.id ∧ ¬ recipients.contains id then recipients ++ [id] else recipients
  | none => recipients

/-- `post_message`. -/
def postMessage (w : Work) (sender : User) (content : String) (isInternal : Bool) (now : Int) :
    Work :=
  let req := w.req
  let s := w.session.addMessage fun id =>
    { id, requestId := req.id, senderId := sender.id, content := strip content, isInternal,
      createdAt := now }
  let s := if isInternal then s else
    let s := (messageRecipients req sender).foldl (fun s id =>
      createNotification s id .requestMessage ("Yangi xabar: " ++ req.trackingNo)
        (String.ofList (content.toList.take 200)) req none) s
    publish cfg db s req (.messageCreated w.session.nextMessageId (strip content) sender.fullName
      sender.role (sender.id == req.studentId))
  { w with session := s }

/-- The row of a stored upload. -/
def fileRecord (req : Request) (uploader : User) (isAnswer : Bool) (fileMeta : FileMeta)
    (now : Int) (id : Nat) : RequestFile where
  id := id
  requestId := req.id
  uploadedBy := uploader.id
  filePath := fileMeta.filePath
  fileName := fileMeta.fileName
  fileSize := fileMeta.fileSize
  mimeType := fileMeta.mimeType
  isAnswer := isAnswer
  createdAt := now

/-- `attach_file`. -/
def attachFile (w : Work) (uploader : User) (isAnswer : Bool) (upload : Upload) (now : Int) :
    Except Exc Work := do
  let fileMeta ← saveUpload cfg.maxUploadMb upload w.req.id
  let record := fileRecord w.req uploader isAnswer fileMeta now
  let s := w.session.add fun id => .file (record id)
  let s := logAction s (some uploader.id) "request.file_upload" "request" w.req.id []
    [("file_name", .text fileMeta.fileName), ("size", .num fileMeta.fileSize)]
  .ok { w with session := publishFileAdded cfg db s w.req (record w.session.nextId) }

/-! ## `/requests` -/

/-- `assign`. -/
def assign (userId requestId : Nat) (data : RequestAssign) (now : Int) : Except Exc Work := do
  let actor ← requireRoles db userId Role.canTriage
  let w ← getRequestForUser db requestId actor
  let w ← assignRequest db w actor data now
  let s := logAction w.session (some actor.id) "request.assign" "request" w.req.id []
    [("assignee_id", .num data.assigneeId)]
  .ok { w with session := notifyAssigned cfg db s w.req data.assigneeId }

/-- `transition`. -/
def transition (userId requestId : Nat) (data : RequestTransition) (now : Int) :
    Except Exc Work := do
  let actor ← requireRoles db userId Role.canTransition
  let w ← getRequestForUser db requestId actor
  let oldStatus := w.req.status
  let w ← transitionRequest cfg w actor data now
  let req := w.req
  let s := logAction w.session (some actor.id) "request.transition" "request" req.id
    [("status", .text oldStatus.code)] [("status", .text data.status)]
  let note := match data.comment with
    | some c => if c.isEmpty then [] else ["Izoh: " ++ c]
    | none => []
  let s := notifyUser cfg db s req.studentId .requestStatus ("Murojaat holati: " ++ req.trackingNo)
    (["Murojaatingiz holati o'zgardi: " ++ oldStatus.label ++ " → " ++ req.status.label ++ "."]
      ++ note) req "/student/requests"
  .ok { w with session := publish cfg db s req (.statusChanged oldStatus data.comment none) }

/-- `len(files) > MAX_ANSWER_FILES` is refused. -/
def checkFileCount (files : List Upload) : Except Exc Unit :=
  if files.length > maxAnswerFiles then
    .error (.http 422 s!"Javobga ko'pi bilan {maxAnswerFiles} ta fayl biriktiring")
  else .ok ()

/-- `answer`: send the final answer, with optional files, and close. -/
def answer (userId requestId : Nat) (text : String) (files : List Upload) (now : Int) :
    Except Exc Work := do
  let actor ← requireRoles db userId Role.canTransition
  let w ← getRequestForUser db requestId actor
  -- Checked before any file touches the disk.
  assertCanAnswer w.req actor
  checkFileCount files
  let w ← files.foldlM (fun w f => attachFile cfg db w actor true f now) w
  let attached := w.session.files
  let oldStatus := w.req.status
  let w ← answerRequest cfg w actor text now
  let req := w.req
  let s := logAction w.session (some actor.id) "request.answer" "request" req.id
    [("status", .text oldStatus.code)]
    [("status", .text req.status.code), ("files", .texts (attached.map (·.fileName)))]
  let s := notifyUser cfg db s req.studentId .requestStatus
    ("Murojaatingizga javob berildi: " ++ req.trackingNo)
    (answerLines req ("'" ++ req.title ++ "' murojaatingiz bo'yicha yakuniy javob:")) req
    "/student/requests"
  let s := publish cfg db s req
    (.statusChanged oldStatus none (some (answerEvent req (some actor.fullName) attached)))
  .ok { w with session := s }

/-- `resubmit`. -/
def resubmit (userId requestId : Nat) (comment : Option String) (now : Int) :
    Except Exc Work := do
  let student ← requireRoles db userId [.student]
  let w ← getRequestForUser db requestId student
  resubmitReturned cfg db w student comment now

/-- `MessageCreate`. -/
structure MessageCreate where
  content : String
  isInternal : Bool := false
  deriving DecidableEq, Repr

/-- Who may post what on which request: internal notes are for staff and
may be left on a closed request, the conversation with the student may not. -/
def checkMessage (req : Request) (user : User) (isInternal : Bool) : Except Exc Unit := do
  assertMayMutate user
  if isInternal ∧ ¬ user.hasRole Role.seesInternal then
    .error (.http 403 "Talabalar ichki eslatma yoza olmaydi")
  else if ¬ isInternal then assertOpen req
  else .ok ()

/-- `add_message`. -/
def addMessage (userId requestId : Nat) (data : MessageCreate) (now : Int) : Except Exc Work := do
  let user ← currentUser db userId
  let w ← getRequestForUser db requestId user
  checkMessage w.req user data.isInternal
  .ok (postMessage cfg db w user data.content data.isInternal now)

/-- `upload_file`. -/
def uploadFile (userId requestId : Nat) (upload : Upload) (now : Int) : Except Exc Work := do
  let user ← currentUser db userId
  let w ← getRequestForUser db requestId user
  assertMayMutate user
  assertOpen w.req
  attachFile cfg db w user false upload now

/-- `create`, past its replay check. -/
def create (student : User) (data : RequestCreate) (trackingNo : String)
    (idempotencyKey : Option String) (now : Int) : Except Exc Filing := do
  let (req, session) ← fileRequest cfg db student data trackingNo idempotencyKey none now
  .ok { req, session }

/-- The request a submission with this key is answered with instead. -/
def replayOf (student : User) (idempotencyKey : Option String) : Option Request :=
  idempotencyKey.bind fun key => if key.isEmpty then none else findByClientRef db student.id key

/-- The role gate of `create`. -/
def requireStudent (userId : Nat) : Except Exc User := do
  let user ← currentUser db userId
  if user.hasRole [.student] then .ok user
  else .error (.http 403 "Faqat talabalar murojaat yubora oladi")

/-! ## `/integration/requests` -/

/-- `_owned_request`: anything this client did not file is a 404. -/
def ownedRequest (requestId : Nat) (client : ApiClient) : Except Exc Work :=
  match db.requests.find? fun r => r.id == requestId && r.apiClientId == some client.id with
  | none => .error (.http 404 "Murojaat topilmadi")
  | some req => .ok (Work.load db req)

/-- `_student_of`. -/
def studentOf (req : Request) : Except Exc User :=
  match db.getUser req.studentId with
  | some user => .ok user
  | none => .error (.value "'NoneType' object has no attribute 'id'")

/-- `add_message` of the integration. -/
def clientMessage (client : ApiClient) (requestId : Nat) (content : String) (now : Int) :
    Except Exc Work := do
  let w ← ownedRequest db requestId client
  assertOpen w.req
  let student ← studentOf db w.req
  .ok (postMessage cfg db w student content false now)

/-- `upload_file` of the integration. -/
def clientUpload (client : ApiClient) (requestId : Nat) (upload : Upload) (now : Int) :
    Except Exc Work := do
  let w ← ownedRequest db requestId client
  assertOpen w.req
  let student ← studentOf db w.req
  attachFile cfg db w student false upload now

/-- `resubmit` of the integration. -/
def clientResubmit (client : ApiClient) (requestId : Nat) (comment : Option String) (now : Int) :
    Except Exc Work := do
  let w ← ownedRequest db requestId client
  let student ← studentOf db w.req
  resubmitReturned cfg db w student comment now

/-- The student a submission of the integration is for. -/
def syncStudent (profile : StudentProfile) : Except Exc StudentSync := do
  let sync ← syncStudentFromProfile db profile
  if sync.user.isActive then .ok sync else .error (.http 403 "Talaba akkaunti faol emas")

/-- A key another caller's request already carries is refused. -/
def checkReplay (client : ApiClient) (existing : Request) : Except Exc Unit :=
  if existing.apiClientId ≠ some client.id then
    .error (.http 409 "Bu Idempotency-Key boshqa murojaatda ishlatilgan")
  else .ok ()

/-- `create_request` of the integration, past its replay check. What it
reads it reads through its session, where the student is already updated. -/
def clientCreate (client : ApiClient) (sync : StudentSync) (data : RequestCreate)
    (trackingNo : String) (idempotencyKey : Option String) (now : Int) : Except Exc Filing := do
  let (req, session) ← fileRequest cfg (db.applySync sync) sync.user data trackingNo idempotencyKey
    (some client) now
  .ok { sync := some sync, req, session }

end Royd.Api
