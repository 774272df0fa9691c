/-
Royd.Services.Requests — `services/request_service.py`: filing a request
and the four operations that change one.

An operation works on the `Work` of its handler: it checks the row as it
was loaded, assigns to it and adds rows, or raises. `now` is the clock
reading the operation makes; the readings one operation makes are one.
-/
import Royd.Services.Catalog
import Royd.Services.Routing

namespace Royd

variable (cfg : Settings) (db : Db)

/-- `_ALLOWED_TRANSITIONS`: none of these moves closes a request. -/
def allowedTransitions : RequestStatus → List RequestStatus
  | .new => [.inProgress, .returned]
  | .accepted => [.inProgress, .returned]
  | .inProgress => [.returned]
  | .returned => [.inProgress]
  | .completed => []
  | .rejected => []

/-- `_COMMENT_REQUIRED`. -/
def commentRequired : List RequestStatus := [.returned]

/-- `assert_open`. -/
def assertOpen (req : Request) : Except Exc Unit :=
  if RequestStatus.closed.contains req.status then
    .error (.http 409 "Murojaat yopilgan, unga o'zgartirish kiritib bo'lmaydi")
  else .ok ()

/-- `find_by_client_ref`. -/
def findByClientRef (studentId : Nat) (clientRef : String) : Option Request :=
  db.requests.find? fun r => r.studentId == studentId && r.clientRef == some clientRef

/-- `_resolve_assignee`. -/
def resolveAssignee (assigneeId : Nat) : Except Exc User :=
  match db.getUser assigneeId with
  | none => .error (.http 400 "Mas'ul xodim topilmadi yoki faol emas")
  | some assignee =>
    if ¬ assignee.isActive then .error (.http 400 "Mas'ul xodim topilmadi yoki faol emas")
    else if ¬ assignee.hasRole [.staff, .registrator] then
      .error (.http 400 "Mas'ul faqat xodim yoki registrator bo'lishi mumkin")
    else .ok assignee

/-! ## Filing -/

/-- `db.add(RequestHistory(...))`. -/
def addHistory (s : Session) (req : Request) (changedBy : Option Nat)
    (oldStatus : Option RequestStatus) (newStatus : RequestStatus) (comment : Option String)
    (now : Int) : Session :=
  s.add fun id => .history
    { id, requestId := req.id, changedBy, oldStatus, newStatus, comment, createdAt := now }

/-- The answer files of an automatic answer: the service's own files,
pointing at the bytes stored once for the service. -/
def addAutoReplyFiles (s : Session) (req : Request) (files : List AutoReplyFile) (now : Int) :
    Session :=
  files.foldl (fun s f => s.add fun id => .file
    { id
      requestId := req.id
      uploadedBy := f.uploadedBy
      filePath := f.filePath
      fileName := f.fileName
      fileSize := f.fileSize
      mimeType := f.mimeType
      isAnswer := true
      createdAt := now }) s

/-- The comment of a new request's second history entry. -/
def routedComment (category : RequestCategory) : Option User → String
  | none => "Avtomatik javob berildi"
  | some assignee =>
    if category.routing = .generalManager then
      "Umumiy masalalar bo'yicha menejerga avtomatik yo'naltirildi. Mas'ul xodim: "
        ++ assignee.fullName
    else "Avtomatik yo'naltirildi. Mas'ul xodim: " ++ assignee.fullName

/-- `RequestCreate`. -/
structure RequestCreate where
  categoryId : Nat
  serviceTypeId : Option Nat := none
  title : String
  description : String
  deriving DecidableEq, Repr

/-- The tracking number drawn for a filing, its idempotency key and the
integration that files it. -/
structure FilingKeys where
  trackingNo : String
  clientRef : Option String
  apiClientId : Option Nat
  deriving DecidableEq, Repr

/-- The row `create_request` adds. -/
def newRequest (id : Nat) (student : User) (category : RequestCategory) (assignee : Option User)
    (deadline : Int) (data : RequestCreate) (keys : FilingKeys) (now : Int) : Request :=
  let req : Request :=
    { id
      trackingNo := keys.trackingNo
      studentId := student.id
      categoryId := category.id
      title := strip data.title
      description := strip data.description
      -- Routed on submission, so the handler owns it from the first moment.
      status := .inProgress
      priority := category.priority
      assignedTo := assignee.map (·.id)
      facultyId := student.facultyId
      departmentId := student.departmentId
      slaDeadline := deadline
      clientRef := keys.clientRef
      apiClientId := keys.apiClientId
      createdAt := now }
  if category.routing = .autoReply then
    -- Answered and closed on the spot.
    { req with
      status := .completed
      answerText := category.autoReplyText
      answerDescription := category.autoReplyDescription
      answeredAt := some now
      closedAt := some now }
  else req

/-- The handler of a new request: nobody when the system answers itself. -/
def routeRequest (student : User) (category : RequestCategory) : Except Exc (Option User) :=
  if category.routing = .autoReply then .ok none
  else (resolveHandler db student category).map some

/-- The rows `create_request` adds beside the request: the answer files of
an automatic answer, then the two entries of the timeline. -/
def filingRows (s : Session) (req : Request) (category : RequestCategory) (assignee : Option User)
    (now : Int) : Session :=
  let s := if category.routing = .autoReply then
      addAutoReplyFiles s req (listAutoReplyFiles db category) now
    else s
  let s := addHistory s req (some req.studentId) none .new (some "Murojaat yuborildi") now
  addHistory s req none (some .new) req.status (some (routedComment category assignee)) now

/-- `create_request`: the new row with the session its other rows were
added to. -/
def createRequest (student : User) (data : RequestCreate) (keys : FilingKeys) (now : Int) :
    Except Exc (Request × Session) := do
  let category ← resolveService db data.categoryId data.serviceTypeId
  let assignee ← routeRequest db student category
  let deadline ← Sla.slaDeadlineFrom cfg.cal now category.slaHours
  let req := newRequest db.nextId student category assignee deadline data keys now
  .ok (req, filingRows db (.empty (db.nextId + 1) db.nextMessageId) req category assignee now)

/-! ## Loading -/

/-- `_assert_can_view`: row-level visibility. -/
def assertCanView (req : Request) (user : User) : Except Exc Unit :=
  if user.role = .student ∧ req.studentId ≠ user.id then .error (.http 403 "Ruxsat yo'q")
  else if user.role = .staff ∧ req.assignedTo ≠ some user.id then
    .error (.http 403 "Ruxsat yo'q")
  else .ok ()

/-- `get_request_for_user`: the committed row, if the caller may see it. No
lock is taken. -/
def getRequestForUser (requestId : Nat) (user : User) : Except Exc Work :=
  match db.getRequest requestId with
  | none => .error (.http 404 "Murojaat topilmadi")
  | some req => do
    assertCanView req user
    .ok (Work.load db req)

/-! ## Assigning -/

/-- `RequestAssign`. -/
structure RequestAssign where
  assigneeId : Nat
  facultyId : Option Nat := none
  departmentId : Option Nat := none
  comment : Option String := none
  deriving DecidableEq, Repr

/-- `text or default`. -/
def orDefault (text : Option String) (default : String) : String :=
  match text with
  | some t => if t.isEmpty then default else t
  | none => default

/-- The check every mutating operation makes on the read-only role. -/
def assertMayMutate (actor : User) : Except Exc Unit :=
  if actor.hasRole Role.readOnly then
    .error (.http 403 "Rahbariyat roli faqat ko'rish huquqiga ega")
  else .ok ()

/-- `assign_request`. -/
def assignRequest (w : Work) (actor : User) (data : RequestAssign) (now : Int) :
    Except Exc Work := do
  assertMayMutate actor
  assertOpen w.req
  let assignee ← resolveAssignee db data.assigneeId
  let req := { w.req with
    assignedTo := some assignee.id
    facultyId := data.facultyId.or w.req.facultyId
    departmentId := data.departmentId.or w.req.departmentId }
  .ok { w with
    req
    session := addHistory w.session req (some actor.id) (some req.status) req.status
      (some (orDefault data.comment ("Mas'ul xodim: " ++ assignee.fullName))) now }

/-! ## Changing the status -/

/-- The branch of `_apply_status` that leaves `returned`: the deadline moves
out by exactly the working time that was left at the pause. -/
def resumeClock (req : Request) (now : Int) : Except Exc Request :=
  match req.slaPausedAt with
  | none => .ok req
  | some pausedAt =>
    let remaining := Sla.workingTimeBetween cfg.cal pausedAt req.slaDeadline
    if remaining > 0 then do
      let deadline ← Sla.addWorkingTime cfg.cal now remaining
      -- A new deadline deserves its own warning and breach notices.
      .ok { req with
        slaDeadline := deadline
        slaWarnedAt := none
        slaBreachedAt := none
        slaPausedAt := none }
    else .ok { req with slaPausedAt := none }

/-- The `if`/`elif` of `_apply_status`: stop the clock or restart it. -/
def setClock (req : Request) (newStatus : RequestStatus) (now : Int) : Except Exc Request :=
  if newStatus = .returned ∧ req.slaPausedAt.isNone then
    .ok { req with slaPausedAt := some now }
  else if req.status = .returned ∧ newStatus ≠ .returned then resumeClock cfg req now
  else .ok req

/-- `_apply_status`: change status and keep the SLA clock consistent. -/
def applyStatus (req : Request) (newStatus : RequestStatus) (now : Int) : Except Exc Request := do
  let req ← setClock cfg req newStatus now
  .ok { req with
    status := newStatus
    closedAt := if RequestStatus.closed.contains newStatus then some now else req.closedAt }

/-- `_assert_handler`: staff act only on requests assigned to them. -/
def assertHandler (req : Request) (actor : User) : Except Exc Unit := do
  assertMayMutate actor
  if actor.role = .staff ∧ req.assignedTo ≠ some actor.id then
    .error (.http 403 "Bu sizning murojaatingiz emas")
  else .ok ()

/-- `RequestTransition`. -/
structure RequestTransition where
  status : String
  comment : Option String := none
  deriving DecidableEq, Repr

/-- What `transition_request` checks of the target before it looks at who
the actor is in relation to the request. -/
def checkTransition (req : Request) (actor : User) (newStatus : RequestStatus) :
    Except Exc Unit := do
  assertMayMutate actor
  if newStatus = .completed then
    .error (.http 400 "Murojaat faqat «Javob berish» orqali yakuniy javob bilan yopiladi")
  else if ¬ (allowedTransitions req.status).contains newStatus then
    .error (.http 400 ("'" ++ req.status.label ++ "' holatidan '" ++ newStatus.label
      ++ "' holatiga o'tib bo'lmaydi"))
  else assertHandler req actor

/-- A return must say why. -/
def checkComment (newStatus : RequestStatus) (comment : Option String) : Except Exc Unit :=
  if commentRequired.contains newStatus ∧ blank (comment.getD "") = true then
    .error (.http 422 "Qaytarish sababini izohda yozing")
  else .ok ()

/-- `new_status not in RequestStatus.ALL` is refused. -/
def parseStatus (text : String) : Except Exc RequestStatus :=
  match RequestStatus.ofCode text with
  | some s => .ok s
  | none => .error (.http 400 ("Noma'lum holat: " ++ text))

/-- `transition_request`. -/
def transitionRequest (w : Work) (actor : User) (data : RequestTransition) (now : Int) :
    Except Exc Work := do
  let newStatus ← parseStatus data.status
  checkTransition w.req actor newStatus
  checkComment newStatus data.comment
  let req ← applyStatus cfg w.req newStatus now
  .ok { w with
    req
    session := addHistory w.session req (some actor.id) (some w.req.status) newStatus
      data.comment now }

/-! ## Answering -/

/-- `assert_can_answer`. -/
def assertCanAnswer (req : Request) (actor : User) : Except Exc Unit := do
  assertHandler req actor
  assertOpen req

/-- `answer_request`: the only way a request reaches `completed`. -/
def answerRequest (w : Work) (actor : User) (text : String) (now : Int) : Except Exc Work := do
  assertCanAnswer w.req actor
  if blank text then .error (.http 422 "Javob matnini yozing")
  else
    let req ← applyStatus cfg
      { w.req with
        answerText := some (strip text)
        answeredAt := some now
        answeredBy := some actor.id }
      .completed now
    .ok { w with
      req
      session := addHistory w.session req (some actor.id) (some w.req.status) .completed
        (some "Yakuniy javob yuborildi") now }

/-! ## Resubmitting -/

/-- `resubmit_request`: the student sends a returned request back. -/
def resubmitRequest (w : Work) (student : User) (comment : Option String) (now : Int) :
    Except Exc Work :=
  if w.req.studentId ≠ student.id then .error (.http 403 "Ruxsat yo'q")
  else if w.req.status ≠ .returned then
    .error (.http 409 "Faqat qaytarilgan murojaatni qayta yuborish mumkin")
  else do
    -- It goes back to the same handler.
    let req ← applyStatus cfg w.req .inProgress now
    .ok { w with
      req
      session := addHistory w.session req (some student.id) (some .returned) .inProgress
        (some (orDefault comment "Talaba murojaatni to'ldirib qayta yubordi")) now }

end Royd
