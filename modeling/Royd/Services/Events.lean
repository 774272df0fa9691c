/-
Royd.Services.Events — what a request operation tells the outside:
`services/events.py`, the enqueueing half of `services/outbox_service.py`,
`services/notification_service.py`, `services/audit_service.py` and the
helpers of `api/v1/requests.py` that call them.

Each of these only adds rows to the caller's session, so whatever they
announce is committed together with the change that caused it.
-/
import Royd.Models.Db

namespace Royd

variable (cfg : Settings) (db : Db)

/-- `log_action`. -/
def logAction (s : Session) (userId : Option Nat) (action entityType : String) (entityId : Nat)
    (oldValue newValue : List (String × AuditValue)) : Session :=
  s.add fun id => .audit
    { id, userId, action, entityType, entityId := some entityId, oldValue, newValue }

/-- `create_notification` about a request. -/
def createNotification (s : Session) (userId : Nat) (type : NotificationType)
    (title body : String) (req : Request) (slaBreached : Option Bool) : Session :=
  s.add fun id => .notification
    { id, userId, type, title, body, requestId := req.id, trackingNo := req.trackingNo, slaBreached }

/-- `enqueue_email`. -/
def enqueueEmail (s : Session) (email : Email) : Session :=
  s.add fun id => .outbox { id, payload := .email email }

/-- `enqueue_webhook`: nothing is queued while webhooks are off. -/
def enqueueWebhook (s : Session) (data : Webhook) : Session :=
  if cfg.webhookUrl.isEmpty then s
  else s.add fun id => .outbox { id, payload := .webhook data }

/-- `request_link`. -/
def requestLink (requestId : Nat) (roleBase : String) : String :=
  let base := String.ofList (cfg.publicBaseUrl.toList.reverse.dropWhile (· == '/')).reverse
  base ++ roleBase ++ "/" ++ toString requestId

/-- `events.publish`. -/
def publish (s : Session) (req : Request) (body : EventBody) : Session :=
  let hemisId := (db.getUser req.studentId).bind fun u =>
    u.studentProfile.bind (·.externalStudentId)
  enqueueWebhook cfg s
    { requestId := req.id
      trackingNo := req.trackingNo
      clientRef := req.clientRef
      studentHemisId := hemisId
      status := req.status
      statusLabel := req.status.label
      slaDeadline := req.slaDeadline
      body }

/-- `_notify_user`: an in-app notification plus, when the user has an
address, an email. -/
def notifyUser (s : Session) (userId : Nat) (type : NotificationType) (title : String)
    (lines : List String) (req : Request) (linkBase : String) : Session :=
  let body := String.ofList ((" ".intercalate lines).toList.take 500)
  let s := createNotification s userId type title body req none
  match (db.getUser userId).bind (·.email) with
  | some address =>
    if address.isEmpty then s
    else enqueueEmail s
      { recipient := address, subject := title, lines, link := requestLink cfg req.id linkBase }
  | none => s

/-- `_notify_assigned`. -/
def notifyAssigned (s : Session) (req : Request) (assigneeId : Nat) : Session :=
  match db.getUser assigneeId with
  | none => s
  | some assignee =>
    let base := if assignee.hasRole [.staff] then "/staff/requests" else "/registrator/requests"
    notifyUser cfg db s assignee.id .requestAssigned ("Yangi murojaat: " ++ req.trackingNo)
      ["Sizga '" ++ req.title ++ "' murojaati biriktirildi."] req base

/-- `_answer_lines`: the answer as the student's notification spells it out. -/
def answerLines (req : Request) (lead : String) : List String :=
  let description := match req.answerDescription with
    | some d => if d.isEmpty then [] else [d]
    | none => []
  [lead] ++ description ++ [req.answerText.getD ""]

/-- `_answer_event`. -/
def answerEvent (req : Request) (answeredByName : Option String) (files : List RequestFile) :
    AnswerEvent where
  text := req.answerText
  description := req.answerDescription
  answeredAt := req.answeredAt
  answeredByName := answeredByName
  files := files.map fun f =>
    { id := f.id, fileName := f.fileName, fileSize := f.fileSize, mimeType := f.mimeType }

/-- `_publish_file_added`. -/
def publishFileAdded (s : Session) (req : Request) (record : RequestFile) : Session :=
  publish cfg db s req
    (.fileAdded record.id record.fileName record.fileSize record.mimeType
      (record.uploadedBy == req.studentId) record.isAnswer)

end Royd
