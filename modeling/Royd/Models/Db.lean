/-
Royd.Models.Db — the remaining tables, the database as the services see
it, and the session a handler writes through.

`Session` is SQLAlchemy's unit of work for the rows a handler inserts:
`db.add(...)` followed by `db.flush()` draws the row's id and keeps the row
pending, and nothing reaches the tables before `Db.commit`. A handler that
raises never commits, so its session is simply dropped (`get_db`).

One counter stands for the id sequences of all tables but `messages`, which
has its own. All that is used of an id is that it is larger than every id its
counter handed out before it.
-/
import Royd.Models.People
import Royd.Models.Request
import Royd.Sla.Calendar

namespace Royd

/-- The `settings` values the modelled code reads. -/
structure Settings where
  cal : Sla.SlaCalendar := .default
  slaWarningHours : Nat := 24
  webhookUrl : String := ""
  publicBaseUrl : String := "http://localhost:8080"
  maxUploadMb : Nat := 20
  jwtAccessTtlMinutes : Nat := 15
  jwtRefreshTtlDays : Nat := 7
  sessionIdleTimeoutMinutes : Nat := 30
  loginMaxAttemptsPerUser : Nat := 5
  loginMaxAttemptsPerIp : Nat := 20
  loginWindowSeconds : Nat := 900
  loginLockoutAttempts : Nat := 10
  deriving DecidableEq, Repr

/-! ## Notifications, audit log, outbox -/

/-- `NotificationType`. -/
inductive NotificationType where
  | requestCreated
  | requestAssigned
  | requestStatus
  | requestMessage
  | system
  deriving DecidableEq, Repr

/-- `notifications`. The last three fields are its payload. -/
structure Notification where
  id : Nat
  userId : Nat
  type : NotificationType
  title : String
  body : String
  requestId : Nat
  trackingNo : String
  slaBreached : Option Bool := none
  deriving DecidableEq, Repr

/-- A value in an audit entry's `old_value` or `new_value`. -/
inductive AuditValue where
  | null
  | flag (b : Bool)
  | num (n : Nat)
  | text (s : String)
  | texts (ss : List String)
  deriving DecidableEq, Repr

/-- `audit_logs`. -/
structure AuditLog where
  id : Nat
  userId : Option Nat
  action : String
  entityType : String
  entityId : Option Nat
  oldValue : List (String × AuditValue) := []
  newValue : List (String × AuditValue) := []
  deriving DecidableEq, Repr

/-- An email as it is queued: `render` turns title, lines and link into the
text and HTML bodies. -/
structure Email where
  recipient : String
  subject : String
  lines : List String
  link : String
  deriving DecidableEq, Repr

/-- A file as the `answer` block of an event lists it. -/
structure AnswerFileEvent where
  id : Nat
  fileName : String
  fileSize : Nat
  mimeType : String
  deriving DecidableEq, Repr

/-- `_answer_event`. -/
structure AnswerEvent where
  text : Option String
  description : Option String
  answeredAt : Option Int
  answeredByName : Option String
  files : List AnswerFileEvent
  deriving DecidableEq, Repr

/-- The event names with the `**extra` fields each one carries. -/
inductive EventBody where
  | requestCreated
  | statusChanged (oldStatus : RequestStatus) (comment : Option String) (answer : Option AnswerEvent)
  | messageCreated (id : Nat) (content : String) (senderName : String) (senderRole : Role)
      (fromStudent : Bool)
  | fileAdded (id : Nat) (fileName : String) (fileSize : Nat) (mimeType : String)
      (fromStudent : Bool) (isAnswer : Bool)
  deriving DecidableEq, Repr

/-- The webhook's `data`, with the event it belongs to. -/
structure Webhook where
  requestId : Nat
  trackingNo : String
  clientRef : Option String
  studentHemisId : Option String
  status : RequestStatus
  statusLabel : String
  slaDeadline : Int
  body : EventBody
  deriving DecidableEq, Repr

/-- `outbox.kind` with its payload. -/
inductive OutboxPayload where
  | email (email : Email)
  | webhook (data : Webhook)
  deriving DecidableEq, Repr

/-- `outbox`, as a row is queued. -/
structure OutboxMessage where
  id : Nat
  payload : OutboxPayload
  deriving DecidableEq, Repr

/-! ## The session -/

/-- A row waiting for the commit. -/
inductive PendingRow where
  | history (row : RequestHistory)
  | file (row : RequestFile)
  | message (row : Message)
  | notification (row : Notification)
  | audit (row : AuditLog)
  | outbox (row : OutboxMessage)
  deriving DecidableEq, Repr

/-- The id the row was given, if it is no message. -/
@[reducible] def PendingRow.id? : PendingRow → Option Nat
  | .history row => some row.id
  | .file row => some row.id
  | .message _ => none
  | .notification row => some row.id
  | .audit row => some row.id
  | .outbox row => some row.id

/-- The id a message was given. -/
@[reducible] def PendingRow.messageId? : PendingRow → Option Nat
  | .message row => some row.id
  | _ => none

/-- The rows a handler has added and flushed, in the order it did so: the
sequences gave them consecutive ids from `start` and `messageStart` on. -/
structure Session where
  start : Nat
  messageStart : Nat
  rows : List PendingRow
  consecutive : rows.filterMap PendingRow.id? =
    List.range' start (rows.filterMap PendingRow.id?).length
  messagesConsecutive : rows.filterMap PendingRow.messageId? =
    List.range' messageStart (rows.filterMap PendingRow.messageId?).length
  deriving DecidableEq, Repr

namespace Session

/-- A session with no rows yet, whose first row will get the id `start`, and
its first message the id `messageStart`. -/
def empty (start : Nat) (messageStart : Nat := 1) : Session := ⟨start, messageStart, [], rfl, rfl⟩

/-- The next id the sequences of the other tables will give. -/
def nextId (s : Session) : Nat := s.start + (s.rows.filterMap PendingRow.id?).length

/-- The next id the sequence of `messages` will give. -/
def nextMessageId (s : Session) : Nat :=
  s.messageStart + (s.rows.filterMap PendingRow.messageId?).length

/-- Consecutive numbers, and the next one. -/
theorem range'_snoc {xs : List Nat} {start : Nat} (h : xs = List.range' start xs.length) :
    xs ++ [start + xs.length] = List.range' start (xs ++ [start + xs.length]).length := by
  rw [List.length_append, List.length_singleton, List.range'_concat, ← h, Nat.one_mul]

/-- A row with an id of its own table is no message. -/
theorem messageId?_eq_none {row : PendingRow} {n : Nat} (h : row.id? = some n) :
    row.messageId? = none := by
  cases row with
  | message row => cases h
  | _ => rfl

/-- `db.add(row); await db.flush()`. -/
def add (s : Session) (row : Nat → PendingRow)
    (hid : ∀ n, (row n).id? = some n := by intro _; rfl) : Session where
  start := s.start
  messageStart := s.messageStart
  rows := s.rows ++ [row s.nextId]
  consecutive := by
    have hrow : [row s.nextId].filterMap PendingRow.id? = [s.nextId] := by simp [hid]
    rw [List.filterMap_append, hrow]
    exact range'_snoc s.consecutive
  messagesConsecutive := by
    have hrow : [row s.nextId].filterMap PendingRow.messageId? = [] := by
      simp [messageId?_eq_none (hid s.nextId)]
    rw [List.filterMap_append, hrow, List.append_nil]
    exact s.messagesConsecutive

/-- The same of a message. -/
def addMessage (s : Session) (row : Nat → Message)
    (hid : ∀ n, (row n).id = n := by intro _; rfl) : Session where
  start := s.start
  messageStart := s.messageStart
  rows := s.rows ++ [.message (row s.nextMessageId)]
  consecutive := by
    rw [List.filterMap_append, List.filterMap_cons_none rfl, List.filterMap_nil, List.append_nil]
    exact s.consecutive
  messagesConsecutive := by
    have hrow : [PendingRow.message (row s.nextMessageId)].filterMap PendingRow.messageId? =
        [s.nextMessageId] := by simp [hid]
    rw [List.filterMap_append, hrow]
    exact range'_snoc s.messagesConsecutive

def history (s : Session) : List RequestHistory :=
  s.rows.filterMap fun | .history row => some row | _ => none

def files (s : Session) : List RequestFile :=
  s.rows.filterMap fun | .file row => some row | _ => none

def messages (s : Session) : List Message :=
  s.rows.filterMap fun | .message row => some row | _ => none

def notifications (s : Session) : List Notification :=
  s.rows.filterMap fun | .notification row => some row | _ => none

def auditLogs (s : Session) : List AuditLog :=
  s.rows.filterMap fun | .audit row => some row | _ => none

def outbox (s : Session) : List OutboxMessage :=
  s.rows.filterMap fun | .outbox row => some row | _ => none

end Session

/-! ## The database -/

/-- The tables the request services read and write. -/
structure Db where
  nextId : Nat := 1
  nextMessageId : Nat := 1
  users : List User := []
  departments : List Department := []
  faculties : List Faculty := []
  studentGroups : List StudentGroup := []
  categories : List RequestCategory := []
  autoReplyFiles : List AutoReplyFile := []
  requests : List Request := []
  history : List RequestHistory := []
  files : List RequestFile := []
  messages : List Message := []
  notifications : List Notification := []
  auditLogs : List AuditLog := []
  outbox : List OutboxMessage := []
  deriving DecidableEq, Repr

namespace Db

/-- `db.get(User, id)`. -/
def getUser (db : Db) (id : Nat) : Option User := db.users.find? (·.id == id)

/-- `db.get(RequestCategory, id)`. -/
def getCategory (db : Db) (id : Nat) : Option RequestCategory :=
  db.categories.find? (·.id == id)

/-- `select(Request).where(Request.id == id)`. -/
def getRequest (db : Db) (id : Nat) : Option Request := db.requests.find? (·.id == id)

/-- `req.history`, in the order the rows were inserted. -/
def historyOf (db : Db) (requestId : Nat) : List RequestHistory :=
  db.history.filter (·.requestId == requestId)

/-- `req.files`. -/
def filesOf (db : Db) (requestId : Nat) : List RequestFile :=
  db.files.filter (·.requestId == requestId)

/-- `req.messages`. -/
def messagesOf (db : Db) (requestId : Nat) : List Message :=
  db.messages.filter (·.requestId == requestId)

/-- A session of a handler that starts now. -/
def begin (db : Db) : Session := .empty db.nextId db.nextMessageId

/-- The rows a session added reach their tables. -/
def commit (db : Db) (s : Session) : Db :=
  { db with
    nextId := max db.nextId s.nextId
    nextMessageId := max db.nextMessageId s.nextMessageId
    history := db.history ++ s.history
    files := db.files ++ s.files
    messages := db.messages ++ s.messages
    notifications := db.notifications ++ s.notifications
    auditLogs := db.auditLogs ++ s.auditLogs
    outbox := db.outbox ++ s.outbox }

/-- The `UPDATE requests ... WHERE id = :id` of a flush: only the columns the
handler changed are written, onto whatever the row holds by then. -/
def updateRequest (db : Db) (loaded left : Request) : Db :=
  { db with requests := db.requests.map fun row =>
      if row.id = loaded.id then row.write loaded left else row }

/-- `UPDATE request_categories ... WHERE id = :id`. -/
def putCategory (db : Db) (cat : RequestCategory) : Db :=
  { db with categories := db.categories.map fun c => if c.id = cat.id then cat else c }

end Db

/-! ## A unit of work -/

/-- What a handler has done to one request so far: the row as it loaded it,
the row as it leaves it, and the rows it added. -/
structure Work where
  loaded : Request
  req : Request
  session : Session
  deriving DecidableEq, Repr

/-- A handler that has just loaded `req`. -/
def Work.load (db : Db) (req : Request) : Work := ⟨req, req, db.begin⟩

/-- `db.commit()`. -/
def Db.finish (db : Db) (w : Work) : Db := (db.commit w.session).updateRequest w.loaded w.req

end Royd
