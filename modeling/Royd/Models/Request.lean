/-
Royd.Models.Request — `models/request.py`: the request row and the three
tables that hang off it. Instants are microseconds, as in `Sla.Calendar`.
-/
import Royd.Models.Category

namespace Royd

/-- Workflow states. `accepted` and `rejected` belong to the earlier triage
flow: nothing moves a request into them any more, but they stay valid. -/
inductive RequestStatus where
  | new
  | accepted
  | inProgress
  | completed
  | rejected
  | returned
  deriving DecidableEq, Repr

namespace RequestStatus

/-- The column value. -/
def code : RequestStatus → String
  | .new => "new"
  | .accepted => "accepted"
  | .inProgress => "in_progress"
  | .completed => "completed"
  | .rejected => "rejected"
  | .returned => "returned"

/-- `RequestStatus.ALL`. -/
def all : List RequestStatus := [.new, .accepted, .inProgress, .completed, .rejected, .returned]

/-- `RequestStatus.OPEN`. -/
def opens : List RequestStatus := [.new, .accepted, .inProgress, .returned]

/-- `RequestStatus.CLOSED`. -/
def closed : List RequestStatus := [.completed, .rejected]

/-- `RequestStatus.SLA_RUNNING`: statuses on which the SLA clock runs. -/
def slaRunning : List RequestStatus := [.new, .accepted, .inProgress]

/-- The status a text sent by a client names, if any. -/
def ofCode (text : String) : Option RequestStatus := all.find? (fun s => s.code == text)

/-- `status_label`. -/
def label : RequestStatus → String
  | .new => "Yangi"
  | .accepted => "Qabul qilindi"
  | .inProgress => "Jarayonda"
  | .completed => "Javob berildi"
  | .rejected => "Rad etildi"
  | .returned => "Qaytarildi"

end RequestStatus

/-- `requests`. -/
structure Request where
  id : Nat
  trackingNo : String
  studentId : Nat
  categoryId : Nat
  title : String
  description : String
  status : RequestStatus := .new
  priority : Priority := .normal
  assignedTo : Option Nat := none
  facultyId : Option Nat := none
  departmentId : Option Nat := none
  slaDeadline : Int
  closedAt : Option Int := none
  slaWarnedAt : Option Int := none
  slaBreachedAt : Option Int := none
  slaPausedAt : Option Int := none
  clientRef : Option String := none
  apiClientId : Option Nat := none
  answerText : Option String := none
  answerDescription : Option String := none
  answeredAt : Option Int := none
  answeredBy : Option Nat := none
  createdAt : Int
  deriving DecidableEq, Repr

/-- A column after an `UPDATE` that writes it only when it was changed. -/
def column {α : Type} [DecidableEq α] (loaded left stored : α) : α :=
  if left = loaded then stored else left

@[simp] theorem column_unchanged {α : Type} [DecidableEq α] (loaded stored : α) :
    column loaded loaded stored = stored := if_pos rfl

@[simp] theorem column_fresh {α : Type} [DecidableEq α] (loaded left : α) :
    column loaded left loaded = left := by
  unfold column
  split
  · exact Eq.symm ‹left = loaded›
  · rfl

/-- The stored row after the changes from `loaded` to `left` are written to
it. `id`, `trackingNo` and what else a filing fixes is never assigned to. -/
def Request.write (stored loaded left : Request) : Request :=
  { stored with
    status := column loaded.status left.status stored.status
    assignedTo := column loaded.assignedTo left.assignedTo stored.assignedTo
    facultyId := column loaded.facultyId left.facultyId stored.facultyId
    departmentId := column loaded.departmentId left.departmentId stored.departmentId
    slaDeadline := column loaded.slaDeadline left.slaDeadline stored.slaDeadline
    closedAt := column loaded.closedAt left.closedAt stored.closedAt
    slaWarnedAt := column loaded.slaWarnedAt left.slaWarnedAt stored.slaWarnedAt
    slaBreachedAt := column loaded.slaBreachedAt left.slaBreachedAt stored.slaBreachedAt
    slaPausedAt := column loaded.slaPausedAt left.slaPausedAt stored.slaPausedAt
    answerText := column loaded.answerText left.answerText stored.answerText
    answeredAt := column loaded.answeredAt left.answeredAt stored.answeredAt
    answeredBy := column loaded.answeredBy left.answeredBy stored.answeredBy }

@[simp] theorem Request.write_id (stored loaded left : Request) :
    (stored.write loaded left).id = stored.id := rfl

/-- Nothing was changed, so nothing is written. -/
@[simp] theorem Request.write_unchanged (stored loaded : Request) :
    stored.write loaded loaded = stored := by simp [Request.write]

/-- `request_history`. -/
structure RequestHistory where
  id : Nat
  requestId : Nat
  changedBy : Option Nat
  oldStatus : Option RequestStatus
  newStatus : RequestStatus
  comment : Option String
  createdAt : Int
  deriving DecidableEq, Repr

/-- `request_files`. -/
structure RequestFile where
  id : Nat
  requestId : Nat
  uploadedBy : Nat
  filePath : String
  fileName : String
  fileSize : Nat
  mimeType : String
  isAnswer : Bool := false
  createdAt : Int
  deriving DecidableEq, Repr

/-- `messages`. -/
structure Message where
  id : Nat
  requestId : Nat
  senderId : Nat
  content : String
  isInternal : Bool := false
  createdAt : Int
  deriving DecidableEq, Repr

end Royd
