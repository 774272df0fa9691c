/-
Royd.Services.Sweep — `services/sla_service.py`: the periodic pass over the
requests whose SLA clock runs.

A pass reads its candidates once and commits once. It is written here as
one commit per candidate, over the list read at the start; as nothing comes
between the commits, the tables end up the same.
-/
import Royd.Services.Requests
import Royd.Services.Events

namespace Royd

variable (cfg : Settings) (db : Db)

/-- `_BATCH`. -/
def sweepBatch : Nat := 200

/-- `_faculty_registrator_ids`: falls back to every active registrator. -/
def facultyRegistratorIds (facultyId : Option Nat) : List Nat :=
  let base := db.users.filter fun u => u.role == .registrator && u.isActive
  let bound := base.filter fun u =>
    facultyId.isSome && u.employeeProfile.any (·.facultyId == facultyId)
  if bound.isEmpty then base.map (·.id) else bound.map (·.id)

/-- `_department_head_id`. -/
def departmentHeadId (departmentId : Option Nat) : Option Nat :=
  departmentId.bind fun id => (db.departments.find? (·.id == id)).bind (·.headUserId)

/-- `recipients.add(...)`; a set is a list without repetitions. -/
def addRecipient (recipients : List Nat) : Option Nat → List Nat
  | none => recipients
  | some id => if recipients.contains id then recipients else recipients ++ [id]

/-- Who `_notify` tells. -/
def sweepRecipients (req : Request) (breached : Bool) : List Nat :=
  let recipients := if breached then
      addRecipient (facultyRegistratorIds db req.facultyId) (departmentHeadId db req.departmentId)
    else []
  addRecipient recipients req.assignedTo

/-- The body of a notice. -/
def sweepBody (req : Request) (breached : Bool) (now : Int) : String :=
  if breached then
    "'" ++ req.title ++ "' murojaati muddatidan " ++ toString ((now - req.slaDeadline) / Sla.hours 1)
      ++ " soat o'tdi."
  else "'" ++ req.title ++ "' murojaati muddati tez orada tugaydi."

/-- The notifications and emails of a notice. The email's last line carries
the instant where the source formats a date. -/
def sweepTell (s : Session) (req : Request) (breached : Bool) (now : Int) : Session :=
  let title := (if breached then "SLA buzildi: " else "SLA muddati yaqin: ") ++ req.trackingNo
  let body := sweepBody req breached now
  let recipients := sweepRecipients db req breached
  let s := recipients.foldl (fun s id =>
    createNotification s id .system title body req (some breached)) s
  let emails := (db.users.filter fun u => recipients.contains u.id).filterMap (·.email)
  (emails.filter (¬ ·.isEmpty)).foldl (fun s address => enqueueEmail s
    { recipient := address
      subject := title
      lines := [body, "Muddat: " ++ toString req.slaDeadline]
      link := requestLink cfg req.id "/registrator/requests" }) s

/-- `_notify`: tells the recipients and leaves a marker in the history. -/
def sweepNotify (s : Session) (req : Request) (breached : Bool) (now : Int) : Session :=
  addHistory (sweepTell cfg db s req breached now) req none (some req.status) req.status
    (some ((if breached then "[sla-breach]" else "[sla-warning]") ++ " "
      ++ sweepBody req breached now)) now

/-- The `where` of the sweep's query. -/
def needsNotice (now : Int) (req : Request) : Bool :=
  RequestStatus.slaRunning.contains req.status && req.slaBreachedAt.isNone
    && (req.slaDeadline < now
      || (req.slaDeadline < now + Sla.hours cfg.slaWarningHours && req.slaWarnedAt.isNone))

/-- The requests one pass handles. -/
def sweepCandidates (now : Int) : List Request :=
  ((db.requests.filter (needsNotice cfg now)).mergeSort
    fun a b => a.slaDeadline ≤ b.slaDeadline).take sweepBatch

/-- The body of the sweep's loop. -/
def sweepOne (req : Request) (now : Int) : Work :=
  let breached := decide (req.slaDeadline < now)
  { loaded := req
    req := if breached then
        { req with slaBreachedAt := some now, slaWarnedAt := req.slaWarnedAt.or (some now) }
      else { req with slaWarnedAt := some now }
    session := sweepNotify cfg db db.begin req breached now }

/-- `sweep_sla_deadlines`. `won` is the answer of `claim`, asked unless
`use_lock` is off. -/
def sweepSlaDeadlines (useLock won : Bool) (now : Int) : Db :=
  if useLock && !won then db
  else (sweepCandidates cfg db now).foldl (fun db req => db.finish (sweepOne cfg db req now)) db

end Royd
