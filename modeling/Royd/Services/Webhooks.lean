/-
Royd.Services.Webhooks — which rows and webhooks a session is about to
commit, exactly.

`Leaves` is the account of a session: its history entries, files and
messages, and the webhooks it queued, each in its order. It is what the rest
of the development knows of a session; notifications, emails and audit
entries are not in it.
-/
import Royd.Services.EventsTheorems
import Royd.Services.Requests

namespace Royd

/-! ## Webhooks -/

/-- The webhook of an event about `req`. -/
def webhookFor (db : Db) (req : Request) (body : EventBody) : Webhook where
  requestId := req.id
  trackingNo := req.trackingNo
  clientRef := req.clientRef
  studentHemisId := (db.getUser req.studentId).bind fun u =>
    u.studentProfile.bind (·.externalStudentId)
  status := req.status
  statusLabel := req.status.label
  slaDeadline := req.slaDeadline
  body := body

/-- What `publish` queues. -/
def published (cfg : Settings) (db : Db) (req : Request) (body : EventBody) : List Webhook :=
  if cfg.webhookUrl.isEmpty then [] else [webhookFor db req body]

/-- `kind == "webhook"`. -/
def OutboxMessage.webhook? (m : OutboxMessage) : Option Webhook :=
  match m.payload with
  | .webhook data => some data
  | .email _ => none

/-- The webhooks of an outbox, in its order. -/
def webhooksIn (outbox : List OutboxMessage) : List Webhook := outbox.filterMap (·.webhook?)

/-- The body of the event that announces a file. -/
def fileBody (req : Request) (f : RequestFile) : EventBody :=
  .fileAdded f.id f.fileName f.fileSize f.mimeType (f.uploadedBy == req.studentId) f.isAnswer

/-- The body of the event that announces a message. -/
def messageBody (req : Request) (sender : User) (m : Message) : EventBody :=
  .messageCreated m.id m.content sender.fullName sender.role (sender.id == req.studentId)

@[simp] theorem webhooksIn_append (xs ys : List OutboxMessage) :
    webhooksIn (xs ++ ys) = webhooksIn xs ++ webhooksIn ys := List.filterMap_append

/-! ## The account of a session -/

/-- The session's history entries, files, messages and webhooks. -/
structure Session.Leaves (s : Session) (hs : List RequestHistory) (fs : List RequestFile)
    (ms : List Message) (ws : List Webhook) : Prop where
  history : s.history = hs
  files : s.files = fs
  messages : s.messages = ms
  webhooks : webhooksIn s.outbox = ws

namespace Session.Leaves

variable {s : Session} {hs : List RequestHistory} {fs : List RequestFile} {ms : List Message}
  {ws : List Webhook}

theorem empty (start messageStart : Nat) : (Session.empty start messageStart).Leaves [] [] [] [] :=
  ⟨rfl, rfl, rfl, rfl⟩

theorem addHistory (h : s.Leaves hs fs ms ws) (req : Request) (changedBy : Option Nat)
    (oldStatus : Option RequestStatus) (newStatus : RequestStatus) (comment : Option String)
    (now : Int) :
    (addHistory s req changedBy oldStatus newStatus comment now).Leaves
      (hs ++ [{ id := s.nextId, requestId := req.id, changedBy, oldStatus, newStatus, comment,
                createdAt := now }]) fs ms ws where
  history := by rw [← h.history]; simp [Royd.addHistory, Session.history]
  files := by rw [← h.files]; simp [Royd.addHistory, Session.files]
  messages := by rw [← h.messages]; simp [Royd.addHistory, Session.messages]
  webhooks := by rw [← h.webhooks]; simp [Royd.addHistory, Session.outbox]

theorem addFile (h : s.Leaves hs fs ms ws) (row : Nat → RequestFile)
    (hid : ∀ n, (PendingRow.file (row n)).id? = some n) :
    (s.add (fun id => .file (row id)) hid).Leaves hs (fs ++ [row s.nextId]) ms ws where
  history := by rw [← h.history]; simp [Session.history]
  files := by rw [← h.files]; simp [Session.files]
  messages := by rw [← h.messages]; simp [Session.messages]
  webhooks := by rw [← h.webhooks]; simp [Session.outbox]

theorem addMessage (h : s.Leaves hs fs ms ws) (row : Nat → Message)
    (hid : ∀ n, (row n).id = n) :
    (s.addMessage row hid).Leaves hs fs (ms ++ [row s.nextMessageId]) ws where
  history := by rw [← h.history]; simp [Session.history]
  files := by rw [← h.files]; simp [Session.files]
  messages := by rw [← h.messages]; simp [Session.messages]
  webhooks := by rw [← h.webhooks]; simp [Session.outbox]

theorem logAction (h : s.Leaves hs fs ms ws) (userId : Option Nat) (action entityType : String)
    (entityId : Nat) (oldValue newValue : List (String × AuditValue)) :
    (logAction s userId action entityType entityId oldValue newValue).Leaves hs fs ms ws where
  history := by rw [← h.history]; simp [Royd.logAction, Session.history]
  files := by rw [← h.files]; simp [Royd.logAction, Session.files]
  messages := by rw [← h.messages]; simp [Royd.logAction, Session.messages]
  webhooks := by rw [← h.webhooks]; simp [Royd.logAction, Session.outbox]

theorem createNotification (h : s.Leaves hs fs ms ws) (userId : Nat) (type : NotificationType)
    (title body : String) (req : Request) (slaBreached : Option Bool) :
    (createNotification s userId type title body req slaBreached).Leaves hs fs ms ws where
  history := by rw [← h.history]; simp [Royd.createNotification, Session.history]
  files := by rw [← h.files]; simp [Royd.createNotification, Session.files]
  messages := by rw [← h.messages]; simp [Royd.createNotification, Session.messages]
  webhooks := by rw [← h.webhooks]; simp [Royd.createNotification, Session.outbox]

theorem enqueueEmail (h : s.Leaves hs fs ms ws) (email : Email) :
    (enqueueEmail s email).Leaves hs fs ms ws where
  history := by rw [← h.history]; simp [Royd.enqueueEmail, Session.history]
  files := by rw [← h.files]; simp [Royd.enqueueEmail, Session.files]
  messages := by rw [← h.messages]; simp [Royd.enqueueEmail, Session.messages]
  webhooks := by
    rw [← h.webhooks]
    simp [Royd.enqueueEmail, Session.outbox, webhooksIn, OutboxMessage.webhook?]

theorem publish (h : s.Leaves hs fs ms ws) (cfg : Settings) (db : Db) (req : Request)
    (body : EventBody) :
    (publish cfg db s req body).Leaves hs fs ms (ws ++ published cfg db req body) := by
  obtain ⟨-, -, hhistory, hfiles, hmessages⟩ := publish_tables cfg db s req body
  refine ⟨hhistory.trans h.history, hfiles.trans h.files, hmessages.trans h.messages, ?_⟩
  rw [← h.webhooks]
  unfold Royd.publish enqueueWebhook published
  split
  · simp
  · simp [Session.outbox, webhooksIn, OutboxMessage.webhook?, webhookFor]

/-- The first webhook of a session. -/
theorem publishFirst (h : s.Leaves hs fs ms []) (cfg : Settings) (db : Db) (req : Request)
    (body : EventBody) :
    (Royd.publish cfg db s req body).Leaves hs fs ms (published cfg db req body) :=
  h.publish cfg db req body

/-- A loop that leaves the account alone for each item leaves it alone. -/
theorem foldl {α : Type} {f : Session → α → Session}
    (hf : ∀ s a, s.Leaves hs fs ms ws → (f s a).Leaves hs fs ms ws) (h : s.Leaves hs fs ms ws)
    (xs : List α) : (xs.foldl f s).Leaves hs fs ms ws := by
  induction xs generalizing s with
  | nil => exact h
  | cons x xs ih => exact ih (hf s x h)

theorem notifyUser (h : s.Leaves hs fs ms ws) (cfg : Settings) (db : Db) (userId : Nat)
    (type : NotificationType) (title : String) (lines : List String) (req : Request)
    (linkBase : String) :
    (notifyUser cfg db s userId type title lines req linkBase).Leaves hs fs ms ws := by
  unfold Royd.notifyUser
  have hnotified := h.createNotification userId type title
    (String.ofList ((" ".intercalate lines).toList.take 500)) req none
  dsimp only
  split
  · split
    · exact hnotified
    · exact hnotified.enqueueEmail _
  · exact hnotified

theorem notifyAssigned (h : s.Leaves hs fs ms ws) (cfg : Settings) (db : Db) (req : Request)
    (assigneeId : Nat) : (notifyAssigned cfg db s req assigneeId).Leaves hs fs ms ws := by
  unfold Royd.notifyAssigned
  split
  · exact h
  · exact h.notifyUser cfg db _ _ _ _ _ _

/-- A loop that announces files queues one webhook for each. -/
theorem publishFiles (h : s.Leaves hs fs ms ws) (cfg : Settings) (db : Db) (req : Request)
    (files : List RequestFile) :
    (files.foldl (fun s f => publishFileAdded cfg db s req f) s).Leaves hs fs ms
      (ws ++ files.flatMap fun f => published cfg db req (fileBody req f)) := by
  induction files generalizing s ws with
  | nil => simpa using h
  | cons f files ih =>
    have hfirst := ih (h.publish cfg db req (fileBody req f))
    rw [List.append_assoc] at hfirst
    exact hfirst

end Session.Leaves

end Royd
