/-
Royd.Lifecycle.AuditTrail — the audit log tells the whole story.

An auditor reads the entries of a request in the order they were written
(`Account.read`): the filing opens the account, an assignment names the
handler, a move must start from the status the account has reached, and an
upload names its file; anything else is an entry out of place. Read so, the
entries of every request give its number, title, status, handler and the files
that people have uploaded to it.

Sessions are followed by `Unlogged` (no entry, no file) and the simp lemmas
for the two functions that do add one; `Work.Accounts` is what a handler's
entries say.
-/
import Royd.Directory.Owners
import Royd.Lifecycle.Acts
import Royd.Lifecycle.States

namespace Royd

open Api

/-! ## Entries -/

/-- An entry but for its id. -/
structure AuditContent where
  userId : Option Nat
  action : String
  entityType : String
  entityId : Option Nat
  oldValue : List (String × AuditValue)
  newValue : List (String × AuditValue)
  deriving DecidableEq, Repr

def AuditLog.content (a : AuditLog) : AuditContent where
  userId := a.userId
  action := a.action
  entityType := a.entityType
  entityId := a.entityId
  oldValue := a.oldValue
  newValue := a.newValue

/-- A text among the values. -/
def textAt (values : List (String × AuditValue)) (key : String) : Option String :=
  match values.lookup key with
  | some (.text s) => some s
  | _ => none

/-- A number among the values. -/
def numAt (values : List (String × AuditValue)) (key : String) : Option Nat :=
  match values.lookup key with
  | some (.num n) => some n
  | _ => none

/-- A flag among the values. -/
def flagAt (values : List (String × AuditValue)) (key : String) : Option Bool :=
  match values.lookup key with
  | some (.flag b) => some b
  | _ => none

/-! ## Reading -/

/-- What an auditor knows of a request. -/
structure Account where
  trackingNo : String
  title : String
  status : RequestStatus
  assignee : Option Nat
  uploads : List String
  deriving DecidableEq, Repr

/-- The account a filing opens. -/
def AuditContent.opened (e : AuditContent) : Option Account := do
  let trackingNo ← textAt e.newValue "tracking_no"
  let title ← textAt e.newValue "title"
  let answered ← flagAt e.newValue "auto_answered"
  some
    { trackingNo, title
      status := if answered then .completed else .inProgress
      assignee := numAt e.newValue "assigned_to"
      uploads := [] }

/-- The account after a move, which starts where the account stands. -/
def Account.move (a : Account) (e : AuditContent) : Option Account :=
  if textAt e.oldValue "status" = some a.status.code then
    ((textAt e.newValue "status").bind RequestStatus.ofCode).map fun s => { a with status := s }
  else none

/-- The account after one more entry. There is none before the filing, and
none after an entry out of place. -/
def Account.read : Option Account → AuditContent → Option Account
  | none, e => if e.action = "request.create" then e.opened else none
  | some a, e =>
    if e.action = "request.assign" then
      (numAt e.newValue "assignee_id").map fun n => { a with assignee := some n }
    else if e.action = "request.file_upload" then
      (textAt e.newValue "file_name").map fun name => { a with uploads := a.uploads ++ [name] }
    else if e.action = "request.transition" ∨ e.action = "request.answer" ∨
        e.action = "request.resubmit" then a.move e
    else none

/-- What the tables say of the same request. The files of an automatic answer
were uploaded by nobody. -/
def Life.account (l : Life) : Account where
  trackingNo := l.req.trackingNo
  title := l.req.title
  status := l.req.status
  assignee := l.req.assignedTo
  uploads := (l.files.filter fun f => !f.isAnswer || l.req.answeredBy.isSome).map (·.fileName)

/-- The entries about a request, oldest first. -/
def Db.trail (db : Db) (id : Nat) : List AuditContent :=
  (db.auditLogs.filter fun a => a.entityType == "request" && a.entityId == some id).map (·.content)

@[simp] theorem ofCode_code (s : RequestStatus) : RequestStatus.ofCode s.code = some s := by
  cases s <;> decide

/-! ## What a session logs -/

/-- The entries of a session. -/
def Session.audited (s : Session) : List AuditContent := s.auditLogs.map (·.content)

/-- Between `s` and `s'` neither an entry nor a file was added. -/
structure Session.Unlogged (s s' : Session) : Prop where
  audited : s'.audited = s.audited
  files : s'.files = s.files

namespace Session

theorem Unlogged.refl (s : Session) : Unlogged s s := ⟨rfl, rfl⟩

theorem Unlogged.trans {s s' s'' : Session} (h : Unlogged s s') (h' : Unlogged s' s'') :
    Unlogged s s'' := ⟨h'.audited.trans h.audited, h'.files.trans h.files⟩

theorem Unlogged.foldl {α : Type} {f : Session → α → Session} (h : ∀ s a, Unlogged s (f s a)) :
    ∀ (xs : List α) (s : Session), Unlogged s (xs.foldl f s)
  | [], s => .refl s
  | x :: xs, s => (h s x).trans (Unlogged.foldl h xs (f s x))

variable (cfg : Settings) (db : Db) (s : Session)

theorem addHistory_unlogged (req : Request) (changedBy : Option Nat)
    (oldStatus : Option RequestStatus) (newStatus : RequestStatus) (comment : Option String)
    (now : Int) : s.Unlogged (addHistory s req changedBy oldStatus newStatus comment now) := by
  constructor <;> simp [addHistory, audited, auditLogs, files]

theorem addMessage_unlogged (m : Nat → Message) (hm : ∀ n, (m n).id = n) :
    s.Unlogged (s.addMessage m hm) := by
  constructor <;> simp [audited, auditLogs, files]

theorem createNotification_unlogged (userId : Nat) (type : NotificationType) (title body : String)
    (req : Request) (slaBreached : Option Bool) :
    s.Unlogged (createNotification s userId type title body req slaBreached) := by
  constructor <;> simp [createNotification, audited, auditLogs, files]

theorem enqueueEmail_unlogged (email : Email) : s.Unlogged (enqueueEmail s email) := by
  constructor <;> simp [enqueueEmail, audited, auditLogs, files]

theorem publish_unlogged (req : Request) (body : EventBody) :
    s.Unlogged (publish cfg db s req body) := by
  unfold publish enqueueWebhook
  split
  · exact .refl s
  · constructor <;> simp [audited, auditLogs, files]

theorem notifyUser_unlogged (userId : Nat) (type : NotificationType) (title : String)
    (lines : List String) (req : Request) (linkBase : String) :
    s.Unlogged (notifyUser cfg db s userId type title lines req linkBase) := by
  unfold notifyUser
  have hnotified := createNotification_unlogged s userId type title
    (String.ofList ((" ".intercalate lines).toList.take 500)) req none
  dsimp only
  split
  · split
    · exact hnotified
    · exact hnotified.trans (enqueueEmail_unlogged _ _)
  · exact hnotified

theorem notifyAssigned_unlogged (req : Request) (assigneeId : Nat) :
    s.Unlogged (notifyAssigned cfg db s req assigneeId) := by
  unfold notifyAssigned
  split
  · exact .refl s
  · exact notifyUser_unlogged cfg db s _ _ _ _ _ _

variable (userId : Option Nat) (action : String) (entityId : Nat)
  (oldValue newValue : List (String × AuditValue))

@[simp] theorem audited_logAction :
    (logAction s userId action "request" entityId oldValue newValue).audited =
      s.audited ++ [⟨userId, action, "request", some entityId, oldValue, newValue⟩] := by
  simp [logAction, audited, auditLogs, AuditLog.content]

@[simp] theorem files_logAction :
    (logAction s userId action "request" entityId oldValue newValue).files = s.files := by
  simp [logAction, files]

/-- A new file is no entry. -/
theorem audited_addFile (f : Nat → RequestFile) (hf : ∀ n, (f n).id = n) :
    (s.add (fun id => .file (f id)) fun n => congrArg some (hf n)).audited = s.audited := by
  simp [audited, auditLogs]

theorem files_addFile (f : Nat → RequestFile) (hf : ∀ n, (f n).id = n) :
    (s.add (fun id => .file (f id)) fun n => congrArg some (hf n)).files =
      s.files ++ [f s.nextId] := by
  simp [files]

@[simp] theorem audited_load (r : Request) : (Work.load db r).session.audited = [] := rfl

@[simp] theorem files_load (r : Request) : (Work.load db r).session.files = [] := rfl

end Session

/-! ## What a handler logs -/

/-- Every entry of the handler is about its request, and read after an account
that says what the loaded row says, they say what the handler leaves. -/
structure Work.Accounts (w : Work) : Prop where
  own : ∀ e ∈ w.session.audited, e.entityType = "request" ∧ e.entityId = some w.loaded.id
  reads : ∀ a : Account, a.status = w.loaded.status → a.assignee = w.loaded.assignedTo →
    w.session.audited.foldl Account.read (some a) = some
      { a with
        status := w.req.status
        assignee := w.req.assignedTo
        uploads := a.uploads ++ w.session.files.map (·.fileName) }

variable {cfg : Settings} {db : Db} {now : Int} {w : Work}

/-- A handler that logs nothing and leaves the columns alone. -/
theorem accounts_of_unlogged (db : Db) {r : Request} (hloaded : w.loaded = r)
    (hlogged : (Work.load db r).session.Unlogged w.session) (hstatus : w.req.status = r.status)
    (hassigned : w.req.assignedTo = r.assignedTo) : w.Accounts where
  own := by
    rw [hlogged.audited]
    simp
  reads a hs ha := by
    rw [hlogged.audited, hlogged.files, hstatus, hassigned]
    rw [hloaded] at hs ha
    simp [← hs, ← ha]

/-- A handler whose last entry is a move of the status, after uploads. -/
theorem accounts_of_move {r : Request} {s : Session} (userId : Option Nat) {action : String}
    (files : List (String × AuditValue)) (hloaded : w.loaded = r)
    (haction : action = "request.transition" ∨ action = "request.answer" ∨
      action = "request.resubmit")
    (hreq : w.req.id = r.id) (hassigned : w.req.assignedTo = r.assignedTo)
    (huploads : ({ loaded := r, req := r, session := s } : Work).Accounts)
    (hlogged : (logAction s userId action "request" w.req.id [("status", .text r.status.code)]
      (("status", .text w.req.status.code) :: files)).Unlogged w.session) : w.Accounts where
  own := by
    rw [hlogged.audited, Session.audited_logAction]
    intro e he
    rcases List.mem_append.mp he with he | he
    · rw [hloaded]
      exact huploads.own e he
    · rw [List.mem_singleton.mp he, hloaded, hreq]
      exact ⟨rfl, rfl⟩
  reads a hs ha := by
    rw [hloaded] at hs ha
    rw [hlogged.audited, hlogged.files, Session.audited_logAction, Session.files_logAction,
      List.foldl_append, huploads.reads a hs ha, List.foldl_cons, List.foldl_nil, hassigned]
    have hne : action ≠ "request.assign" ∧ action ≠ "request.file_upload" := by
      rcases haction with rfl | rfl | rfl <;> decide
    simp [Account.read, Account.move, textAt, haction, hne]

/-- A handler whose one entry is an assignment. -/
theorem accounts_of_assign {r : Request} {s : Session} {userId : Option Nat} {n : Nat}
    (hloaded : w.loaded = r) (hreq : w.req.id = r.id) (hstatus : w.req.status = r.status)
    (hassigned : w.req.assignedTo = some n) (hbefore : (Work.load db r).session.Unlogged s)
    (hlogged : (logAction s userId "request.assign" "request" w.req.id []
      [("assignee_id", .num n)]).Unlogged w.session) : w.Accounts where
  own := by
    rw [hlogged.audited, Session.audited_logAction, hbefore.audited]
    simp [hloaded, hreq]
  reads a hs ha := by
    rw [hloaded] at hs ha
    rw [hlogged.audited, hlogged.files, Session.audited_logAction, Session.files_logAction,
      hbefore.audited, hbefore.files, hstatus, hassigned]
    simp [Account.read, numAt, ← hs]

/-- What was put off to the end of a handler. -/
theorem accounts_before (db : Db) {r : Request} {s : Session}
    (hbefore : (Work.load db r).session.Unlogged s) :
    ({ loaded := r, req := r, session := s } : Work).Accounts :=
  accounts_of_unlogged db rfl hbefore rfl rfl

theorem assign_accounts {userId requestId : Nat} {data : RequestAssign}
    (h : assign cfg db userId requestId data now = .ok w) : w.Accounts := by
  obtain ⟨actor, hactor, h⟩ := bind_eq_ok.mp h
  obtain ⟨w₀, hload, h⟩ := bind_eq_ok.mp h
  obtain ⟨w₁, hassign, h⟩ := bind_eq_ok.mp h
  cases h
  obtain ⟨r, hr, hid, hview, rfl⟩ := getRequestForUser_view hload
  obtain ⟨_, hmutate, hassign⟩ := bind_eq_ok.mp hassign
  obtain ⟨_, hopen, hassign⟩ := bind_eq_ok.mp hassign
  obtain ⟨assignee, hassignee, hassign⟩ := bind_eq_ok.mp hassign
  cases hassign
  obtain ⟨hsame, -⟩ := resolveAssignee_eq_ok hassignee
  exact accounts_of_assign rfl rfl rfl (congrArg some hsame)
    (Session.addHistory_unlogged _ _ _ _ _ _ _) (Session.notifyAssigned_unlogged cfg db _ _ _)

theorem parseStatus_eq_ok {text : String} {s : RequestStatus} (h : parseStatus text = .ok s) :
    text = s.code := by
  unfold parseStatus at h
  split at h
  · rename_i hcode
    cases h
    have hfound := List.find?_some hcode
    exact (beq_iff_eq.mp hfound).symm
  · cases h

theorem transition_accounts {userId requestId : Nat} {data : RequestTransition}
    (h : transition cfg db userId requestId data now = .ok w) : w.Accounts := by
  obtain ⟨actor, hactor, h⟩ := bind_eq_ok.mp h
  obtain ⟨w₀, hload, h⟩ := bind_eq_ok.mp h
  obtain ⟨w₁, hmove, h⟩ := bind_eq_ok.mp h
  cases h
  obtain ⟨r, hr, hid, hview, rfl⟩ := getRequestForUser_view hload
  obtain ⟨target, htarget, hmove⟩ := bind_eq_ok.mp hmove
  obtain ⟨_, hcheck, hmove⟩ := bind_eq_ok.mp hmove
  obtain ⟨_, _, hmove⟩ := bind_eq_ok.mp hmove
  obtain ⟨req', happly, hmove⟩ := bind_eq_ok.mp hmove
  cases hmove
  have hshape := (applyStatus_eq_ok happly).shape
  have hstatus : req'.status = target := by rw [hshape]
  have htext : data.status = req'.status.code := by rw [hstatus, parseStatus_eq_ok htarget]
  dsimp only
  rw [htext]
  refine accounts_of_move (r := r) (some actor.id) [] rfl (.inl rfl) ?_ ?_ (accounts_before db ?_)
    ((Session.notifyUser_unlogged cfg db _ _ _ _ _ _ _).trans
      (Session.publish_unlogged cfg db _ _ _))
  · rw [hshape]
    rfl
  · rw [hshape]
    rfl
  · exact Session.addHistory_unlogged _ _ _ _ _ _ _

theorem resubmitReturned_accounts {r : Request} {student : User} {comment : Option String}
    (h : resubmitReturned cfg db (Work.load db r) student comment now = .ok w) : w.Accounts := by
  obtain ⟨w₁, hresubmit, h⟩ := bind_eq_ok.mp h
  cases h
  unfold resubmitRequest at hresubmit
  split at hresubmit
  · cases hresubmit
  split at hresubmit
  · cases hresubmit
  rename_i hstatus
  obtain ⟨req', happly, hresubmit⟩ := bind_eq_ok.mp hresubmit
  cases hresubmit
  have hshape := (applyStatus_eq_ok happly).shape
  have hreturned : RequestStatus.returned = r.status := (not_not.mp hstatus).symm
  rw [hreturned]
  have hbefore := Session.addHistory_unlogged (Work.load db r).session req' (some student.id)
    (some r.status) .inProgress
    (some (orDefault comment "Talaba murojaatni to'ldirib qayta yubordi")) now
  refine accounts_of_move (some student.id) [] rfl (.inr (.inr rfl)) ?_ ?_
    (accounts_before db hbefore) ?_
  · rw [hshape]
    rfl
  · rw [hshape]
    rfl
  · refine Session.Unlogged.trans ?_ (Session.publish_unlogged cfg db _ _ _)
    dsimp only
    split
    · exact Session.notifyUser_unlogged cfg db _ _ _ _ _ _ _
    · exact .refl _

/-- An upload logs its file. -/
theorem attachFile_accounts {r : Request} {w' : Work} {uploader : User} {isAnswer : Bool}
    {upload : Upload} (hloaded : w.loaded = r) (hreq : w.req = r) (hbefore : w.Accounts)
    (h : attachFile cfg db w uploader isAnswer upload now = .ok w') :
    w'.loaded = r ∧ w'.req = r ∧ w'.Accounts := by
  obtain ⟨fileMeta, -, h⟩ := bind_eq_ok.mp h
  cases h
  refine ⟨hloaded, hreq, ?_⟩
  have hpublished := Session.publish_unlogged cfg db (logAction (w.session.add fun id =>
    .file (fileRecord w.req uploader isAnswer fileMeta now id)) (some uploader.id)
    "request.file_upload" "request" w.req.id []
    [("file_name", .text fileMeta.fileName), ("size", .num fileMeta.fileSize)]) w.req
    (fileBody w.req (fileRecord w.req uploader isAnswer fileMeta now w.session.nextId))
  have haudited := hpublished.audited
  have hfiles := hpublished.files
  rw [Session.audited_logAction] at haudited
  rw [Session.files_logAction] at hfiles
  have hrow := Session.audited_addFile w.session
    (fun id => fileRecord w.req uploader isAnswer fileMeta now id) fun _ => rfl
  have hfile := Session.files_addFile w.session
    (fun id => fileRecord w.req uploader isAnswer fileMeta now id) fun _ => rfl
  rw [hrow] at haudited
  rw [hfile] at hfiles
  have hid : w.req.id = w.loaded.id := by rw [hreq, hloaded]
  constructor
  · intro e he
    have he' : e ∈ w.session.audited ++ [_] := haudited ▸ he
    rcases List.mem_append.mp he' with he' | he'
    · exact hbefore.own e he'
    · rw [List.mem_singleton.mp he', hid]
      exact ⟨rfl, rfl⟩
  · intro a hs ha
    refine (congrArg (List.foldl Account.read (some a)) haudited).trans ?_
    rw [List.foldl_append, hbefore.reads a hs ha, List.foldl_cons, List.foldl_nil]
    refine Eq.trans ?_ (congrArg (fun fs : List RequestFile => some ({ a with
      status := w.req.status
      assignee := w.req.assignedTo
      uploads := a.uploads ++ fs.map (·.fileName) } : Account)) hfiles.symm)
    simp [Account.read, textAt, fileRecord]

theorem postMessage_accounts {r : Request} (sender : User) (content : String) (isInternal : Bool) :
    (postMessage cfg db (Work.load db r) sender content isInternal now).Accounts := by
  refine accounts_of_unlogged db (r := r) rfl ?_ rfl rfl
  unfold postMessage
  have hmessage := Session.addMessage_unlogged (Work.load db r).session
    (messageRecord r sender content isInternal now) fun _ => rfl
  dsimp only
  split
  · exact hmessage
  · refine hmessage.trans (Session.Unlogged.trans ?_ (Session.publish_unlogged cfg db _ _ _))
    exact Session.Unlogged.foldl (fun s id => Session.createNotification_unlogged s _ _ _ _ _ _) _ _

/-- The loop that attaches an answer's files. -/
theorem attachFiles_accounts {r : Request} {actor : User} : ∀ {uploads : List Upload} {w w' : Work},
    w.loaded = r → w.req = r → w.Accounts →
    uploads.foldlM (fun w f => attachFile cfg db w actor true f now) w = .ok w' →
    w'.loaded = r ∧ w'.req = r ∧ w'.Accounts
  | [], w, w', hloaded, hreq, hbefore, h => by
    cases h
    exact ⟨hloaded, hreq, hbefore⟩
  | upload :: uploads, w, w', hloaded, hreq, hbefore, h => by
    rw [List.foldlM_cons] at h
    obtain ⟨w₁, hattach, h⟩ := bind_eq_ok.mp h
    obtain ⟨hloaded₁, hreq₁, hbefore₁⟩ := attachFile_accounts hloaded hreq hbefore hattach
    exact attachFiles_accounts hloaded₁ hreq₁ hbefore₁ h

/-- An entry of the timeline changes nothing for the auditor. -/
theorem Work.Accounts.addHistory {r : Request} (h : w.Accounts) (hloaded : w.loaded = r)
    (hreq : w.req = r) (req' : Request) (changedBy : Option Nat) (oldStatus : Option RequestStatus)
    (newStatus : RequestStatus) (comment : Option String) :
    ({ loaded := r, req := r
       session := Royd.addHistory w.session req' changedBy oldStatus newStatus comment now } :
      Work).Accounts := by
  have hlogged := Session.addHistory_unlogged w.session req' changedBy oldStatus newStatus comment
    now
  subst hloaded
  constructor
  · rw [hlogged.audited]
    exact h.own
  · intro a hs ha
    rw [hlogged.audited, hlogged.files, h.reads a hs ha, hreq]

theorem answer_accounts {userId requestId : Nat} {text : String} {files : List Upload}
    (h : answer cfg db userId requestId text files now = .ok w) : w.Accounts := by
  obtain ⟨actor, hactor, h⟩ := bind_eq_ok.mp h
  obtain ⟨w₀, hload, h⟩ := bind_eq_ok.mp h
  obtain ⟨_, hcan, h⟩ := bind_eq_ok.mp h
  obtain ⟨_, _, h⟩ := bind_eq_ok.mp h
  obtain ⟨w₁, hattach, h⟩ := bind_eq_ok.mp h
  obtain ⟨w₂, hanswer, h⟩ := bind_eq_ok.mp h
  cases h
  obtain ⟨r, hr, hid, hview, rfl⟩ := getRequestForUser_view hload
  obtain ⟨_, _, hanswer⟩ := bind_eq_ok.mp hanswer
  split at hanswer
  · cases hanswer
  obtain ⟨req', happly, hanswer⟩ := bind_eq_ok.mp hanswer
  cases hanswer
  obtain ⟨hloaded, hreq, haccounts⟩ := attachFiles_accounts rfl rfl
    (accounts_before db (.refl _)) hattach
  have hshape := (applyStatus_eq_ok happly).shape
  rw [hreq] at hshape ⊢
  refine accounts_of_move (some actor.id)
    [("files", .texts (w₁.session.files.map (·.fileName)))] hloaded (.inr (.inl rfl)) ?_ ?_
    (haccounts.addHistory hloaded hreq req' (some actor.id) (some r.status) .completed
      (some "Yakuniy javob yuborildi"))
    ((Session.notifyUser_unlogged cfg db _ _ _ _ _ _ _).trans
      (Session.publish_unlogged cfg db _ _ _))
  · rw [hshape]
  · rw [hshape]

/-- Every handler's entries say what it leaves. -/
theorem handle_accounts {c : Call} (h : c.handle cfg db now = .ok w) : w.Accounts := by
  cases c with
  | assign userId requestId data => exact assign_accounts h
  | transition userId requestId data => exact transition_accounts h
  | answer userId requestId text files => exact answer_accounts h
  | resubmit userId requestId comment =>
    obtain ⟨_, _, h⟩ := bind_eq_ok.mp h
    obtain ⟨_, hload, h⟩ := bind_eq_ok.mp h
    obtain ⟨r, -, -, -, rfl⟩ := getRequestForUser_view hload
    exact resubmitReturned_accounts h
  | message userId requestId data =>
    obtain ⟨_, _, h⟩ := bind_eq_ok.mp h
    obtain ⟨_, hload, h⟩ := bind_eq_ok.mp h
    obtain ⟨_, _, h⟩ := bind_eq_ok.mp h
    obtain ⟨r, -, -, -, rfl⟩ := getRequestForUser_view hload
    cases h
    exact postMessage_accounts _ _ _
  | upload userId requestId file =>
    obtain ⟨_, _, h⟩ := bind_eq_ok.mp h
    obtain ⟨_, hload, h⟩ := bind_eq_ok.mp h
    obtain ⟨_, _, h⟩ := bind_eq_ok.mp h
    obtain ⟨_, _, h⟩ := bind_eq_ok.mp h
    obtain ⟨r, -, -, -, rfl⟩ := getRequestForUser_view hload
    exact (attachFile_accounts rfl rfl (accounts_before db (.refl _)) h).2.2
  | clientMessage client requestId content =>
    obtain ⟨_, howned, h⟩ := bind_eq_ok.mp h
    obtain ⟨_, _, h⟩ := bind_eq_ok.mp h
    obtain ⟨_, _, h⟩ := bind_eq_ok.mp h
    obtain ⟨r, -, -, -, rfl⟩ := ownedRequest_view howned
    cases h
    exact postMessage_accounts _ _ _
  | clientUpload client requestId file =>
    obtain ⟨_, howned, h⟩ := bind_eq_ok.mp h
    obtain ⟨_, _, h⟩ := bind_eq_ok.mp h
    obtain ⟨_, _, h⟩ := bind_eq_ok.mp h
    obtain ⟨r, -, -, -, rfl⟩ := ownedRequest_view howned
    exact (attachFile_accounts rfl rfl (accounts_before db (.refl _)) h).2.2
  | clientResubmit client requestId comment =>
    obtain ⟨_, howned, h⟩ := bind_eq_ok.mp h
    obtain ⟨_, _, h⟩ := bind_eq_ok.mp h
    obtain ⟨r, -, -, -, rfl⟩ := ownedRequest_view howned
    exact resubmitReturned_accounts h

/-! ## What a handler leaves -/

/-- A request whose new files all count, read off the tables. -/
theorem after_account {l : Life} {req' : Request} {s : Session}
    (hnumber : req'.trackingNo = l.req.trackingNo) (htitle : req'.title = l.req.title)
    (hfiles : (l.files ++ s.files).filter (fun f => !f.isAnswer || req'.answeredBy.isSome) =
      l.files.filter (fun f => !f.isAnswer || l.req.answeredBy.isSome) ++ s.files) :
    (l.after req' s).account =
      { l.account with
        status := req'.status
        assignee := req'.assignedTo
        uploads := l.account.uploads ++ s.files.map (·.fileName) } := by
  unfold Life.account Life.after
  dsimp only
  rw [hfiles, hnumber, htitle, List.map_append]

/-- The tables after a deed. Before an answer there is no answer file, so
that none starts to count with it. -/
theorem deed_account {l : Life} {actor : User} {req' : Request} {s : Session} (h : l.Sound)
    (hdeed : Deed cfg db now l.req actor req' s) :
    (l.after req' s).account =
      { l.account with
        status := req'.status
        assignee := req'.assignedTo
        uploads := l.account.uploads ++ s.files.map (·.fileName) } := by
  have hnone : s.files = [] → req'.answeredBy = l.req.answeredBy →
      (l.files ++ s.files).filter (fun f => !f.isAnswer || req'.answeredBy.isSome) =
        l.files.filter (fun f => !f.isAnswer || l.req.answeredBy.isSome) ++ s.files := by
    intro hfiles hby
    rw [hfiles, hby, List.append_nil, List.append_nil]
  cases hdeed with
  | assigned _ _ _ _ _ _ _ rows => exact after_account rfl rfl (hnone rows.files rfl)
  | moved _ _ _ _ applied _ _ rows =>
    have hshape := (applyStatus_eq_ok applied).shape
    exact after_account (by rw [hshape]) (by rw [hshape]) (hnone rows.files (by rw [hshape]))
  | resubmitted _ _ _ applied _ _ rows =>
    have hshape := (applyStatus_eq_ok applied).shape
    exact after_account (by rw [hshape]) (by rw [hshape]) (hnone rows.files (by rw [hshape]))
  | answered _ _ isOpen applied _ _ _ rows =>
    have hshape := (applyStatus_eq_ok applied).shape
    have hne := (h.not_completed isOpen).2
    have hplain : ∀ f ∈ l.files, f.isAnswer = false := fun f hf =>
      Bool.eq_false_iff.mpr fun hanswer => hne (h.answerFiles f hf hanswer)
    refine after_account (by rw [hshape]) (by rw [hshape]) ?_
    have hbefore : l.files.filter (fun f => !f.isAnswer || l.req.answeredBy.isSome) = l.files :=
      List.filter_eq_self.mpr fun f hf => by simp [hplain f hf]
    have hafter : (l.files ++ s.files).filter (fun f => !f.isAnswer || req'.answeredBy.isSome) =
        l.files ++ s.files := by
      have hby : req'.answeredBy = some actor.id := by rw [hshape]
      exact List.filter_eq_self.mpr fun f _ => by simp [hby]
    rw [hbefore, hafter]
  | said _ _ _ _ rows => exact after_account rfl rfl (hnone rows.files rfl)
  | attached _ _ ordinary _ rows =>
    refine after_account rfl rfl ?_
    rw [rows.files, List.filter_append]
    simp [ordinary]

/-- The sweep marks the row and adds to its timeline, no more. -/
theorem sweepOne_account {l : Life} (cfg : Settings) (db : Db) (now : Int) :
    (l.after (sweepOne cfg db l.req now).req (sweepOne cfg db l.req now).session).account =
      { l.account with
        status := (sweepOne cfg db l.req now).req.status
        assignee := (sweepOne cfg db l.req now).req.assignedTo
        uploads := l.account.uploads ++
          (sweepOne cfg db l.req now).session.files.map (·.fileName) } := by
  have hsame : (sweepOne cfg db l.req now).req.trackingNo = l.req.trackingNo ∧
      (sweepOne cfg db l.req now).req.title = l.req.title ∧
      (sweepOne cfg db l.req now).req.answeredBy = l.req.answeredBy := by
    unfold sweepOne
    dsimp only
    split <;> exact ⟨rfl, rfl, rfl⟩
  obtain ⟨hnumber, htitle, hby⟩ := hsame
  refine after_account hnumber htitle ?_
  rw [(sweepOne_leaves cfg db l.req now).files, hby, List.append_nil, List.append_nil]

theorem sweepOne_audited (cfg : Settings) (db : Db) (req : Request) (now : Int) :
    (sweepOne cfg db req now).session.audited = [] := by
  have htold : db.begin.Unlogged (sweepTell cfg db db.begin req (decide (req.slaDeadline < now))
      now) := by
    unfold sweepTell
    refine Session.Unlogged.trans ?_ (Session.Unlogged.foldl (fun s _ =>
      Session.enqueueEmail_unlogged s _) _ _)
    exact Session.Unlogged.foldl (fun s _ => Session.createNotification_unlogged s _ _ _ _ _ _) _ _
  exact (htold.trans (Session.addHistory_unlogged _ _ _ _ _ _ _)).audited

/-! ## What a filing logs -/

theorem filingRows_audited (db : Db) (start messageStart : Nat) (req : Request)
    (category : RequestCategory) (assignee : Option User) (now : Int) :
    (filingRows db (.empty start messageStart) req category assignee now).audited = [] := by
  have hfiles : ∀ (files : List AutoReplyFile) (s : Session),
      (addAutoReplyFiles s req files now).audited = s.audited := by
    intro files
    induction files with
    | nil => exact fun _ => rfl
    | cons f files ih =>
      intro s
      exact (ih _).trans (Session.audited_addFile s (fun id =>
        { id
          requestId := req.id
          uploadedBy := f.uploadedBy
          filePath := f.filePath
          fileName := f.fileName
          fileSize := f.fileSize
          mimeType := f.mimeType
          isAnswer := true
          createdAt := now }) fun _ => rfl)
  unfold filingRows
  rw [(Session.addHistory_unlogged _ _ _ _ _ _ _).audited,
    (Session.addHistory_unlogged _ _ _ _ _ _ _).audited]
  split
  · exact hfiles _ _
  · rfl

/-- The entry of a filing. -/
def createdEntry (student : User) (req : Request) (client : Option ApiClient) : AuditContent where
  userId := some student.id
  action := "request.create"
  entityType := "request"
  entityId := some req.id
  oldValue := []
  newValue :=
    [("tracking_no", .text req.trackingNo),
      ("title", .text req.title),
      ("assigned_to", (req.assignedTo.map AuditValue.num).getD .null),
      ("auto_routed", .flag true),
      ("auto_answered", .flag (req.status == .completed))]
    ++ (client.map fun c => ("api_client", AuditValue.text c.clientId)).toList

theorem createdEntry_opened {student : User} {req : Request} (client : Option ApiClient)
    (h : req.status = .inProgress ∨ req.status = .completed) :
    (createdEntry student req client).opened = some
      { trackingNo := req.trackingNo
        title := req.title
        status := req.status
        assignee := req.assignedTo
        uploads := [] } := by
  rcases h with h | h <;> cases hassigned : req.assignedTo <;>
    simp [createdEntry, AuditContent.opened, textAt, numAt, flagAt, List.lookup_cons, h, hassigned]

/-- A filing logs one entry. -/
theorem fileRequest_audited {student : User} {data : RequestCreate} {trackingNo : String}
    {clientRef : Option String} {client : Option ApiClient} {req : Request} {s : Session}
    (h : fileRequest cfg db student data trackingNo clientRef client now = .ok (req, s)) :
    s.audited = [createdEntry student req client] := by
  obtain ⟨⟨req₀, s₀⟩, hcreate, h⟩ := bind_eq_ok.mp h
  obtain ⟨category, -, hcreate⟩ := bind_eq_ok.mp hcreate
  obtain ⟨assignee, -, hcreate⟩ := bind_eq_ok.mp hcreate
  obtain ⟨deadline, -, hcreate⟩ := bind_eq_ok.mp hcreate
  cases hcreate
  cases h
  have hrows := filingRows_audited db (db.nextId + 1) db.nextMessageId
    (newRequest db.nextId student category assignee deadline data
      { trackingNo, clientRef, apiClientId := client.map (·.id) } now) category assignee now
  generalize newRequest db.nextId student category assignee deadline data
    { trackingNo, clientRef, apiClientId := client.map (·.id) } now = req at *
  generalize filingRows db (.empty (db.nextId + 1) db.nextMessageId) req category assignee now = s₀
    at *
  have hannounced : (announceFiling cfg db s₀ student req client).audited =
      [createdEntry student req client] := by
    unfold announceFiling
    rw [(Session.publish_unlogged cfg db _ _ _).audited]
    split
    · rw [(Session.notifyAssigned_unlogged cfg db _ _ _).audited, Session.audited_logAction, hrows]
      rfl
    · rw [Session.audited_logAction, hrows]
      rfl
  have hauto : ∀ files, (announceAutoAnswer cfg db (announceFiling cfg db s₀ student req client) req
      files).audited = (announceFiling cfg db s₀ student req client).audited := by
    intro files
    unfold announceAutoAnswer
    rw [(Session.publish_unlogged cfg db _ _ _).audited,
      (Session.Unlogged.foldl (f := fun s f => publishFileAdded cfg db s req f) (fun s f =>
        Session.publish_unlogged cfg db s req (fileBody req f)) files _).audited,
      (Session.notifyUser_unlogged cfg db _ _ _ _ _ _ _).audited]
  split
  · rw [hauto, hannounced]
  · exact hannounced

/-! ## The log after a commit -/

theorem trail_commit (db : Db) (s : Session) (id : Nat) :
    (db.commit s).trail id = db.trail id ++
      s.audited.filter fun e => e.entityType == "request" && e.entityId == some id := by
  unfold Db.trail Db.commit Session.audited
  dsimp only
  rw [List.filter_append, List.map_append, List.filter_map]
  rfl

theorem Db.trail_congr {db db' : Db} (h : db'.auditLogs = db.auditLogs) (id : Nat) :
    db'.trail id = db.trail id := by
  rw [Db.trail, h, Db.trail]

/-- Entries about one request reach its trail, and no other one. -/
theorem own_trail {es : List AuditContent} {id : Nat}
    (h : ∀ e ∈ es, e.entityType = "request" ∧ e.entityId = some id) :
    es.filter (fun e => e.entityType == "request" && e.entityId == some id) = es :=
  List.filter_eq_self.mpr fun e he => by simp [h e he]

theorem other_trail {es : List AuditContent} {id other : Nat}
    (h : ∀ e ∈ es, e.entityType = "request" ∧ e.entityId = some id) (hne : id ≠ other) :
    es.filter (fun e => e.entityType == "request" && e.entityId == some other) = [] :=
  List.filter_eq_nil_iff.mpr fun e he => by simp [h e he, hne]

/-- The log says of the request with this id what the tables say. -/
structure Db.Accounted (db : Db) (id : Nat) : Prop where
  sound : ∀ l, db.life? id = some l → l.Sound
  unopened : db.life? id = none → db.trail id = []
  accounted : ∀ l, db.life? id = some l →
    (db.trail id).foldl Account.read none = some l.account

theorem Db.Accounted.of_eq {db db' : Db} {id : Nat} (h : db.Accounted id)
    (hlife : db'.life? id = db.life? id) (htrail : db'.trail id = db.trail id) :
    db'.Accounted id where
  sound := by rw [hlife]; exact h.sound
  unopened := by rw [hlife, htrail]; exact h.unopened
  accounted := by rw [hlife, htrail]; exact h.accounted

variable {id : Nat}

/-- A request is filed: its trail opens with the entry of the filing. -/
theorem Db.Accounted.filed {db : Db} (h : db.Accounted id) (hwf : db.Wf) {student : User}
    {data : RequestCreate} {trackingNo : String} {clientRef : Option String}
    {client : Option ApiClient} {req : Request} {s : Session}
    (hfile : fileRequest cfg db student data trackingNo clientRef client now = .ok (req, s)) :
    Db.Accounted { db.commit s with requests := (db.commit s).requests ++ [req] } id := by
  obtain ⟨category, first, second, fs, hfiled, hopening, hholds⟩ := fileRequest_filed hfile
  have haudited := fileRequest_audited hfile
  have hown : ∀ e ∈ s.audited, e.entityType = "request" ∧ e.entityId = some req.id := by
    rw [haudited]
    simp [createdEntry]
  have htrail : Db.trail { db.commit s with requests := (db.commit s).requests ++ [req] } id =
      (db.commit s).trail id := rfl
  by_cases hid : req.id = id
  · subst hid
    have hnone : db.life? req.id = none := life?_unfiled hwf (by rw [hfiled.id])
    have hlife := life?_filed hwf hfiled hopening hholds
    have hsound := filed_sound hwf.catalogue hfiled hopening (answersQueued s.outbox req.id)
    have hread : (db.commit s).trail req.id = [createdEntry student req client] := by
      rw [trail_commit, own_trail hown, h.unopened hnone, haudited, List.nil_append]
    constructor
    · rw [hlife]
      rintro l ⟨⟩
      exact hsound
    · rw [hlife]
      rintro ⟨⟩
    · rw [hlife, htrail, hread]
      rintro l ⟨⟩
      have hstatus : req.status = .inProgress ∨ req.status = .completed := by
        by_cases hauto : category.routing = .autoReply
        · exact .inr (hfiled.answered hauto).1
        · exact .inl (hfiled.routed hauto).1
      -- The files of an automatic answer are nobody's upload.
      have hnobody : fs.filter (fun f => !f.isAnswer || req.answeredBy.isSome) = [] :=
        List.filter_eq_nil_iff.mpr fun f hf => by
          simp [(hopening.answerFiles f hf).2, hfiled.byNobody]
      rw [List.foldl_cons, List.foldl_nil]
      refine (createdEntry_opened client hstatus).trans ?_
      rw [Life.account, hnobody]
      rfl
  · refine h.of_eq (life?_filed_other hid hopening hholds) ?_
    rw [htrail, trail_commit, other_trail hown hid, List.append_nil]

/-- What a handler leaves: its entries read on from the account of the row it
loaded. -/
theorem Db.Accounted.finish {db : Db} (h : db.Accounted id) (hwf : db.Wf) {w : Work}
    (committed : w.loaded ∈ db.requests)
    (change : Change cfg db.nextId now w.loaded w.req w.session) (haccounts : w.Accounts)
    (haccount : (db.lifeOf w.loaded).Sound →
      ((db.lifeOf w.loaded).after w.req w.session).account =
        { (db.lifeOf w.loaded).account with
          status := w.req.status
          assignee := w.req.assignedTo
          uploads := (db.lifeOf w.loaded).account.uploads ++ w.session.files.map (·.fileName) }) :
    (db.finish w).Accounted id := by
  have htrail : (db.finish w).trail id = (db.commit w.session).trail id := rfl
  by_cases hid : w.loaded.id = id
  · subst hid
    obtain ⟨hbefore, hafter⟩ := life?_changed hwf committed change
    have hsound := h.sound _ hbefore
    constructor
    · rw [hafter]
      rintro l ⟨⟩
      exact change_sound hsound change
    · rw [hafter]
      rintro ⟨⟩
    · rw [hafter, htrail, trail_commit, own_trail haccounts.own, List.foldl_append,
        h.accounted _ hbefore]
      rintro l ⟨⟩
      rw [haccount hsound]
      exact haccounts.reads _ rfl rfl
  · refine h.of_eq (life?_finish_other hid change) ?_
    rw [htrail, trail_commit, other_trail haccounts.own hid, List.append_nil]

theorem sweepOne_accounts (cfg : Settings) (db : Db) (req : Request) (now : Int) :
    (sweepOne cfg db req now).Accounts where
  own := by
    rw [sweepOne_audited]
    simp
  reads a hs ha := by
    have hloaded : (sweepOne cfg db req now).loaded = req := rfl
    have hreq : (sweepOne cfg db req now).req.status = req.status ∧
        (sweepOne cfg db req now).req.assignedTo = req.assignedTo := by
      unfold sweepOne
      dsimp only
      split <;> exact ⟨rfl, rfl⟩
    rw [hloaded] at hs ha
    rw [sweepOne_audited, (sweepOne_leaves cfg db req now).files, hreq.1, hreq.2, ← hs, ← ha]
    simp

theorem catalogueEdit_auditLogs {db db' : Db} {edit : CatalogueEdit}
    (h : edit.apply cfg db now = .ok db') : db'.auditLogs = db.auditLogs := by
  cases edit with
  | create data =>
    unfold CatalogueEdit.apply buildCategory at h
    dsimp only at h
    split at h
    · cases h
      rfl
    · obtain ⟨_, _, h⟩ := bind_eq_ok.mp h
      obtain ⟨_, _, h⟩ := bind_eq_ok.mp h
      obtain ⟨_, _, h⟩ := bind_eq_ok.mp h
      cases h
      rfl
  | update categoryId payload =>
    obtain ⟨cat, _, h⟩ := bind_eq_ok.mp h
    obtain ⟨cat', hupdate, h⟩ := bind_eq_ok.mp h
    cases h
    rfl
  | deactivate categoryId =>
    obtain ⟨cat, hmem, h⟩ := bind_eq_ok.mp h
    cases h
    rfl
  | addFile categoryId upload userId =>
    obtain ⟨cat, _, h⟩ := bind_eq_ok.mp h
    unfold addAutoReplyFile at h
    split at h
    · cases h
    split at h
    · cases h
    split at h
    · cases h
    · cases h
      rfl
  | removeFile categoryId fileId =>
    obtain ⟨cat, _, h⟩ := bind_eq_ok.mp h
    unfold removeAutoReplyFile at h
    split at h
    · cases h
    · cases h
      rfl

theorem insertFiling_accounted {db : Db} (h : db.Accounted id) (hwf : db.Wf) {f : Filing}
    {student : User} {data : RequestCreate} {trackingNo : String} {clientRef : Option String}
    {client : Option ApiClient}
    (hfile : fileRequest cfg (db.synced f.sync) student data trackingNo clientRef client now =
      .ok (f.req, f.session)) : (insertFiling db f).Accounted id := by
  have hbase := synced_elsewhere db f.sync
  have hlogs : (db.synced f.sync).auditLogs = db.auditLogs := by
    cases f.sync <;> rfl
  rw [insertFiling_eq]
  exact (h.of_eq (hbase.life? id) (Db.trail_congr hlogs id)).filed (hbase.wf hwf) hfile

/-! ## Every run -/

/-- Every event keeps the log up with the tables. -/
theorem step_accounted (cfg : Settings) {db : Db} (hwf : db.Wf) (e : Event)
    (h : db.Accounted id) : (step cfg db e).Accounted id := by
  unfold step
  cases happly : e.step.apply cfg db e.now with
  | error _ => exact h
  | ok db' =>
    dsimp only
    cases hstep : e.step with
    | create userId data key trackingNo =>
      rw [hstep] at happly
      obtain ⟨student, -, rfl | ⟨req, session, hfile, rfl⟩⟩ := runCreate_eq_ok happly
      · exact h
      · exact insertFiling_accounted h hwf hfile
    | clientCreate client profile data key trackingNo =>
      rw [hstep] at happly
      obtain ⟨sync, -, rfl | ⟨req, session, hfile, rfl⟩⟩ := runClientCreate_eq_ok happly
      · exact h
      · exact insertFiling_accounted h hwf hfile
    | call c =>
      rw [hstep] at happly
      obtain ⟨w, hhandle, happly⟩ := bind_eq_ok.mp happly
      cases happly
      obtain ⟨hmem, -, hchange⟩ := handle_change hhandle
      obtain ⟨actor, -, hdeed⟩ := (handle_deed hhandle).done
      exact h.finish hwf hmem hchange (handle_accounts hhandle) fun hsound =>
        deed_account hsound hdeed
    | sweep useLock won =>
      rw [hstep] at happly
      cases happly
      refine sweep_relates (R := fun db db' => db.Accounted id → db'.Accounted id) (fun _ h => h)
        (fun h h' => h' ∘ h) (fun db r hwf hr hneeds h => ?_) hwf useLock won h
      refine h.finish (w := sweepOne cfg db r e.now) hwf hr
        (sweepOne_change (needsNotice_running hneeds)) (sweepOne_accounts cfg db r e.now) fun _ =>
          sweepOne_account (l := db.lifeOf r) cfg db e.now
    | catalogue edit =>
      rw [hstep] at happly
      exact h.of_eq ((catalogueEdit_elsewhere happly).life? id)
        (Db.trail_congr (catalogueEdit_auditLogs happly) id)
    | people users departments faculties studentGroups =>
      rw [hstep] at happly
      cases happly
      exact h.of_eq (life?_outside rfl rfl rfl rfl rfl id) rfl

/-- A server that has neither requests nor entries about any. -/
theorem start_accounted {db : Db} (h : Start db)
    (hlog : ∀ a ∈ db.auditLogs, a.entityType ≠ "request") (id : Nat) : db.Accounted id where
  sound := by rw [h.life?]; rintro l ⟨⟩
  unopened _ := by
    rw [Db.trail, List.filter_eq_nil_iff.mpr fun a ha => by simp [hlog a ha], List.map_nil]
  accounted := by rw [h.life?]; rintro l ⟨⟩

/-- The audit log is complete and in order. After every run of calls one at a
time, the entries of each request, read one after the other, never have one out of place and end
at the number, title, status, handler and uploads its row and files hold; no
entry is about a request that was never filed. -/
theorem audit_trail_complete (cfg : Settings) {db₀ : Db} (h : Start db₀)
    (hlog : ∀ a ∈ db₀.auditLogs, a.entityType ≠ "request") (es : List Event) :
    (∀ req ∈ (Runs.run (step cfg) db₀ es).requests,
      ((Runs.run (step cfg) db₀ es).trail req.id).foldl Account.read none =
        some ((Runs.run (step cfg) db₀ es).lifeOf req).account) ∧
    ∀ a ∈ (Runs.run (step cfg) db₀ es).auditLogs, a.entityType = "request" →
      ∀ id, a.entityId = some id → ∃ req ∈ (Runs.run (step cfg) db₀ es).requests, req.id = id := by
  have hwf := run_wf cfg h.wf es
  have hkept : ∀ id, (Runs.run (step cfg) db₀ es).Accounted id := fun id =>
    (Runs.run_invariant (I := fun db : Db => db.Wf ∧ db.Accounted id)
      (fun db e hdb => ⟨(step_life cfg hdb.1 e).1, step_accounted cfg hdb.1 e hdb.2⟩)
      ⟨h.wf, start_accounted h hlog id⟩ es).2
  refine ⟨fun req hreq => (hkept req.id).accounted _ (hwf.life?_mem hreq), ?_⟩
  intro a ha htype id hid
  cases hlife : (Runs.run (step cfg) db₀ es).life? id with
  | none =>
    have hnone := (hkept id).unopened hlife
    rw [Db.trail, List.map_eq_nil_iff, List.filter_eq_nil_iff] at hnone
    exact absurd (by simp [htype, hid]) (hnone a ha)
  | some l =>
    obtain ⟨req, hreq, hsame, -⟩ := life?_eq_some hlife
    exact ⟨req, hreq, hsame⟩

/-- A request of the office, through a return. -/
theorem audit_trail_complete_office :
    (Runs.run (step {}) office [filing 0, returning 1, resubmitting 2, answering 3]).requests.map
      (·.status) = [.completed] ∧
    (∀ req ∈ (Runs.run (step {}) office
        [filing 0, returning 1, resubmitting 2, answering 3]).requests,
      ((Runs.run (step {}) office
        [filing 0, returning 1, resubmitting 2, answering 3]).trail req.id).foldl
          Account.read none =
        some ((Runs.run (step {}) office
          [filing 0, returning 1, resubmitting 2, answering 3]).lifeOf req).account) ∧
    ∀ a ∈ (Runs.run (step {}) office
        [filing 0, returning 1, resubmitting 2, answering 3]).auditLogs,
      a.entityType = "request" → ∀ id, a.entityId = some id →
        ∃ req ∈ (Runs.run (step {}) office
          [filing 0, returning 1, resubmitting 2, answering 3]).requests, req.id = id :=
  ⟨by decide +kernel, audit_trail_complete {} office_start (by simp [office])
    [filing 0, returning 1, resubmitting 2, answering 3]⟩

end Royd
