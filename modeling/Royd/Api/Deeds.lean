/-
Royd.Api.Deeds — what a call does to its request, in full: who acts, on
what authority, which row is left and which rows and webhooks are added.

`Change` (Services.RequestsTheorems) says of a handler what the lifecycle of
a request depends on. `Deed` says who did it and what the partner platform
is told; `handle_deed` gives every handler its deed, so that no theorem
about authority, notices or webhooks reads a handler again.
-/
import Royd.Api.RequestsTheorems
import Royd.Services.Webhooks

namespace Royd.Api

variable {cfg : Settings} {db : Db} {now : Int}

/-! ## Authority -/

/-- The user whose access token a call carries. -/
def Call.userId? : Call → Option Nat
  | .assign userId _ _ => some userId
  | .transition userId _ _ => some userId
  | .answer userId _ _ _ => some userId
  | .resubmit userId _ _ => some userId
  | .message userId _ _ => some userId
  | .upload userId _ _ => some userId
  | _ => none

/-- The integration whose token a call carries. -/
def Call.client? : Call → Option ApiClient
  | .clientMessage client _ _ => some client
  | .clientUpload client _ _ => some client
  | .clientResubmit client _ _ => some client
  | _ => none

/-- The user may act on the request: its student, the member of staff it is
assigned to, or whoever triages. -/
def Acts (r : Request) (u : User) : Prop :=
  (u.role = .student ∧ r.studentId = u.id) ∨ (u.role = .staff ∧ r.assignedTo = some u.id) ∨
    u.role ∈ Role.canTriage

/-- On whose authority a call acts, and as which user. -/
inductive Authority (db : Db) (r : Request) (c : Call) (actor : User) : Prop
  | user {userId : Nat} (caller : c.userId? = some userId)
      (active : currentUser db userId = .ok actor) (acts : Acts r actor)
  | client {client : ApiClient} (caller : c.client? = some client)
      (filed : r.apiClientId = some client.id) (student : db.getUser r.studentId = some actor)

/-! ## Deeds -/

/-- What a handler of `r` with the user `actor` leaves: the row and the
session it is about to commit. -/
inductive Deed (cfg : Settings) (db : Db) (now : Int) (r : Request) (actor : User) :
    Request → Session → Prop
  | assigned {s : Session} {e : RequestHistory} (assignee : User) (facultyId departmentId : Option Nat)
      (triage : actor.role ∈ Role.canTriage) (isOpen : r.status ∉ RequestStatus.closed)
      (entry : e.Entry r now r.status r.status) (by' : e.changedBy = some actor.id)
      (rows : s.Leaves [e] [] [] []) :
      Deed cfg db now r actor
        { r with assignedTo := some assignee.id, facultyId, departmentId } s
  | moved {s : Session} {e : RequestHistory} {req' : Request} (target : RequestStatus)
      (comment : Option String) (mover : actor.role ∈ Role.canTransition)
      (allowed : target ∈ allowedTransitions r.status)
      (applied : applyStatus cfg r target now = .ok req')
      (entry : e.Entry r now r.status target) (by' : e.changedBy = some actor.id)
      (rows : s.Leaves [e] [] [] (published cfg db req' (.statusChanged r.status comment none))) :
      Deed cfg db now r actor req' s
  | resubmitted {s : Session} {e : RequestHistory} {req' : Request} (comment : Option String)
      (owner : r.studentId = actor.id) (status : r.status = .returned)
      (applied : applyStatus cfg r .inProgress now = .ok req')
      (entry : e.Entry r now .returned .inProgress) (by' : e.changedBy = some actor.id)
      (rows : s.Leaves [e] [] [] (published cfg db req' (.statusChanged .returned comment none))) :
      Deed cfg db now r actor req' s
  | answered {s : Session} {e : RequestHistory} {req' : Request} {fs : List RequestFile}
      (text : String) (mover : actor.role ∈ Role.canTransition)
      (isOpen : r.status ∉ RequestStatus.closed)
      (applied : applyStatus cfg
        { r with answerText := some text, answeredAt := some now, answeredBy := some actor.id }
        .completed now = .ok req')
      (entry : e.Entry r now r.status .completed) (by' : e.changedBy = some actor.id)
      (own : ∀ f ∈ fs, f.requestId = r.id ∧ f.uploadedBy = actor.id ∧ f.isAnswer = true)
      (rows : s.Leaves [e] fs []
        ((fs.flatMap fun f => published cfg db r (fileBody r f)) ++
          published cfg db req' (.statusChanged r.status none
            (some (answerEvent req' (some actor.fullName) fs))))) :
      Deed cfg db now r actor req' s
  | said {s : Session} {m : Message} (own : m.requestId = r.id) (by' : m.senderId = actor.id)
      (isOpen : m.isInternal = false → r.status ∉ RequestStatus.closed)
      (insider : m.isInternal = true → actor.role ∈ Role.canTransition)
      (rows : s.Leaves [] [] [m]
        (if m.isInternal then [] else published cfg db r (messageBody r actor m))) :
      Deed cfg db now r actor r s
  | attached {s : Session} {f : RequestFile} (own : f.requestId = r.id)
      (by' : f.uploadedBy = actor.id) (ordinary : f.isAnswer = false)
      (isOpen : r.status ∉ RequestStatus.closed)
      (rows : s.Leaves [] [f] [] (published cfg db r (fileBody r f))) :
      Deed cfg db now r actor r s

/-- A handler has its deed. -/
structure Does (cfg : Settings) (db : Db) (now : Int) (c : Call) (w : Work) : Prop where
  committed : w.loaded ∈ db.requests
  about : w.loaded.id = c.requestId
  done : ∃ actor, Authority db w.loaded c actor ∧
    Deed cfg db now w.loaded actor w.req w.session

/-! ## The checks -/

theorem currentUser_eq_ok {userId : Nat} {u : User} :
    currentUser db userId = .ok u ↔ db.getUser userId = some u ∧ u.isActive = true := by
  unfold currentUser
  cases hu : db.getUser userId with
  | none => simp
  | some user =>
    by_cases hactive : user.isActive = true
    · simp [hactive]
      rintro rfl
      exact hactive
    · simp only [hactive]
      constructor
      · intro h
        cases h
      · rintro ⟨⟨⟩, h⟩
        exact absurd h hactive

theorem requireRoles_eq_ok {userId : Nat} {roles : List Role} {u : User} :
    requireRoles db userId roles = .ok u ↔ currentUser db userId = .ok u ∧ u.role ∈ roles := by
  unfold requireRoles
  rw [bind_eq_ok]
  constructor
  · rintro ⟨user, huser, h⟩
    split at h
    · rename_i hrole
      cases h
      exact ⟨huser, by simpa [User.hasRole] using hrole⟩
    · cases h
  · rintro ⟨huser, hrole⟩
    refine ⟨u, huser, ?_⟩
    rw [if_pos (by simpa [User.hasRole] using hrole)]

theorem assertMayMutate_eq_ok {u : User} {x : Unit} :
    assertMayMutate u = .ok x ↔ u.role ≠ .leadership := by
  unfold assertMayMutate
  rw [raise_eq_ok]
  simp [User.hasRole, Role.readOnly]

theorem assertCanView_eq_ok {r : Request} {u : User} {x : Unit} :
    assertCanView r u = .ok x ↔
      (u.role = .student → r.studentId = u.id) ∧ (u.role = .staff → r.assignedTo = some u.id) := by
  unfold assertCanView
  split
  · rename_i h
    simp only [reduceCtorEq, false_iff]
    exact fun hview => h.2 (hview.1 h.1)
  · split
    · rename_i h
      simp only [reduceCtorEq, false_iff]
      exact fun hview => h.2 (hview.2 h.1)
    · rename_i hstudent hstaff
      simp only [true_iff]
      constructor
      · intro hrole
        by_contra hne
        exact hstudent ⟨hrole, hne⟩
      · intro hrole
        by_contra hne
        exact hstaff ⟨hrole, hne⟩

/-- Whoever may see a request and is not read-only may act on it. -/
theorem acts_of_view {r : Request} {u : User} (hview : assertCanView r u = .ok ())
    (hmutate : u.role ≠ .leadership) : Acts r u := by
  obtain ⟨hstudent, hstaff⟩ := assertCanView_eq_ok.mp hview
  cases hrole : u.role with
  | student => exact .inl ⟨hrole, hstudent hrole⟩
  | staff => exact .inr (.inl ⟨hrole, hstaff hrole⟩)
  | leadership => exact absurd hrole hmutate
  | registrator => exact .inr (.inr (by rw [hrole]; decide))
  | admin => exact .inr (.inr (by rw [hrole]; decide))

/-- What `get_request_for_user` returned: the committed row, which the user
may see. -/
theorem getRequestForUser_view {requestId : Nat} {u : User} {w : Work}
    (h : getRequestForUser db requestId u = .ok w) :
    ∃ r ∈ db.requests, r.id = requestId ∧ assertCanView r u = .ok () ∧ w = Work.load db r := by
  unfold getRequestForUser at h
  split at h
  · cases h
  · rename_i r hr
    obtain ⟨⟨⟩, hview, hw⟩ := bind_eq_ok.mp h
    cases hw
    exact ⟨r, (getRequest_mem hr).1, (getRequest_mem hr).2, hview, rfl⟩

theorem ne_leadership {u : User} {roles : List Role} (hrole : u.role ∈ roles)
    (hroles : Role.leadership ∉ roles) : u.role ≠ .leadership :=
  fun heq => hroles (heq ▸ hrole)

/-! ## The handlers -/

/-- Up to here the handler of `r` has left the row alone. -/
structure Work.Ready (w : Work) (r : Request) (fs : List RequestFile) (ws : List Webhook) :
    Prop where
  loaded : w.loaded = r
  req : w.req = r
  rows : w.session.Leaves [] fs [] ws

theorem Work.ready_load (db : Db) (r : Request) : Ready (Work.load db r) r [] [] :=
  ⟨rfl, rfl, Session.Leaves.empty _ _⟩

theorem assign_does {userId requestId : Nat} {data : RequestAssign} {w : Work}
    (h : assign cfg db userId requestId data now = .ok w) :
    Does cfg db now (.assign userId requestId data) w := by
  obtain ⟨actor, hactor, h⟩ := bind_eq_ok.mp h
  obtain ⟨w₀, hload, h⟩ := bind_eq_ok.mp h
  obtain ⟨w₁, hassign, h⟩ := bind_eq_ok.mp h
  cases h
  obtain ⟨r, hr, hid, hview, rfl⟩ := getRequestForUser_view hload
  obtain ⟨hcurrent, hrole⟩ := requireRoles_eq_ok.mp hactor
  obtain ⟨_, hmutate, hassign⟩ := bind_eq_ok.mp hassign
  obtain ⟨_, hopen, hassign⟩ := bind_eq_ok.mp hassign
  obtain ⟨assignee, _, hassign⟩ := bind_eq_ok.mp hassign
  cases hassign
  refine ⟨hr, hid, actor, .user rfl hcurrent (.inr (.inr hrole)), ?_⟩
  refine .assigned assignee _ _ hrole (assertOpen_eq_ok.mp hopen) ?_ ?_
    ((((Session.Leaves.empty _ _).addHistory _ _ _ _ _ _).logAction _ _ _ _ _ _).notifyAssigned
      cfg db _ _)
  · exact ⟨rfl, rfl, rfl, rfl⟩
  · rfl

theorem transition_does {userId requestId : Nat} {data : RequestTransition} {w : Work}
    (h : transition cfg db userId requestId data now = .ok w) :
    Does cfg db now (.transition userId requestId data) w := by
  obtain ⟨actor, hactor, h⟩ := bind_eq_ok.mp h
  obtain ⟨w₀, hload, h⟩ := bind_eq_ok.mp h
  obtain ⟨w₁, hmove, h⟩ := bind_eq_ok.mp h
  cases h
  obtain ⟨r, hr, hid, hview, rfl⟩ := getRequestForUser_view hload
  obtain ⟨hcurrent, hrole⟩ := requireRoles_eq_ok.mp hactor
  obtain ⟨target, _, hmove⟩ := bind_eq_ok.mp hmove
  obtain ⟨_, hcheck, hmove⟩ := bind_eq_ok.mp hmove
  obtain ⟨_, _, hmove⟩ := bind_eq_ok.mp hmove
  obtain ⟨req', happly, hmove⟩ := bind_eq_ok.mp hmove
  cases hmove
  have hacts := acts_of_view hview (ne_leadership hrole (by decide))
  have hreq : req'.id = r.id := by
    rw [(applyStatus_eq_ok happly).shape]
    rfl
  refine ⟨hr, hid, actor, .user rfl hcurrent hacts, ?_⟩
  refine .moved target data.comment hrole (checkTransition_allowed hcheck) happly ?_ ?_
    (((((Session.Leaves.empty _ _).addHistory _ _ _ _ _ _).logAction _ _ _ _ _ _).notifyUser
      cfg db _ _ _ _ _ _).publish cfg db _ _)
  · exact ⟨hreq, rfl, rfl, rfl⟩
  · rfl

/-- The entry of a request that is sent back. -/
def resubmission (r : Request) (student : User) (comment : Option String) (now : Int) (id : Nat) :
    RequestHistory where
  id := id
  requestId := r.id
  changedBy := some student.id
  oldStatus := some .returned
  newStatus := .inProgress
  comment := some (orDefault comment "Talaba murojaatni to'ldirib qayta yubordi")
  createdAt := now

/-- `resubmit_returned`, for a caller of either kind: when it goes through,
and what it leaves. -/
theorem resubmitReturned_leaves {r : Request} {w : Work} {student : User} {comment : Option String}
    (h : resubmitReturned cfg db (Work.load db r) student comment now = .ok w) :
    r.studentId = student.id ∧ r.status = .returned ∧
      applyStatus cfg r .inProgress now = .ok w.req ∧ w.loaded = r ∧
      w.session.Leaves [resubmission r student comment now db.nextId] [] []
        (published cfg db w.req (.statusChanged .returned comment none)) := by
  obtain ⟨w₁, hresubmit, h⟩ := bind_eq_ok.mp h
  cases h
  unfold resubmitRequest at hresubmit
  split at hresubmit
  · cases hresubmit
  rename_i howner
  split at hresubmit
  · cases hresubmit
  rename_i hstatus
  obtain ⟨req', happly, hresubmit⟩ := bind_eq_ok.mp hresubmit
  cases hresubmit
  refine ⟨not_not.mp howner, not_not.mp hstatus, happly, rfl, ?_⟩
  have hlog := (((Session.Leaves.empty db.nextId db.nextMessageId).addHistory req'
    (some student.id) (some .returned) .inProgress
    (some (orDefault comment "Talaba murojaatni to'ldirib qayta yubordi")) now).logAction
    (some student.id) "request.resubmit" "request" req'.id
    [("status", .text RequestStatus.returned.code)] [("status", .text req'.status.code)])
  have hreq : req'.id = r.id := by
    rw [(applyStatus_eq_ok happly).shape]
    rfl
  unfold resubmission
  rw [← hreq]
  refine Session.Leaves.publishFirst ?_ cfg db _ _
  dsimp only
  split
  · exact hlog.notifyUser cfg db _ _ _ _ _ _
  · exact hlog

theorem resubmitReturned_deed {r : Request} {w : Work} {student : User} {comment : Option String}
    (h : resubmitReturned cfg db (Work.load db r) student comment now = .ok w) :
    w.loaded = r ∧ Deed cfg db now r student w.req w.session := by
  obtain ⟨howner, hstatus, happly, hloaded, hrows⟩ := resubmitReturned_leaves h
  exact ⟨hloaded, .resubmitted comment howner hstatus happly ⟨rfl, rfl, rfl, rfl⟩ rfl hrows⟩

theorem resubmit_does {userId requestId : Nat} {comment : Option String} {w : Work}
    (h : resubmit cfg db userId requestId comment now = .ok w) :
    Does cfg db now (.resubmit userId requestId comment) w := by
  obtain ⟨student, hstudent, h⟩ := bind_eq_ok.mp h
  obtain ⟨w₀, hload, h⟩ := bind_eq_ok.mp h
  obtain ⟨r, hr, hid, hview, rfl⟩ := getRequestForUser_view hload
  obtain ⟨hcurrent, hrole⟩ := requireRoles_eq_ok.mp hstudent
  obtain ⟨hloaded, hdeed⟩ := resubmitReturned_deed h
  have hacts := acts_of_view hview (ne_leadership hrole (by decide))
  rw [← hloaded] at hr hid hacts hdeed
  exact ⟨hr, hid, student, .user rfl hcurrent hacts, hdeed⟩

/-- One stored upload. -/
theorem attachFile_leaves {r : Request} {fs : List RequestFile} {ws : List Webhook} {w w' : Work}
    {uploader : User} {isAnswer : Bool} {upload : Upload} (hw : Work.Ready w r fs ws)
    (h : attachFile cfg db w uploader isAnswer upload now = .ok w') :
    ∃ fileMeta, saveUpload cfg.maxUploadMb upload r.id = .ok fileMeta ∧
      Work.Ready w' r (fs ++ [fileRecord r uploader isAnswer fileMeta now w.session.nextId])
        (ws ++ published cfg db r
          (fileBody r (fileRecord r uploader isAnswer fileMeta now w.session.nextId))) := by
  obtain ⟨fileMeta, hsaved, h⟩ := bind_eq_ok.mp h
  cases h
  have hreq := hw.req
  rw [hreq] at hsaved ⊢
  refine ⟨fileMeta, hsaved, hw.loaded, rfl, ?_⟩
  exact ((hw.rows.addFile (fileRecord r uploader isAnswer fileMeta now)
    fun _ => rfl).logAction (some uploader.id) "request.file_upload" "request" r.id []
    [("file_name", .text fileMeta.fileName), ("size", .num fileMeta.fileSize)]).publish cfg db r
    (fileBody r (fileRecord r uploader isAnswer fileMeta now w.session.nextId))

theorem attachFile_ready {r : Request} {fs : List RequestFile} {ws : List Webhook} {w w' : Work}
    {uploader : User} {isAnswer : Bool} {upload : Upload} (hw : Work.Ready w r fs ws)
    (h : attachFile cfg db w uploader isAnswer upload now = .ok w') :
    ∃ f : RequestFile, f.requestId = r.id ∧ f.uploadedBy = uploader.id ∧ f.isAnswer = isAnswer ∧
      Work.Ready w' r (fs ++ [f]) (ws ++ published cfg db r (fileBody r f)) := by
  obtain ⟨fileMeta, -, hready⟩ := attachFile_leaves hw h
  exact ⟨_, rfl, rfl, rfl, hready⟩

/-- The loop that attaches an answer's files. -/
theorem attachFiles_ready {r : Request} {actor : User} : ∀ {uploads : List Upload} {w w' : Work}
    {fs : List RequestFile},
    Work.Ready w r fs (fs.flatMap fun f => published cfg db r (fileBody r f)) →
    (∀ f ∈ fs, f.requestId = r.id ∧ f.uploadedBy = actor.id ∧ f.isAnswer = true) →
    uploads.foldlM (fun w f => attachFile cfg db w actor true f now) w = .ok w' →
    ∃ fs', (∀ f ∈ fs', f.requestId = r.id ∧ f.uploadedBy = actor.id ∧ f.isAnswer = true) ∧
      Work.Ready w' r fs' (fs'.flatMap fun f => published cfg db r (fileBody r f))
  | [], w, w', fs, hw, hfs, h => by
    cases h
    exact ⟨fs, hfs, hw⟩
  | upload :: uploads, w, w', fs, hw, hfs, h => by
    rw [List.foldlM_cons] at h
    obtain ⟨w₁, hattach, h⟩ := bind_eq_ok.mp h
    obtain ⟨f, hown, hby, hanswer, hw₁⟩ := attachFile_ready hw hattach
    have hws : (fs.flatMap fun f => published cfg db r (fileBody r f)) ++
        published cfg db r (fileBody r f) =
        (fs ++ [f]).flatMap fun f => published cfg db r (fileBody r f) := by simp
    rw [hws] at hw₁
    refine attachFiles_ready hw₁ (fun g hg => ?_) h
    rcases List.mem_append.mp hg with hg | hg
    · exact hfs g hg
    · rw [List.mem_singleton.mp hg]
      exact ⟨hown, hby, hanswer⟩

theorem answer_does {userId requestId : Nat} {text : String} {files : List Upload} {w : Work}
    (h : answer cfg db userId requestId text files now = .ok w) :
    Does cfg db now (.answer userId requestId text files) w := by
  obtain ⟨actor, hactor, h⟩ := bind_eq_ok.mp h
  obtain ⟨w₀, hload, h⟩ := bind_eq_ok.mp h
  obtain ⟨_, hcan, h⟩ := bind_eq_ok.mp h
  obtain ⟨_, _, h⟩ := bind_eq_ok.mp h
  obtain ⟨w₁, hattach, h⟩ := bind_eq_ok.mp h
  obtain ⟨w₂, hanswer, h⟩ := bind_eq_ok.mp h
  cases h
  obtain ⟨r, hr, hid, hview, rfl⟩ := getRequestForUser_view hload
  obtain ⟨hcurrent, hrole⟩ := requireRoles_eq_ok.mp hactor
  obtain ⟨fs, hfs, hready⟩ := attachFiles_ready (Work.ready_load db r) (by simp) hattach
  obtain ⟨_, _, hanswer⟩ := bind_eq_ok.mp hanswer
  split at hanswer
  · cases hanswer
  obtain ⟨req', happly, hanswer⟩ := bind_eq_ok.mp hanswer
  cases hanswer
  have hacts := acts_of_view hview (ne_leadership hrole (by decide))
  have hfiles := hready.rows.files
  have hreq : req'.id = r.id := by rw [(applyStatus_eq_ok happly).shape, hready.req]
  have hold : w₁.req.status = r.status := by rw [hready.req]
  rw [hready.req] at happly
  refine ⟨?_, ?_, actor, .user rfl hcurrent ?_, ?_⟩
  · exact hready.loaded ▸ hr
  · exact hready.loaded ▸ hid
  · exact hready.loaded ▸ hacts
  · have hrows := ((((hready.rows.addHistory req' (some actor.id) (some w₁.req.status) .completed
      (some "Yakuniy javob yuborildi") now).logAction (some actor.id) "request.answer" "request"
      req'.id [("status", .text w₁.req.status.code)]
      [("status", .text req'.status.code), ("files", .texts (w₁.session.files.map (·.fileName)))]).notifyUser
      cfg db req'.studentId .requestStatus ("Murojaatingizga javob berildi: " ++ req'.trackingNo)
      (answerLines req' ("'" ++ req'.title ++ "' murojaatingiz bo'yicha yakuniy javob:")) req'
      "/student/requests").publish cfg db req' (.statusChanged w₁.req.status none
        (some (answerEvent req' (some actor.fullName) w₁.session.files))))
    rw [hold, hfiles] at hrows
    dsimp only
    rw [hready.loaded, hold, hfiles]
    exact .answered (strip text) hrole (assertHandler_open hcan) happly
      ⟨hreq, rfl, rfl, rfl⟩ rfl hfs hrows

/-- The row of a message. -/
def messageRecord (req : Request) (sender : User) (content : String) (isInternal : Bool)
    (now : Int) (id : Nat) : Message where
  id := id
  requestId := req.id
  senderId := sender.id
  content := strip content
  isInternal := isInternal
  createdAt := now

/-- `post_message`, for a caller of either kind. -/
theorem postMessage_leaves (r : Request) (sender : User) (content : String) (isInternal : Bool) :
    (postMessage cfg db (Work.load db r) sender content isInternal now).session.Leaves
      [] [] [messageRecord r sender content isInternal now db.nextMessageId]
      (if isInternal then [] else published cfg db r
        (messageBody r sender (messageRecord r sender content isInternal now db.nextMessageId))) := by
  have hrows := (Session.Leaves.empty db.nextId db.nextMessageId).addMessage
    (messageRecord r sender content isInternal now) (fun _ => rfl)
  unfold postMessage
  dsimp only
  split
  · exact hrows
  · refine Session.Leaves.publishFirst ?_ cfg db r
      (messageBody r sender (messageRecord r sender content isInternal now db.nextMessageId))
    exact Session.Leaves.foldl (fun s a hs => hs.createNotification _ _ _ _ _ _) hrows _

theorem postMessage_deed {r : Request} {sender : User} {content : String} {isInternal : Bool}
    (hopen : isInternal = false → r.status ∉ RequestStatus.closed)
    (hinsider : isInternal = true → sender.role ∈ Role.canTransition) :
    Deed cfg db now r sender r
      (postMessage cfg db (Work.load db r) sender content isInternal now).session :=
  .said rfl rfl hopen hinsider (postMessage_leaves r sender content isInternal)

theorem addMessage_does {userId requestId : Nat} {data : MessageCreate} {w : Work}
    (h : addMessage cfg db userId requestId data now = .ok w) :
    Does cfg db now (.message userId requestId data) w := by
  obtain ⟨user, hcurrent, h⟩ := bind_eq_ok.mp h
  obtain ⟨w₀, hload, h⟩ := bind_eq_ok.mp h
  obtain ⟨_, hcheck, h⟩ := bind_eq_ok.mp h
  cases h
  obtain ⟨r, hr, hid, hview, rfl⟩ := getRequestForUser_view hload
  obtain ⟨_, hmutate, hcheck⟩ := bind_eq_ok.mp hcheck
  have hnot := assertMayMutate_eq_ok.mp hmutate
  refine ⟨hr, hid, user, .user rfl hcurrent (acts_of_view hview hnot), ?_⟩
  refine postMessage_deed (fun hpublic => ?_) (fun hinternal => ?_)
  · simp only [hpublic, Bool.false_eq_true, false_and, if_false, not_false_eq_true, if_true]
      at hcheck
    exact assertOpen_eq_ok.mp hcheck
  · have hsees : user.role ∈ Role.seesInternal := by
      by_contra hno
      rw [if_pos ⟨hinternal, by simpa [User.hasRole] using hno⟩] at hcheck
      cases hcheck
    cases hrole : user.role with
    | student =>
      rw [hrole] at hsees
      exact absurd hsees (by decide)
    | leadership => exact absurd hrole hnot
    | staff => decide
    | registrator => decide
    | admin => decide

/-- `attach_file` outside an answer. -/
theorem attachFile_deed {r : Request} {w : Work} {uploader : User} {upload : Upload}
    (hopen : r.status ∉ RequestStatus.closed)
    (h : attachFile cfg db (Work.load db r) uploader false upload now = .ok w) :
    w.loaded = r ∧ Deed cfg db now r uploader w.req w.session := by
  obtain ⟨f, hown, hby, hanswer, hready⟩ := attachFile_ready (Work.ready_load db r) h
  refine ⟨hready.loaded, ?_⟩
  rw [hready.req]
  exact .attached hown hby hanswer hopen hready.rows

theorem uploadFile_does {userId requestId : Nat} {upload : Upload} {w : Work}
    (h : uploadFile cfg db userId requestId upload now = .ok w) :
    Does cfg db now (.upload userId requestId upload) w := by
  obtain ⟨user, hcurrent, h⟩ := bind_eq_ok.mp h
  obtain ⟨w₀, hload, h⟩ := bind_eq_ok.mp h
  obtain ⟨_, hmutate, h⟩ := bind_eq_ok.mp h
  obtain ⟨_, hopen, h⟩ := bind_eq_ok.mp h
  obtain ⟨r, hr, hid, hview, rfl⟩ := getRequestForUser_view hload
  obtain ⟨hloaded, hdeed⟩ := attachFile_deed (r := r) (assertOpen_eq_ok.mp hopen) h
  have hacts := acts_of_view hview (assertMayMutate_eq_ok.mp hmutate)
  rw [← hloaded] at hr hid hacts hdeed
  exact ⟨hr, hid, user, .user rfl hcurrent hacts, hdeed⟩

/-- `_owned_request` returns a row the client filed. -/
theorem ownedRequest_view {requestId : Nat} {client : ApiClient} {w : Work}
    (h : ownedRequest db requestId client = .ok w) :
    ∃ r ∈ db.requests, r.id = requestId ∧ r.apiClientId = some client.id ∧ w = Work.load db r := by
  unfold ownedRequest at h
  split at h
  · cases h
  · rename_i r hr
    cases h
    have hown := List.find?_some hr
    simp only [Bool.and_eq_true, beq_iff_eq] at hown
    exact ⟨r, List.mem_of_find?_eq_some hr, hown.1, hown.2, rfl⟩

theorem studentOf_eq_ok {r : Request} {student : User} (h : studentOf db r = .ok student) :
    db.getUser r.studentId = some student := by
  unfold studentOf at h
  split at h
  · rename_i hu
    cases h
    exact hu
  · cases h

theorem clientMessage_does {client : ApiClient} {requestId : Nat} {content : String} {w : Work}
    (h : clientMessage cfg db client requestId content now = .ok w) :
    Does cfg db now (.clientMessage client requestId content) w := by
  obtain ⟨w₀, howned, h⟩ := bind_eq_ok.mp h
  obtain ⟨_, hopen, h⟩ := bind_eq_ok.mp h
  obtain ⟨student, hstudent, h⟩ := bind_eq_ok.mp h
  cases h
  obtain ⟨r, hr, hid, hfiled, rfl⟩ := ownedRequest_view howned
  refine ⟨hr, hid, student, .client rfl hfiled (studentOf_eq_ok hstudent), ?_⟩
  exact postMessage_deed (fun _ => assertOpen_eq_ok.mp hopen) (fun h => by cases h)

theorem clientUpload_does {client : ApiClient} {requestId : Nat} {upload : Upload} {w : Work}
    (h : clientUpload cfg db client requestId upload now = .ok w) :
    Does cfg db now (.clientUpload client requestId upload) w := by
  obtain ⟨w₀, howned, h⟩ := bind_eq_ok.mp h
  obtain ⟨_, hopen, h⟩ := bind_eq_ok.mp h
  obtain ⟨student, hstudent, h⟩ := bind_eq_ok.mp h
  obtain ⟨r, hr, hid, hfiled, rfl⟩ := ownedRequest_view howned
  obtain ⟨hloaded, hdeed⟩ := attachFile_deed (r := r) (assertOpen_eq_ok.mp hopen) h
  have hactor := studentOf_eq_ok hstudent
  change db.getUser r.studentId = some student at hactor
  rw [← hloaded] at hr hid hfiled hactor hdeed
  exact ⟨hr, hid, student, .client rfl hfiled hactor, hdeed⟩

theorem clientResubmit_does {client : ApiClient} {requestId : Nat} {comment : Option String}
    {w : Work} (h : clientResubmit cfg db client requestId comment now = .ok w) :
    Does cfg db now (.clientResubmit client requestId comment) w := by
  obtain ⟨w₀, howned, h⟩ := bind_eq_ok.mp h
  obtain ⟨student, hstudent, h⟩ := bind_eq_ok.mp h
  obtain ⟨r, hr, hid, hfiled, rfl⟩ := ownedRequest_view howned
  obtain ⟨hloaded, hdeed⟩ := resubmitReturned_deed h
  have hactor := studentOf_eq_ok hstudent
  change db.getUser r.studentId = some student at hactor
  rw [← hloaded] at hr hid hfiled hactor hdeed
  exact ⟨hr, hid, student, .client rfl hfiled hactor, hdeed⟩

/-- Every handler does one deed, on somebody's authority. -/
theorem handle_deed {c : Call} {w : Work} (h : c.handle cfg db now = .ok w) :
    Does cfg db now c w := by
  cases c with
  | assign userId requestId data => exact assign_does h
  | transition userId requestId data => exact transition_does h
  | answer userId requestId text files => exact answer_does h
  | resubmit userId requestId comment => exact resubmit_does h
  | message userId requestId data => exact addMessage_does h
  | upload userId requestId file => exact uploadFile_does h
  | clientMessage client requestId content => exact clientMessage_does h
  | clientUpload client requestId file => exact clientUpload_does h
  | clientResubmit client requestId comment => exact clientResubmit_does h

end Royd.Api
