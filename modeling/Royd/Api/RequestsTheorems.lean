/-
Royd.Api.RequestsTheorems — every endpoint that touches a request is a
`Change` of the row it loaded, and a filing adds a request in one of the
two shapes `create_request` gives it.
-/
import Royd.Api.Steps
import Royd.Services.RequestsTheorems

namespace Royd.Api

variable {cfg : Settings} {db : Db} {now : Int}

/-! ## Endpoints that change a request -/

/-- What an endpoint is about to commit is a change of a committed row. -/
def ChangesRow (cfg : Settings) (db : Db) (now : Int) (requestId : Nat) (w : Work) : Prop :=
  ∃ r, db.getRequest requestId = some r ∧ w.loaded = r ∧
    Change cfg db.nextId now r w.req w.session

theorem assign_changesRow {userId requestId : Nat} {data : RequestAssign} {w : Work}
    (h : assign cfg db userId requestId data now = .ok w) :
    ChangesRow cfg db now requestId w := by
  obtain ⟨actor, _, h⟩ := bind_eq_ok.mp h
  obtain ⟨w₀, hload, h⟩ := bind_eq_ok.mp h
  obtain ⟨w₁, hassign, h⟩ := bind_eq_ok.mp h
  cases h
  obtain ⟨r, hr, rfl⟩ := getRequestForUser_eq_ok hload
  obtain ⟨hloaded, hchange⟩ := assignRequest_change (Work.prepared_load db r) hassign
  refine ⟨r, hr, hloaded, hchange.announce ?_⟩
  exact (logAction_announces _ _ _ _ _ _ _).trans (notifyAssigned_announces _ _ _ _ _)

theorem transition_changesRow {userId requestId : Nat} {data : RequestTransition} {w : Work}
    (h : transition cfg db userId requestId data now = .ok w) :
    ChangesRow cfg db now requestId w := by
  obtain ⟨actor, _, h⟩ := bind_eq_ok.mp h
  obtain ⟨w₀, hload, h⟩ := bind_eq_ok.mp h
  obtain ⟨w₁, htransition, h⟩ := bind_eq_ok.mp h
  cases h
  obtain ⟨r, hr, rfl⟩ := getRequestForUser_eq_ok hload
  obtain ⟨hloaded, hchange⟩ := transitionRequest_change (Work.prepared_load db r) htransition
  refine ⟨r, hr, hloaded, hchange.announce ?_⟩
  exact ((logAction_announces _ _ _ _ _ _ _).trans (notifyUser_announces _ _ _ _ _ _ _ _ _)).trans
    (publish_announces _ _ _ _ rfl)

theorem resubmitReturned_change {start : Nat} {r : Request} {w w' : Work} {student : User}
    {comment : Option String} (hw : w.Prepared start r [])
    (h : resubmitReturned cfg db w student comment now = .ok w') :
    w'.loaded = r ∧ Change cfg start now r w'.req w'.session := by
  obtain ⟨w₁, hresubmit, h⟩ := bind_eq_ok.mp h
  cases h
  obtain ⟨hloaded, hchange⟩ := resubmitRequest_change hw hresubmit
  refine ⟨hloaded, hchange.announce ?_⟩
  have hlog := logAction_announces w₁.session (some student.id) "request.resubmit" "request"
    w₁.req.id [("status", .text RequestStatus.returned.code)]
    [("status", .text w₁.req.status.code)]
  refine Session.Announces.trans ?_ (publish_announces _ _ _ _ rfl)
  split
  · exact hlog.trans (notifyUser_announces _ _ _ _ _ _ _ _ _)
  · exact hlog

theorem resubmit_changesRow {userId requestId : Nat} {comment : Option String} {w : Work}
    (h : resubmit cfg db userId requestId comment now = .ok w) :
    ChangesRow cfg db now requestId w := by
  obtain ⟨student, _, h⟩ := bind_eq_ok.mp h
  obtain ⟨w₀, hload, h⟩ := bind_eq_ok.mp h
  obtain ⟨r, hr, rfl⟩ := getRequestForUser_eq_ok hload
  obtain ⟨hloaded, hchange⟩ := resubmitReturned_change (Work.prepared_load db r) h
  exact ⟨r, hr, hloaded, hchange⟩

/-! ### Files and messages -/

/-- A stored upload adds one file and leaves the row alone. -/
theorem attachFile_eq_ok {w w' : Work} {start requestId answers : Nat}
    {hs : List RequestHistory} {fs : List RequestFile} {ms : List Message} {uploader : User}
    {isAnswer : Bool} {upload : Upload} (hw : w.session.Holds start requestId hs fs ms answers)
    (h : attachFile cfg db w uploader isAnswer upload now = .ok w') :
    w'.loaded = w.loaded ∧ w'.req = w.req ∧
      ∃ f : RequestFile, f.requestId = w.req.id ∧ f.isAnswer = isAnswer ∧
        w'.session.Holds start requestId hs (fs ++ [f]) ms answers := by
  obtain ⟨fileMeta, _, h⟩ := bind_eq_ok.mp h
  cases h
  refine ⟨rfl, rfl, fileRecord w.req uploader isAnswer fileMeta now w.session.nextId, rfl, rfl, ?_⟩
  exact (hw.addFile _ fun _ => rfl).announce ((logAction_announces _ _ _ _ _ _ _).trans
    (publishFileAdded_announces _ _ _ _ _))

/-- The loop that attaches an answer's files. -/
theorem attachFiles_prepared {start : Nat} {r : Request} {actor : User} {w w' : Work}
    {fs : List RequestFile} (hw : w.Prepared start r fs)
    (hfs : ∀ f ∈ fs, f.requestId = r.id ∧ f.isAnswer = true) :
    ∀ {uploads : List Upload},
      uploads.foldlM (fun w f => attachFile cfg db w actor true f now) w = .ok w' →
      ∃ fs', (∀ f ∈ fs', f.requestId = r.id ∧ f.isAnswer = true) ∧ w'.Prepared start r fs'
  | [], h => by
    cases h
    exact ⟨fs, hfs, hw⟩
  | upload :: uploads, h => by
    rw [List.foldlM_cons] at h
    obtain ⟨w₁, hattach, h⟩ := bind_eq_ok.mp h
    obtain ⟨hloaded, hreq, f, hown, hanswer, hrows⟩ := attachFile_eq_ok hw.rows hattach
    have hw₁ : w₁.Prepared start r (fs ++ [f]) :=
      ⟨hloaded.trans hw.loaded, hreq.trans hw.req, hrows⟩
    refine attachFiles_prepared hw₁ (fun g hg => ?_) h
    rcases List.mem_append.mp hg with hg | hg
    · exact hfs g hg
    · rw [List.mem_singleton.mp hg, hown, hw.req]
      exact ⟨rfl, hanswer⟩

theorem answer_changesRow {userId requestId : Nat} {text : String} {files : List Upload}
    {w : Work} (h : answer cfg db userId requestId text files now = .ok w) :
    ChangesRow cfg db now requestId w := by
  obtain ⟨actor, _, h⟩ := bind_eq_ok.mp h
  obtain ⟨w₀, hload, h⟩ := bind_eq_ok.mp h
  obtain ⟨_, _, h⟩ := bind_eq_ok.mp h
  obtain ⟨_, _, h⟩ := bind_eq_ok.mp h
  obtain ⟨w₁, hattach, h⟩ := bind_eq_ok.mp h
  obtain ⟨w₂, hanswer, h⟩ := bind_eq_ok.mp h
  cases h
  obtain ⟨r, hr, rfl⟩ := getRequestForUser_eq_ok hload
  obtain ⟨fs, hfs, hprepared⟩ := attachFiles_prepared (Work.prepared_load db r) (by simp) hattach
  obtain ⟨hloaded, hid, entry, hrows, hchange⟩ := answerRequest_change hprepared hfs hanswer
  refine ⟨r, hr, hloaded, hchange _ ?_⟩
  exact ((hrows.announce (logAction_announces _ _ _ _ _ _ _)).announce
    (notifyUser_announces _ _ _ _ _ _ _ _ _)).publish cfg db hid _

theorem postMessage_change {start : Nat} {r : Request} {w : Work} (sender : User)
    (content : String) (isInternal : Bool) (hw : w.Prepared start r [])
    (hopen : isInternal = false → r.status ∉ RequestStatus.closed) :
    (postMessage cfg db w sender content isInternal now).loaded = r ∧
      Change cfg start now r (postMessage cfg db w sender content isInternal now).req
        (postMessage cfg db w sender content isInternal now).session := by
  refine ⟨hw.loaded, ?_⟩
  have hrows := hw.rows.addMessage (fun id =>
    { id, requestId := w.req.id, senderId := sender.id, content := strip content, isInternal,
      createdAt := now }) (fun _ => rfl)
  have hreq : (postMessage cfg db w sender content isInternal now).req = r := hw.req
  rw [hreq]
  refine Change.announce (.said ?_ ?_ hrows) ?_
  · rw [hw.req]
  · exact hopen
  · unfold postMessage
    dsimp only
    split
    · exact .refl _
    · exact (Session.Announces.foldl (fun s a => createNotification_announces _ _ _ _ _ _ _) _ _).trans
        (publish_announces _ _ _ _ rfl)

theorem addMessage_changesRow {userId requestId : Nat} {data : MessageCreate} {w : Work}
    (h : addMessage cfg db userId requestId data now = .ok w) :
    ChangesRow cfg db now requestId w := by
  obtain ⟨user, _, h⟩ := bind_eq_ok.mp h
  obtain ⟨w₀, hload, h⟩ := bind_eq_ok.mp h
  obtain ⟨_, hcheck, h⟩ := bind_eq_ok.mp h
  cases h
  obtain ⟨r, hr, rfl⟩ := getRequestForUser_eq_ok hload
  obtain ⟨_, _, hcheck⟩ := bind_eq_ok.mp hcheck
  have hopen : data.isInternal = false → r.status ∉ RequestStatus.closed := by
    intro hpublic
    simp only [hpublic, Bool.false_eq_true, false_and, if_false, not_false_eq_true, if_true]
      at hcheck
    exact assertOpen_eq_ok.mp hcheck
  obtain ⟨hloaded, hchange⟩ := postMessage_change user data.content data.isInternal
    (Work.prepared_load db r) hopen
  exact ⟨r, hr, hloaded, hchange⟩

/-- An upload outside an answer. -/
theorem attachFile_change {start : Nat} {r : Request} {w w' : Work} {uploader : User}
    {upload : Upload} (hw : w.Prepared start r []) (hopen : r.status ∉ RequestStatus.closed)
    (h : attachFile cfg db w uploader false upload now = .ok w') :
    w'.loaded = r ∧ Change cfg start now r w'.req w'.session := by
  obtain ⟨hloaded, hreq, f, hown, hordinary, hrows⟩ := attachFile_eq_ok hw.rows h
  refine ⟨hloaded.trans hw.loaded, ?_⟩
  rw [hreq, hw.req]
  rw [hw.req] at hown
  exact .attached hown hordinary hopen hrows

theorem uploadFile_changesRow {userId requestId : Nat} {upload : Upload} {w : Work}
    (h : uploadFile cfg db userId requestId upload now = .ok w) :
    ChangesRow cfg db now requestId w := by
  obtain ⟨user, _, h⟩ := bind_eq_ok.mp h
  obtain ⟨w₀, hload, h⟩ := bind_eq_ok.mp h
  obtain ⟨_, _, h⟩ := bind_eq_ok.mp h
  obtain ⟨_, hopen, h⟩ := bind_eq_ok.mp h
  obtain ⟨r, hr, rfl⟩ := getRequestForUser_eq_ok hload
  obtain ⟨hloaded, hchange⟩ := attachFile_change (Work.prepared_load db r)
    (assertOpen_eq_ok.mp hopen) h
  exact ⟨r, hr, hloaded, hchange⟩

/-! ### The integration's endpoints -/

/-- A client's own request is a committed row like any other. -/
theorem ownedRequest_eq_ok {requestId : Nat} {client : ApiClient} {w : Work}
    (h : ownedRequest db requestId client = .ok w) :
    ∃ r ∈ db.requests, r.id = requestId ∧ w = Work.load db r := by
  unfold ownedRequest at h
  split at h
  · cases h
  · rename_i r hr
    cases h
    have hown := List.find?_some hr
    simp only [Bool.and_eq_true, beq_iff_eq] at hown
    exact ⟨r, List.mem_of_find?_eq_some hr, hown.1, rfl⟩

theorem getRequest_mem {requestId : Nat} {r : Request} (h : db.getRequest requestId = some r) :
    r ∈ db.requests ∧ r.id = requestId :=
  ⟨List.mem_of_find?_eq_some h, by simpa using List.find?_some h⟩

/-- Every handler of a call commits a change of a committed row, the one the
call is about. -/
theorem handle_change {c : Call} {w : Work} (h : c.handle cfg db now = .ok w) :
    w.loaded ∈ db.requests ∧ w.loaded.id = c.requestId ∧
      Change cfg db.nextId now w.loaded w.req w.session := by
  have hrow : ∀ {requestId : Nat}, ChangesRow cfg db now requestId w →
      w.loaded ∈ db.requests ∧ w.loaded.id = requestId ∧
        Change cfg db.nextId now w.loaded w.req w.session := by
    rintro requestId ⟨r, hr, hloaded, hchange⟩
    rw [hloaded]
    exact ⟨(getRequest_mem hr).1, (getRequest_mem hr).2, hchange⟩
  cases c with
  | assign userId requestId data => exact hrow (assign_changesRow h)
  | transition userId requestId data => exact hrow (transition_changesRow h)
  | answer userId requestId text files => exact hrow (answer_changesRow h)
  | resubmit userId requestId comment => exact hrow (resubmit_changesRow h)
  | message userId requestId data => exact hrow (addMessage_changesRow h)
  | upload userId requestId file => exact hrow (uploadFile_changesRow h)
  | clientMessage client requestId content =>
    obtain ⟨w₀, howned, h⟩ := bind_eq_ok.mp h
    obtain ⟨_, hopen, h⟩ := bind_eq_ok.mp h
    obtain ⟨student, _, h⟩ := bind_eq_ok.mp h
    cases h
    obtain ⟨r, hr, hid, rfl⟩ := ownedRequest_eq_ok howned
    have hpost : (postMessage cfg db (Work.load db r) student content false now).loaded = r ∧ _ :=
      postMessage_change student content false (Work.prepared_load db r)
        (fun _ => assertOpen_eq_ok.mp hopen)
    rw [hpost.1]
    exact ⟨hr, hid, hpost.2⟩
  | clientUpload client requestId file =>
    obtain ⟨w₀, howned, h⟩ := bind_eq_ok.mp h
    obtain ⟨_, hopen, h⟩ := bind_eq_ok.mp h
    obtain ⟨student, _, h⟩ := bind_eq_ok.mp h
    obtain ⟨r, hr, hid, rfl⟩ := ownedRequest_eq_ok howned
    obtain ⟨hloaded, hchange⟩ := attachFile_change (Work.prepared_load db r)
      (assertOpen_eq_ok.mp hopen) h
    rw [hloaded]
    exact ⟨hr, hid, hchange⟩
  | clientResubmit client requestId comment =>
    obtain ⟨w₀, howned, h⟩ := bind_eq_ok.mp h
    obtain ⟨student, _, h⟩ := bind_eq_ok.mp h
    obtain ⟨r, hr, hid, rfl⟩ := ownedRequest_eq_ok howned
    obtain ⟨hloaded, hchange⟩ := resubmitReturned_change (Work.prepared_load db r) h
    rw [hloaded]
    exact ⟨hr, hid, hchange⟩

/-! ### What a call makes of its row -/

theorem ne_of_mem_allowedTransitions {s t : RequestStatus} (h : t ∈ allowedTransitions s) :
    t ≠ s := by
  cases s <;> cases t <;> revert h <;> decide

/-- What the handler of a call makes of the row it loaded. -/
inductive Makes (cfg : Settings) (db : Db) (now : Int) (r : Request) : Call → Request → Prop
  | assigned {userId requestId : Nat} {data : RequestAssign} {assignee : User} {req : Request}
      (resolved : resolveAssignee db data.assigneeId = .ok assignee)
      (status : req.status = r.status) (assignedTo : req.assignedTo = some assignee.id) :
      Makes cfg db now r (.assign userId requestId data) req
  | moved {c : Call} {req req' : Request} {s : RequestStatus} (moves : c.movesStatus = true)
      (ne : s ≠ r.status) (assignedTo : req.assignedTo = r.assignedTo)
      (applied : applyStatus cfg req s now = .ok req') : Makes cfg db now r c req'
  | kept {c : Call} (moves : c.movesStatus = false) : Makes cfg db now r c r

theorem assign_makes {userId requestId : Nat} {data : RequestAssign} {w : Work}
    (h : assign cfg db userId requestId data now = .ok w) :
    Makes cfg db now w.loaded (.assign userId requestId data) w.req := by
  obtain ⟨actor, _, h⟩ := bind_eq_ok.mp h
  obtain ⟨w₀, hload, h⟩ := bind_eq_ok.mp h
  obtain ⟨w₁, hassign, h⟩ := bind_eq_ok.mp h
  cases h
  obtain ⟨r, hr, rfl⟩ := getRequestForUser_eq_ok hload
  obtain ⟨_, _, hassign⟩ := bind_eq_ok.mp hassign
  obtain ⟨_, _, hassign⟩ := bind_eq_ok.mp hassign
  obtain ⟨assignee, hresolve, hassign⟩ := bind_eq_ok.mp hassign
  cases hassign
  exact .assigned hresolve rfl rfl

theorem transition_makes {userId requestId : Nat} {data : RequestTransition} {w : Work}
    (h : transition cfg db userId requestId data now = .ok w) :
    Makes cfg db now w.loaded (.transition userId requestId data) w.req := by
  obtain ⟨actor, _, h⟩ := bind_eq_ok.mp h
  obtain ⟨w₀, hload, h⟩ := bind_eq_ok.mp h
  obtain ⟨w₁, hmove, h⟩ := bind_eq_ok.mp h
  cases h
  obtain ⟨r, hr, rfl⟩ := getRequestForUser_eq_ok hload
  obtain ⟨target, _, hmove⟩ := bind_eq_ok.mp hmove
  obtain ⟨_, hcheck, hmove⟩ := bind_eq_ok.mp hmove
  obtain ⟨_, _, hmove⟩ := bind_eq_ok.mp hmove
  obtain ⟨req', happly, hmove⟩ := bind_eq_ok.mp hmove
  cases hmove
  exact .moved rfl (ne_of_mem_allowedTransitions (checkTransition_allowed hcheck)) rfl happly

theorem resubmitReturned_makes {c : Call} {w w' : Work} {student : User} {comment : Option String}
    (hmoves : c.movesStatus = true) (hload : w.loaded = w.req)
    (h : resubmitReturned cfg db w student comment now = .ok w') :
    Makes cfg db now w'.loaded c w'.req := by
  obtain ⟨w₁, hresubmit, h⟩ := bind_eq_ok.mp h
  cases h
  unfold resubmitRequest at hresubmit
  split at hresubmit
  · cases hresubmit
  split at hresubmit
  · cases hresubmit
  rename_i hstatus
  obtain ⟨req', happly, hresubmit⟩ := bind_eq_ok.mp hresubmit
  cases hresubmit
  rw [not_not] at hstatus
  have hne : RequestStatus.inProgress ≠ w.loaded.status := by
    rw [hload, hstatus]
    decide
  exact .moved hmoves hne (congrArg _ hload.symm) happly

theorem answer_makes {userId requestId : Nat} {text : String} {files : List Upload} {w : Work}
    (h : answer cfg db userId requestId text files now = .ok w) :
    Makes cfg db now w.loaded (.answer userId requestId text files) w.req := by
  obtain ⟨actor, _, h⟩ := bind_eq_ok.mp h
  obtain ⟨w₀, hload, h⟩ := bind_eq_ok.mp h
  obtain ⟨_, hcheck, h⟩ := bind_eq_ok.mp h
  obtain ⟨_, _, h⟩ := bind_eq_ok.mp h
  obtain ⟨w₁, hattach, h⟩ := bind_eq_ok.mp h
  obtain ⟨w₂, hanswer, h⟩ := bind_eq_ok.mp h
  cases h
  obtain ⟨r, hr, rfl⟩ := getRequestForUser_eq_ok hload
  obtain ⟨fs, hfs, hprepared⟩ := attachFiles_prepared (Work.prepared_load db r) (by simp) hattach
  have hopen : r.status ∉ RequestStatus.closed := assertHandler_open hcheck
  obtain ⟨_, _, hanswer⟩ := bind_eq_ok.mp hanswer
  split at hanswer
  · cases hanswer
  obtain ⟨req', happly, hanswer⟩ := bind_eq_ok.mp hanswer
  cases hanswer
  show Makes cfg db now w₁.loaded _ req'
  rw [hprepared.loaded]
  have hne : RequestStatus.completed ≠ r.status := by
    intro heq
    rw [← heq] at hopen
    exact absurd (by decide) hopen
  have hsame : w₁.req.assignedTo = r.assignedTo := congrArg Request.assignedTo hprepared.req
  refine .moved rfl hne ?_ happly
  exact hsame

theorem makes_of_eq {c : Call} {r req : Request} (hmoves : c.movesStatus = false) (h : req = r) :
    Makes cfg db now r c req := by
  rw [h]
  exact .kept hmoves

/-- What every handler makes of the row it loaded. -/
theorem handle_makes {c : Call} {w : Work} (h : c.handle cfg db now = .ok w) :
    Makes cfg db now w.loaded c w.req := by
  cases c with
  | assign userId requestId data => exact assign_makes h
  | transition userId requestId data => exact transition_makes h
  | answer userId requestId text files => exact answer_makes h
  | resubmit userId requestId comment =>
    obtain ⟨student, _, h⟩ := bind_eq_ok.mp h
    obtain ⟨w₀, hload, h⟩ := bind_eq_ok.mp h
    obtain ⟨r, hr, rfl⟩ := getRequestForUser_eq_ok hload
    exact resubmitReturned_makes rfl rfl h
  | message userId requestId data =>
    obtain ⟨user, _, h⟩ := bind_eq_ok.mp h
    obtain ⟨w₀, hload, h⟩ := bind_eq_ok.mp h
    obtain ⟨_, _, h⟩ := bind_eq_ok.mp h
    cases h
    obtain ⟨r, hr, rfl⟩ := getRequestForUser_eq_ok hload
    exact makes_of_eq rfl rfl
  | upload userId requestId file =>
    obtain ⟨user, _, h⟩ := bind_eq_ok.mp h
    obtain ⟨w₀, hload, h⟩ := bind_eq_ok.mp h
    obtain ⟨_, _, h⟩ := bind_eq_ok.mp h
    obtain ⟨_, _, h⟩ := bind_eq_ok.mp h
    obtain ⟨r, hr, rfl⟩ := getRequestForUser_eq_ok hload
    obtain ⟨hloaded, hreq, -⟩ := attachFile_eq_ok (Work.prepared_load db r).rows h
    exact makes_of_eq rfl (hreq.trans hloaded.symm)
  | clientMessage client requestId content =>
    obtain ⟨w₀, howned, h⟩ := bind_eq_ok.mp h
    obtain ⟨_, _, h⟩ := bind_eq_ok.mp h
    obtain ⟨student, _, h⟩ := bind_eq_ok.mp h
    cases h
    obtain ⟨r, hr, _, rfl⟩ := ownedRequest_eq_ok howned
    exact makes_of_eq rfl rfl
  | clientUpload client requestId file =>
    obtain ⟨w₀, howned, h⟩ := bind_eq_ok.mp h
    obtain ⟨_, _, h⟩ := bind_eq_ok.mp h
    obtain ⟨student, _, h⟩ := bind_eq_ok.mp h
    obtain ⟨r, hr, _, rfl⟩ := ownedRequest_eq_ok howned
    obtain ⟨hloaded, hreq, -⟩ := attachFile_eq_ok (Work.prepared_load db r).rows h
    exact makes_of_eq rfl (hreq.trans hloaded.symm)
  | clientResubmit client requestId comment =>
    obtain ⟨w₀, howned, h⟩ := bind_eq_ok.mp h
    obtain ⟨student, _, h⟩ := bind_eq_ok.mp h
    obtain ⟨r, hr, _, rfl⟩ := ownedRequest_eq_ok howned
    exact resubmitReturned_makes rfl rfl h

/-- Exactly the calls of `movesStatus` leave another status than they found. -/
theorem handle_movesStatus {c : Call} {w : Work} (h : c.handle cfg db now = .ok w) :
    c.movesStatus = true ↔ w.req.status ≠ w.loaded.status := by
  have hmakes := handle_makes h
  generalize w.req = req at hmakes
  generalize w.loaded = r at hmakes
  cases hmakes with
  | assigned _ status _ => simp [Call.movesStatus, status]
  | moved moves ne _ applied =>
    rw [(applyStatus_eq_ok applied).shape]
    exact iff_of_true moves ne
  | kept moves => simp [moves]

/-! ## The sweep -/

theorem sweepTell_announces (cfg : Settings) (db : Db) (now : Int) (s : Session) (req : Request) (breached : Bool) :
    s.Announces (sweepTell cfg db s req breached now) :=
  (Session.Announces.foldl (fun _ _ => createNotification_announces _ _ _ _ _ _ _) _ _).trans
    (Session.Announces.foldl (fun _ _ => enqueueEmail_announces _ _) _ _)

/-- What the sweep does to one candidate. -/
theorem sweepOne_change {req : Request} (hrunning : req.status ∈ RequestStatus.slaRunning) :
    Change cfg db.nextId now req (sweepOne cfg db req now).req
      (sweepOne cfg db req now).session := by
  have hrows := ((Session.Holds.empty db.nextId db.nextMessageId req.id).announce
    (sweepTell_announces cfg db now _ req
      (decide (req.slaDeadline < now)))).addHistory req none (some req.status) req.status
    (some ((if decide (req.slaDeadline < now) then "[sla-breach]" else "[sla-warning]") ++ " "
      ++ sweepBody req (decide (req.slaDeadline < now)) now)) now
  by_cases hbreached : req.slaDeadline < now
  · have hreq : (sweepOne cfg db req now).req = { req with
        slaWarnedAt := req.slaWarnedAt.or (some now), slaBreachedAt := some now } := by
      simp [sweepOne, hbreached]
    rw [hreq]
    exact .noticed _ _ hrunning ⟨rfl, rfl, rfl, rfl⟩ hrows
  · have hreq : (sweepOne cfg db req now).req = { req with
        slaWarnedAt := some now, slaBreachedAt := req.slaBreachedAt } := by
      simp [sweepOne, hbreached]
    rw [hreq]
    exact .noticed _ _ hrunning ⟨rfl, rfl, rfl, rfl⟩ hrows

/-! ## Filing -/

theorem announceFiling_announces (cfg : Settings) (db : Db) (s : Session) (student : User)
    (req : Request) (client : Option ApiClient) :
    s.Announces (announceFiling cfg db s student req client) := by
  unfold announceFiling
  refine Session.Announces.trans ?_ (publish_announces _ _ _ _ rfl)
  split
  · exact (logAction_announces _ _ _ _ _ _ _).trans (notifyAssigned_announces _ _ _ _ _)
  · exact logAction_announces _ _ _ _ _ _ _

theorem announceAutoAnswer_holds {s : Session} {req : Request} {start requestId : Nat}
    {hs : List RequestHistory} {fs : List RequestFile} {ms : List Message}
    (h : s.Holds start requestId hs fs ms 0) (hid : req.id = requestId)
    (answerFiles : List RequestFile) :
    (announceAutoAnswer cfg db s req answerFiles).Holds start requestId hs fs ms 1 := by
  unfold announceAutoAnswer
  refine Session.Holds.publish ?_ cfg db hid _
  exact h.announce ((notifyUser_announces _ _ _ _ _ _ _ _ _).trans
    (Session.Announces.foldl (fun _ _ => publishFileAdded_announces _ _ _ _ _) _ _))

/-- `file_request` files, and announces an answer at most when the request
was answered at once. -/
theorem fileRequest_filed {student : User} {data : RequestCreate} {trackingNo : String}
    {clientRef : Option String} {client : Option ApiClient} {req : Request} {s : Session}
    (h : fileRequest cfg db student data trackingNo clientRef client now = .ok (req, s)) :
    ∃ category first second fs, Filed cfg db now category req ∧
      Opening now req category first second fs ∧
      s.Holds (db.nextId + 1) req.id [first, second] fs []
        (if req.status = .completed then 1 else 0) := by
  obtain ⟨⟨req₀, s₀⟩, hcreate, h⟩ := bind_eq_ok.mp h
  cases h
  obtain ⟨category, first, second, fs, hfiled, hopening, hholds⟩ := createRequest_filed hcreate
  refine ⟨category, first, second, fs, hfiled, hopening, ?_⟩
  have hrecorded := hholds.announce (announceFiling_announces cfg db s₀ student req client)
  split
  · exact announceAutoAnswer_holds hrecorded rfl _
  · exact hrecorded

end Royd.Api
