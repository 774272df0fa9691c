/-
Royd.Api.Alike — the handlers on two databases that differ in their
messages only.

No handler reads `messages` or `outbox`. Over two databases with the same
other tables (`Db.withMessages`) each one raises the same, or returns work
that is alike.
-/
import Royd.Api.Steps
import Royd.Services.Alike

namespace Royd

/-- The database with other messages, and with the outbox that goes with
them. -/
def Db.withMessages (db : Db) (nextMessageId : Nat) (messages : List Message)
    (outbox : List OutboxMessage) : Db :=
  { db with nextMessageId, messages, outbox }

namespace Api

variable (cfg : Settings) (db : Db) (n : Nat) (ms : List Message) (out : List OutboxMessage)

/-! ## Loading -/

theorem load_alike (req : Request) :
    (Work.load db req).Alike (Work.load (db.withMessages n ms out) req) :=
  ⟨rfl, rfl, Session.Alike.empty ..⟩

theorem getRequestForUser_alike (requestId : Nat) (user : User) :
    Outcomes Work.Alike (getRequestForUser db requestId user)
      (getRequestForUser (db.withMessages n ms out) requestId user) := by
  unfold getRequestForUser
  have hsame : (db.withMessages n ms out).getRequest requestId = db.getRequest requestId := rfl
  rw [hsame]
  cases db.getRequest requestId with
  | none => exact .error _
  | some req => exact .check (assertCanView req user) fun _ => .ok (load_alike db n ms out req)

theorem ownedRequest_alike (requestId : Nat) (client : ApiClient) :
    Outcomes Work.Alike (ownedRequest db requestId client)
      (ownedRequest (db.withMessages n ms out) requestId client) := by
  unfold ownedRequest
  have hsame : (db.withMessages n ms out).requests = db.requests := rfl
  rw [hsame]
  cases db.requests.find? fun r => r.id == requestId && r.apiClientId == some client.id with
  | none => exact .error _
  | some req => exact .ok (load_alike db n ms out req)

/-! ## Operations -/

variable {w v : Work}

theorem assignRequest_alike (h : w.Alike v) (actor : User) (data : RequestAssign) (now : Int) :
    Outcomes Work.Alike (assignRequest db w actor data now)
      (assignRequest (db.withMessages n ms out) v actor data now) := by
  obtain ⟨loaded, req, s⟩ := w
  obtain ⟨loaded', req', t⟩ := v
  obtain ⟨rfl, rfl, hs⟩ := h
  unfold assignRequest
  refine .check _ fun _ => .check _ fun _ => ?_
  exact .check (resolveAssignee db data.assigneeId) fun assignee => .ok ⟨rfl, rfl, hs.addHistory ..⟩

theorem transitionRequest_alike (h : w.Alike v) (actor : User) (data : RequestTransition)
    (now : Int) :
    Outcomes Work.Alike (transitionRequest cfg w actor data now)
      (transitionRequest cfg v actor data now) := by
  obtain ⟨loaded, req, s⟩ := w
  obtain ⟨loaded', req', t⟩ := v
  obtain ⟨rfl, rfl, hs⟩ := h
  unfold transitionRequest
  refine .check _ fun newStatus => .check _ fun _ => .check _ fun _ => ?_
  exact .check _ fun req => .ok ⟨rfl, rfl, hs.addHistory ..⟩

theorem answerRequest_alike (h : w.Alike v) (actor : User) (text : String) (now : Int) :
    Outcomes Work.Alike (answerRequest cfg w actor text now)
      (answerRequest cfg v actor text now) := by
  obtain ⟨loaded, req, s⟩ := w
  obtain ⟨loaded', req', t⟩ := v
  obtain ⟨rfl, rfl, hs⟩ := h
  unfold answerRequest
  refine .check _ fun _ => ?_
  split
  · exact .error _
  · exact .check _ fun req => .ok ⟨rfl, rfl, hs.addHistory ..⟩

theorem resubmitRequest_alike (h : w.Alike v) (student : User) (comment : Option String)
    (now : Int) :
    Outcomes Work.Alike (resubmitRequest cfg w student comment now)
      (resubmitRequest cfg v student comment now) := by
  obtain ⟨loaded, req, s⟩ := w
  obtain ⟨loaded', req', t⟩ := v
  obtain ⟨rfl, rfl, hs⟩ := h
  unfold resubmitRequest
  dsimp only
  split
  · exact .error _
  split
  · exact .error _
  · exact .check _ fun req => .ok ⟨rfl, rfl, hs.addHistory ..⟩

theorem resubmitReturned_alike (h : w.Alike v) (student : User) (comment : Option String)
    (now : Int) :
    Outcomes Work.Alike (resubmitReturned cfg db w student comment now)
      (resubmitReturned cfg (db.withMessages n ms out) v student comment now) := by
  unfold resubmitReturned
  refine (resubmitRequest_alike cfg h student comment now).bind fun w v h => ?_
  obtain ⟨loaded, req, s⟩ := w
  obtain ⟨loaded', req', t⟩ := v
  obtain ⟨rfl, rfl, hs⟩ := h
  refine .ok ⟨rfl, rfl, ?_⟩
  refine Session.Alike.publish ?_ cfg db _ rfl
  dsimp only
  split
  · exact (hs.logAction ..).notifyUser cfg db ..
  · exact hs.logAction ..

theorem postMessage_alike (h : w.Alike v) (sender : User) (content : String) (isInternal : Bool)
    (now : Int) :
    (postMessage cfg db w sender content isInternal now).Alike
      (postMessage cfg (db.withMessages n ms out) v sender content isInternal now) := by
  obtain ⟨loaded, req, s⟩ := w
  obtain ⟨loaded', req', t⟩ := v
  obtain ⟨rfl, rfl, hs⟩ := h
  refine ⟨rfl, rfl, ?_⟩
  unfold postMessage
  dsimp only
  split
  · exact hs.addMessage (fun _ _ => rfl) _
  · refine Session.Alike.publish ?_ cfg db _ rfl
    refine Session.Alike.foldl (fun id h' => ?_) (hs.addMessage (fun _ _ => rfl) _) _
    exact h'.createNotification ..

theorem attachFile_alike (h : w.Alike v) (uploader : User) (isAnswer : Bool) (upload : Upload)
    (now : Int) :
    Outcomes Work.Alike (attachFile cfg db w uploader isAnswer upload now)
      (attachFile cfg (db.withMessages n ms out) v uploader isAnswer upload now) := by
  obtain ⟨loaded, req, s⟩ := w
  obtain ⟨loaded', req', t⟩ := v
  obtain ⟨rfl, rfl, hs⟩ := h
  unfold attachFile
  refine .check _ fun fileMeta => .ok ⟨rfl, rfl, ?_⟩
  rw [hs.nextId]
  refine Session.Alike.publishFileAdded ?_ cfg db ..
  exact (hs.add (fun _ => rfl) (fun _ => rfl) fun _ => rfl).logAction ..

/-! ## Handlers -/

variable (now : Int)

theorem assign_alike (userId requestId : Nat) (data : RequestAssign) :
    Outcomes Work.Alike (assign cfg db userId requestId data now)
      (assign cfg (db.withMessages n ms out) userId requestId data now) := by
  unfold assign
  refine .check (requireRoles db userId Role.canTriage) fun actor => ?_
  refine (getRequestForUser_alike db n ms out requestId actor).bind fun w v h => ?_
  refine (assignRequest_alike db n ms out h actor data now).bind fun w v h => ?_
  obtain ⟨hloaded, hreq, hs⟩ := h
  rw [hreq]
  exact .ok ⟨hloaded, rfl, (hs.logAction ..).notifyAssigned cfg db ..⟩

theorem transition_alike (userId requestId : Nat) (data : RequestTransition) :
    Outcomes Work.Alike (transition cfg db userId requestId data now)
      (transition cfg (db.withMessages n ms out) userId requestId data now) := by
  unfold transition
  refine .check (requireRoles db userId Role.canTransition) fun actor => ?_
  refine (getRequestForUser_alike db n ms out requestId actor).bind fun w v h => ?_
  have hold := h.req
  refine (transitionRequest_alike cfg h actor data now).bind fun w v h => ?_
  obtain ⟨hloaded, hreq, hs⟩ := h
  rw [hold, hreq]
  refine .ok ⟨hloaded, rfl, Session.Alike.publish ?_ cfg db _ rfl⟩
  exact (hs.logAction ..).notifyUser cfg db ..

theorem answer_alike (userId requestId : Nat) (text : String) (files : List Upload) :
    Outcomes Work.Alike (answer cfg db userId requestId text files now)
      (answer cfg (db.withMessages n ms out) userId requestId text files now) := by
  unfold answer
  refine .check (requireRoles db userId Role.canTransition) fun actor => ?_
  refine (getRequestForUser_alike db n ms out requestId actor).bind fun w v h => ?_
  rw [h.req]
  refine .check _ fun _ => .check _ fun _ => ?_
  refine (Outcomes.foldlM (fun w v f h => attachFile_alike cfg db n ms out h actor true f now)
    files h).bind fun w v h => ?_
  have hfiles := h.session.files
  have hold := h.req
  refine (answerRequest_alike cfg h actor text now).bind fun w v h => ?_
  obtain ⟨hloaded, hreq, hs⟩ := h
  rw [hfiles, hold, hreq]
  refine .ok ⟨hloaded, rfl, Session.Alike.publish ?_ cfg db _ rfl⟩
  exact (hs.logAction ..).notifyUser cfg db ..

theorem resubmit_alike (userId requestId : Nat) (comment : Option String) :
    Outcomes Work.Alike (resubmit cfg db userId requestId comment now)
      (resubmit cfg (db.withMessages n ms out) userId requestId comment now) := by
  unfold resubmit
  refine .check (requireRoles db userId [.student]) fun student => ?_
  refine (getRequestForUser_alike db n ms out requestId student).bind fun w v h => ?_
  exact resubmitReturned_alike cfg db n ms out h student comment now

theorem addMessage_alike (userId requestId : Nat) (data : MessageCreate) :
    Outcomes Work.Alike (addMessage cfg db userId requestId data now)
      (addMessage cfg (db.withMessages n ms out) userId requestId data now) := by
  unfold addMessage
  refine .check (currentUser db userId) fun user => ?_
  refine (getRequestForUser_alike db n ms out requestId user).bind fun w v h => ?_
  rw [h.req]
  exact .check _ fun _ => .ok (postMessage_alike cfg db n ms out h user data.content _ now)

theorem uploadFile_alike (userId requestId : Nat) (upload : Upload) :
    Outcomes Work.Alike (uploadFile cfg db userId requestId upload now)
      (uploadFile cfg (db.withMessages n ms out) userId requestId upload now) := by
  unfold uploadFile
  refine .check (currentUser db userId) fun user => ?_
  refine (getRequestForUser_alike db n ms out requestId user).bind fun w v h => ?_
  rw [h.req]
  refine .check _ fun _ => .check _ fun _ => ?_
  exact attachFile_alike cfg db n ms out h user false upload now

theorem clientMessage_alike (client : ApiClient) (requestId : Nat) (content : String) :
    Outcomes Work.Alike (clientMessage cfg db client requestId content now)
      (clientMessage cfg (db.withMessages n ms out) client requestId content now) := by
  unfold clientMessage
  refine (ownedRequest_alike db n ms out requestId client).bind fun w v h => ?_
  rw [h.req]
  refine .check _ fun _ => .check (studentOf db v.req) fun student => ?_
  exact .ok (postMessage_alike cfg db n ms out h student content false now)

theorem clientUpload_alike (client : ApiClient) (requestId : Nat) (upload : Upload) :
    Outcomes Work.Alike (clientUpload cfg db client requestId upload now)
      (clientUpload cfg (db.withMessages n ms out) client requestId upload now) := by
  unfold clientUpload
  refine (ownedRequest_alike db n ms out requestId client).bind fun w v h => ?_
  rw [h.req]
  refine .check _ fun _ => .check (studentOf db v.req) fun student => ?_
  exact attachFile_alike cfg db n ms out h student false upload now

theorem clientResubmit_alike (client : ApiClient) (requestId : Nat) (comment : Option String) :
    Outcomes Work.Alike (clientResubmit cfg db client requestId comment now)
      (clientResubmit cfg (db.withMessages n ms out) client requestId comment now) := by
  unfold clientResubmit
  refine (ownedRequest_alike db n ms out requestId client).bind fun w v h => ?_
  rw [h.req]
  refine .check (studentOf db v.req) fun student => ?_
  exact resubmitReturned_alike cfg db n ms out h student comment now

theorem handle_alike (c : Call) :
    Outcomes Work.Alike (c.handle cfg db now) (c.handle cfg (db.withMessages n ms out) now) := by
  cases c with
  | assign userId requestId data => exact assign_alike ..
  | transition userId requestId data => exact transition_alike ..
  | answer userId requestId text files => exact answer_alike ..
  | resubmit userId requestId comment => exact resubmit_alike ..
  | message userId requestId data => exact addMessage_alike ..
  | upload userId requestId file => exact uploadFile_alike ..
  | clientMessage client requestId content => exact clientMessage_alike ..
  | clientUpload client requestId file => exact clientUpload_alike ..
  | clientResubmit client requestId comment => exact clientResubmit_alike ..

/-! ## Filing -/

/-- Filings that differ in how their messages are numbered only. -/
structure Filing.Alike (f g : Filing) : Prop where
  sync : f.sync = g.sync
  req : f.req = g.req
  session : f.session.Alike g.session

theorem announceAutoAnswer_alike {s t : Session} (h : s.Alike t) (req : Request)
    (answerFiles : List RequestFile) :
    (announceAutoAnswer cfg db s req answerFiles).Alike
      (announceAutoAnswer cfg (db.withMessages n ms out) t req answerFiles) := by
  unfold announceAutoAnswer
  refine Session.Alike.publish ?_ cfg db _ rfl
  refine Session.Alike.foldl (fun f h' => ?_) (h.notifyUser cfg db ..) _
  exact h'.publishFileAdded cfg db ..

theorem announceFiling_alike {s t : Session} (h : s.Alike t) (student : User) (req : Request)
    (client : Option ApiClient) :
    (announceFiling cfg db s student req client).Alike
      (announceFiling cfg (db.withMessages n ms out) t student req client) := by
  unfold announceFiling
  refine Session.Alike.publish ?_ cfg db _ rfl
  split
  · exact (h.logAction ..).notifyAssigned cfg db ..
  · exact h.logAction ..

theorem fileRequest_alike (student : User) (data : RequestCreate) (trackingNo : String)
    (clientRef : Option String) (client : Option ApiClient) :
    Outcomes (fun a b : Request × Session => a.1 = b.1 ∧ a.2.Alike b.2)
      (fileRequest cfg db student data trackingNo clientRef client now)
      (fileRequest cfg (db.withMessages n ms out) student data trackingNo clientRef client now) := by
  have hcreated (keys : FilingKeys) :
      Outcomes (fun a b : Request × Session => a.1 = b.1 ∧ a.2.Alike b.2)
        (createRequest cfg db student data keys now)
        (createRequest cfg (db.withMessages n ms out) student data keys now) := by
    unfold createRequest
    refine .check (resolveService db data.categoryId data.serviceTypeId) fun category => ?_
    refine .check (routeRequest db student category) fun assignee => ?_
    refine .check _ fun deadline => .ok ⟨rfl, ?_⟩
    exact (Session.Alike.empty ..).filingRows db ..
  unfold fileRequest
  refine (hcreated _).bind ?_
  rintro ⟨req, s⟩ ⟨req', t⟩ ⟨rfl, hs⟩
  refine .ok ⟨rfl, ?_⟩
  have hannounced := announceFiling_alike cfg db n ms out hs student req client
  dsimp only
  rw [← Session.Alike.files hs]
  split
  · exact announceAutoAnswer_alike cfg db n ms out hannounced req _
  · exact hannounced

theorem create_alike (student : User) (data : RequestCreate) (trackingNo : String)
    (key : Option String) :
    Outcomes Filing.Alike (create cfg db student data trackingNo key now)
      (create cfg (db.withMessages n ms out) student data trackingNo key now) := by
  unfold create
  refine (fileRequest_alike cfg db n ms out now student data trackingNo key none).bind ?_
  rintro ⟨req, s⟩ ⟨req', t⟩ ⟨rfl, hs⟩
  exact .ok ⟨rfl, rfl, hs⟩

theorem clientCreate_alike (client : ApiClient) (sync : StudentSync) (data : RequestCreate)
    (trackingNo : String) (key : Option String) :
    Outcomes Filing.Alike (clientCreate cfg db client sync data trackingNo key now)
      (clientCreate cfg (db.withMessages n ms out) client sync data trackingNo key now) := by
  unfold clientCreate
  refine (fileRequest_alike cfg (db.applySync sync) n ms out now sync.user data trackingNo key
    (some client)).bind ?_
  rintro ⟨req, s⟩ ⟨req', t⟩ ⟨rfl, hs⟩
  exact .ok ⟨rfl, rfl, hs⟩

end Api

/-! ## Databases -/

/-- The messages without the internal notes, and without their numbers. -/
def publicMessages (ms : List Message) : List Message :=
  (ms.map Message.unnumbered).filter fun m => !m.isInternal

theorem publicMessages_append (ms ms' : List Message) :
    publicMessages (ms ++ ms') = publicMessages ms ++ publicMessages ms' := by
  simp [publicMessages]

/-- The database with the internal notes, and the numbers of messages,
taken out. -/
def Db.outside (db : Db) : Db :=
  db.withMessages 0 (publicMessages db.messages) (db.outbox.map OutboxMessage.unnumbered)

/-- Databases that are the same seen from outside. -/
def Db.Alike (d d' : Db) : Prop := d.outside = d'.outside

namespace Db.Alike

variable {d d' : Db}

theorem refl (d : Db) : d.Alike d := rfl

theorem withMessages {n : Nat} {ms : List Message} {out : List OutboxMessage}
    (hmessages : publicMessages d.messages = publicMessages ms)
    (houtbox : d.outbox.map OutboxMessage.unnumbered = out.map OutboxMessage.unnumbered) :
    d.Alike (d.withMessages n ms out) := by
  unfold Db.Alike Db.outside
  rw [hmessages, houtbox]
  rfl

/-- Databases that are alike have the same tables but `messages` and
`outbox`. -/
theorem eq_withMessages (h : d.Alike d') : ∃ n ms out, d' = d.withMessages n ms out ∧
    publicMessages d.messages = publicMessages ms ∧
    d.outbox.map OutboxMessage.unnumbered = out.map OutboxMessage.unnumbered := by
  refine ⟨d'.nextMessageId, d'.messages, d'.outbox, ?_, congrArg Db.messages h,
    congrArg Db.outbox h⟩
  cases d
  cases d'
  simp only [Db.Alike, Db.outside, Db.withMessages, Db.mk.injEq] at h ⊢
  simp [h]

/-- Sessions that are alike, committed. -/
theorem commit (h : d.Alike d') {s t : Session} (hs : s.Alike t) :
    (d.commit s).Alike (d'.commit t) := by
  obtain ⟨n, ms, out, rfl, hmessages, houtbox⟩ := h.eq_withMessages
  have hnew : publicMessages s.messages = publicMessages t.messages := by
    unfold publicMessages
    rw [hs.messages]
  unfold Db.Alike Db.outside Db.commit Db.withMessages
  simp only [publicMessages_append, List.map_append]
  rw [hs.nextId, hs.history, hs.files, hs.notifications, hs.auditLogs, hs.outbox, hnew, hmessages,
    houtbox]

theorem finish (h : d.Alike d') {w v : Work} (hw : w.Alike v) :
    (d.finish w).Alike (d'.finish v) := by
  have hcommitted := h.commit hw.session
  unfold Db.finish
  rw [hw.loaded, hw.req]
  obtain ⟨n, ms, out, heq, hmessages, houtbox⟩ := hcommitted.eq_withMessages
  rw [heq]
  exact withMessages hmessages houtbox

end Db.Alike

namespace Api

variable (cfg : Settings) {db db' : Db} (now : Int)

theorem insertFiling_alike (h : db.Alike db') {f g : Filing} (hf : f.Alike g) :
    (insertFiling db f).Alike (insertFiling db' g) := by
  obtain ⟨sync, req, s⟩ := f
  obtain ⟨sync', req', t⟩ := g
  obtain ⟨rfl, rfl, hs⟩ := hf
  have hinsert {d d' : Db} (h : d.Alike d') :
      Db.Alike { d with requests := d.requests ++ [req] }
        { d' with requests := d'.requests ++ [req] } := by
    obtain ⟨n, ms, out, rfl, hmessages, houtbox⟩ := h.eq_withMessages
    exact Db.Alike.withMessages hmessages houtbox
  cases sync with
  | none => exact hinsert (h.commit hs)
  | some sync =>
    have hsynced : (db.applySync sync).Alike (db'.applySync sync) := by
      obtain ⟨n, ms, out, rfl, hmessages, houtbox⟩ := h.eq_withMessages
      exact Db.Alike.withMessages hmessages houtbox
    exact hinsert (hsynced.commit hs)

theorem commitFiling_alike (h : db.Alike db') {f g : Filing} (hf : f.Alike g) :
    Outcomes Db.Alike (commitFiling db f) (commitFiling db' g) := by
  have hunique : checkUnique db' g = checkUnique db f := by
    obtain ⟨n, ms, out, rfl, -, -⟩ := h.eq_withMessages
    unfold checkUnique
    rw [hf.sync, hf.req]
    rfl
  unfold commitFiling
  rw [hunique]
  exact .check _ fun _ => .ok (insertFiling_alike h hf)

theorem runCreate_alike (h : db.Alike db') (userId : Nat) (data : RequestCreate)
    (key : Option String) (trackingNo : String) :
    Outcomes Db.Alike (runCreate cfg db userId data key trackingNo now)
      (runCreate cfg db' userId data key trackingNo now) := by
  obtain ⟨n, ms, out, rfl, -, -⟩ := h.eq_withMessages
  unfold runCreate
  refine .check (requireStudent db userId) fun student => ?_
  have hreplay : replayOf (db.withMessages n ms out) student key = replayOf db student key := rfl
  rw [hreplay]
  cases replayOf db student key with
  | some existing => exact .ok h
  | none =>
    refine (create_alike cfg db n ms out now student data trackingNo key).bind fun f g hf => ?_
    exact commitFiling_alike h hf

theorem runClientCreate_alike (h : db.Alike db') (client : ApiClient) (profile : StudentProfile)
    (data : RequestCreate) (key : Option String) (trackingNo : String) :
    Outcomes Db.Alike (runClientCreate cfg db client profile data key trackingNo now)
      (runClientCreate cfg db' client profile data key trackingNo now) := by
  obtain ⟨n, ms, out, rfl, -, -⟩ := h.eq_withMessages
  unfold runClientCreate
  refine .check (syncStudent db profile) fun sync => ?_
  have hreplay : replayOf (db.withMessages n ms out) sync.user key = replayOf db sync.user key :=
    rfl
  rw [hreplay]
  cases replayOf db sync.user key with
  | some existing => exact .check _ fun _ => .ok h
  | none =>
    refine (clientCreate_alike cfg db n ms out now client sync data trackingNo key).bind
      fun f g hf => ?_
    exact commitFiling_alike h hf

/-! ## Steps -/

theorem sweep_alike (h : db.Alike db') (useLock won : Bool) :
    (sweepSlaDeadlines cfg db useLock won now).Alike
      (sweepSlaDeadlines cfg db' useLock won now) := by
  have hone {d d' : Db} (h : d.Alike d') (req : Request) :
      (d.finish (sweepOne cfg d req now)).Alike (d'.finish (sweepOne cfg d' req now)) := by
    refine h.finish ?_
    obtain ⟨n, ms, out, rfl, -, -⟩ := h.eq_withMessages
    exact ⟨rfl, rfl, (Session.Alike.empty ..).sweepNotify cfg d ..⟩
  have hall (reqs : List Request) {d d' : Db} (h : d.Alike d') :
      (reqs.foldl (fun d req => d.finish (sweepOne cfg d req now)) d).Alike
        (reqs.foldl (fun d req => d.finish (sweepOne cfg d req now)) d') := by
    induction reqs generalizing d d' with
    | nil => exact h
    | cons req reqs ih => exact ih (hone h req)
  have hcandidates : sweepCandidates cfg db' now = sweepCandidates cfg db now := by
    obtain ⟨n, ms, out, rfl, -, -⟩ := h.eq_withMessages
    rfl
  unfold sweepSlaDeadlines
  rw [hcandidates]
  split
  · exact h
  · exact hall _ h

/-- An edit of the catalogue goes the same way on both databases. -/
theorem catalogue_alike (h : db.Alike db') (edit : CatalogueEdit) :
    Outcomes Db.Alike (edit.apply cfg db now) (edit.apply cfg db' now) := by
  obtain ⟨n, ms, out, rfl, hmessages, houtbox⟩ := h.eq_withMessages
  cases edit with
  | create data =>
    unfold CatalogueEdit.apply buildCategory
    dsimp only
    cases data.parentId with
    | none => exact .ok (Db.Alike.withMessages hmessages houtbox)
    | some parentId =>
      refine .check (parentRequestType db parentId none) fun parent => .check _ fun _ => ?_
      refine .check (checkAssignee db data.routing data.assigneeId) fun _ => ?_
      exact .ok (Db.Alike.withMessages hmessages houtbox)
  | update categoryId payload =>
    unfold CatalogueEdit.apply
    refine .check (categoryOf db categoryId) fun cat => ?_
    refine .check (applyCategoryUpdate db cat payload) fun cat' => ?_
    exact .ok (Db.Alike.withMessages hmessages houtbox)
  | deactivate categoryId =>
    unfold CatalogueEdit.apply
    refine .check (categoryOf db categoryId) fun cat => ?_
    exact .ok (Db.Alike.withMessages hmessages houtbox)
  | addFile categoryId upload userId =>
    unfold CatalogueEdit.apply
    refine .check (categoryOf db categoryId) fun cat => ?_
    unfold addAutoReplyFile
    have hfiles : listAutoReplyFiles (db.withMessages n ms out) cat = listAutoReplyFiles db cat :=
      rfl
    rw [hfiles]
    split
    · exact .error _
    split
    · exact .error _
    split
    · exact .error _
    · exact .ok (Db.Alike.withMessages hmessages houtbox)
  | removeFile categoryId fileId =>
    unfold CatalogueEdit.apply
    refine .check (categoryOf db categoryId) fun cat => ?_
    unfold removeAutoReplyFile
    have hfiles : (db.withMessages n ms out).autoReplyFiles = db.autoReplyFiles := rfl
    rw [hfiles]
    split
    · exact .error _
    · exact .ok (Db.Alike.withMessages hmessages houtbox)

/-- A step is refused on both databases, or leaves them alike. -/
theorem apply_alike (h : db.Alike db') (s : Step) :
    Outcomes Db.Alike (s.apply cfg db now) (s.apply cfg db' now) := by
  cases s with
  | create userId data key trackingNo => exact runCreate_alike cfg now h userId data key trackingNo
  | clientCreate client profile data key trackingNo =>
    exact runClientCreate_alike cfg now h client profile data key trackingNo
  | call c =>
    unfold Step.apply
    have hcall : Outcomes Work.Alike (c.handle cfg db now) (c.handle cfg db' now) := by
      obtain ⟨n, ms, out, rfl, -, -⟩ := h.eq_withMessages
      exact handle_alike cfg db n ms out now c
    exact hcall.bind fun w v hw => .ok (h.finish hw)
  | sweep useLock won => exact .ok (sweep_alike cfg now h useLock won)
  | catalogue edit => exact catalogue_alike cfg now h edit
  | people users departments faculties studentGroups =>
    obtain ⟨n, ms, out, rfl, hmessages, houtbox⟩ := h.eq_withMessages
    exact .ok (Db.Alike.withMessages hmessages houtbox)

theorem step_alike (h : db.Alike db') (e : Event) : (step cfg db e).Alike (step cfg db' e) := by
  have happly := apply_alike cfg e.now h e.step
  unfold step
  cases hdb : e.step.apply cfg db e.now with
  | error err =>
    rw [happly.error_left hdb]
    exact h
  | ok d =>
    obtain ⟨d', hdb', hd⟩ := happly.ok_left hdb
    rw [hdb']
    exact hd

end Api

end Royd
