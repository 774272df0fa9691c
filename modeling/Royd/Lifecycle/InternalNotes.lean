/-
Royd.Lifecycle.InternalNotes — internal notes are invisible from outside.

What a viewer without internal access is shown is computed from
`Db.outside`, where there are no notes; a note leaves that as it was; and
every other step does the same on two databases with the same outside. So
nothing a student or the partner platform can observe tells a run from the
same run without its notes.
-/
import Royd.Api.Alike
import Royd.Api.Deeds
import Royd.Api.Views
import Royd.Lifecycle.Runs

namespace Royd

open Api

/-! ## Payloads without the numbers of messages -/

namespace Api

/-- A message as it is shown, without its number. -/
def MessageOut.unnumbered (m : MessageOut) : MessageOut := { m with id := 0 }

def RequestDetail.unnumbered (d : RequestDetail) : RequestDetail :=
  { d with messages := d.messages.map MessageOut.unnumbered }

variable (db : Db) (updatedAt : Nat → Int) (now : Int)

/-- The thread of a request, sorted and stripped, is that of its public
messages. -/
theorem public_thread (ms : List Message) :
    ((orderBy (·.createdAt) ms).filter fun m => !m.isInternal).map Message.unnumbered =
      (orderBy (·.createdAt) (publicMessages ms)).filter fun m => !m.isInternal := by
  have hsort : orderBy (·.createdAt) (ms.map Message.unnumbered) =
      (orderBy (·.createdAt) ms).map Message.unnumbered :=
    (map_orderBy (f := Message.unnumbered) (fun _ => rfl) ms).symm
  unfold publicMessages
  rw [← filter_orderBy, List.filter_filter, hsort, List.filter_map]
  simp [Message.unnumbered, Function.comp_def]

theorem messagesOf_outside (id : Nat) :
    db.outside.messagesOf id = publicMessages (db.messagesOf id) := by
  show (publicMessages db.messages).filter _ = publicMessages (db.messages.filter _)
  simp only [publicMessages, List.filter_map, List.filter_filter]
  exact congrArg _ (List.filter_congr fun m _ => Bool.and_comm ..)

/-- A message with the name of its author, wherever it is looked up. -/
theorem messageOut_unnumbered {req : Request} {m : Message} (hm : m ∈ db.messagesOf req.id)
    (hpublic : m.isInternal = false) :
    (messageOut (actors db req) m).unnumbered =
      messageOut (actors db.outside req) m.unnumbered := by
  have hmem : m.unnumbered ∈ db.outside.messagesOf req.id := by
    rw [messagesOf_outside]
    exact List.mem_filter.mpr ⟨List.mem_map_of_mem hm, by simp [Message.unnumbered, hpublic]⟩
  have hhere := describe_sender db hm
  have hthere := describe_sender db.outside hmem
  unfold messageOut MessageOut.unnumbered
  rw [hhere, hthere]
  rfl

theorem historyOut_outside {req : Request} {h : RequestHistory} (hh : h ∈ db.historyOf req.id) :
    historyOut (actors db req) h = historyOut (actors db.outside req) h := by
  have hhere := describe_changedBy db hh
  have hmem : h ∈ db.outside.historyOf req.id := hh
  have hthere := describe_changedBy db.outside hmem
  unfold historyOut
  rw [hhere, hthere]
  rfl

/-- What a viewer without internal access is shown. -/
theorem forViewer_outside (req : Request) :
    (forViewer db updatedAt now false req).map RequestDetail.unnumbered =
      forViewer db.outside updatedAt now false req := by
  have hmessages :
      (((orderBy (·.createdAt) (db.messagesOf req.id)).filter fun m =>
        false || !m.isInternal).map (messageOut (actors db req))).map MessageOut.unnumbered =
      ((orderBy (·.createdAt) (db.outside.messagesOf req.id)).filter fun m =>
        false || !m.isInternal).map (messageOut (actors db.outside req)) := by
    simp only [Bool.false_or]
    rw [messagesOf_outside, ← public_thread, List.map_map, List.map_map]
    refine List.map_congr_left fun m hm => ?_
    obtain ⟨hm, hpublic⟩ := List.mem_filter.mp hm
    exact messageOut_unnumbered db (mem_orderBy.mp hm) (by simpa using hpublic)
  have hhistory :
      (orderBy (·.createdAt) (orderBy (fun h => (h.id : Int)) (db.historyOf req.id))).map
        (historyOut (actors db req)) =
      (orderBy (·.createdAt) (orderBy (fun h => (h.id : Int)) (db.historyOf req.id))).map
        (historyOut (actors db.outside req)) :=
    List.map_congr_left fun h hh => historyOut_outside db (mem_orderBy.mp (mem_orderBy.mp hh))
  unfold forViewer
  have hcategory : db.outside.getCategory = db.getCategory := rfl
  have hstudent : db.outside.getUser = db.getUser := rfl
  have hhistoryOf : db.outside.historyOf = db.historyOf := rfl
  rw [hcategory, hstudent, hhistoryOf]
  cases db.getCategory req.categoryId with
  | none => rfl
  | some category =>
    cases db.getUser req.studentId with
    | none => rfl
    | some student =>
      refine congrArg Except.ok ?_
      dsimp only [RequestDetail.unnumbered]
      rw [hmessages, hhistory]
      rfl

theorem clientView_outside (requestId : Nat) :
    (clientView db updatedAt now requestId).map RequestDetail.unnumbered =
      clientView db.outside updatedAt now requestId := by
  unfold clientView
  have hrequest : db.outside.getRequest = db.getRequest := rfl
  rw [hrequest]
  cases db.getRequest requestId with
  | none => rfl
  | some req => exact forViewer_outside db updatedAt now req

/-! ## One note -/

/-- A step that posts an internal message. -/
def Event.isNote (e : Event) : Bool :=
  match e.step with
  | .call (.message _ _ data) => data.isInternal
  | _ => false

variable {db} {updatedAt}

/-- A note only adds a row that is not seen from outside. -/
theorem postMessage_internal (cfg : Settings) (req : Request) (sender : User) (content : String) :
    (db.finish (postMessage cfg db (Work.load db req) sender content true now)).Alike db := by
  have hwork : db.finish (postMessage cfg db (Work.load db req) sender content true now) =
      db.withMessages (max db.nextMessageId (db.nextMessageId + 1))
        (db.messages ++
          [{ id := db.nextMessageId, requestId := req.id, senderId := sender.id,
             content := strip content, isInternal := true, createdAt := now }]) db.outbox := by
    simp [postMessage, Work.load, Db.begin, Db.finish, Db.commit, Db.updateRequest, Db.withMessages,
      Session.addMessage, Session.empty, Session.nextId, Session.nextMessageId, Session.history,
      Session.files, Session.messages, Session.notifications, Session.auditLogs, Session.outbox]
  rw [hwork]
  refine (Db.Alike.withMessages ?_ rfl).symm
  rw [publicMessages_append]
  exact (List.append_nil _).symm

/-- A note is refused, or not seen from outside. -/
theorem step_note (cfg : Settings) {e : Event} (h : e.isNote = true) : (step cfg db e).Alike db := by
  obtain ⟨now, s⟩ := e
  cases s with
  | call c =>
    cases c with
    | message userId requestId data =>
      obtain ⟨content, isInternal⟩ := data
      obtain rfl : isInternal = true := h
      cases hdb : (Step.call (.message userId requestId ⟨content, true⟩)).apply cfg db now with
      | error exc =>
        rw [step_failed hdb]
        exact Db.Alike.refl db
      | ok db' =>
        rw [step_committed hdb]
        obtain ⟨w, hw, hcommit⟩ := bind_eq_ok.mp hdb
        cases hcommit
        obtain ⟨user, -, hw⟩ := bind_eq_ok.mp hw
        obtain ⟨loaded, hloaded, hw⟩ := bind_eq_ok.mp hw
        obtain ⟨-, -, hw⟩ := bind_eq_ok.mp hw
        cases hw
        obtain ⟨req, -, rfl⟩ := getRequestForUser_eq_ok hloaded
        exact postMessage_internal now cfg req user content
    | _ => cases h
  | _ => cases h

/-! ## What is seen from outside -/

/-- Equal from outside, the `updated_at` column included. -/
structure Stamped.Alike (o o' : Stamped) : Prop where
  db : o.db.Alike o'.db
  updatedAt : o.updatedAt = o'.updatedAt

namespace Stamped.Alike

variable {cfg : Settings} {o o' : Stamped}

/-- A viewer without internal access is shown the same of a request. -/
theorem forViewer (h : o.Alike o') (req : Request) :
    Outcomes (fun d d' : RequestDetail => d.unnumbered = d'.unnumbered)
      (forViewer o.db o.updatedAt now false req) (Api.forViewer o'.db o'.updatedAt now false req) := by
  rw [← Outcomes.map_eq_iff, forViewer_outside, forViewer_outside, h.updatedAt, h.db]

theorem clientView (h : o.Alike o') (requestId : Nat) :
    Outcomes (fun d d' : RequestDetail => d.unnumbered = d'.unnumbered)
      (clientView o.db o.updatedAt now requestId)
      (Api.clientView o'.db o'.updatedAt now requestId) := by
  rw [← Outcomes.map_eq_iff, clientView_outside, clientView_outside, h.updatedAt, h.db]

theorem getDetail (h : o.Alike o') {userId : Nat} (requestId : Nat)
    (hviewer : ∀ u, o.db.getUser userId = some u → seesInternal u = false) :
    Outcomes (fun d d' : RequestDetail => d.unnumbered = d'.unnumbered)
      (getDetail o.db o.updatedAt now userId requestId)
      (Api.getDetail o'.db o'.updatedAt now userId requestId) := by
  obtain ⟨n, ms, out, heq, -, -⟩ := h.db.eq_withMessages
  unfold Api.getDetail
  have huser : currentUser o'.db userId = currentUser o.db userId := by
    rw [heq]
    rfl
  have hload (user : User) : Outcomes Work.Alike (getRequestForUser o.db requestId user)
      (getRequestForUser o'.db requestId user) := by
    rw [heq]
    exact getRequestForUser_alike o.db n ms out requestId user
  rw [huser]
  cases hcaller : currentUser o.db userId with
  | error e => exact .error e
  | ok user =>
    refine (hload user).bind fun w v hw => ?_
    rw [hviewer user (currentUser_eq_ok.mp hcaller).1, hw.req]
    exact h.forViewer now v.req

theorem clientDetail (h : o.Alike o') (client : ApiClient) (requestId : Nat) :
    Outcomes (fun d d' : RequestDetail => d.unnumbered = d'.unnumbered)
      (clientDetail o.db o.updatedAt now client requestId)
      (Api.clientDetail o'.db o'.updatedAt now client requestId) := by
  obtain ⟨n, ms, out, heq, -, -⟩ := h.db.eq_withMessages
  unfold Api.clientDetail
  have hload : Outcomes Work.Alike (ownedRequest o.db requestId client)
      (ownedRequest o'.db requestId client) := by
    rw [heq]
    exact ownedRequest_alike o.db n ms out requestId client
  refine hload.bind fun w v hw => ?_
  rw [hw.req]
  exact h.clientView now v.req.id

theorem downloadFile (h : o.Alike o') (disk : Disk) (userId requestId fileId : Nat) :
    downloadFile o.db disk userId requestId fileId =
      Api.downloadFile o'.db disk userId requestId fileId := by
  obtain ⟨n, ms, out, heq, -, -⟩ := h.db.eq_withMessages
  refine Outcomes.eq_of ?_
  rw [heq]
  unfold Api.downloadFile
  refine .check (currentUser o.db userId) fun user => ?_
  refine (getRequestForUser_alike o.db n ms out requestId user).bind fun w v hw => ?_
  rw [hw.req]
  exact .same (fun _ => rfl) (requestFileResponse o.db disk v.req fileId)

theorem clientDownload (h : o.Alike o') (disk : Disk) (client : ApiClient)
    (requestId fileId : Nat) :
    clientDownload o.db disk client requestId fileId =
      Api.clientDownload o'.db disk client requestId fileId := by
  obtain ⟨n, ms, out, heq, -, -⟩ := h.db.eq_withMessages
  refine Outcomes.eq_of ?_
  rw [heq]
  unfold Api.clientDownload
  refine (ownedRequest_alike o.db n ms out requestId client).bind fun w v hw => ?_
  rw [hw.req]
  exact .same (fun _ => rfl) (requestFileResponse o.db disk v.req fileId)

/-! ## Steps and runs -/

/-- An event leaves alike what was alike, and stamps the same rows. -/
theorem step (h : o.Alike o') (e : Event) : (o.step cfg e).Alike (o'.step cfg e) := by
  have hdb := step_alike cfg h.db e
  refine ⟨hdb, ?_⟩
  obtain ⟨n, ms, out, hbefore, -, -⟩ := h.db.eq_withMessages
  obtain ⟨n', ms', out', hafter, -, -⟩ := hdb.eq_withMessages
  funext id
  show touch o.updatedAt o.db (Api.step cfg o.db e) e.now id =
    touch o'.updatedAt o'.db (Api.step cfg o'.db e) e.now id
  rw [hafter, hbefore, h.updatedAt]
  rfl

/-- A note changes nothing that is seen from outside. -/
theorem note (h : o.Alike o') {e : Event} (hnote : e.isNote = true) :
    (o.step cfg e).Alike o' := by
  have hdb : (Api.step cfg o.db e).Alike o.db := step_note cfg hnote
  refine ⟨hdb.trans h.db, ?_⟩
  obtain ⟨n, ms, out, hbefore, -, -⟩ := hdb.eq_withMessages
  rw [← h.updatedAt]
  funext id
  show touch o.updatedAt o.db (Api.step cfg o.db e) e.now id = o.updatedAt id
  have hrow : (Api.step cfg o.db e).getRequest id = o.db.getRequest id := by
    conv_rhs => rw [hbefore]
    rfl
  exact if_pos hrow

end Stamped.Alike

end Api

/-! ## What is seen from outside -/

/-- The emails of an outbox, in its order. -/
def emailsIn (outbox : List OutboxMessage) : List Email :=
  outbox.filterMap fun m =>
    match m.payload with
    | .email email => some email
    | .webhook _ => none

theorem webhooksIn_unnumbered (out : List OutboxMessage) :
    (webhooksIn out).map Webhook.unnumbered =
      webhooksIn (out.map OutboxMessage.unnumbered) := by
  unfold webhooksIn
  rw [List.map_filterMap, List.filterMap_map]
  refine congrArg (List.filterMap · out) (funext fun m => ?_)
  obtain ⟨id, payload⟩ := m
  cases payload <;> rfl

theorem emailsIn_unnumbered (out : List OutboxMessage) :
    emailsIn out = emailsIn (out.map OutboxMessage.unnumbered) := by
  unfold emailsIn
  rw [List.filterMap_map]
  refine congrArg (List.filterMap · out) (funext fun m => ?_)
  obtain ⟨id, payload⟩ := m
  cases payload <;> rfl

/-- Two states look the same to students and to the partner platform, up to
the numbers of messages. The notifications and the emails are all the same,
whoever they are addressed to. -/
structure Indistinguishable (cfg : Settings) (o o' : Stamped) : Prop where
  /-- The payload built for a viewer without internal access. -/
  view : ∀ now requestId,
    (clientView o.db o.updatedAt now requestId).map RequestDetail.unnumbered =
      (clientView o'.db o'.updatedAt now requestId).map RequestDetail.unnumbered
  detail : ∀ now userId requestId,
    (∀ u, o.db.getUser userId = some u → seesInternal u = false) →
    (getDetail o.db o.updatedAt now userId requestId).map RequestDetail.unnumbered =
      (getDetail o'.db o'.updatedAt now userId requestId).map RequestDetail.unnumbered
  clientDetail : ∀ now client requestId,
    (clientDetail o.db o.updatedAt now client requestId).map RequestDetail.unnumbered =
      (Api.clientDetail o'.db o'.updatedAt now client requestId).map RequestDetail.unnumbered
  list : ∀ now ilike userId filters bounds,
    listRequests o.db o.updatedAt now ilike userId filters bounds =
      listRequests o'.db o'.updatedAt now ilike userId filters bounds
  clientList : ∀ now client status hemisId bounds,
    clientRequests o.db o.updatedAt now client status hemisId bounds =
      clientRequests o'.db o'.updatedAt now client status hemisId bounds
  download : ∀ disk userId requestId fileId,
    downloadFile o.db disk userId requestId fileId = downloadFile o'.db disk userId requestId fileId
  clientDownload : ∀ disk client requestId fileId,
    clientDownload o.db disk client requestId fileId =
      Api.clientDownload o'.db disk client requestId fileId
  webhooks : (webhooksIn o.db.outbox).map Webhook.unnumbered =
    (webhooksIn o'.db.outbox).map Webhook.unnumbered
  notifications : o.db.notifications = o'.db.notifications
  emails : emailsIn o.db.outbox = emailsIn o'.db.outbox
  /-- Whatever comes next is refused alike, or does the same. -/
  calls : ∀ now (c : Call), Outcomes Work.Alike (c.handle cfg o.db now) (c.handle cfg o'.db now)
  steps : ∀ now (s : Step), Outcomes Db.Alike (s.apply cfg o.db now) (s.apply cfg o'.db now)

theorem Api.Stamped.Alike.indistinguishable {cfg : Settings} {o o' : Stamped} (h : o.Alike o') :
    Indistinguishable cfg o o' := by
  obtain ⟨n, ms, out, heq, -, houtbox⟩ := h.db.eq_withMessages
  have hout : o'.db.outbox = out := by rw [heq]; rfl
  exact
    { view := fun now requestId => Outcomes.map_eq_iff.mpr (h.clientView now requestId)
      detail := fun now userId requestId hviewer =>
        Outcomes.map_eq_iff.mpr (h.getDetail now requestId hviewer)
      clientDetail := fun now client requestId =>
        Outcomes.map_eq_iff.mpr (h.clientDetail now client requestId)
      list := fun now ilike userId filters bounds => by rw [heq, h.updatedAt]; rfl
      clientList := fun now client status hemisId bounds => by rw [heq, h.updatedAt]; rfl
      download := h.downloadFile
      clientDownload := h.clientDownload
      webhooks := by rw [webhooksIn_unnumbered, webhooksIn_unnumbered, houtbox, hout]
      notifications := by rw [heq]; rfl
      emails := by rw [emailsIn_unnumbered, houtbox, ← hout, ← emailsIn_unnumbered]
      calls := fun now c => by rw [heq]; exact handle_alike cfg o.db n ms out now c
      steps := fun now s => apply_alike cfg now h.db s }

/-- Internal notes do not leak. Whatever happens, in any order, with any
number of notes by anyone on any request: to students and to the partner
platform the run looks like the same run without its notes. -/
theorem internal_notes_unseen (cfg : Settings) (o : Stamped) (es : List Event) :
    Indistinguishable cfg (Runs.run (Stamped.step cfg) o es)
      (Runs.run (Stamped.step cfg) o (es.filter fun e => !e.isNote)) := by
  have halike : (Runs.run (Stamped.step cfg) o es).Alike
      (Runs.run (Stamped.step cfg) o (es.filter fun e => !e.isNote)) :=
    Runs.run_filter_relates (fun _ _ _ h hnote => h.note hnote) (fun _ _ e h _ => h.step e)
      ⟨Db.Alike.refl o.db, rfl⟩ es
  exact halike.indistinguishable

/-- A note on a closed request is kept, and a student is not shown it. -/
example :
    let note : Event := ⟨4, .call (.message 2 10 { content := "Eslatma", isInternal := true })⟩
    let o := Runs.run (Stamped.step {}) ⟨office, fun _ => 0⟩ [filing 0, answering 3, note]
    o.db.messages.map (·.content) = ["Eslatma"] ∧
      (getDetail o.db o.updatedAt 5 1 10).map (·.messages) = .ok [] := by decide +kernel

end Royd
