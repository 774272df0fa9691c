/-
Royd.Lifecycle.Acts — what one event commits, in full.

`Effect` (Lifecycle.Life) is what the lifecycle of a request needs to know
of a commit. `Act` says everything that matters to the world around it: who
filed, whose deed it was, which row the sweep noticed, and what is queued for
the partner platform. `step_acts` finds the acts of every event, `Act.story`
reads one act from one request.
-/
import Royd.Api.Deeds
import Royd.Lifecycle.Runs

namespace Royd

open Api

variable {cfg : Settings} {now : Int} {db db' : Db}

/-! ## Filings -/

/-- The rows of `create_request` queue nothing. -/
theorem filingRows_leaves (db : Db) (start messageStart : Nat) (now : Int) (req : Request)
    (category : RequestCategory) (assignee : Option User) :
    ∃ first second fs, first.changedBy = some req.studentId ∧
      (filingRows db (.empty start messageStart) req category assignee now).Leaves
        [first, second] fs [] [] := by
  have hfiles : ∀ (files : List AutoReplyFile) {s : Session} {fs : List RequestFile},
      s.Leaves [] fs [] [] → ∃ fs', (addAutoReplyFiles s req files now).Leaves [] fs' [] [] := by
    intro files
    induction files with
    | nil => exact fun {s fs} hs => ⟨fs, hs⟩
    | cons f files ih =>
      intro s fs hs
      exact ih (hs.addFile (fun id =>
        { id
          requestId := req.id
          uploadedBy := f.uploadedBy
          filePath := f.filePath
          fileName := f.fileName
          fileSize := f.fileSize
          mimeType := f.mimeType
          isAnswer := true
          createdAt := now }) fun _ => rfl)
  have hbefore : ∃ fs, (if category.routing = .autoReply then
      addAutoReplyFiles (.empty start messageStart) req (listAutoReplyFiles db category) now
      else .empty start messageStart).Leaves [] fs [] [] := by
    split
    · exact hfiles _ (Session.Leaves.empty _ _)
    · exact ⟨[], Session.Leaves.empty _ _⟩
  obtain ⟨fs, hrows⟩ := hbefore
  exact ⟨_, _, fs, rfl, (hrows.addHistory req (some req.studentId) none .new
    (some "Murojaat yuborildi") now).addHistory req none (some .new) req.status
    (some (routedComment category assignee)) now⟩

/-- What `file_request` queues for a request that has the answer files `fs`. -/
def filingWebhooks (cfg : Settings) (db : Db) (req : Request) (fs : List RequestFile) :
    List Webhook :=
  published cfg db req .requestCreated ++
    if req.status = .completed then
      (fs.flatMap fun f => published cfg db req (fileBody req f)) ++
        published cfg db req (.statusChanged .new none (some (answerEvent req none fs)))
    else []

theorem announceFiling_leaves {s : Session} {hs : List RequestHistory} {fs : List RequestFile}
    {ms : List Message} (h : s.Leaves hs fs ms []) (cfg : Settings) (db : Db) (student : User)
    (req : Request) (client : Option ApiClient) :
    (announceFiling cfg db s student req client).Leaves hs fs ms
      (published cfg db req .requestCreated) := by
  unfold announceFiling
  refine Session.Leaves.publishFirst ?_ cfg db req .requestCreated
  split
  · exact (h.logAction _ _ _ _ _ _).notifyAssigned cfg db _ _
  · exact h.logAction _ _ _ _ _ _

theorem announceAutoAnswer_leaves {s : Session} {hs : List RequestHistory} {fs : List RequestFile}
    {ms : List Message} {ws : List Webhook} (h : s.Leaves hs fs ms ws) (cfg : Settings) (db : Db)
    (req : Request) (files : List RequestFile) :
    (announceAutoAnswer cfg db s req files).Leaves hs fs ms
      (ws ++ ((files.flatMap fun f => published cfg db req (fileBody req f)) ++
        published cfg db req (.statusChanged .new none (some (answerEvent req none files))))) := by
  rw [← List.append_assoc]
  exact ((h.notifyUser cfg db _ _ _ _ _ _).publishFiles cfg db req files).publish cfg db req _

/-- What `file_request` leaves: the new row, two entries of its history, the
files of an automatic answer, and its webhooks. -/
structure Opened (cfg : Settings) (db : Db) (now : Int) (student : User)
    (client : Option ApiClient) (req : Request) (first second : RequestHistory)
    (fs : List RequestFile) (s : Session) : Prop where
  owner : req.studentId = student.id
  filedBy : req.apiClientId = client.map (·.id)
  unmarked : req.slaWarnedAt = none ∧ req.slaBreachedAt = none
  undescribed : req.status ≠ .completed → req.answerDescription = none
  by' : first.changedBy = some student.id
  filed : ∃ category, Filed cfg db now category req ∧ Opening now req category first second fs
  holds : s.Holds (db.nextId + 1) req.id [first, second] fs []
    (if req.status = .completed then 1 else 0)
  webhooks : webhooksIn s.outbox = filingWebhooks cfg db req fs

theorem fileRequest_opened {student : User} {data : RequestCreate} {trackingNo : String}
    {clientRef : Option String} {client : Option ApiClient} {req : Request} {s : Session}
    (h : fileRequest cfg db student data trackingNo clientRef client now = .ok (req, s)) :
    ∃ first second fs, Opened cfg db now student client req first second fs s := by
  obtain ⟨category, first, second, fs, hfiled, hopening, hholds⟩ := fileRequest_filed h
  obtain ⟨⟨req₀, s₀⟩, hcreate, h⟩ := bind_eq_ok.mp h
  obtain ⟨category', -, hcreate⟩ := bind_eq_ok.mp hcreate
  obtain ⟨assignee, -, hcreate⟩ := bind_eq_ok.mp hcreate
  obtain ⟨deadline, -, hcreate⟩ := bind_eq_ok.mp hcreate
  cases hcreate
  cases h
  obtain ⟨first', second', fs', hby, hrows⟩ := filingRows_leaves db (db.nextId + 1)
    db.nextMessageId now (newRequest db.nextId student category' assignee deadline data
      { trackingNo, clientRef, apiClientId := client.map (·.id) } now) category' assignee
  generalize hreq : newRequest db.nextId student category' assignee deadline data
    { trackingNo, clientRef, apiClientId := client.map (·.id) } now = req at *
  generalize filingRows db (.empty (db.nextId + 1) db.nextMessageId) req category' assignee now = s₀
    at *
  have hshape : req.studentId = student.id ∧ req.apiClientId = client.map (·.id) ∧
      (req.slaWarnedAt = none ∧ req.slaBreachedAt = none) ∧
      (req.status ≠ .completed → req.answerDescription = none) := by
    rw [← hreq]
    unfold newRequest
    split
    · exact ⟨rfl, rfl, ⟨rfl, rfl⟩, fun hne => absurd rfl hne⟩
    · exact ⟨rfl, rfl, ⟨rfl, rfl⟩, fun _ => rfl⟩
  have hannounced := announceFiling_leaves hrows cfg db student req client
  have hfinal : ∃ ws, ws = filingWebhooks cfg db req (s₀.files.filter (·.isAnswer)) ∧
      (if req.status = .completed then
        announceAutoAnswer cfg db (announceFiling cfg db s₀ student req client) req
          (s₀.files.filter (·.isAnswer))
        else announceFiling cfg db s₀ student req client).Leaves [first', second'] fs' [] ws := by
    unfold filingWebhooks
    split
    · exact ⟨_, rfl, announceAutoAnswer_leaves hannounced cfg db req _⟩
    · exact ⟨_, rfl, by simpa using hannounced⟩
  obtain ⟨ws, hws, hleaves⟩ := hfinal
  -- The rows are those `create_request` added.
  obtain ⟨hfirst, -⟩ := List.cons.inj (hleaves.history.symm.trans hholds.history)
  have hsame : fs' = fs := hleaves.files.symm.trans hholds.files
  have hanswers : s₀.files.filter (·.isAnswer) = fs := by
    rw [hrows.files, hsame]
    exact List.filter_eq_self.mpr fun f hf => (hopening.answerFiles f hf).2
  refine ⟨first, second, fs, ?_⟩
  exact
    { owner := hshape.1
      filedBy := hshape.2.1
      unmarked := hshape.2.2.1
      undescribed := hshape.2.2.2
      by' := by rw [← hfirst, hby, hshape.1]
      filed := ⟨category, hfiled, hopening⟩
      holds := hholds
      webhooks := by rw [hleaves.webhooks, hws, hanswers] }

/-! ## Acts -/

/-- The tables as the session of a filing reads them. -/
def Db.synced (db : Db) (sync : Option StudentSync) : Db := (sync.map db.applySync).getD db

/-- For whom a step files, and through which integration. -/
inductive Filer (db : Db) : Step → User → Option ApiClient → Option StudentSync → Prop
  | student {userId : Nat} {data : RequestCreate} {key : Option String} {trackingNo : String}
      {student : User} (active : requireStudent db userId = .ok student) :
      Filer db (.create userId data key trackingNo) student none none
  | client {client : ApiClient} {profile : StudentProfile} {data : RequestCreate}
      {key : Option String} {trackingNo : String} {sync : StudentSync}
      (synced : syncStudent db profile = .ok sync) :
      Filer db (.clientCreate client profile data key trackingNo) sync.user (some client) (some sync)

/-- One commit of an event: a filing, the deed of a call, a notice of the
sweep, or an edit of something else. -/
inductive Act (cfg : Settings) (e : Event) (db : Db) : Db → Prop
  | elsewhere {db' : Db} (edit : db.Elsewhere db') : Act cfg e db db'
  | filed {student : User} {data : RequestCreate} {trackingNo : String} {key : Option String}
      {client : Option ApiClient} {f : Filing} (filer : Filer db e.step student client f.sync)
      (file : fileRequest cfg (db.synced f.sync) student data trackingNo key client e.now
        = .ok (f.req, f.session)) : Act cfg e db (insertFiling db f)
  | done {c : Call} {w : Work} (call : e.step = .call c)
      (handled : c.handle cfg db e.now = .ok w) (does : Does cfg db e.now c w)
      (change : Change cfg db.nextId e.now w.loaded w.req w.session) : Act cfg e db (db.finish w)
  | noticed {r : Request} {useLock won : Bool} (sweep : e.step = .sweep useLock won)
      (row : r ∈ db.requests) (needs : needsNotice cfg e.now r = true) :
      Act cfg e db (db.finish (sweepOne cfg db r e.now))

/-- The commits of an event, one after the other. -/
def Acts (cfg : Settings) (e : Event) : Db → Db → Prop := Relation.ReflTransGen (Act cfg e)

variable {e : Event}

theorem Act.effects (h : Act cfg e db db') : Effects cfg e.now db.categories db db' := by
  cases h with
  | elsewhere edit => exact .single edit.effect
  | filed _ file => exact insertFiling_effects file
  | done _ _ does change => exact .single (.changed does.committed change)
  | noticed _ row needs =>
    exact .single (.changed row (sweepOne_change (needsNotice_running needs)))

theorem Act.wf (h : Act cfg e db db') (hwf : db.Wf) : db'.Wf := (h.effects.life hwf).1

/-- Every event but a pass of the sweep is one act, or none. -/
theorem step_act (cfg : Settings) (db : Db) {e : Event}
    (hcall : ∀ useLock won, e.step ≠ .sweep useLock won) :
    step cfg db e = db ∨ Act cfg e db (step cfg db e) := by
  unfold step
  cases happly : e.step.apply cfg db e.now with
  | error _ => exact .inl rfl
  | ok db' =>
    dsimp only
    cases hstep : e.step with
    | create userId data key trackingNo =>
      rw [hstep] at happly
      obtain ⟨student, hstudent, rfl | ⟨req, session, hfile, rfl⟩⟩ := runCreate_eq_ok happly
      · exact .inl rfl
      · exact .inr (.filed (hstep ▸ .student hstudent) hfile)
    | clientCreate client profile data key trackingNo =>
      rw [hstep] at happly
      obtain ⟨sync, hsync, rfl | ⟨req, session, hfile, rfl⟩⟩ := runClientCreate_eq_ok happly
      · exact .inl rfl
      · exact .inr (.filed (hstep ▸ .client hsync) hfile)
    | call c =>
      rw [hstep] at happly
      obtain ⟨w, hhandle, happly⟩ := bind_eq_ok.mp happly
      cases happly
      exact .inr (.done hstep hhandle (handle_deed hhandle) (handle_change hhandle).2.2)
    | sweep useLock won => exact absurd hstep (hcall useLock won)
    | catalogue edit =>
      rw [hstep] at happly
      exact .inr (.elsewhere (catalogueEdit_elsewhere happly))
    | people users departments faculties studentGroups =>
      rw [hstep] at happly
      cases happly
      exact .inr (.elsewhere ⟨rfl, rfl, rfl, rfl, rfl, le_rfl, id⟩)

/-- Every event is a chain of acts. -/
theorem step_acts (cfg : Settings) (hwf : db.Wf) (e : Event) : Acts cfg e db (step cfg db e) := by
  by_cases hsweep : ∃ useLock won, e.step = .sweep useLock won
  · obtain ⟨useLock, won, hsweep⟩ := hsweep
    unfold step
    rw [hsweep]
    exact sweep_relates (fun _ => .refl) (fun h h' => h.trans h')
      (fun db r _ hr hneeds => .single (.noticed hsweep hr hneeds)) hwf useLock won
  · rcases step_act cfg db fun useLock won heq => hsweep ⟨useLock, won, heq⟩ with hsame | hact
    · rw [hsame]
      exact .refl
    · exact .single hact

/-! ## An act, seen from one request -/

/-- The webhooks an outbox has queued for a request. -/
def Db.feed (db : Db) (id : Nat) : List Webhook :=
  (webhooksIn db.outbox).filter (·.requestId == id)

/-- One step in the life of a request, made by `e`, with the webhooks it
queues. -/
inductive Story (cfg : Settings) (e : Event) : Option Life → Option Life → List Webhook → Prop
  | filed {db : Db} {student : User} {client : Option ApiClient} {req : Request}
      {first second : RequestHistory} {fs : List RequestFile} {s : Session}
      (opened : Opened cfg db e.now student client req first second fs s)
      (catalogue : CatalogueOk db) (answers : List OutboxMessage) :
      Story cfg e none (some ⟨req, [first, second], fs, [], answers⟩)
        (filingWebhooks cfg db req fs)
  | done {db : Db} {c : Call} {l : Life} {actor : User} {req' : Request} {start : Nat} {s : Session}
      (call : e.step = .call c) (deed : Deed cfg db e.now l.req actor req' s)
      (change : Change cfg start e.now l.req req' s) :
      Story cfg e (some l) (some (l.after req' s)) (webhooksIn s.outbox)
  | noticed {db : Db} {useLock won : Bool} {l : Life} (sweep : e.step = .sweep useLock won)
      (needs : needsNotice cfg e.now l.req = true) :
      Story cfg e (some l)
        (some (l.after (sweepOne cfg db l.req e.now).req (sweepOne cfg db l.req e.now).session)) []

theorem published_own {req : Request} {body : EventBody} {x : Webhook}
    (h : x ∈ published cfg db req body) : x.requestId = req.id := by
  unfold published at h
  split at h
  · cases h
  · rw [List.mem_singleton.mp h]
    rfl

/-- A deed queues webhooks for its own request only. -/
theorem Api.Deed.webhooks_own {r req' : Request} {actor : User} {s : Session}
    (h : Deed cfg db now r actor req' s) : ∀ x ∈ webhooksIn s.outbox, x.requestId = r.id := by
  intro x hx
  cases h with
  | assigned _ _ _ _ _ _ _ rows =>
    rw [rows.webhooks] at hx
    cases hx
  | moved _ _ _ _ applied _ _ rows =>
    rw [rows.webhooks] at hx
    rw [published_own hx, (applyStatus_eq_ok applied).shape]
  | resubmitted _ _ _ applied _ _ rows =>
    rw [rows.webhooks] at hx
    rw [published_own hx, (applyStatus_eq_ok applied).shape]
  | answered _ _ _ applied _ _ _ rows =>
    rw [rows.webhooks] at hx
    rcases List.mem_append.mp hx with hx | hx
    · obtain ⟨f, -, hx⟩ := List.mem_flatMap.mp hx
      exact published_own hx
    · rw [published_own hx, (applyStatus_eq_ok applied).shape]
  | said _ _ _ _ rows =>
    rw [rows.webhooks] at hx
    split at hx
    · cases hx
    · exact published_own hx
  | attached _ _ _ _ rows =>
    rw [rows.webhooks] at hx
    exact published_own hx

theorem filingWebhooks_own {req : Request} {fs : List RequestFile} {x : Webhook}
    (h : x ∈ filingWebhooks cfg db req fs) : x.requestId = req.id := by
  unfold filingWebhooks at h
  rcases List.mem_append.mp h with h | h
  · exact published_own h
  · split at h
    · rcases List.mem_append.mp h with h | h
      · obtain ⟨f, -, h⟩ := List.mem_flatMap.mp h
        exact published_own h
      · exact published_own h
    · cases h

/-- The notice of the sweep adds one entry to the history and queues no
webhook. -/
theorem sweepOne_leaves (cfg : Settings) (db : Db) (req : Request) (now : Int) :
    (sweepOne cfg db req now).session.Leaves
      [{ id := (sweepTell cfg db db.begin req (decide (req.slaDeadline < now)) now).nextId
         requestId := req.id
         changedBy := none
         oldStatus := some req.status
         newStatus := req.status
         comment := some ((if decide (req.slaDeadline < now) then "[sla-breach]"
           else "[sla-warning]") ++ " " ++ sweepBody req (decide (req.slaDeadline < now)) now)
         createdAt := now }] [] [] [] := by
  have htold : (sweepTell cfg db db.begin req (decide (req.slaDeadline < now)) now).Leaves
      [] [] [] [] := by
    unfold sweepTell
    refine Session.Leaves.foldl (fun s a hs => hs.enqueueEmail _) ?_ _
    exact Session.Leaves.foldl (fun s a hs => hs.createNotification _ _ _ _ _ _)
      (Session.Leaves.empty _ _) _
  exact htold.addHistory req none (some req.status) req.status _ now

theorem feed_commit (db : Db) (s : Session) (id : Nat) :
    (db.commit s).feed id = db.feed id ++ (webhooksIn s.outbox).filter (·.requestId == id) := by
  unfold Db.feed Db.commit
  rw [webhooksIn_append, List.filter_append]

/-- The upsert of a student touches no request. -/
theorem synced_elsewhere (db : Db) (sync : Option StudentSync) : db.Elsewhere (db.synced sync) := by
  cases sync with
  | none => exact ⟨rfl, rfl, rfl, rfl, rfl, le_rfl, id⟩
  | some sync => exact ⟨rfl, rfl, rfl, rfl, rfl, Nat.le_max_left _ _, id⟩

theorem insertFiling_eq (db : Db) (f : Filing) :
    insertFiling db f = { (db.synced f.sync).commit f.session with
      requests := ((db.synced f.sync).commit f.session).requests ++ [f.req] } := by
  unfold insertFiling Db.synced
  cases f.sync <;> rfl

theorem Db.Elsewhere.life? (h : db.Elsewhere db') (id : Nat) : db'.life? id = db.life? id :=
  life?_outside h.requests h.history h.files h.messages h.outbox id

theorem Db.Elsewhere.feed (h : db.Elsewhere db') (id : Nat) : db'.feed id = db.feed id := by
  rw [Db.feed, h.outbox, Db.feed]

theorem Db.Elsewhere.wf (h : db.Elsewhere db') (hwf : db.Wf) : db'.Wf :=
  (h.effect : Effect {} 0 [] db db').wf hwf

theorem webhooks_own {ws : List Webhook} {id : Nat} (h : ∀ x ∈ ws, x.requestId = id) :
    ws.filter (·.requestId == id) = ws :=
  filter_own h

theorem webhooks_other {ws : List Webhook} {id other : Nat} (h : ∀ x ∈ ws, x.requestId = id)
    (hne : id ≠ other) : ws.filter (·.requestId == other) = [] :=
  filter_other h hne

/-- A commit is a step in the life of at most one request. -/
theorem Act.story (h : Act cfg e db db') (hwf : db.Wf) (id : Nat) :
    (db'.life? id = db.life? id ∧ db'.feed id = db.feed id) ∨
      ∃ ws, Story cfg e (db.life? id) (db'.life? id) ws ∧ db'.feed id = db.feed id ++ ws := by
  cases h with
  | elsewhere edit =>
    exact .inl ⟨edit.life? id, edit.feed id⟩
  | @filed student data trackingNo key client f filer file =>
    have hbase := synced_elsewhere db f.sync
    have hwf' := hbase.wf hwf
    obtain ⟨first, second, fs, hopened⟩ := fileRequest_opened file
    obtain ⟨category, hfiled, hopening⟩ := hopened.filed
    have hfeed : (insertFiling db f).feed id =
        db.feed id ++ (webhooksIn f.session.outbox).filter (·.requestId == id) := by
      rw [← hbase.feed id, ← feed_commit, insertFiling_eq]
      rfl
    have hown : ∀ x ∈ webhooksIn f.session.outbox, x.requestId = f.req.id := by
      rw [hopened.webhooks]
      exact fun x hx => filingWebhooks_own hx
    rw [insertFiling_eq, ← hbase.life? id]
    rw [insertFiling_eq] at hfeed
    by_cases hid : f.req.id = id
    · right
      subst hid
      refine ⟨_, ?_, by rw [hfeed, webhooks_own hown, hopened.webhooks]⟩
      rw [life?_unfiled hwf' (by rw [hfiled.id]), life?_filed hwf' hfiled hopening hopened.holds]
      exact .filed hopened hwf'.catalogue _
    · left
      refine ⟨life?_filed_other hid hopening hopened.holds, ?_⟩
      rw [hfeed, webhooks_other hown hid, List.append_nil]
  | @done c w call _ does change =>
    obtain ⟨actor, -, hdeed⟩ := does.done
    have hfeed : (db.finish w).feed id =
        db.feed id ++ (webhooksIn w.session.outbox).filter (·.requestId == id) :=
      feed_commit db w.session id
    by_cases hid : w.loaded.id = id
    · right
      subst hid
      obtain ⟨hbefore, hafter⟩ := life?_changed hwf does.committed change
      refine ⟨webhooksIn w.session.outbox, ?_, ?_⟩
      · rw [hbefore, hafter]
        exact .done (l := db.lifeOf w.loaded) call hdeed change
      · rw [hfeed, webhooks_own hdeed.webhooks_own]
    · left
      refine ⟨life?_finish_other hid change, ?_⟩
      rw [hfeed, webhooks_other hdeed.webhooks_own hid, List.append_nil]
  | @noticed r useLock won sweep row needs =>
    have hchange : Change cfg db.nextId e.now r (sweepOne cfg db r e.now).req
        (sweepOne cfg db r e.now).session := sweepOne_change (needsNotice_running needs)
    have hfeed : (db.finish (sweepOne cfg db r e.now)).feed id = db.feed id := by
      rw [show (db.finish (sweepOne cfg db r e.now)).feed id = _ from
        feed_commit db (sweepOne cfg db r e.now).session id,
        (sweepOne_leaves cfg db r e.now).webhooks]
      simp
    by_cases hid : r.id = id
    · right
      subst hid
      obtain ⟨hbefore, hafter⟩ := life?_changed (w := sweepOne cfg db r e.now) hwf row hchange
      have hloaded : (sweepOne cfg db r e.now).loaded = r := rfl
      rw [hloaded] at hbefore hafter
      refine ⟨[], ?_, by rw [hfeed, List.append_nil]⟩
      rw [hbefore, hafter]
      exact .noticed (l := db.lifeOf r) sweep needs
    · exact .inl ⟨life?_finish_other (w := sweepOne cfg db r e.now) hid hchange, hfeed⟩

/-- What every step in the life of a request keeps, with the webhooks queued
so far, an event keeps. -/
theorem acts_keep {P : Option Life → List Webhook → Prop}
    (hstep : ∀ {l l' ws feed}, Story cfg e l l' ws → P l feed → P l' (feed ++ ws)) (hwf : db.Wf)
    (hacts : Acts cfg e db db') {id : Nat} (h : P (db.life? id) (db.feed id)) :
    P (db'.life? id) (db'.feed id) := by
  have hboth : db'.Wf ∧ P (db'.life? id) (db'.feed id) := by
    induction hacts with
    | refl => exact ⟨hwf, h⟩
    | tail _ hact ih =>
      refine ⟨hact.wf ih.1, ?_⟩
      rcases hact.story ih.1 id with ⟨hlife, hfeed⟩ | ⟨ws, hstory, hfeed⟩
      · rw [hlife, hfeed]
        exact ih.2
      · rw [hfeed]
        exact hstep hstory ih.2
  exact hboth.2

end Royd
