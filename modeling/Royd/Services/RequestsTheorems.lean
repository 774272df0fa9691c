/-
Royd.Services.RequestsTheorems — what each operation on a request can do.

`Change` lists it once: the row an operation leaves behind, the history
entries, files and messages it adds, and how many answers it announces,
for each kind of operation with the guards it passed. The specification of
an endpoint is that its `Work` is a `Change` of the row it loaded. Every
invariant of the lifecycle is proved by the cases of `Change`, and no proof
after this module unfolds an operation.
-/
import Royd.Services.EventsTheorems
import Royd.Services.Requests
import Royd.Services.Sweep

namespace Royd

/-! ## What a session holds -/

/-- What a session that started at `start` holds: its rows in the three
tables that hang off the request, and at most `answers` queued answers, all
of them for the request. -/
structure Session.Holds (s : Session) (start requestId : Nat) (hs : List RequestHistory)
    (fs : List RequestFile) (ms : List Message) (answers : Nat) : Prop where
  start : s.start = start
  history : s.history = hs
  files : s.files = fs
  messages : s.messages = ms
  answers : ∀ id, (answersQueued s.outbox id).length ≤ if requestId = id then answers else 0

namespace Session.Holds

variable {s s' : Session} {start requestId answers : Nat} {hs : List RequestHistory}
  {fs : List RequestFile} {ms : List Message}

theorem empty (start messageStart requestId : Nat) :
    (Session.empty start messageStart).Holds start requestId [] [] [] 0 :=
  ⟨rfl, rfl, rfl, rfl, fun id => by simp [answersQueued]⟩

theorem announce (h : s.Holds start requestId hs fs ms answers) (ha : s.Announces s') :
    s'.Holds start requestId hs fs ms answers where
  start := ha.start.trans h.start
  history := ha.history.trans h.history
  files := ha.files.trans h.files
  messages := ha.messages.trans h.messages
  answers := fun id => by rw [ha.answers id]; exact h.answers id

theorem addHistory (h : s.Holds start requestId hs fs ms answers) (req : Request)
    (changedBy : Option Nat) (oldStatus : Option RequestStatus) (newStatus : RequestStatus)
    (comment : Option String) (now : Int) :
    (addHistory s req changedBy oldStatus newStatus comment now).Holds start requestId
      (hs ++ [{ id := s.nextId, requestId := req.id, changedBy, oldStatus, newStatus, comment,
                createdAt := now }]) fs ms answers where
  start := h.start
  history := by rw [← h.history]; simp [Royd.addHistory, Session.history]
  files := by rw [← h.files]; simp [Royd.addHistory, Session.files]
  messages := by rw [← h.messages]; simp [Royd.addHistory, Session.messages]
  answers := fun id => by
    have hq := h.answers id
    simpa [Royd.addHistory, Session.outbox] using hq

theorem addFile (h : s.Holds start requestId hs fs ms answers) (row : Nat → RequestFile)
    (hid : ∀ n, (PendingRow.file (row n)).id? = some n) :
    (s.add (fun id => .file (row id)) hid).Holds start requestId hs (fs ++ [row s.nextId]) ms
      answers where
  start := h.start
  history := by rw [← h.history]; simp [Session.history]
  files := by rw [← h.files]; simp [Session.files]
  messages := by rw [← h.messages]; simp [Session.messages]
  answers := fun id => by
    have hq := h.answers id
    simpa [Session.outbox] using hq

theorem addMessage (h : s.Holds start requestId hs fs ms answers) (row : Nat → Message)
    (hid : ∀ n, (row n).id = n) :
    (s.addMessage row hid).Holds start requestId hs fs (ms ++ [row s.nextMessageId]) answers where
  start := h.start
  history := by rw [← h.history]; simp [Session.history]
  files := by rw [← h.files]; simp [Session.files]
  messages := by rw [← h.messages]; simp [Session.messages]
  answers := fun id => by
    have hq := h.answers id
    simpa [Session.outbox] using hq

/-- One more webhook, with or without an answer, for the request. -/
theorem publish (h : s.Holds start requestId hs fs ms answers) (cfg : Settings) (db : Db)
    {req : Request} (hreq : req.id = requestId) (body : EventBody) :
    (publish cfg db s req body).Holds start requestId hs fs ms (answers + 1) := by
  obtain ⟨hstart, -, hhist, hfiles, hmsgs⟩ := publish_tables cfg db s req body
  refine ⟨hstart.trans h.start, hhist.trans h.history, hfiles.trans h.files,
    hmsgs.trans h.messages, fun id => ?_⟩
  have hone := publish_answer cfg db s req body id
  have hq := h.answers id
  rw [hreq] at hone
  split at hone
  · rename_i hid
    rw [if_pos hid] at hq ⊢
    omega
  · rename_i hid
    rw [if_neg hid] at hq ⊢
    omega

end Session.Holds

/-! ## The checks -/

theorem assertOpen_eq_ok {req : Request} {u : Unit} :
    assertOpen req = .ok u ↔ req.status ∉ RequestStatus.closed := by
  unfold assertOpen
  rw [raise_eq_ok]
  simp

theorem assertHandler_open {req : Request} {actor : User} {u : Unit}
    (h : assertCanAnswer req actor = .ok u) : req.status ∉ RequestStatus.closed := by
  obtain ⟨_, _, hopen⟩ := bind_eq_ok.mp h
  exact assertOpen_eq_ok.mp hopen

/-- A loaded row is the committed one, and nothing was done to it yet. -/
theorem getRequestForUser_eq_ok {db : Db} {requestId : Nat} {user : User} {w : Work}
    (h : getRequestForUser db requestId user = .ok w) :
    ∃ r, db.getRequest requestId = some r ∧ w = Work.load db r := by
  unfold getRequestForUser at h
  split at h
  · cases h
  · rename_i r hr
    obtain ⟨_, _, hw⟩ := bind_eq_ok.mp h
    cases hw
    exact ⟨r, hr, rfl⟩

/-! ## Applying a status -/

/-- The deadline of a clock that is restarted at `now` after a pause. -/
structure Resumed (cfg : Settings) (now : Int) (pausedAt : Option Int) (old deadline : Int) :
    Prop where
  unpaused : pausedAt = none → deadline = old
  left : ∀ p, pausedAt = some p → 0 < Sla.workingTimeBetween cfg.cal p old →
    Sla.addWorkingTime cfg.cal now (Sla.workingTimeBetween cfg.cal p old) = .ok deadline
  spent : ∀ p, pausedAt = some p → ¬ 0 < Sla.workingTimeBetween cfg.cal p old → deadline = old

/-- What `_apply_status` does to a row. -/
structure StatusApplied (cfg : Settings) (now : Int) (req : Request) (s : RequestStatus)
    (req' : Request) : Prop where
  shape : req' = { req with
    status := s
    slaDeadline := req'.slaDeadline
    slaWarnedAt := req'.slaWarnedAt
    slaBreachedAt := req'.slaBreachedAt
    slaPausedAt := req'.slaPausedAt
    closedAt := if RequestStatus.closed.contains s then some now else req.closedAt }
  returned : s = .returned →
    req'.slaPausedAt = req.slaPausedAt.or (some now) ∧ req'.slaDeadline = req.slaDeadline
  kept : s ≠ .returned → req.status ≠ .returned →
    req'.slaPausedAt = req.slaPausedAt ∧ req'.slaDeadline = req.slaDeadline
  resumed : s ≠ .returned → req.status = .returned →
    req'.slaPausedAt = none ∧ Resumed cfg now req.slaPausedAt req.slaDeadline req'.slaDeadline

theorem resumeClock_eq_ok {cfg : Settings} {req req' : Request} {now : Int}
    (h : resumeClock cfg req now = .ok req') :
    req' = { req with
      slaDeadline := req'.slaDeadline
      slaWarnedAt := req'.slaWarnedAt
      slaBreachedAt := req'.slaBreachedAt
      slaPausedAt := none }
    ∧ Resumed cfg now req.slaPausedAt req.slaDeadline req'.slaDeadline := by
  unfold resumeClock at h
  split at h
  · -- Not paused: there is no pause to account for.
    rename_i hp
    cases h
    refine ⟨?_, fun _ => rfl, fun p hp' => ?_, fun _ _ _ => rfl⟩
    · rw [← hp]
    · rw [hp] at hp'
      cases hp'
  · rename_i pausedAt hp
    dsimp only at h
    split at h
    · -- Working time was left: it is added from now on.
      rename_i hleft
      obtain ⟨deadline, hadd, hreq⟩ := bind_eq_ok.mp h
      cases hreq
      refine ⟨rfl, fun hp' => ?_, fun p hp' _ => ?_, fun p hp' hspent => ?_⟩
      · rw [hp] at hp'
        cases hp'
      · rw [hp] at hp'
        cases hp'
        exact hadd
      · rw [hp] at hp'
        cases hp'
        exact absurd hleft hspent
    · -- The budget was spent: the deadline stays where it is.
      rename_i hspent
      cases h
      refine ⟨rfl, fun _ => rfl, fun p hp' hleft => ?_, fun _ _ _ => rfl⟩
      rw [hp] at hp'
      cases hp'
      exact absurd hleft hspent

theorem applyStatus_eq_ok {cfg : Settings} {req req' : Request} {s : RequestStatus} {now : Int}
    (h : applyStatus cfg req s now = .ok req') : StatusApplied cfg now req s req' := by
  unfold applyStatus at h
  obtain ⟨mid, hmid, hreq⟩ := bind_eq_ok.mp h
  cases hreq
  unfold setClock at hmid
  split at hmid
  · -- The clock is stopped.
    rename_i hpause
    cases hmid
    obtain ⟨rfl, hnone⟩ := hpause
    rw [Option.isNone_iff_eq_none] at hnone
    refine ⟨rfl, fun _ => ⟨by simp [hnone], rfl⟩, ?_, ?_⟩
    · exact fun hne => absurd rfl hne
    · exact fun hne => absurd rfl hne
  · rename_i hpause
    split at hmid
    · -- The clock is restarted.
      rename_i hresume
      obtain ⟨hshape, hresumed⟩ := resumeClock_eq_ok hmid
      refine ⟨?_, fun hs => absurd hs hresume.2, fun _ hne => absurd hresume.1 hne, fun _ _ => ?_⟩
      · rw [hshape]
      · exact ⟨by rw [hshape], hresumed⟩
    · rename_i hresume
      cases hmid
      refine ⟨rfl, ?_, fun _ _ => ⟨rfl, rfl⟩, fun hs hst => absurd ⟨hst, hs⟩ hresume⟩
      intro hs
      subst hs
      have hsome : req.slaPausedAt ≠ none := by
        intro hnone
        exact hpause ⟨rfl, by simp [hnone]⟩
      cases hp : req.slaPausedAt with
      | none => exact absurd hp hsome
      | some p => simp

/-! ## The kinds of change -/

/-- An entry an operation adds to the history of `r`. -/
structure RequestHistory.Entry (h : RequestHistory) (r : Request) (now : Int)
    (old target : RequestStatus) : Prop where
  requestId : h.requestId = r.id
  oldStatus : h.oldStatus = some old
  newStatus : h.newStatus = target
  createdAt : h.createdAt = now

/-- What one operation, made at `now`, can do to the request it loaded as
`r`: the row it leaves and the session it is about to commit. -/
inductive Change (cfg : Settings) (start : Nat) (now : Int) (r : Request) :
    Request → Session → Prop
  | assigned {s : Session} {h : RequestHistory} (assignee : Nat) (facultyId departmentId : Option Nat)
      (isOpen : r.status ∉ RequestStatus.closed) (entry : h.Entry r now r.status r.status)
      (rows : s.Holds start r.id [h] [] [] 0) :
      Change cfg start now r { r with assignedTo := some assignee, facultyId, departmentId } s
  | moved {s : Session} {h : RequestHistory} {req' : Request} (target : RequestStatus)
      (allowed : target ∈ allowedTransitions r.status)
      (applied : StatusApplied cfg now r target req') (entry : h.Entry r now r.status target)
      (why : target = .returned → blank (h.comment.getD "") = false)
      (rows : s.Holds start r.id [h] [] [] 0) :
      Change cfg start now r req' s
  | answered {s : Session} {h : RequestHistory} {req' : Request} {fs : List RequestFile}
      (actor : Nat) (text : String) (isOpen : r.status ∉ RequestStatus.closed)
      (visible : blank text = false)
      (applied : StatusApplied cfg now
        { r with answerText := some text, answeredAt := some now, answeredBy := some actor }
        .completed req')
      (entry : h.Entry r now r.status .completed)
      (answerFiles : ∀ f ∈ fs, f.requestId = r.id ∧ f.isAnswer = true)
      (rows : s.Holds start r.id [h] fs [] 1) :
      Change cfg start now r req' s
  | said {s : Session} {m : Message} (own : m.requestId = r.id)
      (isOpen : m.isInternal = false → r.status ∉ RequestStatus.closed)
      (rows : s.Holds start r.id [] [] [m] 0) :
      Change cfg start now r r s
  | attached {s : Session} {f : RequestFile} (own : f.requestId = r.id)
      (ordinary : f.isAnswer = false) (isOpen : r.status ∉ RequestStatus.closed)
      (rows : s.Holds start r.id [] [f] [] 0) :
      Change cfg start now r r s
  | noticed {s : Session} {h : RequestHistory} (warnedAt breachedAt : Option Int)
      (running : r.status ∈ RequestStatus.slaRunning) (entry : h.Entry r now r.status r.status)
      (rows : s.Holds start r.id [h] [] [] 0) :
      Change cfg start now r { r with slaWarnedAt := warnedAt, slaBreachedAt := breachedAt } s

variable {cfg : Settings} {start : Nat} {now : Int}

/-- Announcing a change does not make it another change. -/
theorem Change.announce {r req' : Request} {s s' : Session} (hc : Change cfg start now r req' s)
    (ha : s.Announces s') : Change cfg start now r req' s' := by
  cases hc with
  | assigned a f d isOpen entry rows => exact .assigned a f d isOpen entry (rows.announce ha)
  | moved t allowed applied entry why rows =>
    exact .moved t allowed applied entry why (rows.announce ha)
  | answered a t isOpen visible applied entry files rows =>
    exact .answered a t isOpen visible applied entry files (rows.announce ha)
  | said own isOpen rows => exact .said own isOpen (rows.announce ha)
  | attached own ordinary isOpen rows => exact .attached own ordinary isOpen (rows.announce ha)
  | noticed w b running entry rows => exact .noticed w b running entry (rows.announce ha)

/-! ## The operations -/

/-- Up to here the handler of `r` has added nothing but answer files. -/
structure Work.Prepared (w : Work) (start : Nat) (r : Request) (fs : List RequestFile) : Prop where
  loaded : w.loaded = r
  req : w.req = r
  rows : w.session.Holds start r.id [] fs [] 0

theorem Work.prepared_load (db : Db) (r : Request) :
    (Work.load db r).Prepared db.nextId r [] :=
  ⟨rfl, rfl, Session.Holds.empty _ _ _⟩

variable {db : Db} {w w' : Work} {r : Request}

theorem assignRequest_change {actor : User} {data : RequestAssign}
    (hw : w.Prepared start r []) (h : assignRequest db w actor data now = .ok w') :
    w'.loaded = r ∧ Change cfg start now r w'.req w'.session := by
  obtain ⟨_, _, h⟩ := bind_eq_ok.mp h
  obtain ⟨_, hopen, h⟩ := bind_eq_ok.mp h
  obtain ⟨assignee, _, h⟩ := bind_eq_ok.mp h
  cases h
  rw [assertOpen_eq_ok, hw.req] at hopen
  refine ⟨hw.loaded, ?_⟩
  have hrows := hw.rows.addHistory
    { w.req with
      assignedTo := some assignee.id
      facultyId := data.facultyId.or w.req.facultyId
      departmentId := data.departmentId.or w.req.departmentId }
    (some actor.id) (some w.req.status) w.req.status
    (some (orDefault data.comment ("Mas'ul xodim: " ++ assignee.fullName))) now
  rw [hw.req] at hrows ⊢
  exact .assigned _ _ _ hopen ⟨rfl, rfl, rfl, rfl⟩ hrows

/-- A move that was let through is in the table, and is not a closing. -/
theorem checkTransition_allowed {req : Request} {actor : User} {s : RequestStatus} {u : Unit}
    (h : checkTransition req actor s = .ok u) : s ∈ allowedTransitions req.status := by
  obtain ⟨_, _, h⟩ := bind_eq_ok.mp h
  split at h
  · cases h
  · split at h
    · cases h
    · rename_i hallowed
      simpa using hallowed

theorem transitionRequest_change {actor : User} {data : RequestTransition}
    (hw : w.Prepared start r []) (h : transitionRequest cfg w actor data now = .ok w') :
    w'.loaded = r ∧ Change cfg start now r w'.req w'.session := by
  obtain ⟨target, _, h⟩ := bind_eq_ok.mp h
  obtain ⟨_, hcheck, h⟩ := bind_eq_ok.mp h
  obtain ⟨_, hcomment, h⟩ := bind_eq_ok.mp h
  obtain ⟨req', happly, h⟩ := bind_eq_ok.mp h
  cases h
  have hallowed := checkTransition_allowed hcheck
  have happlied := applyStatus_eq_ok happly
  rw [hw.req] at hallowed happlied
  have hid : req'.id = r.id := by rw [happlied.shape]
  refine ⟨hw.loaded, ?_⟩
  have hrows := hw.rows.addHistory req' (some actor.id) (some w.req.status) target data.comment now
  refine .moved target hallowed happlied ⟨hid, by rw [hw.req], rfl, rfl⟩ (fun hret => ?_) hrows
  subst hret
  unfold checkComment at hcomment
  rw [raise_eq_ok] at hcomment
  simpa [commentRequired] using hcomment

/-- The answer itself; the webhook that announces it is still to come. -/
theorem answerRequest_change {actor : User} {text : String} {fs : List RequestFile}
    (hw : w.Prepared start r fs) (hfs : ∀ f ∈ fs, f.requestId = r.id ∧ f.isAnswer = true)
    (h : answerRequest cfg w actor text now = .ok w') :
    w'.loaded = r ∧ w'.req.id = r.id ∧ ∃ h, w'.session.Holds start r.id [h] fs [] 0 ∧
      ∀ s, s.Holds start r.id [h] fs [] 1 → Change cfg start now r w'.req s := by
  obtain ⟨_, hcheck, h⟩ := bind_eq_ok.mp h
  split at h
  · cases h
  rename_i hvisible
  obtain ⟨req', happly, h⟩ := bind_eq_ok.mp h
  cases h
  have hopen := assertHandler_open hcheck
  have happlied := applyStatus_eq_ok happly
  rw [hw.req] at hopen happlied
  have hid : req'.id = r.id := by rw [happlied.shape]
  have hrows := hw.rows.addHistory req' (some actor.id) (some w.req.status) .completed
    (some "Yakuniy javob yuborildi") now
  refine ⟨hw.loaded, hid, _, hrows, fun s hs => ?_⟩
  refine .answered actor.id (strip text) hopen ?_ happlied ⟨hid, by rw [hw.req], rfl, rfl⟩ hfs hs
  rw [blank_strip]
  exact Bool.eq_false_iff.mpr hvisible

theorem resubmitRequest_change {student : User} {comment : Option String}
    (hw : w.Prepared start r []) (h : resubmitRequest cfg w student comment now = .ok w') :
    w'.loaded = r ∧ Change cfg start now r w'.req w'.session := by
  unfold resubmitRequest at h
  split at h
  · cases h
  split at h
  · cases h
  rename_i hstatus
  obtain ⟨req', happly, h⟩ := bind_eq_ok.mp h
  cases h
  rw [not_not, hw.req] at hstatus
  have happlied := applyStatus_eq_ok happly
  rw [hw.req] at happlied
  have hid : req'.id = r.id := by rw [happlied.shape]
  refine ⟨hw.loaded, ?_⟩
  have hrows := hw.rows.addHistory req' (some student.id) (some .returned) .inProgress
    (some (orDefault comment "Talaba murojaatni to'ldirib qayta yubordi")) now
  refine .moved .inProgress ?_ happlied ⟨hid, ?_, rfl, rfl⟩ (fun hret => by cases hret) hrows
  · rw [hstatus]
    decide
  · rw [hstatus]

/-! ## Filing -/

theorem resolveService_eq_ok {serviceId : Nat} {serviceTypeId : Option Nat}
    {category : RequestCategory} (h : resolveService db serviceId serviceTypeId = .ok category) :
    category ∈ db.categories ∧ category.parentId.isSome = true ∧
      db.getCategory category.id = some category := by
  unfold resolveService at h
  split at h
  · cases h
  rename_i service hservice
  split at h
  · cases h
  split at h
  · cases h
  rename_i parentId hparent
  split at h
  · cases h
  split at h
  · cases h
  split at h
  · cases h
  cases h
  have hid : category.id = serviceId := by simpa using List.find?_some hservice
  exact ⟨List.mem_of_find?_eq_some hservice, by rw [hparent]; rfl, by rw [hid]; exact hservice⟩

/-- A new request has a handler unless its service answers by itself. -/
theorem routeRequest_eq_ok {student : User} {category : RequestCategory}
    {assignee : Option User} (h : routeRequest db student category = .ok assignee) :
    assignee.isNone = true ↔ category.routing = .autoReply := by
  unfold routeRequest at h
  split at h
  · rename_i hauto
    cases h
    simp [hauto]
  · rename_i hrouted
    cases hresolve : resolveHandler db student category with
    | error e => simp [hresolve, Except.map] at h
    | ok handler =>
      simp only [hresolve, Except.map, Except.ok.injEq] at h
      subst h
      simp [hrouted]

theorem addAutoReplyFiles_holds {req : Request} {start requestId answers : Nat}
    {hs : List RequestHistory} {ms : List Message} (now : Int) (hid : req.id = requestId) :
    ∀ (files : List AutoReplyFile) {s : Session} {fs : List RequestFile},
      s.Holds start requestId hs fs ms answers →
      (∀ f ∈ fs, f.requestId = requestId ∧ f.isAnswer = true) →
      ∃ fs', (∀ f ∈ fs', f.requestId = requestId ∧ f.isAnswer = true) ∧
        (addAutoReplyFiles s req files now).Holds start requestId hs fs' ms answers
  | [], s, fs, hs, hfs => ⟨fs, hfs, hs⟩
  | f :: files, s, fs, hs, hfs => by
    refine addAutoReplyFiles_holds now hid files (hs.addFile (fun id =>
      { id
        requestId := req.id
        uploadedBy := f.uploadedBy
        filePath := f.filePath
        fileName := f.fileName
        fileSize := f.fileSize
        mimeType := f.mimeType
        isAnswer := true
        createdAt := now }) fun _ => rfl) fun g hg => ?_
    rcases List.mem_append.mp hg with hg | hg
    · exact hfs g hg
    · rw [List.mem_singleton.mp hg]
      exact ⟨hid, rfl⟩

/-- The two entries that open a history, and the files of an automatic answer. -/
structure Opening (now : Int) (req : Request) (category : RequestCategory)
    (first second : RequestHistory) (fs : List RequestFile) : Prop where
  first : first.requestId = req.id ∧ first.oldStatus = none ∧ first.newStatus = .new
    ∧ first.createdAt = now
  entry : second.Entry req now .new req.status
  noActor : second.changedBy = none
  answerFiles : ∀ f ∈ fs, f.requestId = req.id ∧ f.isAnswer = true
  noFiles : category.routing ≠ .autoReply → fs = []

theorem filingRows_holds (db : Db) (start messageStart : Nat) (now : Int) (req : Request)
    (category : RequestCategory) (assignee : Option User) :
    ∃ first second fs,
      (filingRows db (.empty start messageStart) req category assignee now).Holds start req.id
        [first, second] fs [] 0 ∧ Opening now req category first second fs := by
  have hfiles : ∃ fs, (∀ f ∈ fs, f.requestId = req.id ∧ f.isAnswer = true) ∧
      (category.routing ≠ .autoReply → fs = []) ∧
      (if category.routing = .autoReply then
        addAutoReplyFiles (.empty start messageStart) req (listAutoReplyFiles db category) now
      else .empty start messageStart).Holds start req.id [] fs [] 0 := by
    split
    · obtain ⟨fs, hfs, hholds⟩ := addAutoReplyFiles_holds now rfl
        (listAutoReplyFiles db category) (Session.Holds.empty start messageStart req.id) (by simp)
      exact ⟨fs, hfs, fun hr => absurd ‹_› hr, hholds⟩
    · exact ⟨[], by simp, fun _ => rfl, Session.Holds.empty start messageStart req.id⟩
  obtain ⟨fs, hfs, hnone, hholds⟩ := hfiles
  exact ⟨_, _, fs, (hholds.addHistory req (some req.studentId) none .new
    (some "Murojaat yuborildi") now).addHistory req none (some .new) req.status
    (some (routedComment category assignee)) now,
    ⟨⟨rfl, rfl, rfl, rfl⟩, ⟨rfl, rfl, rfl, rfl⟩, rfl, hfs, hnone⟩⟩

/-- The row `create_request` adds, filed at `now` under `category`. -/
structure Filed (cfg : Settings) (db : Db) (now : Int) (category : RequestCategory)
    (req : Request) : Prop where
  id : req.id = db.nextId
  listed : category ∈ db.categories
  leaf : category.parentId.isSome = true
  service : db.getCategory req.categoryId = some category
  deadline : Sla.slaDeadlineFrom cfg.cal now category.slaHours = .ok req.slaDeadline
  unpaused : req.slaPausedAt = none
  byNobody : req.answeredBy = none
  routed : category.routing ≠ .autoReply → req.status = .inProgress ∧ req.assignedTo.isSome = true
    ∧ req.closedAt = none ∧ req.answeredAt = none ∧ req.answerText = none
  answered : category.routing = .autoReply → req.status = .completed ∧ req.closedAt = some now
    ∧ req.answeredAt = some now ∧ req.answerText = category.autoReplyText

theorem createRequest_filed {student : User} {data : RequestCreate} {keys : FilingKeys}
    {req : Request} {s : Session} (h : createRequest cfg db student data keys now = .ok (req, s)) :
    ∃ category first second fs, Filed cfg db now category req ∧
      Opening now req category first second fs ∧
      s.Holds (db.nextId + 1) req.id [first, second] fs [] 0 := by
  obtain ⟨category, hservice, h⟩ := bind_eq_ok.mp h
  obtain ⟨assignee, hroute, h⟩ := bind_eq_ok.mp h
  obtain ⟨deadline, hdeadline, h⟩ := bind_eq_ok.mp h
  cases h
  obtain ⟨hlisted, hleaf, hget⟩ := resolveService_eq_ok hservice
  have hauto := routeRequest_eq_ok hroute
  obtain ⟨first, second, fs, hholds, hopening⟩ := filingRows_holds db (db.nextId + 1)
    db.nextMessageId now (newRequest db.nextId student category assignee deadline data keys now)
    category assignee
  refine ⟨category, first, second, fs, ?_, hopening, hholds⟩
  by_cases hrouting : category.routing = .autoReply
  · constructor <;> simp [newRequest, hrouting, hdeadline, hlisted, hleaf, hget]
  · have hsome : assignee.isSome = true := by
      rw [← Option.not_isNone, Bool.not_eq_true', Bool.eq_false_iff]
      exact fun hnone => hrouting (hauto.mp hnone)
    constructor <;> simp [newRequest, hrouting, hdeadline, hlisted, hleaf, hget, hsome]

end Royd
