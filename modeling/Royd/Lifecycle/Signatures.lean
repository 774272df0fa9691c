/-
Royd.Lifecycle.Signatures — whose names stand on a request.

A filing, an answer, an entry of the history, a message and a file each name a
user (`Signs`), and the name is the caller's. There are two ways to a name
that did not call: an integration writes for the student it filed the request
for, and an automatic answer brings files under the name of whoever gave them
to the service. So what holds of every caller holds of every name
(`step_vouched`).
-/
import Royd.Directory.References
import Royd.Lifecycle.FileRows

namespace Royd

open Api

variable {cfg : Settings} {db db' : Db} {now : Int} {u id : Nat}

/-! ## Names -/

/-- The user `u` is named on the request `id`. -/
inductive Signs (db : Db) : Nat → Nat → Prop
  | filed {r : Request} (row : r ∈ db.requests) (direct : r.apiClientId = none) :
      Signs db r.studentId r.id
  | answered {r : Request} {u : Nat} (row : r ∈ db.requests) (by' : r.answeredBy = some u) :
      Signs db u r.id
  | moved {h : RequestHistory} {u : Nat} (row : h ∈ db.history) (by' : h.changedBy = some u) :
      Signs db u h.requestId
  | said {m : Message} (row : m ∈ db.messages) : Signs db m.senderId m.requestId
  | attached {f : RequestFile} (row : f ∈ db.files) : Signs db f.uploadedBy f.requestId

/-- An integration filed the request `id` for the student `u`. -/
def Db.FiledFor (db : Db) (u id : Nat) : Prop :=
  ∃ r ∈ db.requests, r.id = id ∧ r.studentId = u ∧ r.apiClientId.isSome = true

/-- Every name is a `P`'s, or a student's whom an integration filed for. -/
structure Db.Vouched (P : Nat → Prop) (db : Db) : Prop where
  signed : ∀ u id, Signs db u id → P u ∨ db.FiledFor u id
  services : ∀ f ∈ db.autoReplyFiles, P f.uploadedBy

/-- The user whose access token a step carries, if it writes a name. -/
def Api.Step.signer? : Step → Option Nat
  | .create userId .. => some userId
  | .call c => c.userId?
  | .catalogue (.addFile _ _ userId) => some userId
  | _ => none

theorem Db.Vouched.mono {P Q : Nat → Prop} (h : db.Vouched P) (hPQ : ∀ u, P u → Q u) :
    db.Vouched Q where
  signed u id hs := (h.signed u id hs).imp (hPQ u) fun hfiled => hfiled
  services f hf := hPQ _ (h.services f hf)

/-! ## Filings stay -/

/-- Every request is still there, for the same student and filed the same way. -/
def KeepsFilings (db db' : Db) : Prop :=
  ∀ r ∈ db.requests, ∃ r' ∈ db'.requests,
    r'.id = r.id ∧ r'.studentId = r.studentId ∧ r'.apiClientId = r.apiClientId

theorem KeepsFilings.refl (db : Db) : KeepsFilings db db := fun r hr => ⟨r, hr, rfl, rfl, rfl⟩

theorem KeepsFilings.of_eq (h : db'.requests = db.requests) : KeepsFilings db db' :=
  fun r hr => ⟨r, h ▸ hr, rfl, rfl, rfl⟩

theorem KeepsFilings.filedFor (h : KeepsFilings db db') (hfiled : db.FiledFor u id) :
    db'.FiledFor u id := by
  obtain ⟨r, hr, hid, hstudent, hclient⟩ := hfiled
  obtain ⟨r', hr', hid', hstudent', hclient'⟩ := h r hr
  exact ⟨r', hr', hid'.trans hid, hstudent'.trans hstudent, hclient'.symm ▸ hclient⟩

theorem Change.apiClientId {start : Nat} {r req' : Request} {s : Session}
    (h : Change cfg start now r req' s) : req'.apiClientId = r.apiClientId := by
  cases h with
  | assigned => rfl
  | moved _ _ applied => rw [applied.shape]
  | answered _ _ _ _ applied => rw [applied.shape]
  | said => rfl
  | attached => rfl
  | noticed => rfl

theorem finish_keepsFilings {w : Work} (hwf : db.Wf) (hmem : w.loaded ∈ db.requests)
    (hchange : Change cfg db.nextId now w.loaded w.req w.session) :
    KeepsFilings db (db.finish w) := by
  intro r hr
  refine ⟨_, List.mem_map.mpr ⟨r, hr, rfl⟩, ?_⟩
  split
  · rename_i hid
    rw [hwf.eq_of_id hr hmem hid, hchange.write]
    exact ⟨hchange.id, hchange.studentId, hchange.apiClientId⟩
  · exact ⟨rfl, rfl, rfl⟩

/-! ## The names of a session -/

/-- What a session adds is signed as `Q` says. -/
structure Session.Names (Q : Nat → Nat → Prop) (s : Session) : Prop where
  history : ∀ h ∈ s.history, ∀ u, h.changedBy = some u → Q u h.requestId
  messages : ∀ m ∈ s.messages, Q m.senderId m.requestId
  files : ∀ f ∈ s.files, Q f.uploadedBy f.requestId

variable {Q : Nat → Nat → Prop} {s : Session}

theorem Session.Leaves.names {hs : List RequestHistory} {fs : List RequestFile} {ms : List Message}
    {ws : List Webhook} (h : s.Leaves hs fs ms ws)
    (history : ∀ h ∈ hs, ∀ u, h.changedBy = some u → Q u h.requestId)
    (messages : ∀ m ∈ ms, Q m.senderId m.requestId)
    (files : ∀ f ∈ fs, Q f.uploadedBy f.requestId) : s.Names Q where
  history := h.history ▸ history
  messages := h.messages ▸ messages
  files := h.files ▸ files

/-- A commit of a session, with whatever it does to the requests. -/
theorem commit_signs (hnames : s.Names Q) {requests : List Request}
    (hrequests : ∀ r ∈ requests, (r.apiClientId = none → Signs db r.studentId r.id ∨ Q r.studentId r.id)
      ∧ ∀ u, r.answeredBy = some u → Signs db u r.id ∨ Q u r.id)
    (h : Signs { db.commit s with requests } u id) : Signs db u id ∨ Q u id := by
  cases h with
  | filed row direct => exact (hrequests _ row).1 direct
  | answered row by' => exact (hrequests _ row).2 _ by'
  | moved row by' =>
    rcases List.mem_append.mp row with row | row
    · exact .inl (.moved row by')
    · exact .inr (hnames.history _ row _ by')
  | said row =>
    rcases List.mem_append.mp row with row | row
    · exact .inl (.said row)
    · exact .inr (hnames.messages _ row)
  | attached row =>
    rcases List.mem_append.mp row with row | row
    · exact .inl (.attached row)
    · exact .inr (hnames.files _ row)

theorem finish_signs {w : Work} (hwf : db.Wf) (hmem : w.loaded ∈ db.requests)
    (hchange : Change cfg db.nextId now w.loaded w.req w.session) (hnames : w.session.Names Q)
    (hanswer : ∀ u, w.req.answeredBy = some u →
      w.loaded.answeredBy = some u ∨ Q u w.loaded.id)
    (h : Signs (db.finish w) u id) : Signs db u id ∨ Q u id := by
  refine commit_signs hnames (fun r' hr' => ?_) h
  rcases mem_finish_requests hwf hmem hchange hr' with rfl | hr
  · rw [hchange.id, hchange.studentId, hchange.apiClientId]
    exact ⟨fun hdirect => .inl (.filed hmem hdirect),
      fun v hv => (hanswer v hv).imp_left fun hold => .answered hmem hold⟩
  · exact ⟨fun hdirect => .inl (.filed hr hdirect), fun v hv => .inl (.answered hr hv)⟩

/-! ## Deeds -/

variable {actor : User} {r req' : Request}

/-- A deed is signed by whoever did it. -/
theorem Api.Deed.names (h : Deed cfg db now r actor req' s) :
    s.Names fun u id => u = actor.id ∧ id = r.id := by
  have hentry : ∀ {e : RequestHistory} {old target : RequestStatus}, e.Entry r now old target →
      e.changedBy = some actor.id → ∀ h ∈ [e], ∀ u, h.changedBy = some u →
        u = actor.id ∧ h.requestId = r.id := by
    intro e old target entry by' h hh u hu
    rw [List.mem_singleton.mp hh] at hu ⊢
    rw [by'] at hu
    exact ⟨(Option.some.inj hu).symm, entry.requestId⟩
  cases h with
  | assigned _ _ _ _ _ entry by' rows => exact rows.names (hentry entry by') (by simp) (by simp)
  | moved _ _ _ _ _ entry by' rows => exact rows.names (hentry entry by') (by simp) (by simp)
  | resubmitted _ _ _ _ entry by' rows => exact rows.names (hentry entry by') (by simp) (by simp)
  | answered _ _ _ _ entry by' own rows =>
    exact rows.names (hentry entry by') (by simp) fun f hf => ⟨(own f hf).2.1, (own f hf).1⟩
  | said own by' _ _ rows =>
    refine rows.names (by simp) (fun m hm => ?_) (by simp)
    rw [List.mem_singleton.mp hm]
    exact ⟨by', own⟩
  | attached own by' _ _ rows =>
    refine rows.names (by simp) (by simp) fun f hf => ?_
    rw [List.mem_singleton.mp hf]
    exact ⟨by', own⟩

theorem Api.Deed.answeredBy (h : Deed cfg db now r actor req' s) :
    req'.answeredBy = r.answeredBy ∨ req'.answeredBy = some actor.id := by
  cases h with
  | assigned => exact .inl rfl
  | moved _ _ _ _ applied => exact .inl (by rw [(applyStatus_eq_ok applied).shape])
  | resubmitted _ _ _ applied => exact .inl (by rw [(applyStatus_eq_ok applied).shape])
  | answered _ _ _ applied => exact .inr (by rw [(applyStatus_eq_ok applied).shape])
  | said => exact .inl rfl
  | attached => exact .inl rfl

/-! ## Filings -/

theorem addAutoReplyFiles_names (now : Int) (req : Request) : ∀ (files : List AutoReplyFile)
    (s : Session), ∀ f ∈ (addAutoReplyFiles s req files now).files,
      f ∈ s.files ∨ ∃ a ∈ files, a.uploadedBy = f.uploadedBy := by
  intro files
  induction files with
  | nil => exact fun s f hf => .inl hf
  | cons a files ih =>
    intro s f hf
    rcases ih _ f hf with hf | ⟨b, hb, hby⟩
    · have hadded := hf
      simp only [Session.files, Session.rows_add, List.filterMap_append, List.mem_append] at hadded
      rcases hadded with hf | hf
      · exact .inl hf
      · simp only [List.filterMap_cons, List.filterMap_nil, List.mem_singleton] at hf
        exact .inr ⟨a, List.mem_cons_self, by rw [hf]⟩
    · exact .inr ⟨b, List.mem_cons_of_mem _ hb, hby⟩

/-- Announcing a filing adds no file: they are those of the service. -/
theorem fileRequest_names {student : User} {data : RequestCreate} {trackingNo : String}
    {key : Option String} {client : Option ApiClient} {req : Request}
    (h : fileRequest cfg db student data trackingNo key client now = .ok (req, s)) :
    s.Names fun u id => id = req.id ∧
      (u = student.id ∨ ∃ f ∈ db.autoReplyFiles, f.uploadedBy = u) := by
  obtain ⟨first, second, fs, hopened⟩ := fileRequest_opened h
  obtain ⟨category, hfiled, hopening⟩ := hopened.filed
  have hfiles : ∀ f ∈ s.files, ∃ a ∈ db.autoReplyFiles, a.uploadedBy = f.uploadedBy := by
    obtain ⟨⟨req₀, s₀⟩, hcreate, h⟩ := bind_eq_ok.mp h
    obtain ⟨category, -, hcreate⟩ := bind_eq_ok.mp hcreate
    obtain ⟨assignee, -, hcreate⟩ := bind_eq_ok.mp hcreate
    obtain ⟨deadline, -, hcreate⟩ := bind_eq_ok.mp hcreate
    cases hcreate
    cases h
    generalize newRequest db.nextId student category assignee deadline data
      { trackingNo, clientRef := key, apiClientId := client.map (·.id) } now = req
    obtain ⟨_, _, fs, -, hrows⟩ := filingRows_leaves db (db.nextId + 1) db.nextMessageId now req
      category assignee
    have hannounced := announceFiling_leaves hrows cfg db student req client
    have hadded : ∀ f ∈ fs, ∃ a ∈ db.autoReplyFiles, a.uploadedBy = f.uploadedBy := by
      intro f hf
      rw [← hrows.files, filingRows] at hf
      have hcopied : f ∈ (if category.routing = .autoReply then
          addAutoReplyFiles (.empty (db.nextId + 1) db.nextMessageId) req
            (listAutoReplyFiles db category) now
          else .empty (db.nextId + 1) db.nextMessageId).files := by
        simpa [addHistory, Session.files] using hf
      split at hcopied
      · rcases addAutoReplyFiles_names now req _ _ f hcopied with hnone | ⟨a, ha, hby⟩
        · cases hnone
        · exact ⟨a, List.mem_of_mem_filter ha, hby⟩
      · cases hcopied
    intro f hf
    refine hadded f ?_
    split at hf
    · exact (announceAutoAnswer_leaves hannounced cfg db req _).files ▸ hf
    · exact hannounced.files ▸ hf
  refine ⟨fun e he v hv => ?_, fun m hm => ?_, fun f hf => ⟨?_, .inr (hfiles f hf)⟩⟩
  · rw [hopened.holds.history] at he
    rcases List.mem_cons.mp he with rfl | he
    · rw [hopened.by'] at hv
      exact ⟨hopening.first.1, .inl (Option.some.inj hv).symm⟩
    · rw [List.mem_singleton.mp he, hopening.noActor] at hv
      cases hv
  · rw [hopened.holds.messages] at hm
    cases hm
  · rw [hopened.holds.files] at hf
    exact (hopening.answerFiles f hf).1

theorem synced_autoReplyFiles (db : Db) (sync : Option StudentSync) :
    (db.synced sync).autoReplyFiles = db.autoReplyFiles := by
  unfold Db.synced
  cases sync <;> rfl

theorem insertFiling_signs {student : User} {data : RequestCreate} {trackingNo : String}
    {key : Option String} {client : Option ApiClient} {f : Filing}
    (hfile : fileRequest cfg (db.synced f.sync) student data trackingNo key client now =
      .ok (f.req, f.session)) (h : Signs (insertFiling db f) u id) :
    Signs db u id ∨ id = f.req.id ∧
      ((u = student.id ∧ (client = none ∨ (insertFiling db f).FiledFor u id)) ∨
        ∃ a ∈ db.autoReplyFiles, a.uploadedBy = u) := by
  obtain ⟨first, second, fs, hopened⟩ := fileRequest_opened hfile
  obtain ⟨category, hfiled, -⟩ := hopened.filed
  have hsynced : ∀ u id, Signs (db.synced f.sync) u id → Signs db u id := by
    intro u id hs
    obtain ⟨hrequests, hhistory, hfiles, hmessages, -⟩ := synced_elsewhere db f.sync
    cases hs with
    | filed row direct => exact .filed (hrequests ▸ row) direct
    | answered row by' => exact .answered (hrequests ▸ row) by'
    | moved row by' => exact .moved (hhistory ▸ row) by'
    | said row => exact .said (hmessages ▸ row)
    | attached row => exact .attached (hfiles ▸ row)
  have hservices := synced_autoReplyFiles db f.sync
  have hrow : f.req ∈ (insertFiling db f).requests := by
    rw [insertFiling_eq]
    exact List.mem_append_right _ (List.mem_singleton_self _)
  have hnew : ∀ r ∈ (db.synced f.sync).requests ++ [f.req],
      (r.apiClientId = none → Signs (db.synced f.sync) r.studentId r.id ∨
        r.id = f.req.id ∧ (r.studentId = student.id ∨
          ∃ a ∈ (db.synced f.sync).autoReplyFiles, a.uploadedBy = r.studentId)) ∧
      ∀ u, r.answeredBy = some u → Signs (db.synced f.sync) u r.id ∨
        r.id = f.req.id ∧ (u = student.id ∨
          ∃ a ∈ (db.synced f.sync).autoReplyFiles, a.uploadedBy = u) := by
    intro r hr
    rcases List.mem_append.mp hr with hr | hr
    · exact ⟨fun hdirect => .inl (.filed hr hdirect), fun v hv => .inl (.answered hr hv)⟩
    · rw [List.mem_singleton.mp hr]
      refine ⟨fun _ => .inr ⟨rfl, .inl hopened.owner⟩, fun v hv => ?_⟩
      rw [hfiled.byNobody] at hv
      cases hv
  rw [insertFiling_eq] at h
  rcases commit_signs (fileRequest_names hfile) hnew h with hold | ⟨rfl, hstudent | hservice⟩
  · exact .inl (hsynced u id hold)
  · refine .inr ⟨rfl, .inl ⟨hstudent, ?_⟩⟩
    cases client with
    | none => exact .inl rfl
    | some c =>
      refine .inr ⟨f.req, hrow, rfl, hopened.owner.trans hstudent.symm, ?_⟩
      rw [hopened.filedBy]
      rfl
  · exact .inr ⟨rfl, .inr (hservices ▸ hservice)⟩

theorem insertFiling_keepsFilings (db : Db) (f : Filing) : KeepsFilings db (insertFiling db f) := by
  intro r hr
  refine ⟨r, ?_, rfl, rfl, rfl⟩
  rw [insertFiling_eq]
  refine List.mem_append_left _ ?_
  change r ∈ (db.synced f.sync).requests
  rw [(synced_elsewhere db f.sync).requests]
  exact hr

/-! ## Steps -/

variable {P : Nat → Prop}

/-- A filing by a caller, or for a student. -/
theorem Db.Vouched.filed (h : db.Vouched P) {student : User} {data : RequestCreate}
    {trackingNo : String} {key : Option String} {client : Option ApiClient} {f : Filing}
    (hfile : fileRequest cfg (db.synced f.sync) student data trackingNo key client now =
      .ok (f.req, f.session)) (hcaller : client = none → P student.id) :
    (insertFiling db f).Vouched P where
  signed u id hs := by
    rcases insertFiling_signs hfile hs with hold | ⟨-, ⟨rfl, hdirect | hfor⟩ | ⟨a, ha, rfl⟩⟩
    · exact (h.signed u id hold).imp_right (insertFiling_keepsFilings db f).filedFor
    · exact .inl (hcaller hdirect)
    · exact .inr hfor
    · exact .inl (h.services a ha)
  services a ha := by
    refine h.services a ?_
    rw [insertFiling_eq] at ha
    change a ∈ (db.synced f.sync).autoReplyFiles at ha
    exact synced_autoReplyFiles db f.sync ▸ ha

theorem Db.Vouched.finish (h : db.Vouched P) (hwf : db.Wf) {w : Work}
    (hmem : w.loaded ∈ db.requests)
    (hchange : Change cfg db.nextId now w.loaded w.req w.session)
    (hnames : w.session.Names Q)
    (hanswer : ∀ u, w.req.answeredBy = some u → w.loaded.answeredBy = some u ∨ Q u w.loaded.id)
    (hQ : ∀ u id, Q u id → P u ∨ db.FiledFor u id) : (db.finish w).Vouched P where
  signed u id hs := by
    have hkeeps := finish_keepsFilings hwf hmem hchange
    rcases finish_signs hwf hmem hchange hnames hanswer hs with hold | hnew
    · exact (h.signed u id hold).imp_right hkeeps.filedFor
    · exact (hQ u id hnew).imp_right hkeeps.filedFor
  services := h.services

theorem catalogueEdit_vouched (h : db.Vouched P) {edit : CatalogueEdit}
    (happly : edit.apply cfg db now = .ok db')
    (hsigner : ∀ u, Step.signer? (.catalogue edit) = some u → P u) : db'.Vouched P := by
  obtain ⟨hrequests, hhistory, hfiles, hmessages, -⟩ := catalogueEdit_elsewhere happly
  refine ⟨fun u id hs => ?_, fun a ha => ?_⟩
  · have hold : Signs db u id := by
      cases hs with
      | filed row direct => exact .filed (hrequests ▸ row) direct
      | answered row by' => exact .answered (hrequests ▸ row) by'
      | moved row by' => exact .moved (hhistory ▸ row) by'
      | said row => exact .said (hmessages ▸ row)
      | attached row => exact .attached (hfiles ▸ row)
    exact (h.signed u id hold).imp_right (KeepsFilings.of_eq hrequests).filedFor
  · cases edit with
    | addFile categoryId upload userId =>
      obtain ⟨cat, -, happly⟩ := bind_eq_ok.mp happly
      rw [addAutoReplyFile_eq] at happly
      obtain ⟨_, -, happly⟩ := bind_eq_ok.mp happly
      obtain ⟨fileMeta, -, happly⟩ := bind_eq_ok.mp happly
      cases happly
      rcases List.mem_append.mp ha with ha | ha
      · exact h.services a ha
      · rw [List.mem_singleton.mp ha]
        exact hsigner userId rfl
    | create | update | deactivate | removeFile =>
      cases catalogueEdit_fileRows happly with
      | kept _ _ services => exact h.services a (services.subset ha)
      | copied _ _ services => exact h.services a (services ▸ ha)

/-- A call is signed by its user, or by the student its integration filed for. -/
theorem handle_vouched (h : db.Vouched P) (hwf : db.Wf) {c : Call} {w : Work}
    (hhandle : c.handle cfg db now = .ok w) (hsigner : ∀ u, c.userId? = some u → P u) :
    (db.finish w).Vouched P := by
  obtain ⟨hmem, -, hchange⟩ := handle_change hhandle
  obtain ⟨actor, hauthority, hdeed⟩ := (handle_deed hhandle).done
  refine h.finish hwf hmem hchange hdeed.names (fun u hu => ?_) fun u id hQ => ?_
  · rcases hdeed.answeredBy with hsame | hnew
    · exact .inl (hsame ▸ hu)
    · rw [hnew] at hu
      exact .inr ⟨(Option.some.inj hu).symm, rfl⟩
  · obtain ⟨rfl, rfl⟩ := hQ
    cases hauthority with
    | user caller active =>
      have hid := (getUser_eq_some (currentUser_eq_ok.mp active).1).2
      exact .inl (hid ▸ hsigner _ caller)
    | client _ filed student =>
      have hid := (getUser_eq_some student).2
      exact .inr ⟨w.loaded, hmem, rfl, hid.symm, by rw [filed]; rfl⟩

theorem sweep_vouched (h : db.Vouched P) (hwf : db.Wf) (useLock won : Bool) :
    (sweepSlaDeadlines cfg db useLock won now).Vouched P := by
  refine sweep_relates (R := fun db db' : Db => db.Vouched P → db'.Vouched P) (fun _ h => h)
    (fun hab hbc h => hbc (hab h)) (fun db r hwf hr hneeds h => ?_) hwf useLock won h
  have hrows := sweepOne_leaves cfg db r now
  have hchange : Change cfg db.nextId now r (sweepOne cfg db r now).req
      (sweepOne cfg db r now).session := sweepOne_change (needsNotice_running hneeds)
  refine h.finish (Q := fun _ _ => False) hwf hr hchange ?_ (fun u hu => .inl ?_)
    fun _ _ hfalse => hfalse.elim
  · refine hrows.names (fun e he u hu => ?_) (by simp) (by simp)
    rw [List.mem_singleton.mp he] at hu
    cases hu
  · unfold sweepOne at hu
    dsimp only at hu
    split at hu <;> exact hu

/-- What holds of whoever calls holds of every name. -/
theorem step_vouched (cfg : Settings) (hwf : db.Wf) (h : db.Vouched P) (e : Event)
    (hsigner : ∀ u, e.step.signer? = some u → P u) : (step cfg db e).Vouched P := by
  obtain ⟨now, s⟩ := e
  unfold step
  dsimp only at hsigner ⊢
  cases happly : s.apply cfg db now with
  | error _ => exact h
  | ok db' =>
    dsimp only
    cases s with
    | create userId data key trackingNo =>
      obtain ⟨student, hstudent, rfl | ⟨req, session, hfile, rfl⟩⟩ := runCreate_eq_ok happly
      · exact h
      · obtain ⟨user, hcurrent, hrole⟩ := bind_eq_ok.mp hstudent
        split at hrole
        · cases hrole
          have hid := (getUser_eq_some (currentUser_eq_ok.mp hcurrent).1).2
          exact h.filed (f := { req, session }) hfile fun _ => hid ▸ hsigner userId rfl
        · cases hrole
    | clientCreate client profile data key trackingNo =>
      obtain ⟨sync, -, rfl | ⟨req, session, hfile, rfl⟩⟩ := runClientCreate_eq_ok happly
      · exact h
      · exact h.filed (f := { sync := some sync, req, session }) hfile nofun
    | call c =>
      obtain ⟨w, hhandle, happly⟩ := bind_eq_ok.mp happly
      cases happly
      exact handle_vouched h hwf hhandle hsigner
    | sweep useLock won =>
      cases happly
      exact sweep_vouched h hwf useLock won
    | catalogue edit => exact catalogueEdit_vouched h happly hsigner
    | people users departments faculties studentGroups =>
      cases happly
      exact ⟨fun u id hs => h.signed u id (by cases hs <;> constructor <;> assumption), h.services⟩

end Royd
