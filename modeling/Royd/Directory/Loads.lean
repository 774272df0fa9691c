/-
Royd.Directory.Loads — how evenly the requests of a faculty lie on the desks
of its staff.

A filing routed to the faculty goes to the member of staff with the fewest
open requests and adds one to that count (`filing_raises`). What may happen
between two filings, short of an answer or an assignment, leaves every count
as it is (`between_openLoad`). So the counts drift no further apart than they
were, or than one (`load_stays_even`).
-/
import Royd.Api.Deeds
import Royd.Directory.Owners
import Royd.Services.RoutingTheorems
import Royd.Lib.Balance

namespace Royd

open Api Runs Balance

variable {cfg : Settings} {db db' : Db} {now : Int} {facultyId : Nat}

/-- The active staff bound to the faculty, by id. -/
def staffOf (db : Db) (facultyId : Nat) : Finset Nat :=
  ((boundEmployees db .staff facultyId).map (·.id)).toFinset

theorem mem_staffOf {id : Nat} :
    id ∈ staffOf db facultyId ↔ ∃ u ∈ boundTo db facultyId .staff, u.id = id := by
  simp [staffOf, ← mem_boundEmployees]

/-! ## The events -/

/-- A filing that is routed to the faculty, by a student of the faculty in
whose department none of its staff works. -/
structure ByFaculty (db : Db) (facultyId : Nat) (student : User) (data : RequestCreate) : Prop where
  faculty : student.facultyId = some facultyId
  elsewhere : boundTo db facultyId .staff ∩ inDepartment student.departmentId = ∅
  routed : ∀ service, resolveService db data.categoryId data.serviceTypeId = .ok service →
    service.routing = .facultyManager

/-- A filing of the kind, by the student themselves or through an integration. -/
def FiledByFaculty (facultyId : Nat) (db : Db) (e : Event) : Prop :=
  match e.step with
  | .create userId data _ _ =>
    ∀ student, requireStudent db userId = .ok student → ByFaculty db facultyId student data
  | .clientCreate _ profile data _ _ =>
    ∀ sync, syncStudent db profile = .ok sync →
      ByFaculty (db.applySync sync) facultyId sync.user data
  | _ => False

/-- Anything else but an answer, an assignment or an edit of the people. -/
def Between (e : Event) : Prop :=
  match e.step with
  | .call (.assign ..) => False
  | .call (.answer ..) => False
  | .call _ => True
  | .sweep .. => True
  | .catalogue _ => True
  | _ => False

/-! ## The count -/

theorem openLoad_congr (h : db'.requests = db.requests) : openLoad db' = openLoad db := by
  funext userId
  rw [openLoad, openLoad, h]

/-- One row more counts for whoever has it. -/
theorem openLoad_concat {req : Request} (h : db'.requests = db.requests ++ [req]) (userId : Nat) :
    openLoad db' userId = openLoad db userId +
      if req.assignedTo = some userId ∧ req.status ∈ RequestStatus.opens then 1 else 0 := by
  rw [openLoad, openLoad, h, List.filter_append, List.length_append]
  split
  · rename_i hcounts
    simp [hcounts.1, hcounts.2]
  · rename_i hcounts
    simp only [Nat.add_zero, Nat.add_eq_left, List.length_eq_zero_iff, List.filter_eq_nil_iff]
    simpa using hcounts

/-- A change of one row that leaves it on the same desk, and open if it was,
counts for nothing. -/
theorem openLoad_finish {w : Work} (hwf : db.Wf) (hmem : w.loaded ∈ db.requests)
    (hchange : Change cfg db.nextId now w.loaded w.req w.session)
    (hto : w.req.assignedTo = w.loaded.assignedTo)
    (hopen : w.loaded.status ∈ RequestStatus.opens → w.req.status ∈ RequestStatus.opens) :
    openLoad (db.finish w) = openLoad db := by
  have hstatus : w.req.status ∈ RequestStatus.opens ↔ w.loaded.status ∈ RequestStatus.opens :=
    ⟨hchange.open_before, hopen⟩
  funext userId
  rw [openLoad, openLoad, ← List.countP_eq_length_filter, ← List.countP_eq_length_filter]
  show (db.requests.map _).countP _ = _
  rw [List.countP_map]
  apply List.countP_congr
  intro r hr
  dsimp only [Function.comp]
  split
  · rename_i hid
    rw [hwf.eq_of_id hr hmem hid, hchange.write]
    simp [hto, hstatus]
  · exact Iff.rfl

/-- No transition closes a request. -/
theorem opens_of_allowed {status target : RequestStatus} (h : target ∈ allowedTransitions status) :
    target ∈ RequestStatus.opens := by
  cases status <;> cases target <;> revert h <;> decide

theorem resubmitReturned_open {r : Request} {w : Work} {student : User} {comment : Option String}
    (h : resubmitReturned cfg db (Work.load db r) student comment now = .ok w) :
    w.req.status ∈ RequestStatus.opens := by
  obtain ⟨-, -, happly, -, -⟩ := resubmitReturned_leaves h
  rw [(applyStatus_eq_ok happly).shape]
  show RequestStatus.inProgress ∈ RequestStatus.opens
  decide

/-- Only an answer closes a request. -/
theorem handle_open {c : Call} {w : Work} (h : c.handle cfg db now = .ok w)
    (hbetween : Between ⟨now, .call c⟩) (hopen : w.loaded.status ∈ RequestStatus.opens) :
    w.req.status ∈ RequestStatus.opens := by
  have hkept : c.movesStatus = false → w.req.status = w.loaded.status := by
    intro hmoves
    by_contra hne
    rw [(handle_movesStatus h).mpr hne] at hmoves
    cases hmoves
  cases c with
  | assign userId requestId data => exact hbetween.elim
  | answer userId requestId text files => exact hbetween.elim
  | transition userId requestId data =>
    obtain ⟨actor, _, h⟩ := bind_eq_ok.mp h
    obtain ⟨w₀, _, h⟩ := bind_eq_ok.mp h
    obtain ⟨w₁, hmove, h⟩ := bind_eq_ok.mp h
    cases h
    obtain ⟨target, _, hmove⟩ := bind_eq_ok.mp hmove
    obtain ⟨_, hcheck, hmove⟩ := bind_eq_ok.mp hmove
    obtain ⟨_, _, hmove⟩ := bind_eq_ok.mp hmove
    obtain ⟨req', happly, hmove⟩ := bind_eq_ok.mp hmove
    cases hmove
    show req'.status ∈ RequestStatus.opens
    rw [(applyStatus_eq_ok happly).shape]
    exact opens_of_allowed (checkTransition_allowed hcheck)
  | resubmit userId requestId comment =>
    obtain ⟨student, _, h⟩ := bind_eq_ok.mp h
    obtain ⟨w₀, hload, h⟩ := bind_eq_ok.mp h
    obtain ⟨r, _, rfl⟩ := getRequestForUser_eq_ok hload
    exact resubmitReturned_open h
  | clientResubmit client requestId comment =>
    obtain ⟨w₀, howned, h⟩ := bind_eq_ok.mp h
    obtain ⟨student, _, h⟩ := bind_eq_ok.mp h
    obtain ⟨r, _, _, rfl⟩ := ownedRequest_eq_ok howned
    exact resubmitReturned_open h
  | message userId requestId data => exact hkept rfl ▸ hopen
  | upload userId requestId file => exact hkept rfl ▸ hopen
  | clientMessage client requestId content => exact hkept rfl ▸ hopen
  | clientUpload client requestId file => exact hkept rfl ▸ hopen

theorem handle_sameHands {c : Call} {w : Work} (h : c.handle cfg db now = .ok w)
    (hbetween : Between ⟨now, .call c⟩) : w.req.assignedTo = w.loaded.assignedTo := by
  rcases handle_assignedTo h with hsame | ⟨userId, data, hc, -, -⟩
  · exact hsame
  · rw [hc] at hbetween
    exact hbetween.elim

theorem sweep_openLoad (hwf : db.Wf) (useLock won : Bool) :
    openLoad (sweepSlaDeadlines cfg db useLock won now) = openLoad db := by
  refine sweep_relates (R := fun db db' => openLoad db' = openLoad db) (fun _ => rfl)
    (fun h h' => h'.trans h) (fun db r hwf hr hneeds => ?_) hwf useLock won
  apply openLoad_finish hwf hr (sweepOne_change (needsNotice_running hneeds))
  · unfold sweepOne
    dsimp only
    split
    · rfl
    · rfl
  · intro hopen
    unfold sweepOne
    dsimp only
    split
    · exact hopen
    · exact hopen

/-- What happens between two filings takes nothing off a desk and puts
nothing on one. -/
theorem between_openLoad (hwf : db.Wf) {e : Event} (hbetween : Between e) :
    openLoad (step cfg db e) = openLoad db := by
  obtain ⟨now, s⟩ := e
  unfold step
  cases happly : s.apply cfg db now with
  | error _ => rfl
  | ok db' =>
    dsimp only
    cases s with
    | create userId data key trackingNo => exact hbetween.elim
    | clientCreate client profile data key trackingNo => exact hbetween.elim
    | people users departments faculties studentGroups => exact hbetween.elim
    | call c =>
      obtain ⟨w, hhandle, happly⟩ := bind_eq_ok.mp happly
      cases happly
      obtain ⟨hmem, -, hchange⟩ := handle_change hhandle
      exact openLoad_finish hwf hmem hchange (handle_sameHands hhandle hbetween)
        (handle_open hhandle hbetween)
    | sweep useLock won =>
      cases happly
      exact sweep_openLoad hwf useLock won
    | catalogue edit => exact openLoad_congr (catalogueEdit_tables happly).2.1

/-! ## A filing -/

/-- The filing is the lightest desk's. -/
theorem fileRequest_lightest (hids : db.UserIds) (hstaff : (staffOf db facultyId).Nonempty)
    {student : User} {data : RequestCreate} {trackingNo : String} {clientRef : Option String}
    {client : Option ApiClient} {req : Request} {s : Session}
    (hkind : ByFaculty db facultyId student data)
    (h : fileRequest cfg db student data trackingNo clientRef client now = .ok (req, s)) :
    req.status = .inProgress ∧
      ∃ u, Lightest db (boundTo db facultyId .staff) u ∧ req.assignedTo = some u.id := by
  obtain ⟨⟨req₀, s₀⟩, hcreate, h⟩ := bind_eq_ok.mp h
  cases h
  obtain ⟨service, hservice, hcreate⟩ := bind_eq_ok.mp hcreate
  obtain ⟨assignee, hroute, hcreate⟩ := bind_eq_ok.mp hcreate
  obtain ⟨deadline, -, hcreate⟩ := bind_eq_ok.mp hcreate
  cases hcreate
  have hrouting := hkind.routed service hservice
  have hauto : ¬ service.routing = .autoReply := by simp [hrouting]
  unfold routeRequest at hroute
  unfold newRequest
  rw [if_neg hauto] at hroute ⊢
  cases hresolve : resolveHandler db student service with
  | error e => simp [hresolve, Except.map] at hroute
  | ok handler =>
    rw [hresolve] at hroute
    cases hroute
    refine ⟨rfl, handler, ?_, rfl⟩
    have hpicked := (resolveHandler_eq_ok hids.nodup student service handler).mp hresolve
    rw [Documented, if_neg (by simp [hrouting])] at hpicked
    obtain ⟨id, hfaculty, hpicked⟩ := hpicked
    cases hkind.faculty.symm.trans hfaculty
    rw [hkind.elsewhere, pickedFrom_empty] at hpicked
    obtain ⟨id, hid⟩ := hstaff
    obtain ⟨v, hv, -⟩ := mem_staffOf.mp hid
    exact (pickedFrom_nonempty ⟨v, hv⟩).mp hpicked

/-- The count of whoever the new request was given to goes up by one. -/
theorem raisesLeast_of_filed {req : Request} {u : User}
    (hrequests : db'.requests = db.requests ++ [req]) (hstatus : req.status = .inProgress)
    (hlightest : Lightest db (boundTo db facultyId .staff) u) (hto : req.assignedTo = some u.id) :
    RaisesLeast (staffOf db facultyId) (openLoad db) (openLoad db') := by
  have hopen : req.status ∈ RequestStatus.opens := by
    rw [hstatus]
    decide
  refine ⟨u.id, mem_staffOf.mpr ⟨u, hlightest.1, rfl⟩, ?_, ?_, ?_⟩
  · intro id hid
    obtain ⟨v, hv, rfl⟩ := mem_staffOf.mp hid
    rcases hlightest.2 v hv with hlt | ⟨heq, -⟩
    · exact hlt.le
    · exact heq.le
  · rw [openLoad_concat hrequests, if_pos ⟨hto, hopen⟩]
  · intro id _ hne
    rw [openLoad_concat hrequests, if_neg, Nat.add_zero]
    rintro ⟨hid, -⟩
    exact hne (Option.some.inj (hid.symm.trans hto))

/-! ## The staff -/

theorem staffOf_congr (h : db'.users = db.users) : staffOf db' facultyId = staffOf db facultyId := by
  ext id
  simp [mem_staffOf, boundTo, h]

/-- A student who is new or brought up to date makes no difference. -/
theorem staffOf_sync {profile : StudentProfile} (hids : db.UserIds)
    (h : Edits db (.sync profile) db'.users) : staffOf db' facultyId = staffOf db facultyId := by
  generalize husers : db'.users = users at h
  ext id
  simp only [mem_staffOf, boundTo, husers, Set.mem_ofPred_eq]
  cases h with
  | refused => exact Iff.rfl
  | joined new role student employee =>
    constructor
    · rintro ⟨v, ⟨hv, hcan⟩, hid⟩
      rcases List.mem_append.mp hv with hv | hv
      · exact ⟨v, ⟨hv, hcan⟩, hid⟩
      · rw [List.mem_singleton.mp hv, role] at hcan
        cases hcan.2.1
    · rintro ⟨v, ⟨hv, hcan⟩, hid⟩
      exact ⟨v, ⟨List.mem_append_left _ hv, hcan⟩, hid⟩
  | @synced profile user left listed was sameId role active student employee =>
    have hsame : ∀ v ∈ db.users, v.id = user.id → v = user := fun v hv hid =>
      hids.eq_of_id hv listed hid
    constructor
    · rintro ⟨v, ⟨hv, hcan⟩, hid⟩
      rcases mem_replaceUser hv with rfl | hv
      · exact ⟨user, ⟨listed, active ▸ hcan.1, role ▸ hcan.2.1, employee ▸ hcan.2.2⟩, sameId ▸ hid⟩
      · exact ⟨v, ⟨hv, hcan⟩, hid⟩
    · rintro ⟨v, ⟨hv, hcan⟩, hid⟩
      by_cases huser : v.id = user.id
      · obtain rfl := hsame v hv huser
        refine ⟨left, ⟨List.mem_map.mpr ⟨v, hv, if_pos rfl⟩, ?_⟩, sameId.trans hid⟩
        rw [active, role, employee]
        exact hcan
      · exact ⟨v, ⟨List.mem_map.mpr ⟨v, hv, if_neg huser⟩, hcan⟩, hid⟩

theorem step_staffOf (hids : db.UserIds) (hwf : db.Wf) {e : Event}
    (hforeign : (OfficeEvent.request e).isForeign = false) :
    staffOf (step cfg db e) facultyId = staffOf db facultyId := by
  rcases (step_users hids hwf hforeign).2 with hsame | ⟨profile, hedits⟩
  · exact staffOf_congr hsame
  · exact staffOf_sync hids hedits

/-! ## Runs -/

/-- A filing of the kind is refused or a replay, and nothing changes, or it
goes to the staff of the faculty, to one who had the fewest. -/
theorem filing_raises (hids : db.UserIds) (hstaff : (staffOf db facultyId).Nonempty) {e : Event}
    (hfiled : FiledByFaculty facultyId db e) :
    step cfg db e = db ∨
      RaisesLeast (staffOf db facultyId) (openLoad db) (openLoad (step cfg db e)) := by
  obtain ⟨now, s⟩ := e
  unfold step
  cases happly : s.apply cfg db now with
  | error _ => exact .inl rfl
  | ok db' =>
    dsimp only
    cases s with
    | create userId data key trackingNo =>
      obtain ⟨student, hstudent, rfl | ⟨req, session, hfile, rfl⟩⟩ := runCreate_eq_ok happly
      · exact .inl rfl
      · obtain ⟨hstatus, u, hlightest, hto⟩ :=
          fileRequest_lightest hids hstaff (hfiled student hstudent) hfile
        exact .inr (raisesLeast_of_filed rfl hstatus hlightest hto)
    | clientCreate client profile data key trackingNo =>
      obtain ⟨sync, hsync, rfl | ⟨req, session, hfile, rfl⟩⟩ := runClientCreate_eq_ok happly
      · exact .inl rfl
      · obtain ⟨sync', hsync', hactive⟩ := bind_eq_ok.mp hsync
        split at hactive
        · cases hactive
          obtain ⟨hedits, hids'⟩ := applySync_edits hids hsync'
          have hsame : staffOf (db.applySync sync) facultyId = staffOf db facultyId :=
            staffOf_sync hids hedits
          obtain ⟨hstatus, u, hlightest, hto⟩ :=
            fileRequest_lightest hids' (hsame ▸ hstaff) (hfiled sync hsync) hfile
          rw [← hsame]
          exact .inr (raisesLeast_of_filed rfl hstatus hlightest hto)
        · cases hactive
    | call c => exact hfiled.elim
    | sweep useLock won => exact hfiled.elim
    | catalogue edit => exact hfiled.elim
    | people users departments faculties studentGroups => exact hfiled.elim

/-- What the run consists of: filings of the kind, and what may happen
between them. -/
def Permitted (facultyId : Nat) (db : Db) (e : Event) : Prop :=
  FiledByFaculty facultyId db e ∨ Between e

theorem Permitted.not_foreign {e : Event} (h : Permitted facultyId db e) :
    (OfficeEvent.request e).isForeign = false := by
  obtain ⟨now, s⟩ := e
  cases s with
  | people users departments faculties studentGroups => exact (h.elim id id).elim
  | _ => rfl

/-- The state a run of this kind starts from and stays in. -/
structure Staffed (staff : Finset Nat) (facultyId : Nat) (db : Db) : Prop where
  wf : db.Wf
  ids : db.UserIds
  staff : staffOf db facultyId = staff

theorem Staffed.step {staff : Finset Nat} (h : Staffed staff facultyId db) {e : Event}
    (he : Permitted facultyId db e) : Staffed staff facultyId (step cfg db e) where
  wf := (step_life cfg h.wf e).1
  ids := (step_users h.ids h.wf he.not_foreign).1
  staff := (step_staffOf h.ids h.wf he.not_foreign).trans h.staff

/-- What an event of the run does to the counts of the staff. -/
structure Moves (staff : Finset Nat) (facultyId : Nat) (db : Db) (e : Event) (db' : Db) : Prop where
  filed : FiledByFaculty facultyId db e → db' = db ∨ RaisesLeast staff (openLoad db) (openLoad db')
  between : Between e → openLoad db' = openLoad db
  same : staffOf db' facultyId = staff

theorem Staffed.moves {staff : Finset Nat} (h : Staffed staff facultyId db)
    (hsome : staff.Nonempty) {e : Event} (he : Permitted facultyId db e) :
    Moves staff facultyId db e (Api.step cfg db e) where
  filed hfiled := by
    have hraises := @filing_raises cfg db facultyId h.ids (h.staff ▸ hsome) e hfiled
    rw [h.staff] at hraises
    exact hraises
  between := between_openLoad h.wf
  same := (h.step he).staff

end Royd
