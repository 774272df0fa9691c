/-
Royd.Directory.Owners — who an open request is in the hands of.

Who may take a request is checked when it is filed and when it is assigned.
Afterwards an administrator may deactivate the handler or take the role away,
and nothing looks at the requests then (`orphaned_request`). So what holds is
that every open request was given to somebody who could take it, and that only
an edit of that user can have changed this (`open_request_owner`).
-/
import Royd.Directory.Edits
import Royd.Lifecycle.Runs
import Royd.Services.RoutingTheorems
import Mathlib.Data.List.Induction

namespace Royd

open Api Runs

variable {cfg : Settings} {db db' : Db} {now : Int}

/-- The user is active, and staff or registrator. -/
def Eligible (users : List User) (userId : Nat) : Prop :=
  ∃ u ∈ users, u.id = userId ∧ u.isActive = true ∧ u.role ∈ [Role.staff, Role.registrator]

instance (users : List User) (userId : Nat) : Decidable (Eligible users userId) :=
  inferInstanceAs (Decidable (∃ u ∈ users,
    u.id = userId ∧ u.isActive = true ∧ u.role ∈ [Role.staff, Role.registrator]))

/-! ## Who a request is given to -/

theorem hasRole_iff {u : User} {roles : List Role} : u.hasRole roles = true ↔ u.role ∈ roles := by
  simp [User.hasRole]

theorem resolveAssignee_eq_ok {assigneeId : Nat} {u : User}
    (h : resolveAssignee db assigneeId = .ok u) : u.id = assigneeId ∧ Eligible db.users assigneeId := by
  unfold resolveAssignee at h
  split at h
  · cases h
  · rename_i assignee hfound
    split at h
    · cases h
    · rename_i hactive
      split at h
      · cases h
      · rename_i hrole
        cases h
        obtain ⟨hmem, hid⟩ := getUser_eq_some hfound
        rw [not_not] at hactive hrole
        exact ⟨hid, u, hmem, hid, hactive, hasRole_iff.mp hrole⟩

/-- The lightest candidate is a candidate. -/
theorem leastLoaded_mem {users : List User} {u : User} (h : leastLoaded db users = some u) :
    u ∈ users := by
  rw [leastLoaded_eq_argmin] at h
  exact List.argmin_mem h

theorem orderById_mem {users : List User} {u : User} : u ∈ orderById users ↔ u ∈ users :=
  (orderById_perm users).mem_iff

theorem boundEmployees_eligible {role : Role} (hrole : role ∈ [Role.staff, Role.registrator])
    {facultyId : Nat} {u : User} (h : u ∈ boundEmployees db role facultyId) : Eligible db.users u.id := by
  obtain ⟨hmem, hcan⟩ := List.mem_filter.mp (orderById_mem.mp h)
  simp only [Bool.and_eq_true, beq_iff_eq] at hcan
  exact ⟨u, hmem, rfl, hcan.1.2, hcan.1.1 ▸ hrole⟩

theorem findStaffFor_eligible {facultyId : Nat} {departmentId : Option Nat} {u : User}
    (h : findStaffFor db facultyId departmentId = some u) : Eligible db.users u.id := by
  unfold findStaffFor at h
  dsimp only at h
  split at h
  · exact boundEmployees_eligible (by simp) (leastLoaded_mem h)
  · exact boundEmployees_eligible (by simp) (List.mem_filter.mp (leastLoaded_mem h)).1

theorem findGeneralManager_eligible {u : User} (h : findGeneralManager db = some u) :
    Eligible db.users u.id := by
  obtain ⟨hmem, hcan⟩ := List.mem_filter.mp (orderById_mem.mp (leastLoaded_mem h))
  simp only [Bool.and_eq_true] at hcan
  exact ⟨u, hmem, rfl, hcan.1.2, hasRole_iff.mp hcan.1.1⟩

theorem findServiceAssignee_eligible {assigneeId : Nat} {u : User}
    (h : findServiceAssignee db assigneeId = some u) : Eligible db.users u.id := by
  have hcan := List.find?_some h
  simp only [Bool.and_eq_true] at hcan
  exact ⟨u, List.mem_of_find?_eq_some h, rfl, hcan.1.2, hasRole_iff.mp hcan.2⟩

/-- Whoever routing picks can take the request. -/
theorem resolveHandler_eligible {student : User} {service : RequestCategory} {u : User}
    (h : resolveHandler db student service = .ok u) : Eligible db.users u.id := by
  unfold resolveHandler at h
  split at h
  · split at h
    · rename_i handler hassignee
      cases h
      obtain ⟨assigneeId, -, hfound⟩ := Option.bind_eq_some_iff.mp hassignee
      exact findServiceAssignee_eligible hfound
    · split at h
      · rename_i hmanager
        cases h
        exact findGeneralManager_eligible hmanager
      · cases h
  · unfold resolveHandlerForStudent at h
    split at h
    · cases h
    · split at h
      · rename_i hstaff
        cases h
        exact findStaffFor_eligible hstaff
      · split at h
        · rename_i hregistrator
          cases h
          exact boundEmployees_eligible (by simp) (leastLoaded_mem hregistrator)
        · cases h

/-- A new request is in the hands of whom routing picked, unless it was
answered at once. -/
theorem fileRequest_assignee {student : User} {data : RequestCreate} {trackingNo : String}
    {clientRef : Option String} {client : Option ApiClient} {req : Request} {s : Session}
    (h : fileRequest cfg db student data trackingNo clientRef client now = .ok (req, s))
    (hopen : req.status ∈ RequestStatus.opens) :
    req.id = db.nextId ∧ ∃ userId, req.assignedTo = some userId ∧ Eligible db.users userId := by
  obtain ⟨⟨req₀, s₀⟩, hcreate, h⟩ := bind_eq_ok.mp h
  cases h
  obtain ⟨category, -, hcreate⟩ := bind_eq_ok.mp hcreate
  obtain ⟨assignee, hroute, hcreate⟩ := bind_eq_ok.mp hcreate
  obtain ⟨deadline, -, hcreate⟩ := bind_eq_ok.mp hcreate
  cases hcreate
  unfold routeRequest at hroute
  unfold newRequest at hopen ⊢
  by_cases hauto : category.routing = .autoReply
  · simp only [hauto, if_true] at hopen
    exact absurd hopen (by decide)
  · rw [if_neg hauto] at hroute ⊢
    cases hresolve : resolveHandler db student category with
    | error e => simp [hresolve, Except.map] at hroute
    | ok handler =>
      rw [hresolve] at hroute
      cases hroute
      exact ⟨rfl, handler.id, rfl, resolveHandler_eligible hresolve⟩

/-! ## Who keeps it -/

/-- What a call does to the hands a request is in. -/
theorem handle_assignedTo {c : Call} {w : Work} (h : c.handle cfg db now = .ok w) :
    w.req.assignedTo = w.loaded.assignedTo ∨
      ∃ userId data, c = .assign userId c.requestId data ∧
        w.req.assignedTo = some data.assigneeId ∧ Eligible db.users data.assigneeId := by
  have hmakes := handle_makes h
  generalize w.req = req at hmakes
  generalize w.loaded = r at hmakes
  cases hmakes with
  | assigned resolved _ assignedTo =>
    obtain ⟨hid, heligible⟩ := resolveAssignee_eq_ok resolved
    rw [hid] at assignedTo
    exact .inr ⟨_, _, rfl, assignedTo, heligible⟩
  | moved _ _ assignedTo applied =>
    rw [(applyStatus_eq_ok applied).shape]
    exact .inl assignedTo
  | kept => exact .inl rfl

/-! ## One step -/

/-- An operation on the requests or the catalogue, or an edit of the users. -/
inductive OfficeEvent where
  | request (e : Event)
  | user (e : UserEdit)
  deriving DecidableEq, Repr

/-- The database after an event. -/
def happens (cfg : Settings) (db : Db) : OfficeEvent → Db
  | .request e => step cfg db e
  | .user e => edit db e

namespace OfficeEvent

/-- The event is one the model knows nothing about but its outcome. -/
def isForeign : OfficeEvent → Bool
  | .request ⟨_, .people ..⟩ => true
  | _ => false

/-- An update or deactivation of the user. -/
def editsUser (userId : Nat) : OfficeEvent → Bool
  | .user (.update _ id _ _) => id == userId
  | .user (.delete _ id) => id == userId
  | _ => false

/-- The filing or the assignment that gives the request to the user. -/
def Gives (cfg : Settings) (db : Db) (requestId userId : Nat) (e : OfficeEvent) : Prop :=
  (match e with
    | .request ⟨_, .create ..⟩ => db.getRequest requestId = none
    | .request ⟨_, .clientCreate ..⟩ => db.getRequest requestId = none
    | .request ⟨_, .call (.assign _ id data)⟩ => id = requestId ∧ data.assigneeId = userId
    | _ => False) ∧
    ∃ r ∈ (happens cfg db e).requests, r.id = requestId ∧ r.assignedTo = some userId

end OfficeEvent

/-- Every open request is in the hands it was in before. -/
def SameHands (db db' : Db) : Prop :=
  ∀ r' ∈ db'.requests, r'.status ∈ RequestStatus.opens →
    ∃ r ∈ db.requests, r.id = r'.id ∧ r.assignedTo = r'.assignedTo ∧ r.status ∈ RequestStatus.opens

theorem SameHands.refl (db : Db) : SameHands db db := fun r hr hopen => ⟨r, hr, rfl, rfl, hopen⟩

theorem SameHands.trans {db₁ db₂ db₃ : Db} (h : SameHands db₁ db₂) (h' : SameHands db₂ db₃) :
    SameHands db₁ db₃ := by
  intro r₃ hr₃ hopen₃
  obtain ⟨r₂, hr₂, hid₂, hto₂, hopen₂⟩ := h' r₃ hr₃ hopen₃
  obtain ⟨r₁, hr₁, hid₁, hto₁, hopen₁⟩ := h r₂ hr₂ hopen₂
  exact ⟨r₁, hr₁, hid₁.trans hid₂, hto₁.trans hto₂, hopen₁⟩

/-- A change that leaves a request open found it open. -/
theorem Change.open_before {start : Nat} {r req' : Request} {s : Session}
    (h : Change cfg start now r req' s) (hopen : req'.status ∈ RequestStatus.opens) :
    r.status ∈ RequestStatus.opens := by
  cases h with
  | moved target allowed applied entry why rows =>
    revert allowed
    cases r.status <;> cases target <;> decide
  | answered actor text isOpen visible applied entry files rows =>
    rw [applied.shape] at hopen
    have hclosed : RequestStatus.completed ∈ RequestStatus.opens := hopen
    exact absurd hclosed (by decide)
  | _ => exact hopen

/-- The rows after a change of a committed row. -/
theorem mem_finish_requests {w : Work} (hwf : db.Wf) (hmem : w.loaded ∈ db.requests)
    (hchange : Change cfg db.nextId now w.loaded w.req w.session) {r' : Request}
    (h : r' ∈ (db.finish w).requests) : r' = w.req ∨ r' ∈ db.requests := by
  obtain ⟨row, hrow, rfl⟩ := List.mem_map.mp h
  split
  · rename_i hid
    rw [hwf.eq_of_id hrow hmem hid]
    exact .inl hchange.write
  · exact .inr hrow

/-- A call that is no assignment, and a candidate of the sweep, leave every
request in the same hands. -/
theorem finish_sameHands {w : Work} (hwf : db.Wf) (hmem : w.loaded ∈ db.requests)
    (hchange : Change cfg db.nextId now w.loaded w.req w.session)
    (hto : w.req.assignedTo = w.loaded.assignedTo) : SameHands db (db.finish w) := by
  intro r' hr' hopen
  rcases mem_finish_requests hwf hmem hchange hr' with rfl | hr'
  · exact ⟨w.loaded, hmem, hchange.id.symm, hto.symm, hchange.open_before hopen⟩
  · exact ⟨r', hr', rfl, rfl, hopen⟩

theorem sweep_sameHands (hwf : db.Wf) (useLock won : Bool) :
    SameHands db (sweepSlaDeadlines cfg db useLock won now) := by
  refine sweep_relates .refl .trans (fun db r hwf hr hneeds => ?_) hwf useLock won
  refine finish_sameHands hwf hr (sweepOne_change (needsNotice_running hneeds)) ?_
  unfold sweepOne
  dsimp only
  split
  · rfl
  · rfl

/-! ## Who stays eligible -/

theorem Eligible.append {users : List User} {userId : Nat} (h : Eligible users userId) (u : User) :
    Eligible (users ++ [u]) userId := by
  obtain ⟨v, hv, hcan⟩ := h
  exact ⟨v, List.mem_append_left _ hv, hcan⟩

/-- A change of another row, and one that keeps role and flag, take the
request from nobody's hands. -/
theorem Eligible.replace {users : List User} {userId : Nat} {user left : User}
    (h : Eligible users userId)
    (hkeeps : user.id = userId → user.isActive = true → user.role ∈ [Role.staff, Role.registrator] →
      left.id = userId ∧ left.isActive = true ∧ left.role ∈ [Role.staff, Role.registrator])
    (hsame : ∀ v ∈ users, v.id = user.id → v = user) :
    Eligible (replaceUser users user left) userId := by
  obtain ⟨v, hv, hid, hactive, hrole⟩ := h
  by_cases huser : v.id = user.id
  · obtain rfl := hsame v hv huser
    exact ⟨left, List.mem_map.mpr ⟨v, hv, if_pos rfl⟩, hkeeps hid hactive hrole⟩
  · exact ⟨v, List.mem_map.mpr ⟨v, hv, if_neg huser⟩, hid, hactive, hrole⟩

/-- Only an update or a deactivation of a user can end what they may do. -/
theorem Edits.keeps_eligible {e : UserEdit} {users : List User} {userId : Nat} (hids : db.UserIds)
    (hedits : Edits db e users) (he : (OfficeEvent.user e).editsUser userId = false)
    (h : Eligible db.users userId) : Eligible users userId := by
  have hsame : ∀ {user : User}, user ∈ db.users → ∀ v ∈ db.users, v.id = user.id → v = user :=
    fun hmem v hv hid => hids.eq_of_id hv hmem hid
  cases hedits with
  | refused => exact h
  | created => exact h.append _
  | updated accepted found asked general =>
    obtain ⟨hmem, hid⟩ := getUser_eq_some found
    refine h.replace (fun heq => absurd he ?_) (hsame hmem)
    simp [OfficeEvent.editsUser, ← hid, heq]
  | deleted found =>
    obtain ⟨hmem, hid⟩ := getUser_eq_some found
    refine h.replace (fun heq => absurd he ?_) (hsame hmem)
    simp [OfficeEvent.editsUser, ← hid, heq]
  | joined => exact h.append _
  | synced listed was id role active student employee =>
    refine h.replace (fun hid hactive hrole => ?_) (hsame listed)
    exact ⟨id.trans hid, active.trans hactive, role ▸ hrole⟩

/-- The upsert of a student makes nobody eligible. -/
theorem Edits.eligible_of_sync {profile : StudentProfile} {users : List User} {userId : Nat}
    (hedits : Edits db (.sync profile) users) (h : Eligible users userId) :
    Eligible db.users userId := by
  obtain ⟨v, hv, hid, hactive, hrole⟩ := h
  cases hedits with
  | refused => exact ⟨v, hv, hid, hactive, hrole⟩
  | joined new role student employee =>
    rcases List.mem_append.mp hv with hv | hv
    · exact ⟨v, hv, hid, hactive, hrole⟩
    · rw [List.mem_singleton.mp hv, role] at hrole
      exact absurd hrole (by decide)
  | @synced profile user left listed was sameId role active student employee =>
    rcases mem_replaceUser hv with rfl | hv
    · exact ⟨user, listed, sameId.symm.trans hid, active.symm.trans hactive, role ▸ hrole⟩
    · exact ⟨v, hv, hid, hactive, hrole⟩

/-! ## The users after a step -/

theorem Db.UserIds.mono (h : db.UserIds) (husers : db'.users = db.users)
    (hle : db.nextId ≤ db'.nextId) : db'.UserIds where
  nodup := by
    rw [husers]
    exact h.nodup
  below := by
    rw [husers]
    exact fun u hu => Nat.lt_of_lt_of_le (h.below u hu) hle

theorem catalogueEdit_tables {edit : CatalogueEdit} (h : edit.apply cfg db now = .ok db') :
    db'.users = db.users ∧ db'.requests = db.requests ∧ db.nextId ≤ db'.nextId := by
  cases edit with
  | create data =>
    unfold CatalogueEdit.apply buildCategory at h
    dsimp only at h
    split at h
    · cases h
      exact ⟨rfl, rfl, Nat.le_succ _⟩
    · obtain ⟨_, _, h⟩ := bind_eq_ok.mp h
      obtain ⟨_, _, h⟩ := bind_eq_ok.mp h
      obtain ⟨_, _, h⟩ := bind_eq_ok.mp h
      cases h
      exact ⟨rfl, rfl, Nat.le_succ _⟩
  | update categoryId payload =>
    obtain ⟨cat, _, h⟩ := bind_eq_ok.mp h
    obtain ⟨cat', _, h⟩ := bind_eq_ok.mp h
    cases h
    exact ⟨rfl, rfl, Nat.le_refl _⟩
  | deactivate categoryId =>
    obtain ⟨cat, _, h⟩ := bind_eq_ok.mp h
    cases h
    exact ⟨rfl, rfl, Nat.le_refl _⟩
  | addFile categoryId upload userId =>
    obtain ⟨cat, _, h⟩ := bind_eq_ok.mp h
    unfold addAutoReplyFile at h
    split at h
    · cases h
    split at h
    · cases h
    split at h
    · cases h
    · cases h
      exact ⟨rfl, rfl, Nat.le_succ _⟩
  | removeFile categoryId fileId =>
    obtain ⟨cat, _, h⟩ := bind_eq_ok.mp h
    unfold removeAutoReplyFile at h
    split at h
    · cases h
    · cases h
      exact ⟨rfl, rfl, Nat.le_refl _⟩

/-- An operation on requests or on the catalogue leaves the users alone,
except that a filing of the integration brings its student up to date. -/
theorem step_users (hids : db.UserIds) (hwf : db.Wf) {e : Event}
    (hforeign : (OfficeEvent.request e).isForeign = false) :
    (step cfg db e).UserIds ∧ ((step cfg db e).users = db.users ∨
      ∃ profile, Edits db (.sync profile) (step cfg db e).users) := by
  have hkeep : ∀ {db' : Db}, db'.users = db.users ∧ db.nextId ≤ db'.nextId →
      db'.UserIds ∧ (db'.users = db.users ∨ ∃ profile, Edits db (.sync profile) db'.users) :=
    fun h => ⟨hids.mono h.1 h.2, .inl h.1⟩
  obtain ⟨now, s⟩ := e
  unfold step
  cases happly : s.apply cfg db now with
  | error _ => exact hkeep ⟨rfl, Nat.le_refl _⟩
  | ok db' =>
    dsimp only
    cases s with
    | create userId data key trackingNo =>
      obtain ⟨student, -, rfl | ⟨req, session, -, rfl⟩⟩ := runCreate_eq_ok happly
      · exact hkeep ⟨rfl, Nat.le_refl _⟩
      · exact hkeep ⟨rfl, Nat.le_max_left _ _⟩
    | clientCreate client profile data key trackingNo =>
      obtain ⟨sync, hsync, rfl | ⟨req, session, -, rfl⟩⟩ := runClientCreate_eq_ok happly
      · exact hkeep ⟨rfl, Nat.le_refl _⟩
      · obtain ⟨sync', hsync', hactive⟩ := bind_eq_ok.mp hsync
        split at hactive
        · cases hactive
          obtain ⟨hedits, hids'⟩ := applySync_edits hids hsync'
          refine ⟨hids'.mono rfl (Nat.le_max_left _ _), .inr ⟨profile, hedits⟩⟩
        · cases hactive
    | call c =>
      obtain ⟨w, hhandle, happly⟩ := bind_eq_ok.mp happly
      cases happly
      exact hkeep ⟨rfl, Nat.le_max_left _ _⟩
    | sweep useLock won =>
      cases happly
      refine hkeep (sweep_relates (R := fun db db' : Db => db'.users = db.users ∧ db.nextId ≤ db'.nextId)
        (fun db => ⟨rfl, Nat.le_refl _⟩) (fun h h' => ⟨h'.1.trans h.1, h.2.trans h'.2⟩)
        (fun db r _ _ _ => ⟨rfl, Nat.le_max_left _ _⟩) hwf useLock won)
    | catalogue edit =>
      obtain ⟨husers, -, hle⟩ := catalogueEdit_tables happly
      exact hkeep ⟨husers, hle⟩
    | people users departments faculties studentGroups => cases hforeign

/-! ## The requests after a step -/

/-- An edit writes the users, the organisation and the audit log. -/
theorem edit_outside (db : Db) (e : UserEdit) :
    ∃ n users faculties studentGroups logs, db.nextId ≤ n ∧
      edit db e = { db with nextId := n, users, faculties, studentGroups, auditLogs := logs } := by
  unfold edit
  cases happly : e.apply db with
  | error exc => exact ⟨_, _, _, _, _, Nat.le_refl _, rfl⟩
  | ok db' =>
    cases e with
    | create actorId data hash =>
      obtain ⟨role, -, -, n, logs, hn, rfl⟩ := createUser_eq_ok happly
      exact ⟨_, _, _, _, _, Nat.le_of_lt hn, rfl⟩
    | update actorId userId data hash =>
      obtain ⟨user, role, -, -, -, n, logs, hn, rfl⟩ := updateUser_eq_ok happly
      exact ⟨_, _, _, _, _, hn, rfl⟩
    | delete actorId userId =>
      obtain ⟨user, -, n, logs, hn, rfl⟩ := deleteUser_eq_ok happly
      exact ⟨_, _, _, _, _, hn, rfl⟩
    | sync profile =>
      obtain ⟨sync, -, happly⟩ := bind_eq_ok.mp happly
      cases happly
      exact ⟨_, _, _, _, _, Nat.le_max_left _ _, rfl⟩

theorem edit_effect (cfg : Settings) (now : Int) (cats : List RequestCategory) (db : Db)
    (e : UserEdit) : Effect cfg now cats db (edit db e) := by
  obtain ⟨n, users, faculties, studentGroups, logs, hn, heq⟩ := edit_outside db e
  rw [heq]
  exact .outside rfl rfl rfl rfl rfl hn id

theorem edit_requests (db : Db) (e : UserEdit) : (edit db e).requests = db.requests := by
  obtain ⟨n, users, faculties, studentGroups, logs, -, heq⟩ := edit_outside db e
  rw [heq]

theorem happens_wf (hwf : db.Wf) (e : OfficeEvent) : (happens cfg db e).Wf := by
  cases e with
  | request e => exact (step_life cfg hwf e).1
  | user e => exact (edit_effect cfg 0 db.categories db e).wf hwf

/-- The request a filing adds is new, and in the hands of somebody who can
take it. -/
theorem fileRequest_gives {student : User} {data : RequestCreate} {trackingNo : String}
    {clientRef : Option String} {client : Option ApiClient} {req : Request} {s : Session}
    (hwf : db.Wf) (hle : db.nextId ≤ db'.nextId)
    (h : fileRequest cfg db' student data trackingNo clientRef client now = .ok (req, s))
    (hopen : req.status ∈ RequestStatus.opens) :
    db.getRequest req.id = none ∧
      ∃ userId, req.assignedTo = some userId ∧ Eligible db'.users userId := by
  obtain ⟨hid, hgiven⟩ := fileRequest_assignee h hopen
  refine ⟨List.find?_eq_none.mpr fun r hr hsame => ?_, hgiven⟩
  have hlt := hwf.requestsBelow r hr
  have heq : r.id = req.id := by simpa using hsame
  omega

/-- After a step every open request is in the hands it was in, or in those of
somebody the step gave it to, who could take it. -/
theorem step_hands (hids : db.UserIds) (hwf : db.Wf) (e : Event) {r' : Request}
    (hr' : r' ∈ (step cfg db e).requests) (hopen : r'.status ∈ RequestStatus.opens) :
    (∃ r ∈ db.requests, r.id = r'.id ∧ r.assignedTo = r'.assignedTo ∧
        r.status ∈ RequestStatus.opens) ∨
      ∃ userId, r'.assignedTo = some userId ∧
        (OfficeEvent.request e).Gives cfg db r'.id userId ∧ Eligible db.users userId := by
  have hafter : r' ∈ (happens cfg db (.request e)).requests := hr'
  obtain ⟨now, s⟩ := e
  unfold step at hr'
  cases happly : s.apply cfg db now with
  | error _ =>
    rw [happly] at hr'
    exact .inl (SameHands.refl db r' hr' hopen)
  | ok db' =>
    rw [happly] at hr'
    dsimp only at hr'
    cases s with
    | create userId data key trackingNo =>
      obtain ⟨student, -, rfl | ⟨req, session, hfile, rfl⟩⟩ := runCreate_eq_ok happly
      · exact .inl (SameHands.refl _ r' hr' hopen)
      · rcases List.mem_append.mp hr' with hr' | hr'
        · exact .inl (SameHands.refl db r' hr' hopen)
        · obtain rfl := List.mem_singleton.mp hr'
          obtain ⟨hnew, handler, hto, hcan⟩ := fileRequest_gives hwf (Nat.le_refl _) hfile hopen
          exact .inr ⟨handler, hto, ⟨hnew, _, hafter, rfl, hto⟩, hcan⟩
    | clientCreate client profile data key trackingNo =>
      obtain ⟨sync, hsync, rfl | ⟨req, session, hfile, rfl⟩⟩ := runClientCreate_eq_ok happly
      · exact .inl (SameHands.refl _ r' hr' hopen)
      · rcases List.mem_append.mp hr' with hr' | hr'
        · exact .inl (SameHands.refl db r' hr' hopen)
        · obtain rfl := List.mem_singleton.mp hr'
          obtain ⟨sync', hsync', hactive⟩ := bind_eq_ok.mp hsync
          split at hactive
          · cases hactive
            obtain ⟨hnew, handler, hto, hcan⟩ :=
              fileRequest_gives hwf (Nat.le_max_left _ _) hfile hopen
            have hwas := (applySync_edits hids hsync').1.eligible_of_sync hcan
            exact .inr ⟨handler, hto, ⟨hnew, _, hafter, rfl, hto⟩, hwas⟩
          · cases hactive
    | call c =>
      obtain ⟨w, hhandle, happly⟩ := bind_eq_ok.mp happly
      cases happly
      obtain ⟨hmem, hid, hchange⟩ := handle_change hhandle
      rcases handle_assignedTo hhandle with hsame | ⟨userId, data, hc, hto, hcan⟩
      · exact .inl (finish_sameHands hwf hmem hchange hsame r' hr' hopen)
      · rcases mem_finish_requests hwf hmem hchange hr' with rfl | hr'
        · have hown : c.requestId = w.req.id := hid.symm.trans hchange.id.symm
          refine .inr ⟨data.assigneeId, hto, ⟨?_, _, hafter, rfl, hto⟩, hcan⟩
          rw [hc]
          exact ⟨hown, rfl⟩
        · exact .inl (SameHands.refl db r' hr' hopen)
    | sweep useLock won =>
      cases happly
      exact .inl (sweep_sameHands hwf useLock won r' hr' hopen)
    | catalogue edit =>
      rw [(catalogueEdit_tables happly).2.1] at hr'
      exact .inl (SameHands.refl db r' hr' hopen)
    | people users departments faculties studentGroups =>
      cases happly
      exact .inl (SameHands.refl db r' hr' hopen)

/-! ## Runs -/

/-- One event: the tables stay well formed, and every open request is in the
hands it was in or in those it was given to. -/
theorem happens_hands (hids : db.UserIds) (hwf : db.Wf) {e : OfficeEvent} {r' : Request}
    (hr' : r' ∈ (happens cfg db e).requests) (hopen : r'.status ∈ RequestStatus.opens) :
    (∃ r ∈ db.requests, r.id = r'.id ∧ r.assignedTo = r'.assignedTo ∧
        r.status ∈ RequestStatus.opens) ∨
      ∃ userId, r'.assignedTo = some userId ∧ e.Gives cfg db r'.id userId ∧
        Eligible db.users userId := by
  cases e with
  | request e => exact step_hands hids hwf e hr' hopen
  | user e =>
    have hsame : r' ∈ db.requests := edit_requests db e ▸ hr'
    exact .inl ⟨r', hsame, rfl, rfl, hopen⟩

/-- Only an update or a deactivation of a user ends what they may do. -/
theorem happens_eligible (hids : db.UserIds) (hwf : db.Wf) {e : OfficeEvent}
    (hforeign : e.isForeign = false) {userId : Nat} (he : e.editsUser userId = false)
    (h : Eligible db.users userId) : Eligible (happens cfg db e).users userId := by
  cases e with
  | request e =>
    rcases (step_users hids hwf hforeign).2 with hsame | ⟨profile, hedits⟩
    · exact hsame ▸ h
    · exact hedits.keeps_eligible hids rfl h
  | user e => exact (edit_edits hids e).1.keeps_eligible hids he h

theorem happens_ids (hids : db.UserIds) (hwf : db.Wf) {e : OfficeEvent}
    (hforeign : e.isForeign = false) : (happens cfg db e).UserIds := by
  cases e with
  | request e => exact (step_users hids hwf hforeign).1
  | user e => exact (edit_edits hids e).2

/-- At the place `xs` of the run `es` the request was given to the user, who
could take it, and still can unless a later edit of that user ended it. -/
def GivenAt (cfg : Settings) (db₀ : Db) (es : List OfficeEvent) (requestId userId : Nat) : Prop :=
  ∃ xs e ys, es = xs ++ e :: ys ∧
    e.Gives cfg (run (happens cfg) db₀ xs) requestId userId ∧
    Eligible (run (happens cfg) db₀ xs).users userId ∧
    (Eligible (run (happens cfg) db₀ es).users userId ∨
      ∃ zs e' zs', ys = zs ++ e' :: zs' ∧ e'.editsUser userId = true ∧
        Eligible (run (happens cfg) db₀ (xs ++ e :: zs)).users userId ∧
        ¬ Eligible (run (happens cfg) db₀ (xs ++ e :: zs ++ [e'])).users userId)

/-- One more event: who could take the request still can, unless the event is
an edit of that user. -/
theorem GivenAt.concat {db₀ : Db} {es : List OfficeEvent} {requestId userId : Nat}
    (h : GivenAt cfg db₀ es requestId userId) (hids : (run (happens cfg) db₀ es).UserIds)
    (hwf : (run (happens cfg) db₀ es).Wf) {e : OfficeEvent} (hforeign : e.isForeign = false) :
    GivenAt cfg db₀ (es ++ [e]) requestId userId := by
  obtain ⟨xs, given, ys, rfl, hgives, hcould, hcan⟩ := h
  refine ⟨xs, given, ys ++ [e], by simp, hgives, hcould, ?_⟩
  rcases hcan with hcan | ⟨zs, e', zs', rfl, hedits, hbefore, hafter⟩
  · rw [run_concat]
    by_cases hstill : Eligible (happens cfg (run (happens cfg) db₀ (xs ++ given :: ys)) e).users userId
    · exact .inl hstill
    · refine .inr ⟨ys, e, [], rfl, ?_, hcan, ?_⟩
      · by_contra hedits
        exact hstill (happens_eligible hids hwf hforeign (by simpa using hedits) hcan)
      · rwa [run_concat]
  · exact .inr ⟨zs, e', zs' ++ [e], by simp, hedits, hbefore, hafter⟩

/-- What holds after every run from a database without requests. -/
theorem run_given (cfg : Settings) {db₀ : Db} (h₀ : Start db₀) (hids : db₀.UserIds) :
    ∀ es : List OfficeEvent, (∀ e ∈ es, e.isForeign = false) →
      (run (happens cfg) db₀ es).Wf ∧ (run (happens cfg) db₀ es).UserIds ∧
        ∀ r ∈ (run (happens cfg) db₀ es).requests, r.status ∈ RequestStatus.opens →
          ∃ userId, r.assignedTo = some userId ∧ GivenAt cfg db₀ es r.id userId := by
  intro es
  induction es using List.reverseRecOn with
  | nil =>
    intro _
    refine ⟨h₀.wf, hids, fun r hr => ?_⟩
    rw [run_nil, h₀.requests] at hr
    cases hr
  | append_singleton es e ih =>
    intro hes
    obtain ⟨hwf, hids, hgiven⟩ := ih fun e he => hes e (List.mem_append_left _ he)
    have hforeign : e.isForeign = false := hes e (by simp)
    rw [run_concat]
    refine ⟨happens_wf hwf e, happens_ids hids hwf hforeign, fun r' hr' hopen => ?_⟩
    rcases happens_hands hids hwf hr' hopen with ⟨r, hr, hid, hto, hwas⟩ | ⟨userId, hto, hgives, hcan⟩
    · obtain ⟨userId, hto', hat⟩ := hgiven r hr hwas
      exact ⟨userId, hto.symm.trans hto', hid ▸ hat.concat hids hwf hforeign⟩
    · refine ⟨userId, hto, es, e, [], rfl, hgives, hcan, .inl ?_⟩
      rw [run_concat]
      refine happens_eligible hids hwf hforeign ?_ hcan
      cases e with
      | request e => rfl
      | user e => exact hgives.1.elim

/-- In every state of every run from a database without requests: every open
request was given, by a filing or an assignment, to the user who holds it, who
was active and staff or registrator at that step; and still is, unless a later
update or deactivation of that user ended it. -/
theorem open_request_owner (cfg : Settings) {db₀ : Db} (h₀ : Start db₀) (hids : db₀.UserIds)
    (es : List OfficeEvent) (hes : ∀ e ∈ es, e.isForeign = false) :
    ∀ r ∈ (run (happens cfg) db₀ es).requests, r.status ∈ RequestStatus.opens →
      ∃ userId, r.assignedTo = some userId ∧ GivenAt cfg db₀ es r.id userId :=
  (run_given cfg h₀ hids es hes).2.2

/-! ## A small office -/

/-- An administrator, a student, and the manager for general issues, who gets
what is filed. -/
def helpdesk : Db where
  nextId := 10
  users :=
    [{ id := 1, fullName := "Administrator", role := .admin, employeeProfile := some {} },
     { id := 2, fullName := "Talaba", role := .student,
       studentProfile := some { externalStudentId := some "S-1", facultyId := some 1 } },
     { id := 3, fullName := "Xodim", role := .staff,
       employeeProfile := some { isGeneralManager := true } }]
  categories :=
    [{ id := 3, parentId := none, name := "Murojaat" },
     { id := 4, parentId := some 3, name := "Xizmat", routing := .generalManager }]

theorem helpdesk_start : Start helpdesk :=
  ⟨rfl, rfl, rfl, rfl, rfl, fun cat hcat _ hauto => by
    simp only [helpdesk, List.mem_cons, List.not_mem_nil, or_false] at hcat
    rcases hcat with rfl | rfl <;> cases hauto⟩

/-- The student files a request, which gets the id 10, and the manager is
deactivated. -/
def filedThenDeactivated : List OfficeEvent :=
  [.request ⟨0, .create 2 { categoryId := 4, title := "Ariza", description := "Matn" } none "REQ-1"⟩,
    .user (.delete 1 3)]

/-- The request was given to the manager by the filing. -/
theorem open_request_owner_helpdesk :
    ∃ userId, GivenAt {} helpdesk filedThenDeactivated 10 userId := by
  have hrow : ∃ r ∈ (run (happens {}) helpdesk filedThenDeactivated).requests,
      r.id = 10 ∧ r.status ∈ RequestStatus.opens := by
    decide +kernel
  obtain ⟨r, hr, hid, hopen⟩ := hrow
  obtain ⟨userId, -, hgiven⟩ := open_request_owner {} helpdesk_start (by decide)
    filedThenDeactivated (by decide) r hr hopen
  exact ⟨userId, hid ▸ hgiven⟩

/-- The request is open, and who holds it is not active any more. -/
theorem orphaned_request :
    ∃ r ∈ (run (happens {}) helpdesk filedThenDeactivated).requests,
      r.status ∈ RequestStatus.opens ∧
        ∀ userId ∈ r.assignedTo,
          ¬ Eligible (run (happens {}) helpdesk filedThenDeactivated).users userId := by
  decide +kernel

end Royd
