/-
Royd.Services.RoutingTheorems — whom `resolve_handler` picks.

`Lightest` is what "the least loaded" of some people means, `PickedFrom` the
cascade of the fallbacks: the lightest of the first pool with anybody in it.
The pools are sets, so nothing here depends on the order in which the
database returns rows. `resolve_handler_picks` says that the queries and
loops of the code pick exactly so, and when they refuse.
-/
import Mathlib.Data.List.Dedup
import Mathlib.Data.List.MinMax
import Mathlib.Data.Prod.Lex
import Mathlib.Data.Set.Basic
import Royd.Lib.Tables
import Royd.Services.Routing

namespace Royd

variable {db db' : Db}

/-! ## The lightest of some people -/

/-- What `min` compares the candidates by. -/
def routingKey (db : Db) (u : User) : ℕ ×ₗ ℕ := toLex (openLoad db u.id, u.id)

theorem lighter_iff {u best : User} :
    lighter db u best = true ↔ routingKey db u < routingKey db best := by
  simp [lighter, routingKey, Prod.Lex.toLex_lt_toLex]

/-- `_least_loaded` is the first minimum, as `min` is. -/
theorem leastLoaded_eq_argmin (users : List User) :
    leastLoaded db users = users.argmin (routingKey db) := by
  have hfold : ∀ (cs : List User) (best : User),
      some (cs.foldl (fun best u => if lighter db u best then u else best) best) =
        cs.foldl (List.argAux fun b c => routingKey db b < routingKey db c) (some best) := by
    intro cs
    simp only [lighter_iff]
    induction cs with
    | nil => simp
    | cons c cs ih =>
      intro best
      by_cases hlt : routingKey db c < routingKey db best
      · simp [List.argAux, hlt, ih]
      · simp [List.argAux, hlt, ih]
  cases users with
  | nil => rfl
  | cons c cs => exact hfold cs c

/-- One of them, with the smallest number of open requests, and of those with
as few the smallest id. -/
def Lightest (db : Db) (people : Set User) (u : User) : Prop :=
  u ∈ people ∧ ∀ v ∈ people, openLoad db u.id < openLoad db v.id ∨
    openLoad db u.id = openLoad db v.id ∧ u.id ≤ v.id

theorem lightest_iff {people : Set User} {u : User} :
    Lightest db people u ↔ u ∈ people ∧ ∀ v ∈ people, routingKey db u ≤ routingKey db v := by
  simp [Lightest, routingKey, Prod.Lex.toLex_le_toLex]

theorem leastLoaded_eq_some {users : List User} (hids : (users.map (·.id)).Nodup) {u : User} :
    leastLoaded db users = some u ↔ Lightest db {v | v ∈ users} u := by
  rw [leastLoaded_eq_argmin, lightest_iff, ← Option.mem_def, List.mem_argmin_iff]
  constructor
  · rintro ⟨hmem, hleast, -⟩
    exact ⟨hmem, hleast⟩
  · rintro ⟨hmem, hleast⟩
    refine ⟨hmem, hleast, fun v hv hle => ?_⟩
    have hkey := congrArg (fun k => (ofLex k).2) (le_antisymm hle (hleast v hv))
    rw [Tables.eq_of_key hids hv hmem hkey]

theorem leastLoaded_eq_none {users : List User} : leastLoaded db users = none ↔ users = [] := by
  rw [leastLoaded_eq_argmin, List.argmin_eq_none]

/-! ## The count as one query -/

/-- The handlers of the open requests, of those asked about. -/
def openAssignees (db : Db) (userIds : List Nat) : List Nat :=
  (db.requests.filter fun r =>
    r.assignedTo.any userIds.contains && RequestStatus.opens.contains r.status).filterMap (·.assignedTo)

/-- `_open_load`: a row for each of them. Whoever has no open request has no
row. -/
def openLoadRows (db : Db) (userIds : List Nat) : List (Nat × Nat) :=
  (openAssignees db userIds).dedup.map fun id => (id, (openAssignees db userIds).count id)

/-- `min(candidates, key=lambda c: (load.get(c.id, 0), c.id))`. -/
def lightestBy (rows : List (Nat × Nat)) (candidates : List User) : Option User :=
  candidates.argmin fun c => (toLex ((rows.lookup c.id).getD 0, c.id) : ℕ ×ₗ ℕ)

theorem count_openAssignees {userIds : List Nat} {userId : Nat} (h : userId ∈ userIds) :
    (openAssignees db userIds).count userId = openLoad db userId := by
  unfold openAssignees openLoad
  rw [← List.countP_eq_length_filter, List.count, List.countP_filterMap, List.countP_filter]
  apply List.countP_congr
  intro r _
  cases hassigned : r.assignedTo with
  | none => simp
  | some id =>
    by_cases hid : id = userId
    · subst hid
      simp [h]
    · simp [hid]

/-- In whatever order the rows of the count come back. -/
theorem lookup_openLoadRows {userIds : List Nat} {rows : List (Nat × Nat)}
    (hrows : rows.Perm (openLoadRows db userIds)) {userId : Nat} (h : userId ∈ userIds) :
    (rows.lookup userId).getD 0 = openLoad db userId := by
  rw [← count_openAssignees h]
  have hmem : ∀ n, (userId, n) ∈ rows → n = (openAssignees db userIds).count userId := by
    intro n hn
    obtain ⟨id, -, heq⟩ := List.mem_map.mp (hrows.mem_iff.mp hn)
    cases heq
    rfl
  cases hlookup : rows.lookup userId with
  | some n =>
    obtain ⟨before, after, heq, -⟩ := List.lookup_eq_some_iff.mp hlookup
    exact hmem n (by simp [heq])
  | none =>
    rw [Option.getD_none, eq_comm, List.count_eq_zero]
    intro hin
    have hrow : (userId, (openAssignees db userIds).count userId) ∈ rows :=
      hrows.mem_iff.mpr (List.mem_map_of_mem (List.mem_dedup.mpr hin))
    simpa using List.lookup_eq_none_iff.mp hlookup _ hrow

/-- `_least_loaded` picks the same, a lone candidate included. -/
theorem lightestBy_eq {candidates : List User} {rows : List (Nat × Nat)}
    (hrows : rows.Perm (openLoadRows db (candidates.map (·.id)))) :
    lightestBy rows candidates = leastLoaded db candidates := by
  have hkey : ∀ u ∈ candidates,
      (toLex ((rows.lookup u.id).getD 0, u.id) : ℕ ×ₗ ℕ) = routingKey db u := by
    intro u hu
    rw [lookup_openLoadRows hrows (List.mem_map_of_mem hu), routingKey]
  rw [leastLoaded_eq_argmin, lightestBy]
  apply Option.ext
  intro u
  rw [List.argmin_eq_some_iff, List.argmin_eq_some_iff]
  apply and_congr_right
  intro hu
  rw [hkey u hu]
  apply and_congr
  · exact forall₂_congr fun v hv => by rw [hkey v hv]
  · exact forall₂_congr fun v hv => by rw [hkey v hv]

/-! ## The cascade -/

/-- The lightest of the first pool with anybody in it. -/
def PickedFrom (db : Db) : List (Set User) → User → Prop
  | [], _ => False
  | pool :: rest, u => Lightest db pool u ∨ pool = ∅ ∧ PickedFrom db rest u

/-- An empty pool is passed over, and no pool after one that is not. -/
@[simp] theorem pickedFrom_empty {rest : List (Set User)} {u : User} :
    PickedFrom db (∅ :: rest) u ↔ PickedFrom db rest u := by
  simp [PickedFrom, Lightest]

theorem pickedFrom_nonempty {pool : Set User} (h : pool.Nonempty) {rest : List (Set User)}
    {u : User} : PickedFrom db (pool :: rest) u ↔ Lightest db pool u := by
  simp [PickedFrom, h.ne_empty]

/-- What the code looks through, a list of candidates at a time. -/
def firstLightest (db : Db) (candidates : List (List User)) : Option User :=
  candidates.findSome? (leastLoaded db)

/-- Nobody is on an empty list. -/
theorem nobody_iff {users : List User} : {v | v ∈ users} = (∅ : Set User) ↔ users = [] := by
  rw [Set.eq_empty_iff_forall_notMem]
  exact List.eq_nil_iff_forall_not_mem.symm

theorem firstLightest_eq_some {candidates : List (List User)}
    (hids : ∀ users ∈ candidates, (users.map (·.id)).Nodup) {u : User} :
    firstLightest db candidates = some u ↔
      PickedFrom db (candidates.map fun users => {v | v ∈ users}) u := by
  induction candidates with
  | nil => simp [firstLightest, PickedFrom]
  | cons users rest ih =>
    have hrest := ih fun users hmem => hids users (List.mem_cons_of_mem _ hmem)
    have hlist := @leastLoaded_eq_some db users (hids users List.mem_cons_self) u
    unfold firstLightest at hrest ⊢
    rw [List.map_cons, PickedFrom, List.findSome?_cons, ← hlist]
    cases hleast : leastLoaded db users with
    | none => simp [nobody_iff.mpr (leastLoaded_eq_none.mp hleast), hrest]
    | some v =>
      have hsome : ¬ {v : User | v ∈ users} = ∅ := by
        rw [nobody_iff, ← @leastLoaded_eq_none db, hleast]
        exact Option.some_ne_none v
      simp [hsome]

theorem firstLightest_eq_none {candidates : List (List User)} :
    firstLightest db candidates = none ↔ ∀ users ∈ candidates, users = [] := by
  simp [firstLightest, List.findSome?_eq_none_iff, leastLoaded_eq_none]

/-! ## The pools -/

/-- Active users who are staff or registrators. -/
def Handlers (db : Db) : Set User :=
  {u | u ∈ db.users ∧ u.isActive = true ∧ (u.role = .staff ∨ u.role = .registrator)}

/-- The employee chosen on the service, if they can take requests. -/
def chosenOn (db : Db) (service : RequestCategory) : Set User :=
  {u | u ∈ Handlers db ∧ service.assigneeId = some u.id}

/-- The managers for general issues. -/
def generalManagers (db : Db) : Set User :=
  {u | u ∈ Handlers db ∧ ∃ p, u.employeeProfile = some p ∧ p.isGeneralManager = true}

/-- The active users of the role that are bound to the faculty. -/
def boundTo (db : Db) (facultyId : Nat) (role : Role) : Set User :=
  {u | u ∈ db.users ∧ u.isActive = true ∧ u.role = role ∧
    ∃ p, u.employeeProfile = some p ∧ p.facultyId = some facultyId}

/-- Those who work in the department, if there is one. -/
def inDepartment (departmentId : Option Nat) : Set User :=
  {u | departmentId.isSome = true ∧ ∃ p, u.employeeProfile = some p ∧ p.departmentId = departmentId}

/-- Whom the documentation says a request goes to. -/
def Documented (db : Db) (student : User) (service : RequestCategory) (u : User) : Prop :=
  if service.routing = .generalManager then
    PickedFrom db [chosenOn db service, generalManagers db] u
  else ∃ facultyId, student.facultyId = some facultyId ∧
    PickedFrom db
      [boundTo db facultyId .staff ∩ inDepartment student.departmentId,
        boundTo db facultyId .staff, boundTo db facultyId .registrator] u

/-- Where the documentation says it is refused. -/
def Unroutable (db : Db) (student : User) (service : RequestCategory) : Prop :=
  if service.routing = .generalManager then chosenOn db service = ∅ ∧ generalManagers db = ∅
  else ∀ facultyId, student.facultyId = some facultyId →
    boundTo db facultyId .staff ∩ inDepartment student.departmentId = ∅ ∧
      boundTo db facultyId .staff = ∅ ∧ boundTo db facultyId .registrator = ∅

/-! ## The queries -/

/-- The rows `find_service_assignee` may return. -/
def chosenRows (db : Db) (service : RequestCategory) : List User :=
  db.users.filter fun u =>
    service.assigneeId == some u.id && u.isActive && u.hasRole [.staff, .registrator]

/-- The rows of `find_general_manager`. -/
def managerRows (db : Db) : List User :=
  orderById <| db.users.filter fun u =>
    u.hasRole [.staff, .registrator] && u.isActive && u.employeeProfile.any (·.isGeneralManager)

/-- Those of the student's own department. -/
def sameDepartment (departmentId : Option Nat) (staff : List User) : List User :=
  staff.filter fun u =>
    departmentId.isSome && u.employeeProfile.any (·.departmentId == departmentId)

theorem orderById_perm (users : List User) : (orderById users).Perm users :=
  List.mergeSort_perm users _

theorem mem_chosenRows {service : RequestCategory} :
    {v | v ∈ chosenRows db service} = chosenOn db service := by
  ext u
  simp [chosenRows, chosenOn, Handlers, User.hasRole, and_assoc, and_comm, and_left_comm]

theorem mem_managerRows : {v | v ∈ managerRows db} = generalManagers db := by
  ext u
  simp only [managerRows, (orderById_perm _).mem_iff]
  simp [generalManagers, Handlers, User.hasRole, Option.any_eq_true, and_assoc, and_left_comm]

theorem mem_boundEmployees {role : Role} {facultyId : Nat} :
    {v | v ∈ boundEmployees db role facultyId} = boundTo db facultyId role := by
  ext u
  simp only [boundEmployees, (orderById_perm _).mem_iff]
  simp [boundTo, Option.any_eq_true, and_assoc, and_left_comm]

theorem mem_sameDepartment {departmentId : Option Nat} {staff : List User} :
    {v | v ∈ sameDepartment departmentId staff} = {v | v ∈ staff} ∩ inDepartment departmentId := by
  ext u
  simp [sameDepartment, inDepartment, Option.any_eq_true]

/-- `find_staff_for` tries the department's employees first, then the faculty's. -/
theorem findStaffFor_eq (facultyId : Nat) (departmentId : Option Nat) :
    findStaffFor db facultyId departmentId =
      firstLightest db [sameDepartment departmentId (boundEmployees db .staff facultyId),
        boundEmployees db .staff facultyId] := by
  show (if (sameDepartment departmentId (boundEmployees db .staff facultyId)).isEmpty then _
    else leastLoaded db (sameDepartment departmentId _)) = _
  rw [firstLightest, List.findSome?_cons]
  cases hsame : leastLoaded db (sameDepartment departmentId (boundEmployees db .staff facultyId)) with
  | none => simp [leastLoaded_eq_none.mp hsame]
  | some u =>
    rw [if_neg]
    rw [List.isEmpty_iff, ← @leastLoaded_eq_none db, hsame]
    exact Option.some_ne_none u

section Distinct

variable (hids : (db.users.map (·.id)).Nodup)

include hids

theorem nodup_filter (p : User → Bool) : ((db.users.filter p).map (·.id)).Nodup :=
  hids.sublist (List.filter_sublist.map _)

theorem nodup_orderById (p : User → Bool) : ((orderById (db.users.filter p)).map (·.id)).Nodup := by
  rw [((orderById_perm _).map _).nodup_iff]
  exact nodup_filter hids p

/-- `find_service_assignee`, seen as a choice among the rows it may return. -/
theorem findServiceAssignee_eq (service : RequestCategory) :
    service.assigneeId.bind (findServiceAssignee db) = leastLoaded db (chosenRows db service) := by
  have hone : (chosenRows db service).length ≤ 1 := by
    cases hassignee : service.assigneeId with
    | none => simp [chosenRows, hassignee]
    | some id =>
      apply Tables.length_lookup_le hids (k := id)
      intro u _ hu
      simp only [hassignee, Bool.and_eq_true, beq_iff_eq, Option.some.injEq] at hu
      exact hu.1.1.symm
  have hhead : leastLoaded db (chosenRows db service) = (chosenRows db service).head? := by
    cases hrows : chosenRows db service with
    | nil => rfl
    | cons u rest =>
      rw [hrows] at hone
      rw [List.eq_nil_of_length_eq_zero (Nat.le_zero.mp (Nat.le_of_succ_le_succ hone))]
      rfl
  rw [hhead, chosenRows, List.head?_filter]
  cases service.assigneeId with
  | none => exact (List.find?_eq_none.mpr (by simp)).symm
  | some id =>
    rw [Option.bind_some, findServiceAssignee]
    congr 1
    funext u
    simp [BEq.comm]

/-- `resolve_handler` as a search through lists of candidates. -/
theorem resolveHandler_eq (student : User) (service : RequestCategory) :
    resolveHandler db student service =
      if service.routing = .generalManager then
        match firstLightest db [chosenRows db service, managerRows db] with
        | some handler => .ok handler
        | none => .error noGeneralManager
      else
        match student.facultyId with
        | none => .error studentHasNoFaculty
        | some facultyId =>
          match firstLightest db
            [sameDepartment student.departmentId (boundEmployees db .staff facultyId),
              boundEmployees db .staff facultyId, boundEmployees db .registrator facultyId] with
          | some handler => .ok handler
          | none =>
            .error (noHandlerForFaculty ((db.faculties.find? (·.id == facultyId)).map (·.name))) := by
  unfold resolveHandler
  split
  · rw [findServiceAssignee_eq hids, firstLightest, List.findSome?_cons]
    cases leastLoaded db (chosenRows db service) with
    | some u => rfl
    | none =>
      show (match leastLoaded db (managerRows db) with | some _ => _ | none => _) = _
      rw [List.findSome?_cons]
      cases leastLoaded db (managerRows db) with
      | some u => rfl
      | none => rfl
  · unfold resolveHandlerForStudent findRegistratorForFaculty
    cases student.facultyId with
    | none => rfl
    | some facultyId =>
      dsimp only
      rw [findStaffFor_eq, firstLightest, firstLightest]
      simp only [List.findSome?_cons, List.findSome?_nil]
      cases leastLoaded db
        (sameDepartment student.departmentId (boundEmployees db .staff facultyId)) with
      | some u => rfl
      | none =>
        cases leastLoaded db (boundEmployees db .staff facultyId) with
        | some u => rfl
        | none =>
          cases leastLoaded db (boundEmployees db .registrator facultyId) with
          | some u => rfl
          | none => rfl

/-- The candidates have distinct ids, list by list. -/
theorem nodup_general (service : RequestCategory) :
    ∀ users ∈ [chosenRows db service, managerRows db], (users.map (·.id)).Nodup := by
  simp only [List.forall_mem_cons, List.not_mem_nil, false_imp_iff, implies_true, and_true]
  exact ⟨nodup_filter hids _, nodup_orderById hids _⟩

theorem nodup_faculty (departmentId : Option Nat) (facultyId : Nat) :
    ∀ users ∈ [sameDepartment departmentId (boundEmployees db .staff facultyId),
      boundEmployees db .staff facultyId, boundEmployees db .registrator facultyId],
      (users.map (·.id)).Nodup := by
  simp only [List.forall_mem_cons, List.not_mem_nil, false_imp_iff, implies_true, and_true]
  exact ⟨(nodup_orderById hids _).sublist (List.filter_sublist.map _), nodup_orderById hids _,
    nodup_orderById hids _⟩

theorem resolveHandler_eq_ok (student : User) (service : RequestCategory) (u : User) :
    resolveHandler db student service = .ok u ↔ Documented db student service u := by
  rw [resolveHandler_eq hids]
  unfold Documented
  split
  · have hpick := @firstLightest_eq_some db _ (nodup_general hids service) u
    simp only [List.map_cons, List.map_nil, mem_chosenRows, mem_managerRows] at hpick
    rw [← hpick]
    cases firstLightest db [chosenRows db service, managerRows db] with
    | none => simp
    | some v => simp
  · cases student.facultyId with
    | none => simp
    | some facultyId =>
      have hpick := @firstLightest_eq_some db _
        (nodup_faculty hids student.departmentId facultyId) u
      simp only [List.map_cons, List.map_nil, mem_sameDepartment, mem_boundEmployees] at hpick
      simp only [Option.some.injEq, exists_eq_left', ← hpick]
      cases firstLightest db _ with
      | none => simp
      | some v => simp

theorem resolveHandler_error_iff (student : User) (service : RequestCategory) :
    (∃ e, resolveHandler db student service = .error e) ↔ Unroutable db student service := by
  rw [resolveHandler_eq hids]
  unfold Unroutable
  split
  · have hnone := @firstLightest_eq_none db [chosenRows db service, managerRows db]
    simp only [List.forall_mem_cons, List.not_mem_nil, false_imp_iff, implies_true, and_true,
      ← nobody_iff, mem_chosenRows, mem_managerRows] at hnone
    rw [← hnone]
    cases firstLightest db [chosenRows db service, managerRows db] with
    | none => simp
    | some v => simp
  · cases student.facultyId with
    | none => simp
    | some facultyId =>
      have hnone := @firstLightest_eq_none db
        [sameDepartment student.departmentId (boundEmployees db .staff facultyId),
          boundEmployees db .staff facultyId, boundEmployees db .registrator facultyId]
      simp only [List.forall_mem_cons, List.not_mem_nil, false_imp_iff, implies_true, and_true,
        ← nobody_iff, mem_sameDepartment, mem_boundEmployees] at hnone
      simp only [Option.some.injEq, forall_eq', ← hnone]
      cases firstLightest db _ with
      | none => simp
      | some v => simp

end Distinct

/-! ## The order of the rows -/

section Order

variable (husers : db'.users.Perm db.users) (hrequests : db'.requests.Perm db.requests)

include hrequests in
theorem openLoad_perm (userId : Nat) : openLoad db' userId = openLoad db userId :=
  (hrequests.filter _).length_eq

include husers in
theorem mem_users_perm {u : User} : u ∈ db'.users ↔ u ∈ db.users := husers.mem_iff

include hrequests in
theorem pickedFrom_perm {pools : List (Set User)} {u : User} :
    PickedFrom db' pools u ↔ PickedFrom db pools u := by
  induction pools with
  | nil => exact Iff.rfl
  | cons pool rest ih => simp only [PickedFrom, Lightest, openLoad_perm hrequests, ih]

include husers hrequests in
theorem documented_perm {student : User} {service : RequestCategory} {u : User} :
    Documented db' student service u ↔ Documented db student service u := by
  simp only [Documented, pickedFrom_perm hrequests, chosenOn, generalManagers, boundTo, Handlers,
    mem_users_perm husers]

end Order

/-- For every database, student and service: the code picks whom the
documentation says and refuses exactly where it says so, whatever the order of
the rows. -/
theorem resolve_handler_picks (db : Db) (student : User) (service : RequestCategory)
    (hids : (db.users.map (·.id)).Nodup) :
    (∀ u, resolveHandler db student service = .ok u ↔ Documented db student service u) ∧
      ((∃ e, resolveHandler db student service = .error e) ↔ Unroutable db student service) ∧
      ∀ db' : Db, db'.users.Perm db.users → db'.requests.Perm db.requests →
        ∀ u, resolveHandler db' student service = .ok u ↔
          resolveHandler db student service = .ok u := by
  refine ⟨resolveHandler_eq_ok hids student service, resolveHandler_error_iff hids student service, ?_⟩
  intro db' husers hrequests u
  have hids' : (db'.users.map (·.id)).Nodup := (husers.map _).nodup_iff.mpr hids
  rw [resolveHandler_eq_ok hids', resolveHandler_eq_ok hids, documented_perm husers hrequests]

/-! ### Two colleagues -/

/-- The second of them, who has nothing on the desk. -/
def colleague : User :=
  { id := 3, fullName := "Ikkinchi xodim", role := .staff,
    employeeProfile := some { facultyId := some 1 } }

def filingStudent : User :=
  { id := 1, fullName := "Talaba", role := .student,
    studentProfile := some { facultyId := some 1 } }

/-- One faculty with two members of staff; the first has an open request. -/
def twoColleagues : Db where
  nextId := 10
  users :=
    [filingStudent,
     { id := 2, fullName := "Birinchi xodim", role := .staff,
       employeeProfile := some { facultyId := some 1 } },
     colleague]
  requests :=
    [{ id := 9, trackingNo := "REQ-2025-00001", studentId := 1, categoryId := 5, title := "Savol",
       description := "", status := .inProgress, assignedTo := some 2, slaDeadline := 0,
       createdAt := 0 }]

theorem resolve_handler_picks_colleague :
    resolveHandler twoColleagues filingStudent { id := 5, parentId := some 4, name := "Xizmat" } =
      .ok colleague := by
  refine ((resolve_handler_picks twoColleagues filingStudent
    { id := 5, parentId := some 4, name := "Xizmat" } (by decide)).1 colleague).mpr ?_
  refine ⟨1, rfl, .inr ⟨?_, .inl ⟨⟨by decide, rfl, rfl, _, rfl, rfl⟩, ?_⟩⟩⟩
  · -- the student has no department
    exact Set.eq_empty_of_forall_notMem fun u hu => absurd hu.2.1 (by decide)
  · rintro v ⟨hv, -, hrole, -⟩
    simp only [twoColleagues, List.mem_cons, List.not_mem_nil, or_false] at hv
    rcases hv with rfl | rfl | rfl
    · cases hrole
    · exact .inl (by decide)
    · exact .inr ⟨rfl, Nat.le_refl 3⟩

end Royd
