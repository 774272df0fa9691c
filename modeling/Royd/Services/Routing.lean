/-
Royd.Services.Routing — `services/routing_service.py`: the employee a new
request goes to.

The service type a student files under decides the route. A request with
no handler is refused rather than guessed at, so every route either names
an active employee or raises a 409.
-/
import Royd.Models.Db

namespace Royd

/-- `_open_load` for one candidate: how many of its requests are still open. -/
def openLoad (db : Db) (userId : Nat) : Nat :=
  (db.requests.filter fun r => r.assignedTo == some userId && RequestStatus.opens.contains r.status).length

/-- `(load, id)` of `u` is smaller than that of `best`. -/
def lighter (db : Db) (u best : User) : Bool :=
  let lu := openLoad db u.id
  let lb := openLoad db best.id
  lu < lb || (lu == lb && u.id < best.id)

/-- `_least_loaded`: the candidate carrying the fewest open requests, ties
broken on the id. -/
def leastLoaded (db : Db) : List User → Option User
  | [] => none
  | c :: cs => some (cs.foldl (fun best u => if lighter db u best then u else best) c)

/-- `order_by(User.id.asc())`. -/
def orderById (users : List User) : List User := users.mergeSort fun a b => decide (a.id ≤ b.id)

/-- `_bound_employees`: active users of `role` bound to the faculty. -/
def boundEmployees (db : Db) (role : Role) (facultyId : Nat) : List User :=
  orderById <| db.users.filter fun u =>
    u.role == role && u.isActive && u.employeeProfile.any (·.facultyId == some facultyId)

/-- `find_staff_for`: the student's own department is preferred. -/
def findStaffFor (db : Db) (facultyId : Nat) (departmentId : Option Nat) : Option User :=
  let staff := boundEmployees db .staff facultyId
  let sameDepartment := staff.filter fun u =>
    departmentId.isSome && u.employeeProfile.any (·.departmentId == departmentId)
  if sameDepartment.isEmpty then leastLoaded db staff else leastLoaded db sameDepartment

/-- `find_registrator_for_faculty`. -/
def findRegistratorForFaculty (db : Db) (facultyId : Nat) : Option User :=
  leastLoaded db (boundEmployees db .registrator facultyId)

/-- `find_general_manager`: the flagged manager with the lightest load. -/
def findGeneralManager (db : Db) : Option User :=
  leastLoaded db <| orderById <| db.users.filter fun u =>
    u.hasRole [.staff, .registrator] && u.isActive && u.employeeProfile.any (·.isGeneralManager)

/-- `find_service_assignee`: the employee chosen on a service, if they can
still take requests. -/
def findServiceAssignee (db : Db) (assigneeId : Nat) : Option User :=
  db.users.find? fun u => u.id == assigneeId && u.isActive && u.hasRole [.staff, .registrator]

/-- `NoHandlerForFaculty`. -/
def noHandlerForFaculty (facultyName : Option String) : Exc :=
  let office := match facultyName with
    | some name => if name.isEmpty then "Sizning fakultetingizga" else "'" ++ name ++ "' fakultetiga"
    | none => "Sizning fakultetingizga"
  .http 409
    (office ++ " Registrator ofis xodimi biriktirilmagan. Iltimos, administratorga murojaat qiling.")

/-- `NoGeneralManager`. -/
def noGeneralManager : Exc :=
  .http 409
    "Umumiy masalalar bo'yicha menejer biriktirilmagan. Iltimos, administratorga murojaat qiling."

/-- `StudentHasNoFaculty`. -/
def studentHasNoFaculty : Exc :=
  .http 409
    ("Profilingizda fakultet ko'rsatilmagan, shuning uchun murojaatni yo'naltirib bo'lmadi. "
      ++ "Iltimos, administratorga murojaat qiling.")

/-- `resolve_handler_for_student`. -/
def resolveHandlerForStudent (db : Db) (student : User) : Except Exc User :=
  match student.facultyId with
  | none => .error studentHasNoFaculty
  | some facultyId =>
    match findStaffFor db facultyId student.departmentId with
    | some handler => .ok handler
    | none =>
      match findRegistratorForFaculty db facultyId with
      | some handler => .ok handler
      | none =>
        .error (noHandlerForFaculty ((db.faculties.find? (·.id == facultyId)).map (·.name)))

/-- `resolve_handler`: the employee a request filed under `service` goes to.
Not for `auto_reply` services, which have no handler at all. -/
def resolveHandler (db : Db) (student : User) (service : RequestCategory) : Except Exc User :=
  if service.routing = .generalManager then
    match service.assigneeId.bind (findServiceAssignee db) with
    | some handler => .ok handler
    | none =>
      match findGeneralManager db with
      | some handler => .ok handler
      | none => .error noGeneralManager
  else resolveHandlerForStudent db student

end Royd
