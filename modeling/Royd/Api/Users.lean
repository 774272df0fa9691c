/-
Royd.Api.Users — `create_user`, `update_user` and `delete_user` of
`api/v1/users.py`, each served in one piece.

What an update makes of a row is `UserUpdate.apply`. `hash` is what
`hash_password` returned for the password of the call.
-/
import Royd.Api.Requests
import Royd.Auth.Endpoints

namespace Royd.Api

open Auth (UserUpdate roleNamed updateUsers emailTaken)

variable (db : Db)

/-! ## The checks -/

/-- `UserCreate`. -/
structure UserCreate where
  fullName : String
  email : String
  password : String
  roleName : String
  facultyId : Option Nat := none
  departmentId : Option Nat := none
  isGeneralManager : Bool := false
  deriving DecidableEq, Repr

/-- The role of that name. -/
def roleOf (name : String) : Except Exc Role :=
  match roleNamed name with
  | some role => .ok role
  | none => .error (.http 400 ("Noma'lum rol: " ++ name))

/-- `_assert_can_manage_general`, if the flag is to be set. -/
def assertCanManageGeneral (flag : Bool) (role : Role) : Except Exc Unit :=
  if flag = true ∧ role ∉ [Role.staff, Role.registrator] then
    .error (.http 400
      "Umumiy masalalar bo'yicha menejer faqat xodim yoki registrator bo'lishi mumkin")
  else .ok ()

/-- `_assert_admin_remains`, on the flushed rows. -/
def assertAdminRemains (users : List User) : Except Exc Unit :=
  if ¬ users.any fun u => u.role == .admin && u.isActive then
    .error (.http 400 "Tizimda kamida bitta faol administrator qolishi kerak")
  else .ok ()

/-- The row an endpoint works on. -/
def userOf (userId : Nat) : Except Exc User :=
  match db.getUser userId with
  | some user => .ok user
  | none => .error (.http 404 "Foydalanuvchi topilmadi")

/-- `users_email_key`. -/
def emailConflict : Exc := .http 409 "Bu email allaqachon ro'yxatdan o'tgan"

/-- The foreign keys of an employee profile. -/
def checkReferences (facultyId departmentId : Option Nat) : Except Exc Unit :=
  if (facultyId.all fun id => db.faculties.any (·.id == id))
      ∧ (departmentId.all fun id => db.departments.any (·.id == id)) then .ok ()
  else .error (.http 409 "Bog'liq yozuv topilmadi yoki o'chirib bo'lmaydi")

/-! ## Audit entries -/

/-- `roles.name`, as it is written out. -/
def roleText : Role → String
  | .student => "student"
  | .registrator => "registrator"
  | .staff => "staff"
  | .admin => "admin"
  | .leadership => "leadership"

/-- The text of a role is the text that names it. -/
theorem roleNamed_eq_some {name : String} {role : Role} :
    roleNamed name = some role ↔ name = roleText role := by
  constructor
  · intro h
    unfold roleNamed at h
    split at h <;> cases h <;> rfl
  · rintro rfl
    cases role <;> rfl

/-- The columns an update records before and after. -/
def auditColumns (u : User) : List (String × AuditValue) :=
  [("full_name", .text u.fullName),
    ("email", (u.email.map AuditValue.text).getD .null),
    ("role", .text (roleText u.role)),
    ("is_active", .flag u.isActive),
    ("faculty_id", (u.facultyId.map AuditValue.num).getD .null),
    ("is_general_manager", .flag (u.employeeProfile.any (·.isGeneralManager))),
    ("totp_enabled", .flag u.totpEnabled)]

/-! ## The endpoints -/

/-- The row `create_user` adds, with its profile. -/
def newUser (id : Nat) (data : UserCreate) (role : Role) (hash : String) : User :=
  let user : User :=
    { id, fullName := data.fullName, email := some data.email, passwordHash := some hash, role }
  let employee : Employee :=
    { facultyId := data.facultyId
      departmentId := data.departmentId
      isGeneralManager := data.isGeneralManager }
  if role = .student then { user with studentProfile := some {} }
  else { user with employeeProfile := some employee }

/-- `create_user`. -/
def createUser (actorId : Nat) (data : UserCreate) (hash : String) : Except Exc Db := do
  let actor ← requireRoles db actorId [.admin]
  let role ← roleOf data.roleName
  assertCanManageGeneral data.isGeneralManager role
  let existing ← scalarOneOrNone (db.users.filter (·.email == some data.email))
  if existing.isSome then .error emailConflict
  else do
    let user := newUser db.nextId data role hash
    checkReferences db (user.employeeProfile.bind (·.facultyId))
      (user.employeeProfile.bind (·.departmentId))
    let s := logAction (.empty (db.nextId + 1) db.nextMessageId) (some actor.id) "user.create" "user" user.id []
      [("email", .text data.email), ("role", .text (roleText role)),
        ("is_general_manager", .flag (user.employeeProfile.any (·.isGeneralManager)))]
    .ok ({ db with users := db.users ++ [user] }.commit s)

/-- The role an update leaves. -/
def roleAfter (user : User) (data : UserUpdate) : Except Exc Role :=
  match data.roleName with
  | none => .ok user.role
  | some name => roleOf name

/-- Nobody takes the administrator away from themselves. -/
def checkSelf (actor user : User) (data : UserUpdate) : Except Exc Unit :=
  if user.id = actor.id ∧ data.isActive = some false then
    .error (.http 400 "O'zingizni deaktiv qila olmaysiz")
  else if user.id = actor.id ∧ data.roleName.any (· != "admin") then
    .error (.http 400 "O'z rolingizni o'zgartira olmaysiz")
  else .ok ()

/-- The row `update_user` leaves. -/
def updatedUser (user : User) (data : UserUpdate) (role : Role) (hash : String) : User :=
  { data.apply user (data.password.map fun _ => hash) with role }

/-- The unique email, when the changed row is flushed. -/
def checkEmail (user left : User) : Except Exc Unit :=
  if emailTaken db.users user left then .error emailConflict else .ok ()

/-- `update_user`. -/
def updateUser (actorId userId : Nat) (data : UserUpdate) (hash : String) : Except Exc Db := do
  let actor ← requireRoles db actorId [.admin]
  let user ← userOf db userId
  let role ← roleAfter user data
  assertCanManageGeneral (data.isGeneralManager.getD false) role
  checkSelf actor user data
  let left := updatedUser user data role hash
  checkEmail db user left
  checkReferences db data.facultyId.join data.departmentId.join
  let users := updateUsers db.users user left
  assertAdminRemains users
  let s := logAction db.begin (some actor.id) "user.update" "user" user.id (auditColumns user)
    (auditColumns left)
  .ok ({ db with users }.commit s)

/-- Nobody deactivates themselves. -/
def checkOther (actor : User) (userId : Nat) : Except Exc Unit :=
  if userId = actor.id then .error (.http 400 "O'zingizni o'chira olmaysiz") else .ok ()

/-- `delete_user`. -/
def deleteUser (actorId userId : Nat) : Except Exc Db := do
  let actor ← requireRoles db actorId [.admin]
  checkOther actor userId
  let user ← userOf db userId
  let users := updateUsers db.users user { user with isActive := false }
  assertAdminRemains users
  let s := logAction db.begin (some actor.id) "user.deactivate" "user" user.id [] []
  .ok ({ db with users }.commit s)

/-! ## Edits of the directory -/

/-- What writes users: the three endpoints, and the upsert of a student by
the integration. -/
inductive UserEdit where
  | create (actorId : Nat) (data : UserCreate) (hash : String)
  | update (actorId userId : Nat) (data : UserUpdate) (hash : String)
  | delete (actorId userId : Nat)
  | sync (profile : StudentProfile)
  deriving DecidableEq, Repr

/-- What an edit commits, if it commits. -/
def UserEdit.apply : UserEdit → Except Exc Db
  | .create actorId data hash => createUser db actorId data hash
  | .update actorId userId data hash => updateUser db actorId userId data hash
  | .delete actorId userId => deleteUser db actorId userId
  | .sync profile => do
    let sync ← syncStudentFromProfile db profile
    .ok (db.applySync sync)

/-- The edit is carried out. -/
def UserEdit.Accepted (db : Db) (e : UserEdit) : Prop := ∃ db', e.apply db = .ok db'

instance (e : UserEdit) : Decidable (e.Accepted db) :=
  decidable_of_iff ((e.apply db).toOption.isSome = true) <| by
    unfold UserEdit.Accepted
    cases e.apply db with
    | ok db' => simp [Except.toOption]
    | error exc => simp [Except.toOption]

/-- The database after an edit. -/
def edit (e : UserEdit) : Db :=
  match e.apply db with
  | .ok db' => db'
  | .error _ => db

end Royd.Api
