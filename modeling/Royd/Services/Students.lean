/-
Royd.Services.Students — `sync_student_from_profile` of
`services/auth_service.py`: the student an integration files for is found
by the HEMIS number, or created.

Like every handler it writes through its session, so what it did is a value
of its own (`StudentSync`) until the commit: the rows it inserted and the
identity it found or made. The code a new faculty gets is not kept; nothing
but its own uniqueness depends on it.
-/
import Royd.Models.Db

namespace Royd

/-- The profile `IntegrationRequestCreate.student_profile` builds. -/
structure StudentProfile where
  studentIdNumber : String
  fullName : String
  imagePath : Option String := none
  faculty : String
  group : String
  level : Nat
  deriving DecidableEq, Repr

/-- What the upsert did: rows to insert, and the student's identity as the
session now holds it. -/
structure StudentSync where
  nextId : Nat
  faculty : Option Faculty := none
  group : Option StudentGroup := none
  /-- The row the identity was read from; a new identity has none. -/
  found : Option User
  user : User
  deriving DecidableEq, Repr

/-- `scalar_one_or_none`. -/
def scalarOneOrNone {α : Type} : List α → Except Exc (Option α)
  | [] => .ok none
  | [row] => .ok (some row)
  | _ => .error (.value "Multiple rows were found when one or none was required")

/-- The user row with this HEMIS number. -/
def hasHemisId (hemisId : String) (u : User) : Bool :=
  u.studentProfile.any (·.externalStudentId == some hemisId)

/-- `_upsert_faculty`: the faculty of that name, and whether it is new. -/
def upsertFaculty (db : Db) (id : Nat) (name : String) : Except Exc (Option (Faculty × Bool)) :=
  if name.isEmpty then .ok none
  else do
    match ← scalarOneOrNone (db.faculties.filter (·.name == name)) with
    | some row => .ok (some (row, false))
    | none => .ok (some ({ id, name, isActive := true }, true))

/-- `_upsert_student_group`: the group of that name within the faculty. -/
def upsertStudentGroup (db : Db) (id : Nat) (name : String) (facultyId : Option Nat) :
    Except Exc (Option (StudentGroup × Bool)) :=
  if name.isEmpty then .ok none
  else do
    match ← scalarOneOrNone
        (db.studentGroups.filter fun g => g.name == name && g.facultyId == facultyId) with
    | some row => .ok (some (row, false))
    | none => .ok (some ({ id, name, facultyId, isActive := true }, true))

/-- `text or current`. -/
def orCurrent (text current : String) : String := if text.isEmpty then current else text

/-- `_apply_profile`: identity fields land on `users`, academic ones on
`students`. -/
def applyProfile (u : User) (sp : Student) (profile : StudentProfile) (faculty : Option Faculty)
    (group : Option StudentGroup) : User :=
  { u with
    fullName := orCurrent profile.fullName u.fullName
    studentProfile := some
      { sp with
        externalStudentId := some profile.studentIdNumber
        facultyId := (faculty.map (·.id)).or sp.facultyId
        studentGroupId := (group.map (·.id)).or sp.studentGroupId
        groupName := (group.map (·.name)).or sp.groupName
        imagePath := profile.imagePath.or sp.imagePath
        level := if profile.level = 0 then sp.level else some profile.level } }

/-- The row of an upsert that has to be inserted. -/
def inserted {α : Type} : Option (α × Bool) → Option α
  | some (row, true) => some row
  | _ => none

/-- `sync_student_from_profile`. -/
def syncStudentFromProfile (db : Db) (profile : StudentProfile) : Except Exc StudentSync :=
  if profile.studentIdNumber.isEmpty then .error (.value "Talaba ID ko'rsatilmagan")
  else do
    let found ← scalarOneOrNone (db.users.filter (hasHemisId profile.studentIdNumber))
    -- The ids are drawn from the sequences whether or not they end up used.
    let faculty ← upsertFaculty db db.nextId profile.faculty
    let group ← upsertStudentGroup db (db.nextId + 1) profile.group (faculty.map (·.1.id))
    let user := match found with
      | some user => user
      | none => { id := db.nextId + 2, fullName := profile.fullName, role := .student }
    .ok
      { nextId := db.nextId + 3
        faculty := inserted faculty
        group := inserted group
        found
        user := applyProfile user (user.studentProfile.getD {}) profile
          (faculty.map (·.1)) (group.map (·.1)) }

/-- The columns of an existing identity that the upsert changed are written
to its row and its profile row. -/
def User.write (stored loaded left : User) : User :=
  let sp := stored.studentProfile.getD {}
  let was := loaded.studentProfile.getD {}
  let new := left.studentProfile.getD {}
  { stored with
    fullName := column loaded.fullName left.fullName stored.fullName
    studentProfile := some
      { sp with
        externalStudentId := column was.externalStudentId new.externalStudentId sp.externalStudentId
        facultyId := column was.facultyId new.facultyId sp.facultyId
        studentGroupId := column was.studentGroupId new.studentGroupId sp.studentGroupId
        groupName := column was.groupName new.groupName sp.groupName
        imagePath := column was.imagePath new.imagePath sp.imagePath
        level := column was.level new.level sp.level } }

/-- The rows of an upsert reach their tables. -/
def Db.applySync (db : Db) (sync : StudentSync) : Db :=
  { db with
    nextId := max db.nextId sync.nextId
    faculties := db.faculties ++ sync.faculty.toList
    studentGroups := db.studentGroups ++ sync.group.toList
    users := match sync.found with
      | none => db.users ++ [sync.user]
      | some loaded => db.users.map fun u => if u.id = loaded.id then u.write loaded sync.user else u }

end Royd
