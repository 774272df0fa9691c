/-
Royd.Models.People — `models/role.py`, `models/user.py`,
`models/profile.py` and `models/faculty.py`.

`users` is the identity table; what it is to be a student or an employee
lives in two profile tables, of which an identity owns one. The profile
rows are kept as fields of the identity, as the ORM loads them.
-/

namespace Royd

/-- `roles.name`. The table is seeded with exactly these rows. -/
inductive Role where
  | student
  | registrator
  | staff
  | admin
  | leadership
  deriving DecidableEq, Repr

namespace Role

/-- Roles that may triage: assign, reassign, return to the student. -/
def canTriage : List Role := [.registrator, .admin]

/-- Roles that may move a request through the workflow. -/
def canTransition : List Role := [.staff, .registrator, .admin]

/-- Roles that may read staff-only notes and internal history. -/
def seesInternal : List Role := [.staff, .registrator, .admin, .leadership]

/-- Read-only oversight: reaches every request, mutates nothing. -/
def readOnly : List Role := [.leadership]

end Role

/-- Academic profile, supplied by the partner platform. -/
structure Student where
  externalStudentId : Option String := none
  facultyId : Option Nat := none
  studentGroupId : Option Nat := none
  departmentId : Option Nat := none
  imagePath : Option String := none
  groupName : Option String := none
  level : Option Nat := none
  deriving DecidableEq, Repr

/-- Staff profile: who works where, and which faculty they serve. -/
structure Employee where
  facultyId : Option Nat := none
  departmentId : Option Nat := none
  isGeneralManager : Bool := false
  deriving DecidableEq, Repr

/-- `users`: credentials, role and the active flag, with the profile the
identity owns. -/
structure User where
  id : Nat
  fullName : String
  email : Option String := none
  passwordHash : Option String := none
  role : Role
  isActive : Bool := true
  totpSecret : Option String := none
  totpEnabled : Bool := false
  studentProfile : Option Student := none
  employeeProfile : Option Employee := none
  deriving DecidableEq, Repr

namespace User

/-- `has_role`. -/
def hasRole (u : User) (names : List Role) : Bool := names.contains u.role

/-- Faculty of whichever profile exists, the student one first. -/
def facultyId (u : User) : Option Nat :=
  match u.studentProfile, u.employeeProfile with
  | some p, _ => p.facultyId
  | none, some p => p.facultyId
  | none, none => none

/-- Department of whichever profile exists, the student one first. -/
def departmentId (u : User) : Option Nat :=
  match u.studentProfile, u.employeeProfile with
  | some p, _ => p.departmentId
  | none, some p => p.departmentId
  | none, none => none

end User

/-- `faculties`. -/
structure Faculty where
  id : Nat
  name : String
  isActive : Bool := true
  deriving DecidableEq, Repr

/-- `departments`. -/
structure Department where
  id : Nat
  facultyId : Nat
  headUserId : Option Nat := none
  deriving DecidableEq, Repr

/-- `student_groups`. -/
structure StudentGroup where
  id : Nat
  facultyId : Option Nat
  name : String
  isActive : Bool := true
  deriving DecidableEq, Repr

end Royd
