/-
Royd.Directory.Profiles — which profile a user has, and who carries the flag
of the manager for general issues.

The model of `users` says that exactly one of the two profiles is set, decided
by the role. `update_user` can break this in two ways, and only in these: it
takes a user from the students to the employees or back without touching the
profiles, or it gives a student a faculty or a department, which makes an
employee profile (`one_profile_iff`).

The flag is checked when it is set. A role that cannot carry it is taken
without looking at the flag, so the flag has to be cleared in the same call
(`general_manager_iff`).
-/
import Royd.Directory.Edits

namespace Royd

open Api Runs
open Auth (UserUpdate)

variable {db : Db}

/-! ## A property of every user -/

/-- What one update must satisfy, if it is carried out. -/
def Api.UserEdit.Meets (db : Db) (K : User → UserUpdate → Prop) : UserEdit → Prop
  | .update actorId userId data hash => (UserEdit.update actorId userId data hash).Accepted db →
      ∀ user ∈ db.getUser userId, K user data
  | _ => True

/-- A property of users that only an update can break: it keeps the property
exactly if it satisfies `K`. -/
structure Breakable (P : User → Prop) (K : User → UserUpdate → Prop) : Prop where
  created : ∀ {id : Nat} {data : UserCreate} {role : Role} {hash : String},
    (data.isGeneralManager = true → role ∈ [Role.staff, Role.registrator]) →
      P (newUser id data role hash)
  updated : ∀ {user : User} {data : UserUpdate} {role : Role} {hash : String},
    P user → roleAfter user data = .ok role →
      (data.isGeneralManager = some true → role ∈ [Role.staff, Role.registrator]) →
      (P (updatedUser user data role hash) ↔ K user data)
  deleted : ∀ {user : User}, P user → P { user with isActive := false }
  joined : ∀ {u : User}, u.role = .student → u.studentProfile.isSome = true →
    u.employeeProfile = none → P u
  synced : ∀ {user left : User}, P user → user.studentProfile.isSome = true →
    left.role = user.role → left.studentProfile.isSome = true →
    left.employeeProfile = user.employeeProfile → P left

/-- One edit keeps such a property exactly if it is no update that breaks it. -/
theorem Breakable.edit_iff {P : User → Prop} {K : User → UserUpdate → Prop} (hP : Breakable P K)
    (hids : db.UserIds) (hall : ∀ u ∈ db.users, P u) (e : UserEdit) :
    (∀ u ∈ (edit db e).users, P u) ↔ e.Meets db K := by
  have hedits := (edit_edits hids e).1
  generalize (edit db e).users = users at hedits
  cases hedits with
  | refused hrefused =>
    refine iff_of_true hall ?_
    cases e with
    | update actorId userId data hash => exact fun haccepted => absurd haccepted hrefused
    | _ => trivial
  | created hnamed hgeneral =>
    refine iff_of_true (fun u hu => ?_) trivial
    rcases List.mem_append.mp hu with hu | hu
    · exact hall u hu
    · rw [List.mem_singleton.mp hu]
      exact hP.created hgeneral
  | updated haccepted hfound hasked hgeneral =>
    have hmem := (getUser_eq_some hfound).1
    rw [forall_replaceUser hmem hall, hP.updated (hall _ hmem) hasked hgeneral]
    constructor
    · intro h _ user' huser'
      cases hfound.symm.trans huser'
      exact h
    · exact fun h => h haccepted _ hfound
  | deleted hfound =>
    have hmem := (getUser_eq_some hfound).1
    exact iff_of_true ((forall_replaceUser hmem hall).mpr (hP.deleted (hall _ hmem))) trivial
  | joined hnew hrole hstudent hemployee =>
    refine iff_of_true (fun v hv => ?_) trivial
    rcases List.mem_append.mp hv with hv | hv
    · exact hall v hv
    · rw [List.mem_singleton.mp hv]
      exact hP.joined hrole hstudent hemployee
  | synced hmem hwas hid hrole hactive hstudent hemployee =>
    have hleft := hP.synced (hall _ hmem) hwas hrole hstudent hemployee
    exact iff_of_true ((forall_replaceUser hmem hall).mpr hleft) trivial

/-! ## One profile -/

/-- The user has the profile its role decides and no other, and what is read
of a profile is read of that one. -/
def User.OneProfile (u : User) : Prop :=
  if u.role = .student then
    ∃ p, u.studentProfile = some p ∧ u.employeeProfile = none ∧
      u.facultyId = p.facultyId ∧ u.departmentId = p.departmentId
  else
    ∃ p, u.employeeProfile = some p ∧ u.studentProfile = none ∧
      u.facultyId = p.facultyId ∧ u.departmentId = p.departmentId

/-- What is read of a profile follows from which profiles there are. -/
theorem oneProfile_iff {u : User} : u.OneProfile ↔
    u.studentProfile.isSome = decide (u.role = .student) ∧
      u.employeeProfile.isSome = decide (u.role ≠ .student) := by
  unfold User.OneProfile User.facultyId User.departmentId
  by_cases hrole : u.role = .student
  · cases hs : u.studentProfile with
    | none => simp [hrole]
    | some p => cases he : u.employeeProfile with
      | none => simp [hrole]
      | some p' => simp [hrole]
  · cases hs : u.studentProfile with
    | none => cases he : u.employeeProfile with
      | none => simp [hrole]
      | some p' => simp [hrole]
    | some p => simp [hrole]

instance (u : User) : Decidable u.OneProfile := decidable_of_iff' _ oneProfile_iff

/-- Everybody has one profile. -/
def OneProfileEach (db : Db) : Prop := ∀ u ∈ db.users, u.OneProfile

instance (db : Db) : Decidable (OneProfileEach db) :=
  inferInstanceAs (Decidable (∀ u ∈ db.users, u.OneProfile))

/-- An update that is carried out leaves a student a student and anybody else
something else, and sends a student neither faculty nor department. -/
def KeepsKind (db : Db) : UserEdit → Prop
  | .update actorId userId data hash => (UserEdit.update actorId userId data hash).Accepted db →
      ∀ user ∈ db.getUser userId,
        (∀ name ∈ data.roleName, name = "student" ↔ user.role = .student) ∧
          (user.role = .student → data.facultyId = none ∧ data.departmentId = none)
  | _ => True

instance (db : Db) (e : UserEdit) : Decidable (KeepsKind db e) :=
  match e with
  | .update actorId userId data hash =>
    inferInstanceAs (Decidable ((UserEdit.update actorId userId data hash).Accepted db →
      ∀ user ∈ db.getUser userId,
        (∀ name ∈ data.roleName, name = "student" ↔ user.role = .student) ∧
          (user.role = .student → data.facultyId = none ∧ data.departmentId = none)))
  | .create .. | .delete .. | .sync .. => .isTrue trivial

theorem newUser_oneProfile (id : Nat) (data : UserCreate) (role : Role) (hash : String) :
    (newUser id data role hash).OneProfile := by
  rw [oneProfile_iff]
  unfold newUser
  by_cases hrole : role = .student
  · simp [hrole]
  · simp [hrole]

/-- The role an update leaves is that of the students exactly if it was asked
for, or was the role before and no other was asked for. -/
theorem roleAfter_student {user : User} {data : UserUpdate} {role : Role}
    (h : roleAfter user data = .ok role) :
    (role = .student ↔ user.role = .student) ↔
      ∀ name ∈ data.roleName, name = "student" ↔ user.role = .student := by
  unfold roleAfter at h
  split at h
  · rename_i hnone
    cases h
    simp [hnone]
  · rename_i name hname
    rw [roleOf_eq_ok, roleNamed_eq_some] at h
    have hstudent : role = .student ↔ name = "student" := by
      rw [h]
      cases role <;> decide
    simp [hname, hstudent]

/-- The profiles an update leaves. -/
theorem updatedUser_oneProfile {user : User} {data : UserUpdate} {role : Role} {hash : String}
    (hone : user.OneProfile) (hrole : roleAfter user data = .ok role)
    (hgeneral : data.isGeneralManager = some true → role ∈ [Role.staff, Role.registrator]) :
    (updatedUser user data role hash).OneProfile ↔
      (∀ name ∈ data.roleName, name = "student" ↔ user.role = .student) ∧
        (user.role = .student → data.facultyId = none ∧ data.departmentId = none) := by
  rw [oneProfile_iff] at hone ⊢
  rw [← roleAfter_student hrole]
  have hstudentSome : (updatedUser user data role hash).studentProfile = user.studentProfile := rfl
  have hemployee : (updatedUser user data role hash).employeeProfile = data.profile user := rfl
  have hleft : (updatedUser user data role hash).role = role := rfl
  rw [hstudentSome, hemployee, hleft, hone.1]
  by_cases hwas : user.role = .student
  · by_cases his : role = .student
    · -- A student stays one: an employee profile comes with a faculty or a department.
      have hnone : user.employeeProfile = none := by simpa [hwas] using hone.2
      have hflag : data.isGeneralManager ≠ some true := by
        intro hflag
        have hcan := hgeneral hflag
        rw [his] at hcan
        cases hcan with
        | tail _ hcan => cases hcan with
          | tail _ hcan => cases hcan
      have htouches : data.touchesGeneral user = false := by
        unfold UserUpdate.touchesGeneral
        cases hdata : data.isGeneralManager with
        | none => rfl
        | some flag =>
          cases flag with
          | true => exact absurd hdata hflag
          | false => simp [hnone]
      unfold UserUpdate.profile
      cases hf : data.facultyId with
      | none => cases hd : data.departmentId with
        | none => simp [hwas, his, hnone, htouches]
        | some d => simp [hwas, his]
      | some f => simp [hwas, his]
    · simp [hwas, his]
  · by_cases his : role = .student
    · simp [hwas, his]
    · -- Whoever has an employee profile keeps it.
      obtain ⟨p, hp⟩ := Option.isSome_iff_exists.mp (by simpa [hwas] using hone.2)
      have hsome : (data.profile user).isSome = true := by
        unfold UserUpdate.profile
        split
        · rfl
        · rw [hp]
          rfl
      simp [hwas, his, hsome]

theorem breakable_oneProfile : Breakable User.OneProfile fun user data =>
    (∀ name ∈ data.roleName, name = "student" ↔ user.role = .student) ∧
      (user.role = .student → data.facultyId = none ∧ data.departmentId = none) where
  created := fun _ => newUser_oneProfile _ _ _ _
  updated := updatedUser_oneProfile
  deleted := fun h => oneProfile_iff.mpr (oneProfile_iff.mp h)
  joined := by
    intro u hrole hstudent hemployee
    simp [oneProfile_iff, hrole, hstudent, hemployee]
  synced := by
    intro user left h hwas hrole hstudent hemployee
    have huser := oneProfile_iff.mp h
    rw [oneProfile_iff, hrole, hemployee, hstudent]
    exact ⟨hwas.symm.trans huser.1, huser.2⟩

/-- One edit keeps one profile each exactly if it keeps the kind of user. -/
theorem edit_oneProfile_iff (hids : db.UserIds) (hone : OneProfileEach db) (e : UserEdit) :
    OneProfileEach (edit db e) ↔ KeepsKind db e := by
  refine (breakable_oneProfile.edit_iff hids hone e).trans ?_
  cases e with
  | _ => rfl

/-- From every directory in which everybody has one profile, and for every
sequence of edits: everybody has one profile in every state exactly if every
update that is carried out keeps the kind of user. -/
theorem one_profile_iff (db : Db) (hids : db.UserIds) (hone : OneProfileEach db)
    (es : List UserEdit) :
    Always edit OneProfileEach db es ↔ Along edit KeepsKind db es :=
  always_iff_along (I := Db.UserIds) (P := OneProfileEach) (C := KeepsKind)
    (fun _ e h => (edit_edits h e).2) (fun _ e h hone => edit_oneProfile_iff h hone e) hids hone es

/-! ### A small campus -/

/-- An administrator, a student, and a member of staff who is the manager for
general issues. -/
def campus : Db where
  nextId := 10
  users :=
    [{ id := 1, fullName := "Administrator", email := some "admin@royd", role := .admin,
       employeeProfile := some {} },
     { id := 2, fullName := "Talaba", role := .student,
       studentProfile := some { externalStudentId := some "S-1", facultyId := some 1 } },
     { id := 3, fullName := "Xodim", email := some "xodim@royd", role := .staff,
       employeeProfile := some { facultyId := some 1, isGeneralManager := true } }]
  faculties := [{ id := 1, name := "Huquq" }]

/-- A student and a registrator are added, and the member of staff becomes
one too. -/
def campusEdits : List UserEdit :=
  [.create 1 { fullName := "Yangi talaba", email := "t@royd", password := "parol12345",
               roleName := "student" } "hash",
   .create 1 { fullName := "Registrator", email := "r@royd", password := "parol12345",
               roleName := "registrator", facultyId := some 1 } "hash",
   .update 1 3 { roleName := some "registrator", facultyId := some none } "",
   .sync { studentIdNumber := "S-1", fullName := "Talaba", faculty := "Huquq", group := "H-1",
           level := 2 },
   .delete 1 3]

theorem one_profile_campus : Always edit OneProfileEach campus campusEdits :=
  (one_profile_iff campus (by decide) (by decide) campusEdits).mpr (by decide +kernel)

/-- The student is made a member of staff, and keeps the student profile. -/
theorem promoted_student :
    campus.UserIds ∧ OneProfileEach campus ∧
      ¬ OneProfileEach (run edit campus [.update 1 2 { roleName := some "staff" } ""]) := by
  decide +kernel

/-! ## The manager for general issues -/

/-- `User.is_general_manager`. -/
def User.isGeneralManager (u : User) : Bool := u.employeeProfile.any (·.isGeneralManager)

/-- The flag is carried only by those routing can pick. -/
def ManagersRoutable (db : Db) : Prop :=
  ∀ u ∈ db.users, u.isGeneralManager = true → u.role ∈ [Role.staff, Role.registrator]

instance (db : Db) : Decidable (ManagersRoutable db) :=
  inferInstanceAs (Decidable (∀ u ∈ db.users,
    u.isGeneralManager = true → u.role ∈ [Role.staff, Role.registrator]))

/-- An update that is carried out and takes a manager for general issues to a
role that cannot carry the flag clears the flag. -/
def ClearsFlag (db : Db) : UserEdit → Prop
  | .update actorId userId data hash => (UserEdit.update actorId userId data hash).Accepted db →
      ∀ user ∈ db.getUser userId, user.isGeneralManager = true →
        ∀ name ∈ data.roleName, name = "staff" ∨ name = "registrator" ∨
          data.isGeneralManager = some false
  | _ => True

instance (db : Db) (e : UserEdit) : Decidable (ClearsFlag db e) :=
  match e with
  | .update actorId userId data hash =>
    inferInstanceAs (Decidable ((UserEdit.update actorId userId data hash).Accepted db →
      ∀ user ∈ db.getUser userId, user.isGeneralManager = true →
        ∀ name ∈ data.roleName, name = "staff" ∨ name = "registrator" ∨
          data.isGeneralManager = some false))
  | .create .. | .delete .. | .sync .. => .isTrue trivial

/-- The flag an update leaves is the one it sends, or the one there was. -/
theorem updatedUser_isGeneralManager (user : User) (data : UserUpdate) (role : Role) (hash : String) :
    (updatedUser user data role hash).isGeneralManager =
      data.isGeneralManager.getD user.isGeneralManager := by
  have hemployee : (updatedUser user data role hash).employeeProfile = data.profile user := rfl
  have hnew : ({} : Employee).isGeneralManager = false := rfl
  unfold User.isGeneralManager
  rw [hemployee]
  unfold UserUpdate.profile UserUpdate.touchesGeneral
  cases hflag : data.isGeneralManager with
  | none =>
    simp only [Option.any_none, Option.getD_none]
    split
    · cases hp : user.employeeProfile with
      | none => simp
      | some p => simp
    · rfl
  | some flag =>
    cases hp : user.employeeProfile with
    | none =>
      cases flag with
      | true => simp
      | false => split <;> simp
    | some p => simp

theorem newUser_routable {id : Nat} {data : UserCreate} {role : Role} {hash : String}
    (hgeneral : data.isGeneralManager = true → role ∈ [Role.staff, Role.registrator])
    (hflag : (newUser id data role hash).isGeneralManager = true) :
    (newUser id data role hash).role ∈ [Role.staff, Role.registrator] := by
  unfold newUser at hflag ⊢
  by_cases hrole : role = .student
  · simp [hrole, User.isGeneralManager] at hflag
  · simp only [hrole, if_false] at hflag ⊢
    exact hgeneral hflag

theorem updatedUser_routable {user : User} {data : UserUpdate} {role : Role} {hash : String}
    (hwas : user.isGeneralManager = true → user.role ∈ [Role.staff, Role.registrator])
    (hrole : roleAfter user data = .ok role)
    (hgeneral : data.isGeneralManager = some true → role ∈ [Role.staff, Role.registrator]) :
    ((updatedUser user data role hash).isGeneralManager = true →
        (updatedUser user data role hash).role ∈ [Role.staff, Role.registrator]) ↔
      (user.isGeneralManager = true → ∀ name ∈ data.roleName,
        name = "staff" ∨ name = "registrator" ∨ data.isGeneralManager = some false) := by
  have hleft : (updatedUser user data role hash).role = role := rfl
  have hasked : ∀ name ∈ data.roleName,
      (name = "staff" ∨ name = "registrator") ↔ role ∈ [Role.staff, Role.registrator] := by
    intro name hname
    rw [roleAfter, hname] at hrole
    simp only [roleOf_eq_ok, roleNamed_eq_some] at hrole
    subst hrole
    cases role <;> decide
  rw [updatedUser_isGeneralManager, hleft]
  cases hflag : data.isGeneralManager with
  | some flag =>
    cases flag with
    | true =>
      refine iff_of_true (fun _ => hgeneral hflag) fun _ name hname => ?_
      exact ((hasked name hname).mpr (hgeneral hflag)).imp_right .inl
    | false => simp
  | none =>
    simp only [Option.getD_none]
    refine imp_congr_right fun hmanager => ?_
    cases hname : data.roleName with
    | none =>
      rw [roleAfter, hname] at hrole
      cases hrole
      simpa using hwas hmanager
    | some name => simpa using (hasked name hname).symm

theorem breakable_routable :
    Breakable (fun u => u.isGeneralManager = true → u.role ∈ [Role.staff, Role.registrator])
      fun user data => user.isGeneralManager = true → ∀ name ∈ data.roleName,
        name = "staff" ∨ name = "registrator" ∨ data.isGeneralManager = some false where
  created := newUser_routable
  updated := updatedUser_routable
  deleted := fun h => h
  joined := by
    intro u _ _ hemployee
    simp [User.isGeneralManager, hemployee]
  synced := by
    intro user left h _ hrole _ hemployee
    unfold User.isGeneralManager
    rw [hrole, hemployee]
    exact h

/-- One edit keeps the flag where routing can pick exactly if it clears the
flag of a manager who can no longer carry it. -/
theorem edit_routable_iff (hids : db.UserIds) (hroutable : ManagersRoutable db) (e : UserEdit) :
    ManagersRoutable (edit db e) ↔ ClearsFlag db e := by
  refine (breakable_routable.edit_iff hids hroutable e).trans ?_
  cases e with
  | _ => rfl

/-- From every directory in which only staff and registrators carry the flag,
and for every sequence of edits: only they carry it in every state exactly if
every update that takes a manager to another role clears the flag. -/
theorem general_manager_iff (db : Db) (hids : db.UserIds) (hroutable : ManagersRoutable db)
    (es : List UserEdit) :
    Always edit ManagersRoutable db es ↔ Along edit ClearsFlag db es :=
  always_iff_along (I := Db.UserIds) (P := ManagersRoutable) (C := ClearsFlag)
    (fun _ e h => (edit_edits h e).2) (fun _ e h hr => edit_routable_iff h hr e) hids hroutable es

theorem general_manager_campus : Always edit ManagersRoutable campus campusEdits :=
  (general_manager_iff campus (by decide) (by decide) campusEdits).mpr (by decide +kernel)

/-- The manager for general issues is moved to the leadership, and keeps the
flag. -/
theorem promoted_manager :
    campus.UserIds ∧ ManagersRoutable campus ∧
      ¬ ManagersRoutable (run edit campus [.update 1 3 { roleName := some "leadership" } ""]) := by
  decide +kernel

end Royd
