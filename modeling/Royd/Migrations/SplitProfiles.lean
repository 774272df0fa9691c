/-
Royd.Migrations.SplitProfiles — `0005_split_student_employee_profiles.py`:
the profile columns of `users` move to `students` and `employees`, and back.

A schema carries what its constraints say of its rows. Of a row of `users`
only the key, the role and the moved columns are kept here; the others are
not touched. Two lists of columns decide what is copied, a third one what
is dropped, and the two upwards do not cover the third for either role.
-/
import Royd.Lib.Columns
import Royd.Lib.Tables

namespace Royd

namespace Migration0005

/-! ## The tables -/

/-- The columns that move. -/
inductive Column where
  | externalStudentId
  | facultyId
  | departmentId
  | studentGroupId
  | birthDate
  | gender
  | address
  | imagePath
  | specialty
  | groupName
  | level
  | semester
  | studentStatus
  | educationForm
  | educationType
  | educationLang
  | paymentForm
  deriving DecidableEq, Repr

/-- A value that is not NULL. -/
inductive Value where
  | int (n : Int)
  | text (s : String)
  deriving DecidableEq, Repr

/-- `STUDENT_COLUMNS`. -/
def studentColumns : List Column :=
  [.externalStudentId, .facultyId, .studentGroupId, .birthDate, .gender, .address, .imagePath,
    .specialty, .groupName, .level, .semester, .studentStatus, .educationForm, .educationType,
    .educationLang, .paymentForm]

/-- `EMPLOYEE_COLUMNS`. -/
def employeeColumns : List Column :=
  [.facultyId, .departmentId, .birthDate, .gender, .address, .imagePath]

/-- The columns `upgrade` retires, which `downgrade` adds again. -/
def retired : List Column :=
  [.externalStudentId, .facultyId, .departmentId, .studentGroupId, .birthDate, .gender, .address,
    .imagePath, .specialty, .groupName, .level, .semester, .studentStatus, .educationForm,
    .educationType, .educationLang, .paymentForm]

/-- `roles`. -/
structure RoleRow where
  id : Nat
  name : String
  deriving DecidableEq, Repr

/-- `users`: the key, the role, and the columns that move. -/
structure UserRow where
  id : Nat
  roleId : Nat
  cells : Column → Option Value

/-- `students` or `employees`. -/
structure ProfileRow where
  userId : Nat
  cells : Column → Option Value

/-- The `users` table with the movable columns it has. -/
structure Users where
  columns : List Column
  rows : List UserRow

/-- The name of a user's role: `JOIN roles r ON r.id = u.role_id`. -/
def roleName (roles : List RoleRow) (u : UserRow) : Option String :=
  (roles.find? (·.id == u.roleId)).map (·.name)

/-- The constraints that hold before and after: primary keys, and a role for
every user. -/
structure Keyed (roles : List RoleRow) (users : Users) : Prop where
  userIds : (users.rows.map (·.id)).Nodup
  roleIds : (roles.map (·.id)).Nodup
  roleOf : ∀ u ∈ users.rows, ∃ r ∈ roles, r.id = u.roleId

/-- The tables of revision 0004. -/
structure Schema0004 where
  roles : List RoleRow
  users : Users
  keyed : Keyed roles users
  columns : ∀ c, c ∈ users.columns

/-- The tables of revision 0005. -/
structure Schema0005 where
  roles : List RoleRow
  users : Users
  students : List ProfileRow
  employees : List ProfileRow
  keyed : Keyed roles users
  columns : users.columns = []

/-! ## The operations -/

/-- `op.drop_column("users", col)`. -/
def Users.dropColumn (t : Users) (c : Column) : Users where
  columns := t.columns.filter (· ≠ c)
  rows := t.rows.map fun u => { u with cells := Columns.clear u.cells c }

/-- `op.add_column("users", col)`: NULL in every row. -/
def Users.addColumn (t : Users) (c : Column) : Users where
  columns := t.columns ++ [c]
  rows := t.rows.map fun u => { u with cells := Columns.clear u.cells c }

/-- `INSERT INTO ... (user_id, cols) SELECT u.id, cols FROM users u JOIN roles
r ... WHERE` the role's name passes. -/
def insertProfiles (roles : List RoleRow) (users : Users) (cs : List Column)
    (wanted : String → Bool) : List ProfileRow :=
  (users.rows.filter fun u => (roleName roles u).any wanted).map fun u =>
    { userId := u.id, cells := Columns.project cs u.cells }

/-- A row with the columns of its profile, if it has one. -/
def UserRow.updateFrom (u : UserRow) (profiles : List ProfileRow) (cs : List Column) : UserRow :=
  match profiles.find? (·.userId == u.id) with
  | some p => { u with cells := Columns.assign cs p.cells u.cells }
  | none => u

/-- `UPDATE users u SET c = p.c, ... FROM profiles p WHERE p.user_id = u.id`. -/
def Users.updateFrom (t : Users) (profiles : List ProfileRow) (cs : List Column) : Users where
  columns := t.columns
  rows := t.rows.map (·.updateFrom profiles cs)

/-- Rows that keep key and role keep the constraints. -/
theorem Keyed.map {roles : List RoleRow} {users : Users} (h : Keyed roles users)
    (f : UserRow → UserRow) (hid : ∀ u, (f u).id = u.id) (hrole : ∀ u, (f u).roleId = u.roleId)
    (columns : List Column) : Keyed roles { columns, rows := users.rows.map f } where
  userIds := by
    have hsame : (users.rows.map f).map (·.id) = users.rows.map (·.id) := by
      rw [List.map_map]
      exact List.map_congr_left fun u _ => hid u
    rw [hsame]
    exact h.userIds
  roleIds := h.roleIds
  roleOf u' hu' := by
    obtain ⟨u, hu, rfl⟩ := List.mem_map.mp hu'
    rw [hrole u]
    exact h.roleOf u hu

theorem Keyed.dropColumn {roles : List RoleRow} {users : Users} (h : Keyed roles users)
    (c : Column) : Keyed roles (users.dropColumn c) :=
  h.map (fun u => { u with cells := Columns.clear u.cells c }) (fun _ => rfl) (fun _ => rfl) _

theorem Keyed.addColumn {roles : List RoleRow} {users : Users} (h : Keyed roles users)
    (c : Column) : Keyed roles (users.addColumn c) :=
  h.map (fun u => { u with cells := Columns.clear u.cells c }) (fun _ => rfl) (fun _ => rfl) _

theorem Keyed.updateFrom {roles : List RoleRow} {users : Users} (h : Keyed roles users)
    (profiles : List ProfileRow) (cs : List Column) : Keyed roles (users.updateFrom profiles cs) := by
  refine h.map (·.updateFrom profiles cs) (fun u => ?_) (fun u => ?_) _
  · unfold UserRow.updateFrom
    split
    · rfl
    · rfl
  · unfold UserRow.updateFrom
    split
    · rfl
    · rfl

theorem dropColumns (users : Users) (ds : List Column) :
    ds.foldl Users.dropColumn users
      = { columns := users.columns.filter (· ∉ ds)
          rows := users.rows.map fun u => { u with cells := ds.foldl Columns.clear u.cells } } := by
  induction ds generalizing users with
  | nil => simp
  | cons d ds ih =>
    rw [List.foldl_cons, ih]
    simp [Users.dropColumn, List.filter_filter, Function.comp_def, Bool.and_comm]

theorem addColumns (users : Users) (ds : List Column) :
    ds.foldl Users.addColumn users
      = { columns := users.columns ++ ds
          rows := users.rows.map fun u => { u with cells := ds.foldl Columns.clear u.cells } } := by
  induction ds generalizing users with
  | nil => simp
  | cons d ds ih =>
    rw [List.foldl_cons, ih]
    simp [Users.addColumn, Function.comp_def]

theorem mem_retired (c : Column) : c ∈ retired := by
  cases c <;> decide

/-- A run of operations on one column each keeps the constraints. -/
theorem Keyed.foldl {roles : List RoleRow} {op : Users → Column → Users}
    (hop : ∀ {users} c, Keyed roles users → Keyed roles (op users c)) :
    ∀ (ds : List Column) {users : Users}, Keyed roles users → Keyed roles (ds.foldl op users)
  | [], _, h => h
  | d :: ds, _, h => Keyed.foldl hop ds (hop d h)

/-- `upgrade`. -/
def upgrade (s : Schema0004) : Schema0005 where
  roles := s.roles
  users := retired.foldl Users.dropColumn s.users
  students := insertProfiles s.roles s.users studentColumns (· == "student")
  employees := insertProfiles s.roles s.users employeeColumns (· != "student")
  keyed := Keyed.foldl (fun c h => h.dropColumn c) retired s.keyed
  columns := by
    rw [dropColumns]
    exact List.filter_eq_nil_iff.mpr fun c _ => by simp [mem_retired]

/-- `downgrade`. -/
def downgrade (s : Schema0005) : Schema0004 where
  roles := s.roles
  users := ((retired.foldl Users.addColumn s.users).updateFrom s.students studentColumns).updateFrom
    s.employees employeeColumns
  keyed := ((Keyed.foldl (fun c h => h.addColumn c) retired s.keyed).updateFrom _ _).updateFrom _ _
  columns c := by
    show c ∈ (retired.foldl Users.addColumn s.users).columns
    rw [addColumns]
    exact List.mem_append_right _ (mem_retired c)

/-! ## There and back -/

/-- The columns that are copied for a row. -/
def kept (roles : List RoleRow) (u : UserRow) : List Column :=
  if roleName roles u = some "student" then studentColumns else employeeColumns

/-- The profile of a user, if the role passes. -/
theorem find_profile {roles : List RoleRow} {users : Users} (h : (users.rows.map (·.id)).Nodup)
    (cs : List Column) (wanted : String → Bool) {u : UserRow} (hu : u ∈ users.rows) :
    (insertProfiles roles users cs wanted).find? (·.userId == u.id)
      = if (roleName roles u).any wanted then
          some { userId := u.id, cells := Columns.project cs u.cells }
        else none := by
  unfold insertProfiles
  rw [List.find?_map]
  show Option.map _ (List.find? (fun r : UserRow => r.id == u.id) _) = _
  split
  · rename_i hwanted
    have hrow : u ∈ users.rows.filter fun u => (roleName roles u).any wanted :=
      List.mem_filter.mpr ⟨hu, hwanted⟩
    rw [Tables.find?_of_mem (h.sublist (List.filter_sublist.map _)) hrow]
    rfl
  · rename_i hrefused
    rw [Tables.find?_absent, Option.map_none]
    intro r hr hid
    obtain ⟨hmem, hwanted⟩ := List.mem_filter.mp hr
    exact hrefused (Tables.eq_of_key h hmem hu hid ▸ hwanted)

/-- What becomes of a row: its kept columns are copied and written back over
what was dropped. -/
theorem downgrade_upgrade_rows (s : Schema0004) :
    (downgrade (upgrade s)).users.rows = s.users.rows.map fun u =>
      { u with
        cells := Columns.assign (kept s.roles u) (Columns.project (kept s.roles u) u.cells)
          (retired.foldl Columns.clear u.cells) } := by
  have hcleared : ∀ u : UserRow, retired.foldl Columns.clear (retired.foldl Columns.clear u.cells)
      = retired.foldl Columns.clear u.cells := fun u => Columns.clear_all_twice u.cells fun _ h => h
  have hrows : (downgrade (upgrade s)).users.rows = s.users.rows.map fun u =>
      (({ u with cells := retired.foldl Columns.clear u.cells } : UserRow).updateFrom
        (upgrade s).students studentColumns).updateFrom (upgrade s).employees employeeColumns := by
    show (Users.updateFrom (Users.updateFrom (retired.foldl Users.addColumn
      (retired.foldl Users.dropColumn s.users)) _ _) _ _).rows = _
    rw [dropColumns, addColumns]
    simp [Users.updateFrom, Function.comp_def, hcleared]
  rw [hrows]
  refine List.map_congr_left fun u hu => ?_
  obtain ⟨role, hrole, hid⟩ := s.keyed.roleOf u hu
  have hname : roleName s.roles u = some role.name := by
    unfold roleName
    rw [← hid, Tables.find?_of_mem s.keyed.roleIds hrole]
    rfl
  have hstudent : (upgrade s).students.find? (·.userId == u.id) = _ :=
    find_profile s.keyed.userIds studentColumns (· == "student") hu
  have hemployee : (upgrade s).employees.find? (·.userId == u.id) = _ :=
    find_profile s.keyed.userIds employeeColumns (· != "student") hu
  unfold kept
  rw [hname] at hstudent hemployee ⊢
  -- One of the two tables has the row's profile, the other none.
  by_cases his : role.name = "student"
  · simp [UserRow.updateFrom, hstudent, hemployee, his]
  · simp [UserRow.updateFrom, hstudent, hemployee, his]

/-- A row that loses nothing: a student has no department, and another user
none of a student's own columns. -/
def Lossless (roles : List RoleRow) (u : UserRow) : Prop :=
  if roleName roles u = some "student" then u.cells .departmentId = none
  else ∀ c ∈ [Column.externalStudentId, .studentGroupId, .specialty, .groupName, .level, .semester,
    .studentStatus, .educationForm, .educationType, .educationLang, .paymentForm], u.cells c = none

theorem lossless_iff (roles : List RoleRow) (u : UserRow) :
    Lossless roles u ↔ ∀ c ∈ retired, c ∉ kept roles u → u.cells c = none := by
  unfold Lossless kept
  split
  · simp [retired, studentColumns]
  · simp [retired, employeeColumns]

/-- Upgrading and downgrading restores the rows of `users` exactly if no
student has a department and no other user has a value in a column only
students keep. -/
theorem downgrade_upgrade_iff (s : Schema0004) :
    (downgrade (upgrade s)).users.rows = s.users.rows ↔
      ∀ u ∈ s.users.rows, Lossless s.roles u := by
  rw [downgrade_upgrade_rows, Tables.map_eq_self_iff]
  refine forall₂_congr fun u _ => ?_
  rw [lossless_iff, ← Columns.assign_project_drop u.cells (kept s.roles u) retired]
  constructor
  · intro h
    exact congrArg UserRow.cells h
  · intro h
    rw [h]

/-! ## A student with a department -/

/-- One student, who belongs to a department. -/
def enrolled : Schema0004 where
  roles := [{ id := 1, name := "student" }]
  users :=
    { columns := retired
      rows := [{ id := 7, roleId := 1,
                 cells := fun c => if c = .departmentId then some (.int 3) else none }] }
  keyed := ⟨by decide, by decide, by simp⟩
  columns := mem_retired

/-- The department is dropped with the column, and nothing brings it back. -/
theorem enrolled_loses_department :
    (downgrade (upgrade enrolled)).users.rows ≠ enrolled.users.rows := by
  intro h
  have hcell : ((downgrade (upgrade enrolled)).users.rows.map fun u => u.cells .departmentId)
      = enrolled.users.rows.map fun u => u.cells .departmentId := by rw [h]
  exact absurd hcell (by decide)

end Migration0005

end Royd
