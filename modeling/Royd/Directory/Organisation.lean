/-
Royd.Directory.Organisation — faculties and student groups: the upserts of
`services/auth_service.py` and the endpoints of `api/v1/catalogs.py` that
name them.

A call is a program over the tables; between two of its commands those of
any other call may come. A command sees what is committed. What a call
writes reaches the tables with its commit, where the primary keys, the
foreign keys and `faculties_code_key` are enforced; a call's own rows are
not looked up again before that. There is no constraint on names.

The rest of a submission, which comes between the upserts and the commit,
reads other tables; where it raises, the call is dropped. `upper` is
`str.upper`.
-/
import Royd.Lib.Programs
import Royd.Services.Students

namespace Royd.Organisation

open Programs

/-! ## The tables -/

/-- `faculties`, with the columns the endpoints write. -/
structure FacultyRow extends Faculty where
  code : String
  contactEmail : Option String := none
  deriving DecidableEq, Repr

/-- `student_groups`, with the columns the endpoints write. -/
structure GroupRow extends StudentGroup where
  specialty : Option String := none
  educationYear : Option String := none
  deriving DecidableEq, Repr

/-- What a group is looked up by. -/
def GroupRow.key (g : GroupRow) : String × Option Nat := (g.name, g.facultyId)

structure Registry where
  nextId : Nat := 0
  faculties : List FacultyRow := []
  groups : List GroupRow := []
  deriving DecidableEq, Repr

/-- What a call leaves to its commit: the rows it adds, or the columns it
changed of a row it loaded. -/
inductive Write where
  | rows (faculty : Option FacultyRow) (group : Option GroupRow)
  | faculty (loaded left : FacultyRow)
  | group (loaded left : GroupRow)
  deriving DecidableEq, Repr

/-- The columns of a faculty that were changed. -/
def FacultyRow.write (stored loaded left : FacultyRow) : FacultyRow :=
  { stored with
    name := column loaded.name left.name stored.name
    code := column loaded.code left.code stored.code
    contactEmail := column loaded.contactEmail left.contactEmail stored.contactEmail
    isActive := column loaded.isActive left.isActive stored.isActive }

/-- The columns of a group that were changed. -/
def GroupRow.write (stored loaded left : GroupRow) : GroupRow :=
  { stored with
    name := column loaded.name left.name stored.name
    facultyId := column loaded.facultyId left.facultyId stored.facultyId
    specialty := column loaded.specialty left.specialty stored.specialty
    educationYear := column loaded.educationYear left.educationYear stored.educationYear
    isActive := column loaded.isActive left.isActive stored.isActive }

/-- `_integrity_message` of a constraint that has no text of its own. -/
def constraintConflict : Exc :=
  .http 409 "Ma'lumot bazasidagi cheklovga zid — qiymat allaqachon mavjud"

namespace Registry

variable (r : Registry)

/-- `UPDATE faculties ... WHERE id = :id`. -/
def updateFaculties (loaded left : FacultyRow) : List FacultyRow :=
  r.faculties.map fun f => if f.id = loaded.id then f.write loaded left else f

/-- `UPDATE student_groups ... WHERE id = :id`. -/
def updateGroups (loaded left : GroupRow) : List GroupRow :=
  r.groups.map fun g => if g.id = loaded.id then g.write loaded left else g

/-- The tables after a write. -/
def apply : Write → Registry
  | .rows faculty group =>
    { r with faculties := r.faculties ++ faculty.toList, groups := r.groups ++ group.toList }
  | .faculty loaded left => { r with faculties := r.updateFaculties loaded left }
  | .group loaded left => { r with groups := r.updateGroups loaded left }

/-- The primary keys. -/
def keyed : Bool :=
  decide (r.faculties.map (·.id)).Nodup && decide (r.groups.map (·.id)).Nodup

/-- `faculties_code_key`. -/
def coded : Bool := decide (r.faculties.map (·.code)).Nodup

/-- `student_groups.faculty_id` names a faculty. -/
def referenced : Bool :=
  r.groups.all fun g => g.facultyId.all fun id => r.faculties.any (·.id == id)

/-- The constraints, on the tables a write would leave. -/
def check : Except Exc Unit :=
  if r.keyed = false then .error constraintConflict
  else if r.coded = false then .error (.http 409 "Bu fakultet kodi allaqachon band")
  else if r.referenced = false then
    .error (.http 409 "Bog'liq yozuv topilmadi yoki o'chirib bo'lmaydi")
  else .ok ()

end Registry

/-! ## Commands -/

inductive Command where
  /-- `select(Faculty).where(Faculty.name == name)`. -/
  | facultiesNamed (name : String)
  /-- `select(Faculty).where(Faculty.code == candidate)`. -/
  | facultiesCoded (code : String)
  /-- `select(StudentGroup)` by name and faculty. -/
  | groupsNamed (name : String) (facultyId : Option Nat)
  /-- `db.get(Faculty, id)`. -/
  | getFaculty (id : Nat)
  /-- `db.get(StudentGroup, id)`. -/
  | getGroup (id : Nat)
  /-- `nextval`. -/
  | draw
  /-- The session is flushed and committed. -/
  | commit (w : Write)

/-- What a command replies. -/
@[reducible] def Command.Reply : Command → Type
  | .facultiesNamed _ => List FacultyRow
  | .facultiesCoded _ => List FacultyRow
  | .groupsNamed .. => List GroupRow
  | .getFaculty _ => Option FacultyRow
  | .getGroup _ => Option GroupRow
  | .draw => Nat
  | .commit _ => Except Exc Unit

/-- The rows a group lookup finds. -/
def Registry.groupsNamed (r : Registry) (name : String) (facultyId : Option Nat) : List GroupRow :=
  r.groups.filter fun g => g.name == name && g.facultyId == facultyId

/-- What one command does. -/
def exec : (c : Command) → Registry → c.Reply × Registry
  | .facultiesNamed name, r => (r.faculties.filter (·.name == name), r)
  | .facultiesCoded code, r => (r.faculties.filter (·.code == code), r)
  | .groupsNamed name facultyId, r => (r.groupsNamed name facultyId, r)
  | .getFaculty id, r => (r.faculties.find? (·.id == id), r)
  | .getGroup id, r => (r.groups.find? (·.id == id), r)
  | .draw, r => (r.nextId, { r with nextId := r.nextId + 1 })
  | .commit w, r =>
    match (r.apply w).check with
    | .ok () => (.ok (), r.apply w)
    | .error e => (.error e, r)

/-! ## The calls -/

/-- A handler: a program over the commands that may raise. -/
abbrev Handler (α : Type) := Prog Command Command.Reply Exc α

/-- Issue a command. -/
def send (c : Command) : Handler c.Reply := Prog.issue c

/-- `await db.commit()`. -/
def commit (w : Write) : Handler Unit := do
  match ← send (.commit w) with
  | .ok () => pure ()
  | .error e => .raise e

/-- `(await db.execute(query)).scalar_one_or_none()`. -/
def selectOne {α : Type} (query : Handler (List α)) : Handler (Option α) := do
  match scalarOneOrNone (← query) with
  | .ok row => pure row
  | .error e => .raise e

variable (upper : String → String)

/-- The first letters of the words of a name. -/
def initials (name : String) : String :=
  String.ofList ((name.toList.splitOnP isSpace).filterMap List.head?)

/-- `_slugify_code`. -/
def slugifyCode (name : String) : String :=
  let short := orCurrent (initials name) (String.ofList (name.toList.filter (· ≠ ' ')))
  orCurrent (String.ofList ((upper short).toList.take 16)) "F"

/-- The code that is tried after `suffix` others were taken. -/
def candidate (code : String) (suffix : Nat) : String :=
  if suffix = 0 then code else String.ofList (code.toList.take 29) ++ "-" ++ toString suffix

/-- The loop for a code that is not taken. It may go on as long as other
calls take codes; `fuel` are the rounds it is given. -/
def freeCode (code : String) : Nat → Nat → Handler String
  | 0, _ => .raise (.value "CancelledError")
  | fuel + 1, suffix => do
    match ← selectOne (send (.facultiesCoded (candidate code suffix))) with
    | none => pure (candidate code suffix)
    | some _ => freeCode code fuel (suffix + 1)

/-- `_upsert_faculty`: the faculty of that name, and whether it is new. -/
def upsertFaculty (fuel : Nat) (name : String) : Handler (Option (FacultyRow × Bool)) :=
  if name.isEmpty then pure none
  else do
    match ← selectOne (send (.facultiesNamed name)) with
    | some row => pure (some (row, false))
    | none =>
      let code ← freeCode (String.ofList ((slugifyCode upper name).toList.take 32)) fuel 0
      let id ← send .draw
      pure (some ({ id, name, code, isActive := true }, true))

/-- `_upsert_student_group`: the group of that name within the faculty. -/
def upsertStudentGroup (name : String) (facultyId : Option Nat) :
    Handler (Option (GroupRow × Bool)) :=
  if name.isEmpty then pure none
  else do
    match ← selectOne (send (.groupsNamed name facultyId)) with
    | some row => pure (some (row, false))
    | none =>
      let id ← send .draw
      pure (some ({ id, name, facultyId, isActive := true }, true))

/-- A submission, as far as faculties and groups go. -/
def submit (fuel : Nat) (faculty group : String) : Handler Unit := do
  let faculty ← upsertFaculty upper fuel faculty
  let group ← upsertStudentGroup group (faculty.map (·.1.id))
  commit (.rows (inserted faculty) (inserted group))

/-- `FacultyCreate`. -/
structure FacultyCreate where
  name : String
  code : String
  contactEmail : Option String := none
  deriving DecidableEq, Repr

/-- `FacultyUpdate`. A field may be left out, or sent as `null`. -/
structure FacultyUpdate where
  name : Option (Option String) := none
  code : Option (Option String) := none
  contactEmail : Option (Option String) := none
  isActive : Option (Option Bool) := none
  deriving DecidableEq, Repr

/-- `StudentGroupUpdate`. -/
structure StudentGroupUpdate where
  name : Option (Option String) := none
  facultyId : Option (Option Nat) := none
  specialty : Option (Option String) := none
  educationYear : Option (Option String) := none
  isActive : Option (Option Bool) := none
  deriving DecidableEq, Repr

/-- `setattr` of a column that may not be null, which the flush refuses. -/
def sent {α : Type} (field : Option (Option α)) (current : α) : Handler α :=
  match field with
  | none => pure current
  | some (some value) => pure value
  | some none => .raise constraintConflict

/-- `create_faculty`. -/
def createFaculty (data : FacultyCreate) : Handler Unit := do
  let id ← send .draw
  commit (.rows
    (some { id, name := data.name, code := data.code, contactEmail := data.contactEmail
            isActive := true })
    none)

/-- `update_faculty`. -/
def updateFaculty (facultyId : Nat) (data : FacultyUpdate) : Handler Unit := do
  match ← send (.getFaculty facultyId) with
  | none => .raise (.http 404 "Fakultet topilmadi")
  | some fac =>
    let name ← sent data.name fac.name
    let code ← sent data.code fac.code
    let isActive ← sent data.isActive fac.isActive
    commit (.faculty fac
      { fac with name, code, isActive, contactEmail := data.contactEmail.getD fac.contactEmail })

/-- `update_student_group`. -/
def updateStudentGroup (groupId : Nat) (data : StudentGroupUpdate) : Handler Unit := do
  match ← send (.getGroup groupId) with
  | none => .raise (.http 404 "Guruh topilmadi")
  | some group =>
    let name ← sent data.name group.name
    let isActive ← sent data.isActive group.isActive
    commit (.group group
      { group with
        name, isActive
        facultyId := data.facultyId.getD group.facultyId
        specialty := data.specialty.getD group.specialty
        educationYear := data.educationYear.getD group.educationYear })

/-! ## The upserts in one piece -/

section InOnePiece

variable (upper : String → String) {r r' : Registry} {db : Db} {fuel : Nat} {name : String}

theorem scalarOneOrNone_map {α β : Type} (f : α → β) (rows : List α) :
    scalarOneOrNone (rows.map f) = (scalarOneOrNone rows).map (Option.map f) := by
  match rows with
  | [] => rfl
  | [_] => rfl
  | _ :: _ :: _ => rfl

theorem run_selectOne {α : Type} {query : Handler (List α)} {rows : List α}
    (h : query.run exec r = (.ok rows, r)) :
    (selectOne query).run exec r = (scalarOneOrNone rows, r) := by
  unfold selectOne
  rw [Prog.run_bind, h]
  cases hrow : scalarOneOrNone rows with
  | ok row => simp [hrow]
  | error e => simp [hrow]

/-- The search for a code writes nothing. -/
theorem run_freeCode (r : Registry) (fuel : Nat) (code : String) (suffix : Nat) :
    ((freeCode code fuel suffix).run exec r).2 = r := by
  induction fuel generalizing suffix with
  | zero => rfl
  | succ fuel ih =>
    unfold freeCode
    have hquery : (send (.facultiesCoded (candidate code suffix))).run exec r =
        (.ok (r.faculties.filter (·.code == candidate code suffix)), r) := rfl
    rw [Prog.run_bind, run_selectOne hquery]
    cases scalarOneOrNone (r.faculties.filter (·.code == candidate code suffix)) with
    | error e => rfl
    | ok row =>
      cases row with
      | none => rfl
      | some row => exact ih (suffix + 1)

/-- Run while no other call is under way, `_upsert_faculty` finds or makes
what it does on the tables. -/
theorem run_upsertFaculty {row : Option (FacultyRow × Bool)}
    (hdb : r.faculties.map (·.toFaculty) = db.faculties)
    (h : (upsertFaculty upper fuel name).run exec r = (.ok row, r')) :
    Royd.upsertFaculty db r.nextId name = .ok (row.map fun p => (p.1.toFaculty, p.2)) := by
  unfold upsertFaculty at h
  unfold Royd.upsertFaculty
  by_cases hname : name.isEmpty = true
  · simp only [hname, if_true] at h ⊢
    cases h
    rfl
  · simp only [hname] at h ⊢
    have hquery : (send (.facultiesNamed name)).run exec r =
        (.ok (r.faculties.filter (·.name == name)), r) := rfl
    have hlookup : scalarOneOrNone (db.faculties.filter (·.name == name)) =
        (scalarOneOrNone (r.faculties.filter (·.name == name))).map
          (Option.map (·.toFaculty)) := by
      rw [← hdb, List.filter_map, scalarOneOrNone_map]
      rfl
    rw [hlookup]
    obtain ⟨found, r₁, hfound, h⟩ := Prog.run_bind_eq_ok.mp h
    obtain ⟨hrow, rfl⟩ := Prod.mk.inj ((run_selectOne hquery).symm.trans hfound)
    rw [hrow]
    cases found with
    | some row =>
      cases h
      rfl
    | none =>
      obtain ⟨code, r₂, hcode, hnew⟩ := Prog.run_bind_eq_ok.mp h
      have hr₂ := run_freeCode r fuel (String.ofList ((slugifyCode upper name).toList.take 32)) 0
      rw [hcode] at hr₂
      obtain rfl : r₂ = r := hr₂
      cases hnew
      rfl

/-- And so does `_upsert_student_group`. -/
theorem run_upsertStudentGroup {facultyId : Option Nat} {row : Option (GroupRow × Bool)}
    (hdb : r.groups.map (·.toStudentGroup) = db.studentGroups)
    (h : (upsertStudentGroup name facultyId).run exec r = (.ok row, r')) :
    Royd.upsertStudentGroup db r.nextId name facultyId =
      .ok (row.map fun p => (p.1.toStudentGroup, p.2)) := by
  unfold upsertStudentGroup at h
  unfold Royd.upsertStudentGroup
  by_cases hname : name.isEmpty = true
  · simp only [hname, if_true] at h ⊢
    cases h
    rfl
  · simp only [hname] at h ⊢
    have hquery : (send (.groupsNamed name facultyId)).run exec r =
        (.ok (r.groupsNamed name facultyId), r) := rfl
    have hlookup :
        scalarOneOrNone
            (db.studentGroups.filter fun g => g.name == name && g.facultyId == facultyId) =
          (scalarOneOrNone (r.groupsNamed name facultyId)).map (Option.map (·.toStudentGroup)) := by
      rw [← hdb, List.filter_map, scalarOneOrNone_map]
      rfl
    rw [hlookup]
    obtain ⟨found, r₁, hfound, h⟩ := Prog.run_bind_eq_ok.mp h
    obtain ⟨hrow, rfl⟩ := Prod.mk.inj ((run_selectOne hquery).symm.trans hfound)
    rw [hrow]
    cases found with
    | some row =>
      cases h
      rfl
    | none =>
      cases h
      rfl

end InOnePiece

/-! ## Calls under way -/

inductive Call where
  | submit (faculty group : String)
  | createFaculty (data : FacultyCreate)
  | updateFaculty (facultyId : Nat) (data : FacultyUpdate)
  | updateStudentGroup (groupId : Nat) (data : StudentGroupUpdate)
  deriving DecidableEq, Repr

/-- The endpoint a call reaches. -/
def handle (fuel : Nat) : Call → Handler Unit
  | .submit faculty group => submit upper fuel faculty group
  | .createFaculty data => createFaculty data
  | .updateFaculty facultyId data => updateFaculty facultyId data
  | .updateStudentGroup groupId data => updateStudentGroup groupId data

/-- A call under way, or over. -/
abbrev Running := Thread Call Command Command.Reply Exc Unit

/-- The tables and the calls. -/
structure World where
  registry : Registry := {}
  calls : List Running := []

/-- What can happen: a call comes in, goes on by a command, or is dropped
and rolled back. -/
inductive Message where
  | start (call : Call) (fuel : Nat)
  | step (i : Nat)
  | drop (i : Nat)
  deriving DecidableEq, Repr

/-- A call as it starts. -/
def begin (call : Call) (fuel : Nat) : Running := { req := call, prog := handle upper fuel call }

/-- The call is dropped. -/
def Running.abort (th : Running) : Running :=
  { th with prog := .raise (.value "CancelledError") }

/-- The effect of a message. -/
def exchange (w : World) : Message → World
  | .start call fuel => { w with calls := w.calls ++ [begin upper call fuel] }
  | .step i =>
    match w.calls[i]? with
    | none => w
    | some th =>
      let next := th.step exec w.registry
      { registry := next.2, calls := w.calls.set i next.1 }
  | .drop i => { w with calls := w.calls.modify i Running.abort }

end Royd.Organisation
