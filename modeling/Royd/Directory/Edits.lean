/-
Royd.Directory.Edits — what an edit can do to the users table.

`Edits` lists it once: a row more, or one row changed, with the checks the
edit has passed. No proof after this module unfolds an endpoint of
`Royd.Api.Users`.
-/
import Royd.Api.Users
import Royd.Lib.Runs
import Royd.Lib.Tables
import Mathlib.Data.List.Nodup

namespace Royd

open Api
open Auth (UserUpdate roleNamed updateUsers writeColumns)

variable {db db' : Db}

/-- The ids of users are distinct, and the next one is new. -/
structure Db.UserIds (db : Db) : Prop where
  nodup : (db.users.map (·.id)).Nodup
  below : ∀ u ∈ db.users, u.id < db.nextId

instance (db : Db) : Decidable db.UserIds :=
  decidable_of_iff ((db.users.map (·.id)).Nodup ∧ ∀ u ∈ db.users, u.id < db.nextId)
    ⟨fun h => ⟨h.1, h.2⟩, fun h => ⟨h.nodup, h.below⟩⟩

/-- The table with `left` in place of `user`. -/
def replaceUser (users : List User) (user left : User) : List User :=
  users.map fun u => if u.id = user.id then left else u

/-! ## One row changed -/

theorem Db.UserIds.eq_of_id (h : db.UserIds) {u v : User} (hu : u ∈ db.users) (hv : v ∈ db.users)
    (hid : u.id = v.id) : u = v :=
  Tables.eq_of_key h.nodup hu hv hid

theorem getUser_eq_some {id : Nat} {u : User} (h : db.getUser id = some u) :
    u ∈ db.users ∧ u.id = id :=
  Tables.find?_mem h

theorem mem_replaceUser {users : List User} {user left v : User}
    (h : v ∈ replaceUser users user left) : v = left ∨ v ∈ users := by
  obtain ⟨u, hu, rfl⟩ := List.mem_map.mp h
  split
  · exact .inl rfl
  · exact .inr hu

/-- If all rows were good before, they are afterwards exactly if the new one
is. -/
theorem forall_replaceUser {users : List User} {user left : User} {P : User → Prop}
    (hmem : user ∈ users) (h : ∀ u ∈ users, P u) :
    (∀ u ∈ replaceUser users user left, P u) ↔ P left := by
  constructor
  · intro hall
    exact hall left (List.mem_map.mpr ⟨user, hmem, if_pos rfl⟩)
  · intro hleft u hu
    rcases mem_replaceUser hu with rfl | hu
    · exact hleft
    · exact h u hu

theorem map_id_replaceUser {users : List User} {user left : User} (hid : left.id = user.id) :
    (replaceUser users user left).map (·.id) = users.map (·.id) := by
  rw [replaceUser, List.map_map]
  refine List.map_congr_left fun u _ => ?_
  simp only [Function.comp_apply]
  split
  · rename_i hu
    rw [hid, hu]
  · rfl

@[simp] theorem column_self {α : Type} [DecidableEq α] (loaded left : α) :
    column loaded left loaded = left := by
  unfold column
  split
  · rename_i h
    exact h.symm
  · rfl

/-- The `UPDATE` of the row that was loaded leaves what the handler left. -/
theorem writeColumns_self {user left : User} (hid : left.id = user.id)
    (hprofile : left.studentProfile = user.studentProfile) : writeColumns user user left = left := by
  simp [writeColumns, ← hid, ← hprofile]

theorem updateUsers_eq (h : db.UserIds) {user : User} (left : User) (hmem : user ∈ db.users)
    (hid : left.id = user.id) (hprofile : left.studentProfile = user.studentProfile) :
    updateUsers db.users user left = replaceUser db.users user left := by
  refine List.map_congr_left fun u hu => ?_
  split
  · rename_i huser
    rw [h.eq_of_id hu hmem huser, writeColumns_self hid hprofile]
  · rfl

/-! ## The kinds of edit -/

/-- What an edit leaves of the users table. -/
inductive Edits (db : Db) : UserEdit → List User → Prop
  | refused {e : UserEdit} (refused : ¬ e.Accepted db) : Edits db e db.users
  | created {actorId : Nat} {data : UserCreate} {hash : String} {role : Role}
      (named : roleNamed data.roleName = some role)
      (general : data.isGeneralManager = true → role ∈ [Role.staff, Role.registrator]) :
      Edits db (.create actorId data hash) (db.users ++ [newUser db.nextId data role hash])
  | updated {actorId userId : Nat} {data : UserUpdate} {hash : String} {user : User} {role : Role}
      (accepted : (UserEdit.update actorId userId data hash).Accepted db)
      (found : db.getUser userId = some user) (asked : roleAfter user data = .ok role)
      (general : data.isGeneralManager = some true → role ∈ [Role.staff, Role.registrator]) :
      Edits db (.update actorId userId data hash)
        (replaceUser db.users user (updatedUser user data role hash))
  | deleted {actorId userId : Nat} {user : User} (found : db.getUser userId = some user) :
      Edits db (.delete actorId userId) (replaceUser db.users user { user with isActive := false })
  | joined {profile : StudentProfile} {u : User} (new : db.nextId ≤ u.id) (role : u.role = .student)
      (student : u.studentProfile.isSome = true) (employee : u.employeeProfile = none) :
      Edits db (.sync profile) (db.users ++ [u])
  | synced {profile : StudentProfile} {user left : User} (listed : user ∈ db.users)
      (was : user.studentProfile.isSome = true) (id : left.id = user.id)
      (role : left.role = user.role) (active : left.isActive = user.isActive)
      (student : left.studentProfile.isSome = true)
      (employee : left.employeeProfile = user.employeeProfile) :
      Edits db (.sync profile) (replaceUser db.users user left)

/-- Nothing but the users, the audit log and the id counter is written. -/
def Db.Audited (db db' : Db) (users : List User) : Prop :=
  ∃ n logs, db.nextId ≤ n ∧ db' = { db with users, nextId := n, auditLogs := logs }

theorem commit_logAction (db : Db) (n : Nat) (users : List User) (userId : Option Nat)
    (action entityType : String) (entityId : Nat) (old new : List (String × AuditValue)) :
    ∃ logs, ({ db with users }.commit
      (logAction (.empty n db.nextMessageId) userId action entityType entityId old new)) =
      { db with users, nextId := max db.nextId (n + 1), auditLogs := logs } := by
  refine ⟨({ db with users }.commit
    (logAction (.empty n db.nextMessageId) userId action entityType entityId old new)).auditLogs, ?_⟩
  simp [Db.commit, logAction, Session.add, Session.history, Session.files, Session.messages,
    Session.notifications, Session.outbox, Session.nextId, Session.nextMessageId, Session.empty]

theorem roleOf_eq_ok {name : String} {role : Role} : roleOf name = .ok role ↔ roleNamed name = some role := by
  unfold roleOf
  split
  · rename_i r hr
    rw [hr]
    constructor
    · intro h
      cases h
      rfl
    · intro h
      cases h
      rfl
  · rename_i hnone
    rw [hnone]
    simp

theorem assertCanManageGeneral_eq_ok {flag : Bool} {role : Role} {u : Unit}
    (h : Api.assertCanManageGeneral flag role = .ok u) :
    flag = true → role ∈ [Role.staff, Role.registrator] := by
  unfold Api.assertCanManageGeneral at h
  rw [raise_eq_ok] at h
  intro hflag
  by_contra hrole
  exact h ⟨hflag, hrole⟩

theorem userOf_eq_ok {userId : Nat} {user : User} (h : userOf db userId = .ok user) :
    db.getUser userId = some user := by
  unfold userOf at h
  split at h
  · cases h
    assumption
  · cases h

theorem newUser_id (id : Nat) (data : UserCreate) (role : Role) (hash : String) :
    (newUser id data role hash).id = id := by
  unfold newUser
  dsimp only
  split
  · rfl
  · rfl

theorem createUser_eq_ok {actorId : Nat} {data : UserCreate} {hash : String}
    (h : createUser db actorId data hash = .ok db') :
    ∃ role, roleNamed data.roleName = some role ∧
      (data.isGeneralManager = true → role ∈ [Role.staff, Role.registrator]) ∧
      ∃ n logs, db.nextId < n ∧
        db' = { db with users := db.users ++ [newUser db.nextId data role hash]
                        nextId := n, auditLogs := logs } := by
  obtain ⟨actor, -, h⟩ := bind_eq_ok.mp h
  obtain ⟨role, hrole, h⟩ := bind_eq_ok.mp h
  obtain ⟨_, hgeneral, h⟩ := bind_eq_ok.mp h
  obtain ⟨existing, -, h⟩ := bind_eq_ok.mp h
  split at h
  · cases h
  · obtain ⟨_, -, h⟩ := bind_eq_ok.mp h
    cases h
    obtain ⟨logs, hlogs⟩ := commit_logAction db (db.nextId + 1)
      (db.users ++ [newUser db.nextId data role hash]) (some actor.id) "user.create" "user"
      (newUser db.nextId data role hash).id [] [("email", .text data.email),
        ("role", .text (roleText role)), ("is_general_manager",
          .flag ((newUser db.nextId data role hash).employeeProfile.any (·.isGeneralManager)))]
    exact ⟨role, roleOf_eq_ok.mp hrole, assertCanManageGeneral_eq_ok hgeneral, _, logs, by omega, hlogs⟩

theorem updateUser_eq_ok {actorId userId : Nat} {data : UserUpdate} {hash : String}
    (h : Api.updateUser db actorId userId data hash = .ok db') :
    ∃ user role, db.getUser userId = some user ∧ roleAfter user data = .ok role ∧
      (data.isGeneralManager = some true → role ∈ [Role.staff, Role.registrator]) ∧
      db.Audited db' (updateUsers db.users user (updatedUser user data role hash)) := by
  obtain ⟨actor, -, h⟩ := bind_eq_ok.mp h
  obtain ⟨user, huser, h⟩ := bind_eq_ok.mp h
  obtain ⟨role, hrole, h⟩ := bind_eq_ok.mp h
  obtain ⟨_, hgeneral, h⟩ := bind_eq_ok.mp h
  obtain ⟨_, -, h⟩ := bind_eq_ok.mp h
  obtain ⟨_, -, h⟩ := bind_eq_ok.mp h
  obtain ⟨_, -, h⟩ := bind_eq_ok.mp h
  obtain ⟨_, -, h⟩ := bind_eq_ok.mp h
  cases h
  refine ⟨user, role, userOf_eq_ok huser, hrole, fun hflag => ?_, ?_⟩
  · exact assertCanManageGeneral_eq_ok hgeneral (by rw [hflag]; rfl)
  · obtain ⟨logs, hlogs⟩ := commit_logAction db db.nextId
      (updateUsers db.users user (updatedUser user data role hash)) (some actor.id) "user.update"
      "user" user.id (auditColumns user) (auditColumns (updatedUser user data role hash))
    exact ⟨_, logs, by omega, hlogs⟩

theorem deleteUser_eq_ok {actorId userId : Nat} (h : Api.deleteUser db actorId userId = .ok db') :
    ∃ user, db.getUser userId = some user ∧
      db.Audited db' (updateUsers db.users user { user with isActive := false }) := by
  obtain ⟨actor, -, h⟩ := bind_eq_ok.mp h
  obtain ⟨_, -, h⟩ := bind_eq_ok.mp h
  obtain ⟨user, huser, h⟩ := bind_eq_ok.mp h
  obtain ⟨_, -, h⟩ := bind_eq_ok.mp h
  cases h
  refine ⟨user, userOf_eq_ok huser, ?_⟩
  obtain ⟨logs, hlogs⟩ := commit_logAction db db.nextId
    (updateUsers db.users user { user with isActive := false }) (some actor.id) "user.deactivate"
    "user" user.id [] []
  exact ⟨_, logs, by omega, hlogs⟩

/-! ## The upsert of a student -/

/-- The upsert finds a student, or makes one. -/
theorem syncStudentFromProfile_eq_ok {profile : StudentProfile} {sync : StudentSync}
    (h : syncStudentFromProfile db profile = .ok sync) :
    sync.nextId = db.nextId + 3 ∧ sync.user.studentProfile.isSome = true ∧
      ((sync.found = none ∧ sync.user.id = db.nextId + 2 ∧ sync.user.role = .student ∧
          sync.user.employeeProfile = none) ∨
        ∃ user ∈ db.users, sync.found = some user ∧ user.studentProfile.isSome = true ∧
          sync.user.isActive = user.isActive) := by
  unfold syncStudentFromProfile at h
  split at h
  · cases h
  obtain ⟨found, hfound, h⟩ := bind_eq_ok.mp h
  obtain ⟨faculty, -, h⟩ := bind_eq_ok.mp h
  obtain ⟨group, -, h⟩ := bind_eq_ok.mp h
  cases h
  refine ⟨rfl, rfl, ?_⟩
  cases found with
  | none => exact .inl ⟨rfl, rfl, rfl, rfl⟩
  | some user =>
    have hmem : user ∈ db.users.filter (hasHemisId profile.studentIdNumber) := by
      unfold scalarOneOrNone at hfound
      split at hfound
      · cases hfound
      · rename_i row hrows
        cases hfound
        rw [hrows]
        exact List.mem_singleton_self _
      · cases hfound
    obtain ⟨hlisted, hhemis⟩ := List.mem_filter.mp hmem
    refine .inr ⟨user, hlisted, rfl, ?_, rfl⟩
    unfold hasHemisId at hhemis
    exact Option.isSome_of_any hhemis

/-! ## Every edit -/

/-- A row with a new id is added. -/
theorem Db.UserIds.append (h : db.UserIds) (u : User) (hnew : db.nextId ≤ u.id)
    (hbelow : u.id < db'.nextId) (husers : db'.users = db.users ++ [u]) : db'.UserIds where
  nodup := by
    rw [husers, List.map_append, List.map_singleton]
    refine List.Nodup.append h.nodup (List.nodup_singleton _) ?_
    intro id hid hnewId
    obtain ⟨v, hv, rfl⟩ := List.mem_map.mp hid
    have hlt := h.below v hv
    have heq := List.mem_singleton.mp hnewId
    omega
  below := by
    rw [husers]
    intro v hv
    rcases List.mem_append.mp hv with hv | hv
    · have hlt := h.below v hv
      omega
    · rwa [List.mem_singleton.mp hv]

/-- A row is changed. -/
theorem Db.UserIds.replace (h : db.UserIds) {user : User} (left : User) (hmem : user ∈ db.users)
    (hid : left.id = user.id) (hle : db.nextId ≤ db'.nextId)
    (husers : db'.users = replaceUser db.users user left) : db'.UserIds where
  nodup := by
    rw [husers, map_id_replaceUser hid]
    exact h.nodup
  below := by
    rw [husers]
    intro v hv
    refine Nat.lt_of_lt_of_le ?_ hle
    rcases mem_replaceUser hv with rfl | hv
    · rw [hid]
      exact h.below user hmem
    · exact h.below v hv

/-- What the upsert leaves of the users table. -/
theorem applySync_edits (hids : db.UserIds) {profile : StudentProfile} {sync : StudentSync}
    (h : syncStudentFromProfile db profile = .ok sync) :
    Edits db (.sync profile) (db.applySync sync).users ∧ (db.applySync sync).UserIds := by
  obtain ⟨hnext, hstudent, ⟨hfound, hid, hrole, hemployee⟩ | ⟨user, hmem, hfound, hwas, -⟩⟩ :=
    syncStudentFromProfile_eq_ok h
  · have hadd : (db.applySync sync).users = db.users ++ [sync.user] := by
      simp only [Db.applySync, hfound]
    have hbelow : sync.user.id < (db.applySync sync).nextId := by
      simp only [Db.applySync]
      omega
    refine ⟨?_, hids.append sync.user (by omega) hbelow hadd⟩
    rw [hadd]
    exact .joined (by omega) hrole hstudent hemployee
  · have hwrite : (db.applySync sync).users =
        replaceUser db.users user (user.write user sync.user) := by
      simp only [Db.applySync, hfound]
      refine List.map_congr_left fun u hu => ?_
      split
      · rename_i huser
        rw [hids.eq_of_id hu hmem huser]
      · rfl
    refine ⟨?_, hids.replace (user.write user sync.user) hmem rfl (Nat.le_max_left _ _) hwrite⟩
    rw [hwrite]
    exact .synced hmem hwas rfl rfl rfl rfl rfl

/-- Every edit leaves the users as `Edits` says, and keeps their ids. -/
theorem edit_edits (hids : db.UserIds) (e : UserEdit) :
    Edits db e (edit db e).users ∧ (edit db e).UserIds := by
  unfold edit
  cases happly : e.apply db with
  | error exc =>
    refine ⟨.refused ?_, hids⟩
    rintro ⟨db', hok⟩
    rw [happly] at hok
    cases hok
  | ok db' =>
    dsimp only
    cases e with
    | create actorId data hash =>
      obtain ⟨role, hnamed, hgeneral, n, logs, hn, rfl⟩ := createUser_eq_ok happly
      refine ⟨.created hnamed hgeneral, hids.append (newUser db.nextId data role hash) ?_ ?_ rfl⟩
      · exact Nat.le_of_eq (newUser_id db.nextId data role hash).symm
      · rw [newUser_id]
        exact hn
    | update actorId userId data hash =>
      obtain ⟨user, role, hfound, hasked, hgeneral, n, logs, hn, rfl⟩ := updateUser_eq_ok happly
      have hmem := (getUser_eq_some hfound).1
      have husers := updateUsers_eq hids (updatedUser user data role hash) hmem rfl rfl
      refine ⟨?_, hids.replace (updatedUser user data role hash) hmem rfl hn husers⟩
      simp only
      rw [husers]
      exact .updated ⟨_, happly⟩ hfound hasked hgeneral
    | delete actorId userId =>
      obtain ⟨user, hfound, n, logs, hn, rfl⟩ := deleteUser_eq_ok happly
      have hmem := (getUser_eq_some hfound).1
      have husers := updateUsers_eq hids { user with isActive := false } hmem rfl rfl
      refine ⟨?_, hids.replace { user with isActive := false } hmem rfl hn husers⟩
      simp only
      rw [husers]
      exact .deleted hfound
    | sync profile =>
      obtain ⟨sync, hsync, happly⟩ := bind_eq_ok.mp happly
      cases happly
      exact applySync_edits hids hsync

/-- The ids stay distinct along every run of edits. -/
theorem userIds_run (hids : db.UserIds) (es : List UserEdit) : (Runs.run edit db es).UserIds :=
  Runs.run_invariant (I := Db.UserIds) (fun _ e h => (edit_edits h e).2) hids es

end Royd
