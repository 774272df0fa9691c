/-
Royd.Auth.Administrators — the last active administrator.

`update_user` and `delete_user` count the active administrators in their own
transaction, after the flush and before the commit. The count sees what the
others have committed by then, not what they are about to commit. So the
guard holds as long as one of the administrators a call has counted is still
one when the call commits (`admin_remains`); two administrators who
deactivate each other at the same time leave none (`mutual_deletion`).
-/
import Royd.Auth.Footprints
import Royd.Auth.Interleaving

namespace Royd.Auth

open Programs Runs

variable {prims : Primitives} {cfg : Settings} {α β : Type}

/-- What `_assert_admin_remains` counts. -/
def activeAdmin (u : User) : Bool := u.role == .admin && u.isActive

/-- There is an active administrator. -/
def HasAdmin (users : List User) : Prop := ∃ u ∈ users, activeAdmin u = true

instance (users : List User) : Decidable (HasAdmin users) :=
  inferInstanceAs (Decidable (∃ u ∈ users, activeAdmin u = true))

/-! ## The count -/

/-- Reads what a call sees of the users table. A change of a row is committed
only if it leaves an administrator among the users last seen. -/
def census : Monitor Command Command.Reply (List User) where
  allows seen
    | .commitUser loaded left => HasAdmin (updateUsers seen loaded left)
    | _ => True
  possible _ _ := True
  next seen
    | .selectUsers _, rows => rows
    | _, _ => seen

@[simp] theorem census_possible (c : Command) (r : c.Reply) : census.possible c r = True := rfl

/-- The function commits no user. -/
def Uncommitted (p : Handler α) : Prop :=
  ∀ (seen : List User) (post : List User → α → Prop), (∀ seen' a, post seen' a) →
    Obeys census post seen p

theorem Uncommitted.bind {p : Handler α} {f : α → Handler β} (hp : Uncommitted p)
    (hf : ∀ a, Uncommitted (f a)) : Uncommitted (p >>= f) := by
  intro seen post h
  rw [obeys_bind]
  exact hp seen _ fun seen' a => hf a seen' post h

theorem uncommitted_pure (a : α) : Uncommitted (pure a : Handler α) := fun _ _ h => h _ a

/-- A function that neither commits a user nor counts the users. -/
theorem uncommitted_of_sends {p : Handler α} (hp : Sends census.Blind p) : Uncommitted p :=
  fun seen _ h => hp.obeys fun a => h seen a

theorem uncommitted_require (b : Bool) (e : Failure) : Uncommitted (require b e) :=
  uncommitted_of_sends (sends_require b e)

theorem uncommitted_requireUser (row : Option User) : Uncommitted (requireUser row) :=
  uncommitted_of_sends (sends_requireUser row)

theorem uncommitted_requireRole (user : User) (name : Option String) :
    Uncommitted (requireRole user name) :=
  uncommitted_of_sends (sends_requireRole user name)

theorem uncommitted_selectUser (id : Nat) : Uncommitted (send (.selectUser id)) :=
  uncommitted_of_sends (sends_send fun _ => ⟨trivial, fun _ => rfl⟩)

theorem uncommitted_hashIfSent (password : Option String) :
    Uncommitted (hashIfSent prims password) :=
  uncommitted_of_sends (sends_hashIfSent (fun _ => ⟨trivial, fun _ => rfl⟩) password)

theorem uncommitted_requireRoles (roles : List Role) (token : Option Token) :
    Uncommitted (requireRoles cfg roles token) := by
  refine Uncommitted.bind (uncommitted_of_sends ?_) fun user =>
    (uncommitted_require _ _).bind fun _ => uncommitted_pure user
  exact sends_getCurrentUser (fun _ _ => ⟨trivial, fun _ => rfl⟩)
    (fun _ _ => ⟨trivial, fun _ => rfl⟩) (fun _ _ => ⟨trivial, fun _ => rfl⟩)
    (fun _ _ _ _ => ⟨trivial, fun _ => rfl⟩) token

theorem uncommitted_endSessionsIf (condition : Bool) (userId : Nat) :
    Uncommitted (endSessionsIf condition userId) :=
  uncommitted_of_sends (sends_endSessionsIf (fun _ => ⟨trivial, fun _ => rfl⟩)
    (fun _ _ => ⟨trivial, fun _ => rfl⟩) condition)

section Counted

variable {seen : List User} {loaded left : User}

/-- The flush shows the table with the call's own change. -/
theorem census_flushUser {post : List User → List User → Prop}
    (h : ∀ rows, post rows (updateUsers rows loaded left)) :
    Obeys census post seen (flushUser loaded left) := by
  simp only [flushUser, send, Prog.issue, obeys_bind, obeys_call, obeys_prog_pure]
  refine ⟨trivial, fun rows _ => ?_⟩
  unfold require
  split
  · exact h rows
  · trivial

theorem census_assertAdminRemains {users : List User} {post : List User → Unit → Prop}
    (h : HasAdmin users → post seen ()) : Obeys census post seen (assertAdminRemains users) := by
  unfold assertAdminRemains require
  split
  · rename_i hany
    obtain ⟨u, hu, hadmin⟩ := List.any_eq_true.mp hany
    exact h ⟨u, hu, hadmin⟩
  · trivial

theorem census_commitUser {post : List User → Unit → Prop}
    (hadmin : HasAdmin (updateUsers seen loaded left)) (h : ∀ seen' a, post seen' a) :
    Obeys census post seen (commitUser loaded left) := by
  simp only [commitUser, send, Prog.issue, obeys_bind, obeys_call, obeys_prog_pure]
  exact ⟨hadmin, fun saved _ => uncommitted_require _ _ _ _ h⟩

/-- The two handlers go from the flush to the commit in the same way. -/
theorem census_guarded (seen : List User) (loaded left : User) {rest : Handler α}
    (hrest : Uncommitted rest) :
    Obeys census (fun _ _ => True) seen (do
      let users ← flushUser loaded left
      assertAdminRemains users
      commitUser loaded left
      rest) := by
  simp only [obeys_bind]
  refine census_flushUser fun rows => census_assertAdminRemains fun hadmin => ?_
  exact census_commitUser hadmin fun seen' _ => hrest seen' _ fun _ _ => trivial

end Counted

theorem census_updateUser (token : Option Token) (userId : Nat) (data : UserUpdate) :
    Obeys census (fun _ _ => True) [] (updateUser prims cfg token userId data) := by
  simp only [updateUser, applyUpdate, obeys_bind]
  refine uncommitted_requireRoles _ _ _ _ fun seen actor => ?_
  refine uncommitted_selectUser _ _ _ fun seen row => ?_
  refine uncommitted_requireUser _ _ _ fun seen user => ?_
  refine uncommitted_hashIfSent _ _ _ fun seen hash => ?_
  refine uncommitted_requireRole _ _ _ _ fun seen role => ?_
  refine uncommitted_require _ _ _ _ fun seen _ => uncommitted_require _ _ _ _ fun seen _ => ?_
  refine uncommitted_require _ _ _ _ fun seen _ => ?_
  have hrest : Uncommitted (do
      endSessionsIf (data.password.isSome || data.reset2fa == some true) user.id
      pure (Answer.user { data.apply user hash with role })) :=
    (uncommitted_endSessionsIf _ _).bind fun _ => uncommitted_pure _
  simpa only [obeys_bind] using census_guarded seen user { data.apply user hash with role } hrest

theorem census_deleteUser (token : Option Token) (userId : Nat) :
    Obeys census (fun _ _ => True) [] (deleteUser cfg token userId) := by
  simp only [deleteUser, obeys_bind]
  refine uncommitted_requireRoles _ _ _ _ fun seen actor => ?_
  refine uncommitted_require _ _ _ _ fun seen _ => ?_
  refine uncommitted_selectUser _ _ _ fun seen row => ?_
  refine uncommitted_requireUser _ _ _ fun seen user => ?_
  simpa only [obeys_bind] using census_guarded seen user { user with isActive := false }
    (uncommitted_pure Answer.noContent)

/-! ## Runs -/

/-- What can happen when only `update_user` and `delete_user` are called. -/
def Message.Administers : Message → Prop
  | .start (.updateUser ..) => True
  | .start (.deleteUser ..) => True
  | .start _ => False
  | .writeUsers _ => False
  | _ => True

instance (m : Message) : Decidable m.Administers :=
  match m with
  | .start (.updateUser ..) | .start (.deleteUser ..) | .step _ | .drop _ | .wait _ => .isTrue trivial
  | .writeUsers _ => .isFalse id
  | .start (.login ..) | .start (.loginSecondFactor ..) | .start (.refresh ..) | .start (.logout ..)
  | .start (.authenticated ..) | .start (.changePassword ..) | .start (.forgotPassword ..)
  | .start (.resetPassword ..) | .start (.totpSetup ..) | .start (.totpEnable ..)
  | .start (.totpDisable ..) | .start (.socket ..) => .isFalse id

/-- The users as the call last saw them. -/
def Running.seen (th : Running) : List User := Thread.after census [] th.trace

/-- The administrators a call that is about to commit has counted: those it
last saw, after its own change. -/
def Running.counted (th : Running) : List User :=
  match th.next? with
  | some (.commitUser loaded left) => (updateUsers th.seen loaded left).filter activeAdmin
  | _ => []

/-- When a call commits that has counted administrators, one of them is still
an active administrator. -/
def CountHolds (w : World) : Message → Prop
  | .step i => ∀ th ∈ w.calls[i]?, th.counted ≠ [] →
      ∃ u ∈ th.counted, ∃ v ∈ w.server.users, v.id = u.id ∧ activeAdmin v = true
  | _ => True

instance (w : World) (m : Message) : Decidable (CountHolds w m) :=
  match m with
  | .step i => inferInstanceAs (Decidable (∀ th ∈ w.calls[i]?, th.counted ≠ [] →
      ∃ u ∈ th.counted, ∃ v ∈ w.server.users, v.id = u.id ∧ activeAdmin v = true))
  | .start _ | .drop _ | .wait _ | .writeUsers _ => .isTrue trivial

/-- A command that commits no user leaves the table as it is. -/
theorem users_exec {c : Command} (hc : ∀ loaded left, c ≠ .commitUser loaded left) (s : Server) :
    (exec c s).2.users = s.users := by
  cases c with
  | commitUser loaded left => exact absurd rfl (hc loaded left)
  | setNx k ttl =>
    simp only [exec]
    split
    · rfl
    · rfl
  | incrExpire ks ttl =>
    simp only [exec]
    rw [incrExpire_fold]
  | _ => rfl

/-- An administrator who is one after the change in what the call saw, and is
one in the table, is one after the change in the table. -/
theorem activeAdmin_writeColumns {seen stored loaded left : User}
    (hseen : activeAdmin (writeColumns seen loaded left) = true) (hstored : activeAdmin stored = true) :
    activeAdmin (writeColumns stored loaded left) = true := by
  simp only [activeAdmin, writeColumns, Bool.and_eq_true, beq_iff_eq, column] at *
  refine ⟨?_, ?_⟩
  · split
    · exact hstored.1
    · rename_i hrole
      have hleft := hseen.1
      rwa [if_neg hrole] at hleft
  · split
    · exact hstored.2
    · rename_i hactive
      have hleft := hseen.2
      rwa [if_neg hactive] at hleft

/-- The commit of a call whose count holds leaves an administrator. -/
theorem hasAdmin_updateUsers {seen users : List User} {loaded left u v : User}
    (hu : u ∈ updateUsers seen loaded left) (hadmin : activeAdmin u = true) (hv : v ∈ users)
    (hid : v.id = u.id) (hstill : activeAdmin v = true) : HasAdmin (updateUsers users loaded left) := by
  obtain ⟨x, -, rfl⟩ := List.mem_map.mp hu
  refine ⟨_, List.mem_map.mpr ⟨v, hv, rfl⟩, ?_⟩
  have hsame : (if x.id = loaded.id then writeColumns x loaded left else x).id = x.id := by
    split
    · rfl
    · rfl
  rw [hsame] at hid
  split
  · rename_i hloaded
    rw [if_pos (hid.symm.trans hloaded)] at hadmin
    exact activeAdmin_writeColumns hadmin hstill
  · exact hstill

/-- Every call obeys the count, and there is an active administrator. -/
structure World.Administered (w : World) : Prop where
  calls : ∀ (i : Nat) (th : Running), w.calls[i]? = some th →
    Thread.Obeys (m := census) (fun _ _ => True) [] th
  admin : HasAdmin w.server.users

/-- A call of the two endpoints obeys the count. -/
theorem census_begin {call : AuthCall} (h : (Message.start call).Administers) :
    Thread.Obeys (m := census) (fun _ _ => True) [] (begin prims cfg call) := by
  cases call with
  | updateUser token userId data => exact census_updateUser token userId data
  | deleteUser token userId => exact census_deleteUser token userId
  | _ => exact h.elim

namespace World.Administered

variable {w : World}

/-- One call goes on: only a commit needs its count. -/
theorem after {i : Nat} {th : Running} {c : Command} {k : c.Reply → Handler Answer}
    (h : w.Administered) (hth : w.calls[i]? = some th) (hprog : th.prog = .call c k)
    (hcount : CountHolds w (.step i)) : (w.after i th c k).Administered := by
  obtain ⟨hallows, hrest⟩ := Thread.Obeys.call (h.calls i th hth) hprog
  refine ⟨fun j th' hth' => ?_, ?_⟩
  · rcases call_after hth' with ⟨-, rfl⟩ | ⟨-, hj⟩
    · exact hrest _ trivial
    · exact h.calls j th' hj
  · change HasAdmin (exec c w.server).2.users
    cases c with
    | commitUser loaded left =>
      simp only [exec]
      split
      · exact h.admin
      · have hcounted : th.counted = (updateUsers th.seen loaded left).filter activeAdmin := by
          simp [Running.counted, Thread.next?, hprog]
        obtain ⟨x, hx, hxadmin⟩ := hallows
        have hsome : th.counted ≠ [] := by
          rw [hcounted]
          exact List.ne_nil_of_mem (List.mem_filter.mpr ⟨hx, hxadmin⟩)
        obtain ⟨u, hu, v, hv, hid, hstill⟩ := hcount th hth hsome
        rw [hcounted] at hu
        obtain ⟨hmem, hadmin⟩ := List.mem_filter.mp hu
        exact hasAdmin_updateUsers hmem hadmin hv hid hstill
    | _ =>
      rw [users_exec (by simp)]
      exact h.admin

/-- Every message keeps it, if the count of a call that commits holds. -/
theorem exchange (h : w.Administered) {m : Message} (hm : m.Administers) (hcount : CountHolds w m) :
    (exchange prims cfg w m).Administered := by
  cases m with
  | start call =>
    refine ⟨fun j th' hth' => ?_, h.admin⟩
    rcases call_start hth' with hj | ⟨-, rfl⟩
    · exact h.calls j th' hj
    · exact census_begin hm
  | step i =>
    rcases exchange_step prims cfg w i with heq | ⟨th, c, k, hth, hprog, heq⟩
    · rw [heq]
      exact h
    · rw [heq]
      exact h.after hth hprog hcount
  | drop i =>
    refine ⟨fun j th' hth' => ?_, h.admin⟩
    rcases call_drop hth' with hj | ⟨th, hj, rfl⟩
    · exact h.calls j th' hj
    · exact trivial
  | wait seconds => exact ⟨h.calls, h.admin⟩
  | writeUsers users => exact hm.elim

end World.Administered

/-- From every table with an active administrator, and for every interleaving
of any number of calls of `update_user` and `delete_user` in which no commit
finds all the administrators gone that its call had counted, there is an
active administrator in every state. -/
theorem admin_remains (prims : Primitives) (cfg : Settings) (s : Server) (hs : HasAdmin s.users)
    (ms : List Message) (hms : ∀ m ∈ ms, m.Administers)
    (hcount : Along (exchange prims cfg) CountHolds { server := s } ms) :
    Always (exchange prims cfg) (fun w => HasAdmin w.server.users) { server := s } ms := by
  have hboth : Along (exchange prims cfg) (fun w m => m.Administers ∧ CountHolds w m)
      { server := s } ms := by
    refine along_and ?_ hcount
    rw [along_iff_forall]
    rintro xs m ys rfl
    exact hms m (by simp)
  refine always_of_invariant_along (I := World.Administered) ?_ (fun w hw => hw.admin) ?_ hboth
  · exact fun w m hw hm => hw.exchange hm.1 hm.2
  · exact ⟨by simp, hs⟩

/-! ## Two administrators -/

/-- The access token of administrator `id`, whose session is number `id`. -/
def adminAccess (id : Nat) : Token :=
  { type := .access, sub := id, jti := id + 2, sid := some id, iat := 0, exp := 900 }

/-- Two administrators, both signed in. -/
def adminDesk : Server where
  users :=
    [{ id := 1, fullName := "Birinchi", email := some "a@royd", role := .admin },
     { id := 2, fullName := "Ikkinchi", email := some "b@royd", role := .admin }]
  redis :=
    [{ key := .sessionSeen 1, live := 1800, value := mark },
     { key := .sessionSeen 2, live := 1800, value := mark }]
  now := 0
  nextSecret := 5
  issued := [adminAccess 1, adminAccess 2]

/-- The first deactivates the second, whose call to deactivate the first
comes too late. -/
def deletionInTurn : List Message :=
  .start (.deleteUser (some (adminAccess 1)) 2) :: goes 0 7
    ++ .start (.deleteUser (some (adminAccess 2)) 1) :: goes 1 7

theorem admin_remains_desk :
    Always (exchange plainPrimitives {}) (fun w => HasAdmin w.server.users) { server := adminDesk }
      deletionInTurn :=
  admin_remains plainPrimitives {} adminDesk (by decide) deletionInTurn (by decide +kernel)
    (by decide +kernel)

/-- Each deactivates the other, and both have counted before either
commits. -/
def mutualDeletion : List Message :=
  .start (.deleteUser (some (adminAccess 1)) 2) :: .start (.deleteUser (some (adminAccess 2)) 1)
    :: goes 0 6 ++ goes 1 6 ++ goes 0 1 ++ goes 1 1

/-- No active administrator is left. -/
theorem mutual_deletion :
    HasAdmin adminDesk.users ∧ (∀ m ∈ mutualDeletion, m.Administers) ∧
      ¬ HasAdmin (run (exchange plainPrimitives {}) { server := adminDesk } mutualDeletion).server.users := by
  decide +kernel

end Royd.Auth
