/-
Royd.Directory.Addresses — whether `forgot_password` shows that an address has
an account.

Two rows that answer to one lowered address make `scalar_one_or_none` raise, and
the answer is a 503 (`forgotPassword_answers`). The unique key keeps equal addresses
apart, not such that differ in case only, so that is what an edit must not store
(`edit_apart_iff`): the answers are the same for all addresses in all tables exactly
as long as none does (`forgot_password_hides_iff`).
-/
import Royd.Auth.LoginBudget
import Royd.Directory.Edits

namespace Royd

open Api Auth Programs Runs

variable {db : Db}

/-! ## Answers -/

namespace Auth

/-- The status of a response. -/
def status : Except Failure Answer → Nat
  | .ok .noContent => 204
  | .ok _ => 200
  | .error ⟨.http code _, _⟩ => code
  | .error _ => 500

section Forgot

variable (prims : Primitives) (cfg : Settings) (s : Server) (users users' : List User)
  (email ip : String)

/-- The rows that answer to an address. -/
def answering : List User :=
  users.filter fun u => u.email.map prims.lower == some (prims.lower email)

/-- The counters let the call through. -/
def forgotAdmitted : Bool := admits cfg (s.counts s!"pwreset:{prims.lower email}" ip)

/-- The status `forgot_password` answers with, on a table. -/
def forgotStatus : Nat :=
  status (serve prims cfg { s with users } (.forgotPassword email ip)).1

/-- The answers on two tables are the same: a 204, or a 429 if the counters say so. -/
def AnswersAlike : Prop :=
  forgotStatus prims cfg s users email ip = forgotStatus prims cfg s users' email ip ∧
    forgotStatus prims cfg s users email ip =
      if forgotAdmitted prims cfg s email ip then 204 else 429

end Forgot

variable {prims : Primitives} {cfg : Settings} {s : Server} {users users' : List User}
  {email ip : String}

/-- The table is seen only if more than one row answers. -/
theorem forgotPassword_answers :
    forgotStatus prims cfg s users email ip =
      if forgotAdmitted prims cfg s email ip then
        if (answering prims users email).length ≤ 1 then 204 else 503
      else 429 := by
  unfold forgotStatus serve handle forgotPassword
  dsimp only
  rw [Handler.atomically_bind]
  rcases checkBruteForce_atomically cfg { s with users } ip s!"pwreset:{prims.lower email}" with
    ⟨hadmits, seconds, hcheck⟩ | ⟨hadmits, detail, headers, hcheck⟩
  · have hadmitted : forgotAdmitted prims cfg s email ip = true := hadmits
    rw [hcheck, hadmitted, if_pos rfl]
    dsimp only
    rw [recordLoginFailure, Handler.atomically_bind, Handler.atomically_send]
    dsimp only
    rw [Handler.atomically_bind, Handler.atomically_send]
    change status ((scalarOneOrNone (answering prims users email) >>= _).atomically _).1 = _
    rcases answering prims users email with _ | ⟨user, _ | ⟨other, rest⟩⟩
    · rfl
    · rw [scalarOneOrNone, Prog.pure_bind]
      dsimp only
      split
      · rfl
      · rfl
    · rfl
  · rw [hcheck]
    have hrefused : forgotAdmitted prims cfg s email ip = false := hadmits
    rw [hrefused]
    rfl

theorem answersAlike_iff :
    AnswersAlike prims cfg s users users' email ip ↔ forgotAdmitted prims cfg s email ip = false ∨
      (answering prims users email).length ≤ 1 ∧ (answering prims users' email).length ≤ 1 := by
  unfold AnswersAlike
  rw [forgotPassword_answers, forgotPassword_answers]
  cases forgotAdmitted prims cfg s email ip with
  | false => simp
  | true =>
    by_cases hone : (answering prims users email).length ≤ 1
    · by_cases hone' : (answering prims users' email).length ≤ 1
      · simp [hone, hone']
      · simp [hone, hone']
    · simp [hone]

end Auth

/-! ## Tables -/

/-- No two users have addresses that are equal once they are lowered. -/
def Apart (lower : String → String) (users : List User) : Prop :=
  ∀ u ∈ users, ∀ v ∈ users, ∀ address ∈ u.email.map lower,
    v.email.map lower = some address → u.id = v.id

instance (lower : String → String) (users : List User) : Decidable (Apart lower users) :=
  inferInstanceAs (Decidable (∀ u ∈ users, ∀ v ∈ users, ∀ address ∈ u.email.map lower,
    v.email.map lower = some address → u.id = v.id))

namespace Auth

/-- The answers on two tables are the same, whatever is asked. -/
def AllAlike (prims : Primitives) (cfg : Settings) (users users' : List User) : Prop :=
  ∀ (s : Server) (email ip : String), AnswersAlike prims cfg s users users' email ip

variable {prims : Primitives} {cfg : Settings} {users users' : List User}

theorem answering_le_one_iff (hids : (users.map (·.id)).Nodup) :
    (∀ email, (answering prims users email).length ≤ 1) ↔ Apart prims.lower users := by
  constructor
  · intro hone u hu v hv address haddress hsame
    obtain ⟨email, hemail, rfl⟩ := Option.map_eq_some_iff.mp haddress
    have hu' : u ∈ answering prims users email := List.mem_filter.mpr ⟨hu, by simp [hemail]⟩
    have hv' : v ∈ answering prims users email := List.mem_filter.mpr ⟨hv, by simp [hsame]⟩
    have hlength := hone email
    generalize answering prims users email = rows at hu' hv' hlength
    rcases rows with _ | ⟨row, _ | ⟨other, rest⟩⟩
    · cases hu'
    · rw [List.mem_singleton.mp hu', List.mem_singleton.mp hv']
    · simp at hlength
  · intro hapart email
    have hnodup : ((answering prims users email).map (·.id)).Nodup :=
      hids.sublist (List.filter_sublist.map _)
    have hmem : ∀ u ∈ answering prims users email,
        u ∈ users ∧ u.email.map prims.lower = some (prims.lower email) := by
      intro u hu
      obtain ⟨hu, haddress⟩ := List.mem_filter.mp hu
      exact ⟨hu, beq_iff_eq.mp haddress⟩
    generalize answering prims users email = rows at hnodup hmem
    rcases rows with _ | ⟨u, _ | ⟨v, rest⟩⟩
    · exact Nat.zero_le _
    · exact le_rfl
    · obtain ⟨hu, haddress⟩ := hmem u List.mem_cons_self
      obtain ⟨hv, haddress'⟩ := hmem v (List.mem_cons_of_mem _ List.mem_cons_self)
      have hsame := hapart u hu v hv _ haddress haddress'
      simp [hsame] at hnodup

/-- Whatever is asked, two tables answer alike exactly if both keep their addresses
apart. -/
theorem allAlike_iff (hids : (users.map (·.id)).Nodup) (hids' : (users'.map (·.id)).Nodup) :
    AllAlike prims cfg users users' ↔ Apart prims.lower users ∧ Apart prims.lower users' := by
  rw [← answering_le_one_iff hids, ← answering_le_one_iff hids']
  unfold AllAlike
  simp only [answersAlike_iff]
  constructor
  · intro h
    -- Nobody has called before.
    have hadmitted : ∀ email, forgotAdmitted prims cfg { users := [], now := 0 } email "" = true :=
      fun _ => rfl
    have hboth : ∀ email, (answering prims users email).length ≤ 1 ∧
        (answering prims users' email).length ≤ 1 := by
      intro email
      refine (h { users := [], now := 0 } email "").resolve_left ?_
      rw [hadmitted]
      exact Bool.noConfusion
    exact ⟨fun email => (hboth email).1, fun email => (hboth email).2⟩
  · rintro ⟨hone, hone'⟩ s email ip
    exact .inr ⟨hone email, hone' email⟩

end Auth

/-! ## Edits -/

/-- An edit that is carried out stores no address that another user has but for its
case. -/
def StoresNoVariant (lower : String → String) (db : Db) : UserEdit → Prop
  | .create actorId data hash => (UserEdit.create actorId data hash).Accepted db →
      ∀ u ∈ db.users, u.email.map lower ≠ some (lower data.email)
  | .update actorId userId data hash => (UserEdit.update actorId userId data hash).Accepted db →
      ∀ email ∈ data.email, ∀ u ∈ db.users, u.id ≠ userId → u.email.map lower ≠ some (lower email)
  | _ => True

instance (lower : String → String) (db : Db) (e : UserEdit) :
    Decidable (StoresNoVariant lower db e) :=
  match e with
  | .create actorId data hash =>
    inferInstanceAs (Decidable ((UserEdit.create actorId data hash).Accepted db →
      ∀ u ∈ db.users, u.email.map lower ≠ some (lower data.email)))
  | .update actorId userId data hash =>
    inferInstanceAs (Decidable ((UserEdit.update actorId userId data hash).Accepted db →
      ∀ email ∈ data.email, ∀ u ∈ db.users, u.id ≠ userId →
        u.email.map lower ≠ some (lower email)))
  | .delete .. | .sync .. => .isTrue trivial

variable {lower : String → String} {users : List User}

/-- A row is added. -/
theorem apart_concat (hapart : Apart lower users) {u : User} (hnew : ∀ v ∈ users, v.id ≠ u.id) :
    Apart lower (users ++ [u]) ↔ ∀ address ∈ u.email.map lower,
      ∀ v ∈ users, v.email.map lower ≠ some address := by
  constructor
  · intro h address haddress v hv hsame
    exact hnew v hv (h u (List.mem_append_right _ (List.mem_singleton_self u)) v
      (List.mem_append_left _ hv) address haddress hsame).symm
  · intro h x hx y hy address haddress hsame
    rcases List.mem_append.mp hx with hx | hx
    · rcases List.mem_append.mp hy with hy | hy
      · exact hapart x hx y hy address haddress hsame
      · rw [List.mem_singleton.mp hy] at hsame
        exact absurd haddress (h address hsame x hx)
    · rw [List.mem_singleton.mp hx] at haddress ⊢
      rcases List.mem_append.mp hy with hy | hy
      · exact absurd hsame (h address haddress y hy)
      · rw [List.mem_singleton.mp hy]

theorem mem_replaceUser_iff {user left v : User} (hmem : user ∈ users) (hid : left.id = user.id) :
    v ∈ replaceUser users user left ↔ v = left ∨ (v ∈ users ∧ v.id ≠ user.id) := by
  constructor
  · intro h
    obtain ⟨u, hu, rfl⟩ := List.mem_map.mp h
    split
    · exact .inl rfl
    · rename_i hne
      exact .inr ⟨hu, hne⟩
  · rintro (rfl | ⟨hv, hne⟩)
    · exact List.mem_map.mpr ⟨user, hmem, if_pos rfl⟩
    · exact List.mem_map.mpr ⟨v, hv, if_neg hne⟩

/-- A row is changed. -/
theorem apart_replaceUser (hapart : Apart lower users) {user : User} (left : User)
    (hmem : user ∈ users) (hid : left.id = user.id) :
    Apart lower (replaceUser users user left) ↔ ∀ address ∈ left.email.map lower,
      ∀ v ∈ users, v.id ≠ user.id → v.email.map lower ≠ some address := by
  constructor
  · intro h address haddress v hv hne hsame
    exact hne ((h left ((mem_replaceUser_iff hmem hid).mpr (.inl rfl)) v
      ((mem_replaceUser_iff hmem hid).mpr (.inr ⟨hv, hne⟩)) address haddress hsame).symm.trans hid)
  · intro h x hx y hy address haddress hsame
    rcases (mem_replaceUser_iff hmem hid).mp hx with hxleft | ⟨hxold, hxne⟩
    · rw [hxleft] at haddress ⊢
      rcases (mem_replaceUser_iff hmem hid).mp hy with hyleft | ⟨hyold, hyne⟩
      · rw [hyleft]
      · exact absurd hsame (h address haddress y hyold hyne)
    · rcases (mem_replaceUser_iff hmem hid).mp hy with hyleft | ⟨hyold, -⟩
      · rw [hyleft] at hsame
        exact absurd haddress (h address hsame x hxold hxne)
      · exact hapart x hxold y hyold address haddress hsame

theorem newUser_email (id : Nat) (data : UserCreate) (role : Role) (hash : String) :
    (newUser id data role hash).email = some data.email := by
  unfold newUser
  dsimp only
  split
  · rfl
  · rfl

/-- The upsert of a student stores no address. -/
theorem applySync_apart (hapart : Apart lower db.users) (hids : db.UserIds)
    {profile : StudentProfile} {sync : StudentSync}
    (h : syncStudentFromProfile db profile = .ok sync) : Apart lower (db.applySync sync).users := by
  have hemail : sync.found = none → sync.user.email = none := by
    unfold syncStudentFromProfile at h
    split at h
    · cases h
    obtain ⟨found, -, h⟩ := bind_eq_ok.mp h
    obtain ⟨faculty, -, h⟩ := bind_eq_ok.mp h
    obtain ⟨group, -, h⟩ := bind_eq_ok.mp h
    cases h
    rintro rfl
    rfl
  obtain ⟨-, -, ⟨hfound, hid, -⟩ | ⟨user, hmem, hfound, -⟩⟩ := syncStudentFromProfile_eq_ok h
  · have hadd : (db.applySync sync).users = db.users ++ [sync.user] := by
      simp only [Db.applySync, hfound]
    have hnew : ∀ v ∈ db.users, v.id ≠ sync.user.id := by
      intro v hv
      have hlt := hids.below v hv
      omega
    rw [hadd, apart_concat hapart hnew, hemail hfound]
    intro address haddress
    cases haddress
  · have hwrite : (db.applySync sync).users =
        db.users.map fun u => if u.id = user.id then u.write user sync.user else u := by
      simp only [Db.applySync, hfound]
    -- The columns that are read here stay as they are.
    have hsame : ∀ u : User, (if u.id = user.id then u.write user sync.user else u).id = u.id ∧
        (if u.id = user.id then u.write user sync.user else u).email = u.email := by
      intro u
      split
      · exact ⟨rfl, rfl⟩
      · exact ⟨rfl, rfl⟩
    rw [hwrite]
    intro x hx y hy address haddress hsameAddress
    obtain ⟨u, hu, rfl⟩ := List.mem_map.mp hx
    obtain ⟨v, hv, rfl⟩ := List.mem_map.mp hy
    rw [(hsame u).2] at haddress
    rw [(hsame v).2] at hsameAddress
    rw [(hsame u).1, (hsame v).1]
    exact hapart u hu v hv address haddress hsameAddress

/-- An edit keeps the addresses apart exactly if it stores no variant of one. -/
theorem edit_apart_iff (hids : db.UserIds) (hapart : Apart lower db.users) (e : UserEdit) :
    Apart lower (edit db e).users ↔ StoresNoVariant lower db e := by
  unfold edit
  cases happly : e.apply db with
  | error exc =>
    have hrefused : ¬ e.Accepted db := by
      rintro ⟨db', hok⟩
      cases happly.symm.trans hok
    refine iff_of_true hapart ?_
    cases e with
    | create actorId data hash => exact fun haccepted => absurd haccepted hrefused
    | update actorId userId data hash => exact fun haccepted => absurd haccepted hrefused
    | delete actorId userId => trivial
    | sync profile => trivial
  | ok db' =>
    have haccepted : e.Accepted db := ⟨db', happly⟩
    dsimp only
    cases e with
    | create actorId data hash =>
      obtain ⟨role, -, -, n, logs, -, rfl⟩ := createUser_eq_ok happly
      have hnew : ∀ v ∈ db.users, v.id ≠ (newUser db.nextId data role hash).id := by
        intro v hv
        rw [newUser_id]
        exact (hids.below v hv).ne
      rw [apart_concat hapart hnew, newUser_email]
      unfold StoresNoVariant
      simp [haccepted]
    | update actorId userId data hash =>
      obtain ⟨user, role, hfound, -, -, n, logs, -, rfl⟩ := updateUser_eq_ok happly
      obtain ⟨hmem, hid⟩ := getUser_eq_some hfound
      dsimp only
      rw [updateUsers_eq hids (updatedUser user data role hash) hmem rfl rfl,
        apart_replaceUser hapart (updatedUser user data role hash) hmem rfl]
      have hemail : (updatedUser user data role hash).email = (data.email <|> user.email) := rfl
      rw [hemail, ← hid]
      simp only [StoresNoVariant]
      cases hsent : data.email with
      | none =>
        refine iff_of_true ?_ ?_
        · intro address haddress v hv hne hsame
          exact hne (hapart user hmem v hv address haddress hsame).symm
        · intro _ email hemail
          cases hemail
      | some email => simp [hid, haccepted]
    | delete actorId userId =>
      obtain ⟨user, hfound, n, logs, -, rfl⟩ := deleteUser_eq_ok happly
      have hmem := (getUser_eq_some hfound).1
      dsimp only
      rw [updateUsers_eq hids { user with isActive := false } hmem rfl rfl,
        apart_replaceUser hapart { user with isActive := false } hmem rfl]
      refine iff_of_true ?_ trivial
      intro address haddress v hv hne hsame
      exact hne (hapart user hmem v hv address haddress hsame).symm
    | sync profile =>
      obtain ⟨sync, hsync, happly⟩ := bind_eq_ok.mp happly
      cases happly
      exact iff_of_true (applySync_apart hapart hids hsync) trivial

/-- Along a run the addresses stay apart exactly as long as no variant is stored. -/
theorem apart_run_iff (hids : db.UserIds) (hapart : Apart lower db.users) (es : List UserEdit) :
    Always edit (fun db => Apart lower db.users) db es ↔ Along edit (StoresNoVariant lower) db es :=
  always_iff_along (I := Db.UserIds) (P := fun db => Apart lower db.users)
    (C := StoresNoVariant lower) (fun _ e h => (edit_edits h e).2)
    (fun _ e h hapart => edit_apart_iff h hapart e) hids hapart es

/-- For every two runs of edits from a directory whose addresses are apart: wherever
they are broken off, `forgot_password` answers alike on the two tables, whatever is
asked and whatever the counters say, exactly if neither stores a variant of an address.
On any two tables it answers one question alike exactly if the counters turn it away
or neither has two rows that answer to it. -/
theorem forgot_password_hides_iff (prims : Primitives) (cfg : Settings) (db : Db)
    (hids : db.UserIds) (hapart : Apart prims.lower db.users) (es es' : List UserEdit) :
    ((∀ xs, xs <+: es → ∀ ys, ys <+: es' →
        AllAlike prims cfg (run edit db xs).users (run edit db ys).users) ↔
      Along edit (StoresNoVariant prims.lower) db es ∧
        Along edit (StoresNoVariant prims.lower) db es') ∧
    ∀ (s : Server) (users users' : List User) (email ip : String),
      AnswersAlike prims cfg s users users' email ip ↔
        forgotAdmitted prims cfg s email ip = false ∨
          (answering prims users email).length ≤ 1 ∧ (answering prims users' email).length ≤ 1 := by
  refine ⟨?_, fun s users users' email ip => answersAlike_iff⟩
  rw [← apart_run_iff hids hapart, ← apart_run_iff hids hapart, always_iff_forall_prefix,
    always_iff_forall_prefix]
  have halike : ∀ xs ys, AllAlike prims cfg (run edit db xs).users (run edit db ys).users ↔
      Apart prims.lower (run edit db xs).users ∧ Apart prims.lower (run edit db ys).users :=
    fun xs ys => allAlike_iff (userIds_run hids xs).nodup (userIds_run hids ys).nodup
  simp only [halike]
  constructor
  · intro h
    exact ⟨fun xs hxs => (h xs hxs [] List.nil_prefix).1,
      fun ys hys => (h [] List.nil_prefix ys hys).2⟩
  · rintro ⟨h, h'⟩ xs hxs ys hys
    exact ⟨h xs hxs, h' ys hys⟩

/-! ## A second Ali -/

/-- An administrator. -/
def headOffice : Db where
  nextId := 2
  users :=
    [{ id := 1, fullName := "Administrator", email := some "admin@royd.uz", role := .admin,
       employeeProfile := some {} }]

/-- `str.lower` on ASCII. -/
def lowering : Primitives :=
  { plainPrimitives with lower := fun text => String.ofList (text.toList.map Char.toLower) }

/-- The administrator adds a member of staff. -/
def adds (email : String) : UserEdit :=
  .create 1 { fullName := "Ali", email, password := "parol12345", roleName := "staff" } "hash"

theorem forgot_password_hides_iff_headOffice :
    AllAlike lowering {} (run edit headOffice [adds "ali@royd.uz"]).users
      (run edit headOffice []).users := by
  have hhides := forgot_password_hides_iff lowering {} headOffice (by decide) (by decide +kernel)
    [adds "ali@royd.uz"] []
  exact hhides.1.mpr ⟨by decide +kernel, trivial⟩ _ List.prefix_rfl _ List.prefix_rfl

/-- Two addresses that differ in case are two accounts, and show themselves. -/
theorem variant_shows :
    ¬ ∀ es es' : List UserEdit,
      AllAlike lowering {} (run edit headOffice es).users (run edit headOffice es').users := by
  intro h
  have halike := h [adds "Ali@royd.uz", adds "ali@royd.uz"] [] { users := [], now := 0 }
    "ali@royd.uz" "10.0.0.7"
  have hadmitted : forgotAdmitted lowering {} { users := [], now := 0 } "ali@royd.uz" "10.0.0.7" =
      true := rfl
  have htwo : (answering lowering (run edit headOffice [adds "Ali@royd.uz", adds "ali@royd.uz"]).users
      "ali@royd.uz").length = 2 := by decide +kernel
  rcases answersAlike_iff.mp halike with hrefused | ⟨hone, -⟩
  · rw [hadmitted] at hrefused
    cases hrefused
  · rw [htwo] at hone
    exact absurd hone (by decide)

end Royd
