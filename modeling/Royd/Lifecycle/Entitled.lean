/-
Royd.Lifecycle.Entitled — only entitled parties change a request.

`Entitled` lists who may: the student it belongs to, the integration that
filed it, the member of staff it is assigned to, whoever triages, and the
SLA sweep. Every act of the system has one of them behind it; that nobody
else changes anything is the same statement read the other way.
-/
import Royd.Api.Clients
import Royd.Lifecycle.Acts

namespace Royd

open Api

/-! ## The parties -/

namespace Api

/-- The calls a student may make about a request: sending it back, a public
message, a file. -/
def Call.forStudent : Call → Bool
  | .resubmit .. => true
  | .message _ _ data => !data.isInternal
  | .upload .. => true
  | _ => false

/-- The user whose access token an action carries. -/
def Action.userId? : Action → Option Nat
  | .inside (.create userId ..) _ => some userId
  | .inside (.call c) _ => c.userId?
  | .manage userId _ => some userId
  | _ => none

end Api

/-- An active user who calls. -/
structure Calls (w : World) (c : Call) (u : User) : Prop where
  caller : c.userId? = some u.id
  known : w.db.getUser u.id = some u
  active : u.isActive = true

/-- Who may change the request `id` by an action that leads from `w` to
`w'`. -/
inductive Entitled (w w' : World) (id : Nat) : Action → Prop
  | filing {data : RequestCreate} {key : Option String} {trackingNo : String} {u : User}
      {noClient : (Step.create u.id data key trackingNo).client? = none}
      (known : w.db.getUser u.id = some u) (active : u.isActive = true)
      (student : u.role = .student) (new : ∀ r ∈ w.db.requests, r.id ≠ id)
      (owns : ∃ r ∈ w'.db.requests, r.id = id ∧ r.studentId = u.id) :
      Entitled w w' id (.inside (.create u.id data key trackingNo) noClient)
  | owner {c : Call} {u : User} {r : Request} {noClient : (Step.call c).client? = none}
      (calls : Calls w c u) (row : r ∈ w.db.requests) (about : r.id = id)
      (student : u.role = .student) (owns : r.studentId = u.id) (own : c.forStudent = true) :
      Entitled w w' id (.inside (.call c) noClient)
  | assignee {c : Call} {u : User} {r : Request} {noClient : (Step.call c).client? = none}
      (calls : Calls w c u) (row : r ∈ w.db.requests) (about : r.id = id)
      (staff : u.role = .staff) (assigned : r.assignedTo = some u.id) :
      Entitled w w' id (.inside (.call c) noClient)
  | triage {c : Call} {u : User} {noClient : (Step.call c).client? = none}
      (calls : Calls w c u) (role : u.role = .registrator ∨ u.role = .admin) :
      Entitled w w' id (.inside (.call c) noClient)
  | client {claims : ClientClaims} {call : ClientWrite} {client : ClientRow}
      (admits : Admits w.clients [ApiClient.requestsWrite] claims client)
      (before : ∀ r ∈ w.db.requests, r.id = id → r.apiClientId = some client.id)
      (after : ∃ r ∈ w'.db.requests, r.id = id ∧ r.apiClientId = some client.id) :
      Entitled w w' id (.integration (.token claims) call)
  | sweep {useLock won : Bool} {noClient : (Step.sweep useLock won).client? = none} :
      Entitled w w' id (.inside (.sweep useLock won) noClient)

/-! ## Calls of a student -/

variable {cfg : Settings} {now : Int} {db : Db}

theorem currentUser_id {userId : Nat} {u : User} (h : currentUser db userId = .ok u) :
    u.id = userId ∧ db.getUser userId = some u ∧ u.isActive = true := by
  obtain ⟨hget, hactive⟩ := currentUser_eq_ok.mp h
  exact ⟨by simpa using List.find?_some hget, hget, hactive⟩

/-- A role that a call requires is the caller's. -/
theorem requireRoles_role {userId : Nat} {roles : List Role} {u v : User}
    (h : requireRoles db userId roles = .ok u) (hv : currentUser db userId = .ok v) :
    v.role ∈ roles := by
  obtain ⟨hu, hrole⟩ := requireRoles_eq_ok.mp h
  rw [hv, Except.ok.injEq] at hu
  rwa [hu]

/-- A call by a student that is carried out is one of a student's. -/
theorem handle_forStudent {c : Call} {w : Work} {userId : Nat} {u : User}
    (h : c.handle cfg db now = .ok w) (hcaller : c.userId? = some userId)
    (hu : currentUser db userId = .ok u) (hrole : u.role = .student) : c.forStudent = true := by
  cases c with
  | assign callerId requestId data =>
    cases hcaller
    obtain ⟨actor, hactor, -⟩ := bind_eq_ok.mp h
    have hmem := requireRoles_role hactor hu
    rw [hrole] at hmem
    exact absurd hmem (by decide)
  | transition callerId requestId data =>
    cases hcaller
    obtain ⟨actor, hactor, -⟩ := bind_eq_ok.mp h
    have hmem := requireRoles_role hactor hu
    rw [hrole] at hmem
    exact absurd hmem (by decide)
  | answer callerId requestId text files =>
    cases hcaller
    obtain ⟨actor, hactor, -⟩ := bind_eq_ok.mp h
    have hmem := requireRoles_role hactor hu
    rw [hrole] at hmem
    exact absurd hmem (by decide)
  | resubmit => rfl
  | message callerId requestId data =>
    cases hcaller
    obtain ⟨user, huser, h⟩ := bind_eq_ok.mp h
    obtain ⟨_, -, h⟩ := bind_eq_ok.mp h
    obtain ⟨_, hcheck, -⟩ := bind_eq_ok.mp h
    rw [hu, Except.ok.injEq] at huser
    subst huser
    obtain ⟨_, -, hcheck⟩ := bind_eq_ok.mp hcheck
    split at hcheck
    · cases hcheck
    · rename_i hinsider
      have houtsider : u.hasRole Role.seesInternal = false := by
        rw [User.hasRole, hrole]
        decide
      simpa [Call.forStudent, houtsider] using hinsider
  | upload => rfl
  | clientMessage => cases hcaller
  | clientUpload => cases hcaller
  | clientResubmit => cases hcaller

/-! ## One action -/

/-- The new request of a filing is in the tables, under an id of its own. -/
theorem filed_row {e : Event} {student : User} {data : RequestCreate} {trackingNo : String}
    {key : Option String} {client : Option ApiClient} {f : Filing} (hwf : db.Wf)
    (file : fileRequest cfg (db.synced f.sync) student data trackingNo key client e.now
      = .ok (f.req, f.session)) :
    f.req ∈ (insertFiling db f).requests ∧ (∀ r ∈ db.requests, r.id ≠ f.req.id) ∧
      f.req.studentId = student.id ∧ f.req.apiClientId = client.map (·.id) ∧
      ∀ id, f.req.id ≠ id → (insertFiling db f).life? id = db.life? id := by
  obtain ⟨first, second, fs, hopened⟩ := fileRequest_opened file
  obtain ⟨category, hfiled, hopening⟩ := hopened.filed
  have hbase := synced_elsewhere db f.sync
  refine ⟨?_, fun r hr heq => ?_, hopened.owner, hopened.filedBy, fun id hid => ?_⟩
  · rw [insertFiling_eq]
    exact List.mem_append_right _ (List.mem_singleton_self _)
  · have hbelow := hwf.requestsBelow r hr
    have hnext := hbase.nextId
    rw [heq, hfiled.id] at hbelow
    omega
  · rw [insertFiling_eq, life?_filed_other hid hopening hopened.holds, hbase.life? id]

/-- A step inside the application that changes a request has somebody
entitled behind it. -/
theorem inside_entitled {w w' : World} {id : Nat} {step' : Step} (hwf : w.db.Wf)
    (noClient : step'.client? = none) (hdb : w'.db = Api.step cfg w.db ⟨now, step'⟩)
    (hchanged : w'.db.life? id ≠ w.db.life? id) : Entitled w w' id (.inside step' noClient) := by
  by_cases hsweep : ∃ useLock won, step' = .sweep useLock won
  · obtain ⟨useLock, won, rfl⟩ := hsweep
    exact .sweep
  rcases step_act cfg w.db (e := ⟨now, step'⟩) fun useLock won heq => hsweep ⟨useLock, won, heq⟩
    with hsame | hact
  · rw [hdb, hsame] at hchanged
    exact absurd rfl hchanged
  rw [← hdb] at hact
  generalize hdb' : w'.db = db' at hact hchanged
  cases hact with
  | elsewhere edit => exact absurd (edit.life? id) hchanged
  | @filed student data trackingNo key client f filer file =>
    obtain ⟨hmem, hnew, howner, -, hother⟩ := filed_row hwf file
    by_cases hid : f.req.id = id
    · subst hid
      generalize hsync : f.sync = sync at filer
      cases filer with
      | @student userId data key trackingNo student active =>
        obtain ⟨user, huser, hrole⟩ := bind_eq_ok.mp active
        split at hrole
        · rename_i hstudent
          cases hrole
          obtain ⟨rfl, hknown, hactive⟩ := currentUser_id huser
          exact .filing hknown hactive (by simpa [User.hasRole] using hstudent) hnew
            ⟨f.req, by rwa [hdb'], rfl, howner⟩
        · cases hrole
      | client synced => cases noClient
    · exact absurd (hother id hid) hchanged
  | @done c work call handled does change =>
    dsimp only at call
    subst call
    by_cases hid : work.loaded.id = id
    · obtain ⟨actor, hauthority, -⟩ := does.done
      cases hauthority with
      | user caller active acts =>
        obtain ⟨rfl, hknown, hactive⟩ := currentUser_id active
        have hcalls : Calls w c actor := ⟨caller, hknown, hactive⟩
        rcases acts with ⟨hstudent, howns⟩ | ⟨hstaff, hassigned⟩ | htriage
        · exact .owner hcalls does.committed hid hstudent howns
            (handle_forStudent handled caller active hstudent)
        · exact .assignee hcalls does.committed hid hstaff hassigned
        · exact .triage hcalls (by simpa [Role.canTriage] using htriage)
      | @client client caller filed student =>
        have hnone : c.client? = none := by
          cases c <;> first | rfl | cases noClient
        rw [hnone] at caller
        cases caller
    · exact absurd (life?_finish_other hid change) hchanged
  | noticed sweep row needs => exact absurd ⟨_, _, sweep⟩ hsweep

/-- So has a call of an integration. -/
theorem integration_entitled {w w' : World} {id : Nat} {claims : ClientClaims} {call : ClientWrite}
    {client : ClientRow} (hwf : w.db.Wf)
    (admits : Admits w.clients [ApiClient.requestsWrite] claims client)
    (hdb : w'.db = Api.step cfg w.db ⟨now, call.step client.caller⟩)
    (hchanged : w'.db.life? id ≠ w.db.life? id) :
    Entitled w w' id (.integration (.token claims) call) := by
  have hcall : ∀ useLock won, call.step client.caller ≠ .sweep useLock won := by
    intro useLock won heq
    cases call <;> cases heq
  rcases step_act cfg w.db (e := ⟨now, call.step client.caller⟩) hcall with hsame | hact
  · rw [hdb, hsame] at hchanged
    exact absurd rfl hchanged
  rw [← hdb] at hact
  generalize hdb' : w'.db = db' at hact hchanged
  cases hact with
  | elsewhere edit => exact absurd (edit.life? id) hchanged
  | @filed student data trackingNo key caller f filer file =>
    obtain ⟨hmem, hnew, -, hfiledBy, hother⟩ := filed_row hwf file
    by_cases hid : f.req.id = id
    · subst hid
      have hcaller : caller = some client.caller := by
        generalize hsync : f.sync = sync at filer
        generalize hstep : call.step client.caller = step' at filer
        cases filer with
        | student active => cases call <;> cases hstep
        | client synced => cases call <;> cases hstep; rfl
      rw [hcaller] at hfiledBy
      exact .client admits (fun r hr hid => absurd hid (hnew r hr))
        ⟨f.req, by rwa [hdb'], rfl, hfiledBy⟩
    · exact absurd (hother id hid) hchanged
  | @done c work hstep handled does change =>
    by_cases hid : work.loaded.id = id
    · obtain ⟨actor, hauthority, -⟩ := does.done
      have hclient : c.client? = some client.caller ∧ c.userId? = none := by
        cases call <;> cases hstep <;> exact ⟨rfl, rfl⟩
      have hfiled : work.loaded.apiClientId = some client.id := by
        cases hauthority with
        | user caller active acts =>
          rw [hclient.2] at caller
          cases caller
        | client caller filed student =>
          rw [hclient.1, Option.some.injEq] at caller
          rw [filed, ← caller]
          rfl
      have hkept : work.req.apiClientId = work.loaded.apiClientId := by
        rw [← change.write]
        rfl
      obtain ⟨-, hafter⟩ := life?_changed hwf does.committed change
      obtain ⟨r, hr, hrid, hlife⟩ := life?_eq_some hafter
      have hreq : work.req = r := congrArg Life.req hlife
      subst hid
      refine .client admits (fun r' hr' hid' => ?_) ⟨r, by rwa [hdb'], hrid, ?_⟩
      · rw [hwf.eq_of_id hr' does.committed hid', hfiled]
      · rw [← hreq, hkept, hfiled]
    · exact absurd (life?_finish_other hid change) hchanged
  | noticed sweep row needs => exact absurd sweep (hcall _ _)

/-- Every action that changes a request has somebody entitled behind it. -/
theorem step_entitled {sha256 : String → String} {w : World} {h : Happening} {id : Nat}
    (hwf : w.db.Wf) (hchanged : (w.step cfg sha256 h).db.life? id ≠ w.db.life? id) :
    Entitled w (w.step cfg sha256 h) id h.action := by
  obtain ⟨now, action⟩ := h
  cases action with
  | inside step' noClient => exact inside_entitled hwf noClient rfl hchanged
  | integration bearer call =>
    cases hclient : getCurrentClient w.clients [ApiClient.requestsWrite] bearer with
    | error exc =>
      have hsame : (w.step cfg sha256 ⟨now, .integration bearer call⟩).db = w.db := by
        simp [World.step, World.event?, hclient]
      rw [hsame] at hchanged
      exact absurd rfl hchanged
    | ok client =>
      have hdb : (w.step cfg sha256 ⟨now, .integration bearer call⟩).db
          = Api.step cfg w.db ⟨now, call.step client.caller⟩ := by
        simp [World.step, World.event?, hclient]
      obtain ⟨claims, rfl, hadmits⟩ := getCurrentClient_eq_ok hclient
      exact integration_entitled hwf hadmits hdb hchanged
  | manage userId edit => exact absurd rfl hchanged
  | exchange form => exact absurd rfl hchanged

/-! ## Every run -/

/-- The world after some actions. -/
def World.run (cfg : Settings) (sha256 : String → String) : World → List Happening → World :=
  Runs.run (World.step cfg sha256)

theorem world_wf (cfg : Settings) (sha256 : String → String) {w : World} (h : w.db.Wf)
    (hs : List Happening) : (World.run cfg sha256 w hs).db.Wf := by
  have hinv : ∀ (w : World) (h : Happening), w.db.Wf → (w.step cfg sha256 h).db.Wf := by
    intro w h hwf
    unfold World.step
    dsimp only
    split
    · exact (step_life cfg hwf _).1
    · exact hwf
  exact Runs.run_invariant hinv h hs

/-- Who has nothing to say about the request `r`: leadership, another
student, staff it is not assigned to, another integration. -/
inductive Barred (w : World) (r : Request) (a : Action) : Prop
  | leadership {u : User} (caller : a.userId? = some u.id) (known : w.db.getUser u.id = some u)
      (leadership : u.role = .leadership)
  | student {u : User} (caller : a.userId? = some u.id) (known : w.db.getUser u.id = some u)
      (student : u.role = .student) (other : r.studentId ≠ u.id)
  | staff {u : User} (caller : a.userId? = some u.id) (known : w.db.getUser u.id = some u)
      (staff : u.role = .staff) (other : r.assignedTo ≠ some u.id)
  | client {claims : ClientClaims} {call : ClientWrite} {client : ClientRow}
      (caller : a = .integration (.token claims) call)
      (known : findClient w.clients claims.sub = some client)
      (other : r.apiClientId ≠ some client.id)

/-- What the token of an entitled user says of the caller. -/
theorem Calls.same {w : World} {c : Call} {u v : User} (h : Calls w c u)
    {noClient : (Step.call c).client? = none}
    (caller : (Action.inside (.call c) noClient).userId? = some v.id)
    (known : w.db.getUser v.id = some v) : u = v := by
  have hid : u.id = v.id := Option.some.inj (h.caller.symm.trans caller)
  have hknown := h.known
  rw [hid, known, Option.some.injEq] at hknown
  exact hknown.symm

/-- Nobody who is barred is entitled. -/
theorem Entitled.not_barred {w w' : World} {r : Request} {a : Action} (hwf : w.db.Wf)
    (hr : r ∈ w.db.requests) (h : Entitled w w' r.id a) : ¬ Barred w r a := by
  intro hbarred
  cases h with
  | filing known active student new owns => exact new r hr rfl
  | owner calls row about student owns own =>
    rw [hwf.eq_of_id row hr about] at owns
    cases hbarred with
    | leadership caller known role =>
      rw [calls.same caller known, role] at student
      cases student
    | student caller known role other =>
      rw [calls.same caller known] at owns
      exact other owns
    | staff caller known role other =>
      rw [calls.same caller known, role] at student
      cases student
    | client caller => cases caller
  | assignee calls row about staff assigned =>
    rw [hwf.eq_of_id row hr about] at assigned
    cases hbarred with
    | leadership caller known role =>
      rw [calls.same caller known, role] at staff
      cases staff
    | student caller known role other =>
      rw [calls.same caller known, role] at staff
      cases staff
    | staff caller known role other =>
      rw [calls.same caller known] at assigned
      exact other assigned
    | client caller => cases caller
  | triage calls role =>
    cases hbarred with
    | leadership caller known role' =>
      rw [calls.same caller known, role'] at role
      simp at role
    | student caller known role' other =>
      rw [calls.same caller known, role'] at role
      simp at role
    | staff caller known role' other =>
      rw [calls.same caller known, role'] at role
      simp at role
    | client caller => cases caller
  | client admits before after =>
    cases hbarred with
    | leadership caller => cases caller
    | student caller => cases caller
    | staff caller => cases caller
    | client caller known other =>
      cases caller
      rw [admits.found, Option.some.injEq] at known
      rw [← known] at other
      exact other (before r hr rfl)
  | sweep =>
    cases hbarred with
    | leadership caller => cases caller
    | student caller => cases caller
    | staff caller => cases caller
    | client caller => cases caller

/-- Only entitled parties change a request. After every run of the
application and its integrations, whatever action comes next: if it changes
a request, its messages, files or history, somebody entitled is behind it;
and one by a barred party leaves the request as it is. -/
theorem only_entitled (cfg : Settings) (sha256 : String → String) {w₀ : World}
    (h : Start w₀.db) (hs : List Happening) (next : Happening) :
    (∀ id, (World.run cfg sha256 w₀ (hs ++ [next])).db.life? id
        ≠ (World.run cfg sha256 w₀ hs).db.life? id →
      Entitled (World.run cfg sha256 w₀ hs) (World.run cfg sha256 w₀ (hs ++ [next])) id
        next.action) ∧
    ∀ r ∈ (World.run cfg sha256 w₀ hs).db.requests,
      Barred (World.run cfg sha256 w₀ hs) r next.action →
      (World.run cfg sha256 w₀ (hs ++ [next])).db.life? r.id
        = (World.run cfg sha256 w₀ hs).db.life? r.id := by
  have hwf := world_wf cfg sha256 h.wf hs
  have hnext : World.run cfg sha256 w₀ (hs ++ [next])
      = (World.run cfg sha256 w₀ hs).step cfg sha256 next := Runs.run_concat ..
  rw [hnext]
  refine ⟨fun id hchanged => step_entitled hwf hchanged, fun r hr hbarred => ?_⟩
  by_contra hchanged
  exact (step_entitled hwf hchanged).not_barred hwf hr hbarred

/-- The office with an integration that may write. -/
def portalOffice : World where
  db := office
  clients :=
    [{ id := 7, name := "Portal", clientId := "royd_7", secretHash := "h",
       scopes := [ApiClient.requestsRead, ApiClient.requestsWrite] }]
  nextClientId := 8

/-- A token of the integration. -/
def portalToken : Bearer :=
  .token { type := "client", sub := 7, ver := some 1, scope := "requests:read requests:write" }

/-- It files a request for a student it brings along. -/
def portalFiles : Happening :=
  ⟨0, .integration portalToken (.createRequest
    { studentIdNumber := "305", fullName := "Yangi talaba", faculty := "Fizika", group := "101"
      level := 1 }
    { categoryId := 4, title := "Ariza", description := "Matn" } none "REQ-1")⟩

/-- Then it writes for the student. -/
def portalWrites : Happening := ⟨1, .integration portalToken (.addMessage 13 "Ilova")⟩

/-- The integration changes the request it filed. -/
theorem only_entitled_office :
    ((World.run {} id portalOffice ([portalFiles] ++ [portalWrites])).db.life? 13
      ≠ (World.run {} id portalOffice [portalFiles]).db.life? 13) ∧
    (∀ requestId, (World.run {} id portalOffice ([portalFiles] ++ [portalWrites])).db.life? requestId
        ≠ (World.run {} id portalOffice [portalFiles]).db.life? requestId →
      Entitled (World.run {} id portalOffice [portalFiles])
        (World.run {} id portalOffice ([portalFiles] ++ [portalWrites])) requestId
        portalWrites.action) ∧
    ∀ r ∈ (World.run {} id portalOffice [portalFiles]).db.requests,
      Barred (World.run {} id portalOffice [portalFiles]) r portalWrites.action →
      (World.run {} id portalOffice ([portalFiles] ++ [portalWrites])).db.life? r.id
        = (World.run {} id portalOffice [portalFiles]).db.life? r.id :=
  ⟨by decide +kernel, only_entitled {} id office_start [portalFiles] portalWrites⟩

end Royd
