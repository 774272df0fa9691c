/-
Royd.Api.Steps — the system one step at a time: every operation that files
a request, changes one, or changes what a later filing reads.

A step whose handler raises leaves the database alone (`get_db` rolls the
session back), so a step is a total function and a run is a plain list of
events. Staff, students and the organisation are edited by other parts of
the system; `people` lets them be anything from one step to the next.
-/
import Royd.Api.Requests
import Royd.Services.Sweep
import Royd.Lib.Runs

namespace Royd.Api

variable (cfg : Settings)

/-- A call that changes an existing request or adds to it. -/
inductive Call where
  | assign (userId requestId : Nat) (data : RequestAssign)
  | transition (userId requestId : Nat) (data : RequestTransition)
  | answer (userId requestId : Nat) (text : String) (files : List Upload)
  | resubmit (userId requestId : Nat) (comment : Option String)
  | message (userId requestId : Nat) (data : MessageCreate)
  | upload (userId requestId : Nat) (file : Upload)
  | clientMessage (client : ApiClient) (requestId : Nat) (content : String)
  | clientUpload (client : ApiClient) (requestId : Nat) (file : Upload)
  | clientResubmit (client : ApiClient) (requestId : Nat) (comment : Option String)
  deriving DecidableEq, Repr

/-- The request a call is about. -/
def Call.requestId : Call → Nat
  | .assign _ requestId _ => requestId
  | .transition _ requestId _ => requestId
  | .answer _ requestId _ _ => requestId
  | .resubmit _ requestId _ => requestId
  | .message _ requestId _ => requestId
  | .upload _ requestId _ => requestId
  | .clientMessage _ requestId _ => requestId
  | .clientUpload _ requestId _ => requestId
  | .clientResubmit _ requestId _ => requestId

/-- The calls that move a request to another status. -/
def Call.movesStatus : Call → Bool
  | .transition .. => true
  | .answer .. => true
  | .resubmit .. => true
  | .clientResubmit .. => true
  | _ => false

/-- The handler of a call, up to its commit. -/
def Call.handle (db : Db) (now : Int) : Call → Except Exc Work
  | .assign userId requestId data => Api.assign cfg db userId requestId data now
  | .transition userId requestId data => Api.transition cfg db userId requestId data now
  | .answer userId requestId text files => Api.answer cfg db userId requestId text files now
  | .resubmit userId requestId comment => Api.resubmit cfg db userId requestId comment now
  | .message userId requestId data => Api.addMessage cfg db userId requestId data now
  | .upload userId requestId file => Api.uploadFile cfg db userId requestId file now
  | .clientMessage client requestId content =>
    Api.clientMessage cfg db client requestId content now
  | .clientUpload client requestId file => Api.clientUpload cfg db client requestId file now
  | .clientResubmit client requestId comment =>
    Api.clientResubmit cfg db client requestId comment now

/-- The edits of the catalogue endpoints. -/
inductive CatalogueEdit where
  | create (data : CategoryCreate)
  | update (categoryId : Nat) (payload : CategoryUpdate)
  | deactivate (categoryId : Nat)
  | addFile (categoryId : Nat) (upload : Upload) (userId : Nat)
  | removeFile (categoryId fileId : Nat)
  deriving DecidableEq, Repr

/-- `_category`. -/
def categoryOf (db : Db) (categoryId : Nat) : Except Exc RequestCategory :=
  match db.getCategory categoryId with
  | some cat => .ok cat
  | none => .error (.http 404 "Kategoriya topilmadi")

/-- What an edit of the catalogue commits. -/
def CatalogueEdit.apply (db : Db) (now : Int) : CatalogueEdit → Except Exc Db
  | .create data => buildCategory db data
  | .update categoryId payload => do
    let cat ← categoryOf db categoryId
    let cat' ← applyCategoryUpdate db cat payload
    .ok (db.putCategory cat')
  | .deactivate categoryId => do
    let cat ← categoryOf db categoryId
    .ok (db.putCategory { cat with isActive := false })
  | .addFile categoryId upload userId => do
    let cat ← categoryOf db categoryId
    addAutoReplyFile cfg db cat upload userId now
  | .removeFile categoryId fileId => do
    let cat ← categoryOf db categoryId
    removeAutoReplyFile db cat fileId

/-- One step of the system. The tracking number is the one Redis hands out
to the filing. -/
inductive Step where
  | create (userId : Nat) (data : RequestCreate) (key : Option String) (trackingNo : String)
  | clientCreate (client : ApiClient) (profile : StudentProfile) (data : RequestCreate)
      (key : Option String) (trackingNo : String)
  | call (c : Call)
  | sweep (useLock won : Bool)
  | catalogue (edit : CatalogueEdit)
  | people (users : List User) (departments : List Department) (faculties : List Faculty)
      (studentGroups : List StudentGroup)
  deriving DecidableEq, Repr

/-- `create`: a replay commits nothing. -/
def runCreate (db : Db) (userId : Nat) (data : RequestCreate) (key : Option String)
    (trackingNo : String) (now : Int) : Except Exc Db := do
  let student ← requireStudent db userId
  match replayOf db student key with
  | some _ => .ok db
  | none => do
    let f ← create cfg db student data trackingNo key now
    commitFiling db f

/-- `create_request` of the integration. -/
def runClientCreate (db : Db) (client : ApiClient) (profile : StudentProfile)
    (data : RequestCreate) (key : Option String) (trackingNo : String) (now : Int) :
    Except Exc Db := do
  let sync ← syncStudent db profile
  match replayOf db sync.user key with
  | some existing => do
    checkReplay client existing
    .ok db
  | none => do
    let f ← Api.clientCreate cfg db client sync data trackingNo key now
    commitFiling db f

/-- What a step commits, if it commits. -/
def Step.apply (db : Db) (now : Int) : Step → Except Exc Db
  | .create userId data key trackingNo => runCreate cfg db userId data key trackingNo now
  | .clientCreate client profile data key trackingNo =>
    runClientCreate cfg db client profile data key trackingNo now
  | .call c => do
    let w ← c.handle cfg db now
    .ok (db.finish w)
  | .sweep useLock won => .ok (sweepSlaDeadlines cfg db useLock won now)
  | .catalogue edit => edit.apply cfg db now
  | .people users departments faculties studentGroups =>
    .ok { db with users, departments, faculties, studentGroups }

/-- A step and the instant it is made at. -/
structure Event where
  now : Int
  step : Step
  deriving DecidableEq, Repr

/-- The database after an event. -/
def step (db : Db) (e : Event) : Db :=
  match e.step.apply cfg db e.now with
  | .ok db' => db'
  | .error _ => db

variable {cfg}

/-- A handler that raises leaves everything as it was. -/
theorem step_failed {db : Db} {e : Event} {exc : Exc}
    (h : e.step.apply cfg db e.now = .error exc) : step cfg db e = db := by
  unfold step
  rw [h]

theorem step_committed {db db' : Db} {e : Event} (h : e.step.apply cfg db e.now = .ok db') :
    step cfg db e = db' := by
  unfold step
  rw [h]

end Royd.Api
