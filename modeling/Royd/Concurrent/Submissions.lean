/-
Royd.Concurrent.Submissions — submissions that are retried, and reach the
workers in any order.

A submission goes through four steps, each on the tables as they are
committed by then: it finds out whose request it files (`identify`; on the
integration's path this is the upsert of the student, which stays in its
session), it looks its Idempotency-Key up, it runs `file_request`, and it
commits. The answer follows as a fifth, so a worker that dies after the
commit leaves a request nobody was told of. A submission may be dropped
before any of them.

A commit is atomic and PostgreSQL enforces the unique constraints at it
(`checkUnique`). `commits` and `responses` record what was committed and
what was answered; no step reads them.
-/
import Royd.Concurrent.Handlers

namespace Royd

/-- The HEMIS number of a student. -/
def User.hemisId (u : User) : Option String := u.studentProfile.bind (·.externalStudentId)

/-- Which identity each HEMIS number belongs to. -/
def identities (users : List User) : List (Nat × String) :=
  users.filterMap fun u => u.hemisId.map fun hemisId => (u.id, hemisId)

namespace Submissions

open Api

/-- The endpoint a submission comes through, and for whom. -/
inductive Origin where
  | student (userId : Nat)
  | client (client : ApiClient) (profile : StudentProfile)
  deriving DecidableEq, Repr

structure Submission where
  origin : Origin
  data : RequestCreate
  key : Option String
  deriving DecidableEq, Repr

/-- Who a submission turned out to be from. An API client's has the student
it upserted. -/
inductive Caller where
  | student (user : User)
  | client (client : ApiClient) (sync : StudentSync)
  deriving DecidableEq, Repr

namespace Caller

/-- The student a request is filed for. -/
def user : Caller → User
  | .student user => user
  | .client _ sync => sync.user

def sync? : Caller → Option StudentSync
  | .student _ => none
  | .client _ sync => some sync

def clientId? : Caller → Option Nat
  | .student _ => none
  | .client c _ => some c.id

/-- The first id of the sequence the caller has not drawn. -/
def nextId : Caller → Nat
  | .student _ => 0
  | .client _ sync => sync.nextId

/-- May the caller be answered with the request that carries its key? -/
def mayReplay (existing : Request) : Caller → Except Exc Unit
  | .student _ => .ok ()
  | .client c _ => checkReplay c existing

/-- `create` or `create_request`, past the replay check. -/
def file (cfg : Settings) (db : Db) (data : RequestCreate) (trackingNo : String)
    (key : Option String) (now : Int) : Caller → Except Exc Filing
  | .student user => create cfg db user data trackingNo key now
  | .client c sync => clientCreate cfg db c sync data trackingNo key now

end Caller

/-- Whose request a submission files. -/
def identify (db : Db) : Origin → Except Exc Caller
  | .student userId => do
    let user ← requireStudent db userId
    .ok (.student user)
  | .client client profile => do
    let sync ← syncStudent db profile
    .ok (.client client sync)

/-- How far a submission has come. -/
inductive Stage where
  | checking
  | filing
  | committing (f : Filing)
  | filed (requestId : Nat)
  deriving DecidableEq, Repr

/-- A submission under way. -/
structure Party where
  caller : Caller
  data : RequestCreate
  key : Option String
  stage : Stage
  deriving DecidableEq, Repr

/-- A successful response: 201 to the submission that created the request,
200 to a replay. -/
structure Response where
  caller : Caller
  key : Option String
  statusCode : Nat
  requestId : Nat
  deriving DecidableEq, Repr

/-- What was committed: a filing with its caller, or the session of another
handler. -/
inductive Commit where
  | filing (caller : Caller) (f : Filing)
  | other (s : Session)
  deriving DecidableEq, Repr

def Commit.session : Commit → Session
  | .filing _ f => f.session
  | .other s => s

def Commit.filing? : Commit → Option (Caller × Filing)
  | .filing caller f => some (caller, f)
  | .other _ => none

/-- The committed tables, the submissions under way, and the record. -/
structure World where
  db : Db
  parties : List Party := []
  commits : List Commit := []
  responses : List Response := []
  deriving DecidableEq, Repr

/-- The filings that were committed. -/
def World.filings (w : World) : List (Caller × Filing) := w.commits.filterMap Commit.filing?

/-! ## The steps of a submission -/

variable (cfg : Settings)

namespace World

/-- The party at `i` is through. -/
def leave (w : World) (i : Nat) : World := { w with parties := w.parties.eraseIdx i }

/-- The party at `i` goes on as `p`. -/
def goOn (w : World) (i : Nat) (p : Party) : World :=
  { w with parties := p :: w.parties.eraseIdx i }

def respond (w : World) (i : Nat) (response : Response) : World :=
  { w.leave i with responses := w.responses ++ [response] }

/-- `submit`: the caller is identified. -/
def submit (w : World) (s : Submission) : World :=
  match identify w.db s.origin with
  | .ok caller =>
    { w with
      db := { w.db with nextId := max w.db.nextId caller.nextId }
      parties := { caller, data := s.data, key := s.key, stage := .checking } :: w.parties }
  | .error _ => w

/-- The key is looked up, and a replay answered. -/
def check (w : World) (i : Nat) (p : Party) : World :=
  match replayOf w.db p.caller.user p.key with
  | some existing =>
    match p.caller.mayReplay existing with
    | .ok () => w.respond i ⟨p.caller, p.key, 200, existing.id⟩
    | .error _ => w.leave i
  | none => w.goOn i { p with stage := .filing }

/-- `file_request`. -/
def file (w : World) (i : Nat) (p : Party) (trackingNo : String) (now : Int) : World :=
  match p.caller.file cfg w.db p.data trackingNo p.key now with
  | .ok f => { w.goOn i { p with stage := .committing f } with db := w.db.reserve f.session }
  | .error _ => w.leave i

/-- The commit. -/
def commit (w : World) (i : Nat) (p : Party) (f : Filing) : World :=
  match commitFiling w.db f with
  | .ok db =>
    { w.goOn i { p with stage := .filed f.req.id } with
      db
      commits := w.commits ++ [.filing p.caller f] }
  | .error _ => w.leave i

/-- The party at `i` takes its next step. -/
def advance (w : World) (i : Nat) (trackingNo : String) (now : Int) : World :=
  match w.parties[i]? with
  | none => w
  | some p =>
    match p.stage with
    | .checking => w.check i p
    | .filing => w.file cfg i p trackingNo now
    | .committing f => w.commit i p f
    | .filed requestId => w.respond i ⟨p.caller, p.key, 201, requestId⟩

end World

/-! ## The rest of the system -/

/-- The sessions a pass of the sweep commits. -/
def sweepSessions (now : Int) : Db → List Request → List Session
  | _, [] => []
  | db, req :: rest =>
    let w := sweepOne cfg db req now
    w.session :: sweepSessions now (db.finish w) rest

/-- The sessions an event commits. -/
def sessionsOf (db : Db) (e : Event) : List Session :=
  match e.step with
  | .call c =>
    match c.handle cfg db e.now with
    | .ok w => [w.session]
    | .error _ => []
  | .sweep useLock won =>
    if useLock && !won then [] else sweepSessions cfg e.now db (sweepCandidates cfg db e.now)
  | _ => []

/-- The events besides submissions. People may be edited in any way that
leaves who is who alone. -/
def permitted (db : Db) : Step → Bool
  | .create .. => false
  | .clientCreate .. => false
  | .people users _ _ _ =>
    identities users == identities db.users && users.map (·.id) == db.users.map (·.id)
  | _ => true

inductive Message where
  | submit (s : Submission)
  | advance (i : Nat) (trackingNo : String) (now : Int)
  | drop (i : Nat)
  | newUser (u : User)
  | event (e : Event)
  deriving DecidableEq, Repr

/-- What a message does. A new identity gets the next id, and a HEMIS number
that is taken is refused. -/
def exchange (w : World) : Message → World
  | .submit s => w.submit s
  | .advance i trackingNo now => w.advance cfg i trackingNo now
  | .drop i => w.leave i
  | .newUser u =>
    if (identities w.db.users).any fun known => u.hemisId == some known.2 then w
    else
      { w with db :=
          { w.db with users := w.db.users ++ [{ u with id := w.db.nextId }], nextId := w.db.nextId + 1 } }
  | .event e =>
    if permitted w.db e.step then
      { w with
        db := step cfg w.db e
        commits := w.commits ++ (sessionsOf cfg w.db e).map .other }
    else w

end Submissions

end Royd
