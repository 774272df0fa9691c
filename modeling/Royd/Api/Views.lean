/-
Royd.Api.Views — what the endpoints answer with: the payloads of
`schemas/request.py`, the lists and the downloads of `api/v1/requests.py`
and `api/v1/integration.py`.

`updatedAt` is the `updated_at` column of `requests`, kept beside the rows,
and `ilike` the operator of PostgreSQL (the text, then the pattern). Rows
that tie in an `ORDER BY` come in the order of their table.
-/
import Royd.Api.Steps
import Mathlib.Data.List.Sort

namespace Royd.Api

/-! ## Ordering -/

/-- `ORDER BY key`. Rows with equal keys come as they stand in the table, which a
database need not do. -/
def orderBy {α : Type} (key : α → Int) (rows : List α) : List α :=
  rows.insertionSort fun a b => key a ≤ key b

/-- Rows are left out before or after they are sorted. -/
theorem filter_orderedInsert {α : Type} (key : α → Int) (keep : α → Bool) (row : α)
    {rows : List α} (hsorted : rows.Pairwise fun a b => key a ≤ key b) :
    (rows.orderedInsert (fun a b => key a ≤ key b) row).filter keep =
      if keep row then (rows.filter keep).orderedInsert (fun a b => key a ≤ key b) row
      else rows.filter keep := by
  induction rows with
  | nil => cases h : keep row <;> simp [h]
  | cons first rest ih =>
    obtain ⟨hfirst, hrest⟩ := List.pairwise_cons.mp hsorted
    rw [List.orderedInsert_cons]
    split
    · rename_i hle
      -- The new row comes first, before all that are kept.
      have hall : ∀ b ∈ (first :: rest).filter keep, key row ≤ key b := by
        intro b hb
        rcases List.mem_cons.mp (List.mem_filter.mp hb).1 with rfl | hb
        · exact hle
        · exact le_trans hle (hfirst b hb)
      have hinsert : ((first :: rest).filter keep).orderedInsert (fun a b => key a ≤ key b) row =
          row :: (first :: rest).filter keep := by
        cases hkept : (first :: rest).filter keep with
        | nil => rfl
        | cons b bs => exact List.orderedInsert_cons_of_le _ bs (hall b (by simp [hkept]))
      rw [hinsert]
      cases h : keep row <;> simp [h]
    · rename_i hlt
      rw [List.filter_cons, ih hrest, List.filter_cons]
      cases hfirst' : keep first <;> cases hrow : keep row <;> simp [hlt]

theorem filter_orderBy {α : Type} (key : α → Int) (keep : α → Bool) (rows : List α) :
    (orderBy key rows).filter keep = orderBy key (rows.filter keep) := by
  induction rows with
  | nil => rfl
  | cons row rows ih =>
    have hsorted : (orderBy key rows).Pairwise fun a b => key a ≤ key b :=
      List.pairwise_insertionSort (fun a b => key a ≤ key b) rows
    rw [List.filter_cons]
    show ((orderBy key rows).orderedInsert _ row).filter keep = _
    rw [filter_orderedInsert key keep row hsorted, ih]
    split <;> rfl

theorem map_orderBy {α β : Type} {key : α → Int} {key' : β → Int} {f : α → β}
    (hkey : ∀ a, key' (f a) = key a) (rows : List α) :
    (orderBy key rows).map f = orderBy key' (rows.map f) :=
  List.map_insertionSort _ _ f rows fun a _ b _ => by rw [hkey, hkey]

theorem mem_orderBy {α : Type} {key : α → Int} {rows : List α} {row : α} :
    row ∈ orderBy key rows ↔ row ∈ rows := List.mem_insertionSort _

/-! ## Payloads -/

/-- `UserMini`. -/
structure UserMini where
  id : Nat
  fullName : String
  email : Option String
  deriving DecidableEq, Repr

/-- `MessageOut`. -/
structure MessageOut where
  id : Nat
  requestId : Nat
  senderId : Nat
  content : String
  isInternal : Bool
  createdAt : Int
  senderName : Option String
  senderRole : Option Role
  deriving DecidableEq, Repr

/-- `RequestFileOut`. -/
structure RequestFileOut where
  id : Nat
  requestId : Nat
  uploadedBy : Nat
  fileName : String
  fileSize : Nat
  mimeType : String
  isAnswer : Bool
  createdAt : Int
  deriving DecidableEq, Repr

/-- `RequestAnswerOut`. -/
structure RequestAnswerOut where
  text : String
  description : Option String
  answeredAt : Int
  answeredBy : Option Nat
  answeredByName : Option String
  files : List RequestFileOut
  deriving DecidableEq, Repr

/-- `RequestHistoryOut`. -/
structure RequestHistoryOut where
  id : Nat
  requestId : Nat
  changedBy : Option Nat
  oldStatus : Option RequestStatus
  newStatus : RequestStatus
  comment : Option String
  createdAt : Int
  changedByName : Option String
  changedByRole : Option Role
  deriving DecidableEq, Repr

/-- `RequestSummary`. -/
structure RequestSummary where
  id : Nat
  trackingNo : String
  title : String
  status : RequestStatus
  priority : Priority
  categoryId : Nat
  studentId : Nat
  assignedTo : Option Nat
  facultyId : Option Nat
  departmentId : Option Nat
  slaDeadline : Int
  slaPausedAt : Option Int
  clientRef : Option String
  createdAt : Int
  updatedAt : Int
  closedAt : Option Int
  isOverdue : Bool
  deriving DecidableEq, Repr

/-- `RequestDetail`. `CategoryOut` has the columns of the row itself. -/
structure RequestDetail extends RequestSummary where
  description : String
  category : RequestCategory
  serviceType : Option RequestCategory
  student : UserMini
  assignee : Option UserMini
  history : List RequestHistoryOut
  files : List RequestFileOut
  messages : List MessageOut
  answer : Option RequestAnswerOut
  deriving DecidableEq, Repr

/-- `Page`. -/
structure Page (α : Type) where
  items : List α
  total : Nat
  limit : Nat
  offset : Nat
  deriving DecidableEq, Repr

/-- `updated_at` after a commit: `onupdate` sets it on every `UPDATE` of the
row, which is sent only when some column has changed. -/
def touch (updatedAt : Nat → Int) (before after : Db) (now : Int) (id : Nat) : Int :=
  if after.getRequest id = before.getRequest id then updatedAt id else now

/-- The tables, with the `updated_at` column of `requests` beside them. -/
structure Stamped where
  db : Db
  updatedAt : Nat → Int

/-- The tables and the column after an event. -/
def Stamped.step (cfg : Settings) (o : Stamped) (e : Event) : Stamped where
  db := Api.step cfg o.db e
  updatedAt := touch o.updatedAt o.db (Api.step cfg o.db e) e.now

variable (db : Db) (updatedAt : Nat → Int) (now : Int)

/-- `RequestSummary.model_validate`. -/
def requestSummary (req : Request) : RequestSummary where
  id := req.id
  trackingNo := req.trackingNo
  title := req.title
  status := req.status
  priority := req.priority
  categoryId := req.categoryId
  studentId := req.studentId
  assignedTo := req.assignedTo
  facultyId := req.facultyId
  departmentId := req.departmentId
  slaDeadline := req.slaDeadline
  slaPausedAt := req.slaPausedAt
  clientRef := req.clientRef
  createdAt := req.createdAt
  updatedAt := updatedAt req.id
  closedAt := req.closedAt
  isOverdue := RequestStatus.slaRunning.contains req.status && decide (req.slaDeadline < now)

/-- `UserMini.model_validate`. -/
def userMini (u : User) : UserMini := ⟨u.id, u.fullName, u.email⟩

/-- `RequestFileOut.model_validate`. -/
def requestFileOut (f : RequestFile) : RequestFileOut where
  id := f.id
  requestId := f.requestId
  uploadedBy := f.uploadedBy
  fileName := f.fileName
  fileSize := f.fileSize
  mimeType := f.mimeType
  isAnswer := f.isAnswer
  createdAt := f.createdAt

/-- The users `_fill_actor_names` collects: the parties of the request, the
senders of all its messages and the actors of its history. -/
def actors (req : Request) : List User :=
  [some req.studentId, req.assignedTo].filterMap (·.bind db.getUser)
    ++ (db.messagesOf req.id).filterMap (fun m => db.getUser m.senderId)
    ++ (db.historyOf req.id).filterMap (·.changedBy.bind db.getUser)

/-- `describe`: a later entry of `people` has replaced an earlier one. -/
def describe (people : List User) (userId : Option Nat) : Option String × Option Role :=
  match userId.bind fun id => people.reverse.find? (·.id == id) with
  | some person => (some person.fullName, some person.role)
  | none => (none, none)

/-- A message with its author's name. -/
def messageOut (people : List User) (m : Message) : MessageOut where
  id := m.id
  requestId := m.requestId
  senderId := m.senderId
  content := m.content
  isInternal := m.isInternal
  createdAt := m.createdAt
  senderName := (describe people (some m.senderId)).1
  senderRole := (describe people (some m.senderId)).2

/-- A history entry with the name of who made the change. -/
def historyOut (people : List User) (h : RequestHistory) : RequestHistoryOut where
  id := h.id
  requestId := h.requestId
  changedBy := h.changedBy
  oldStatus := h.oldStatus
  newStatus := h.newStatus
  comment := h.comment
  createdAt := h.createdAt
  changedByName := (describe people h.changedBy).1
  changedByRole := (describe people h.changedBy).2

/-- The `answer` block of a detail. -/
def answerOut (req : Request) (files : List RequestFileOut) : Option RequestAnswerOut :=
  req.answeredAt.map fun answeredAt =>
    { text := req.answerText.getD ""
      description := req.answerDescription
      answeredAt
      answeredBy := req.answeredBy
      answeredByName := (req.answeredBy.bind db.getUser).map (·.fullName)
      files := files.filter (·.isAnswer) }

/-- `RequestDetail.for_viewer`. The foreign keys leave no request without
its category and its student. -/
def forViewer (includeInternal : Bool) (req : Request) : Except Exc RequestDetail :=
  match db.getCategory req.categoryId, db.getUser req.studentId with
  | some category, some student =>
    let messages := (orderBy (·.createdAt) (db.messagesOf req.id)).filter fun m =>
      includeInternal || !m.isInternal
    let history := orderBy (·.createdAt) (orderBy (fun h => (h.id : Int)) (db.historyOf req.id))
    let files := (orderBy (·.createdAt) (db.filesOf req.id)).map requestFileOut
    let people := actors db req
    .ok
      { toRequestSummary := requestSummary updatedAt now req
        description := req.description
        category
        serviceType := category.parentId.bind db.getCategory
        student := userMini student
        assignee := (req.assignedTo.bind db.getUser).map userMini
        history := history.map (historyOut people)
        files
        messages := messages.map (messageOut people)
        answer := answerOut db req files }
  | _, _ => .error (.value "validation error for RequestDetail")

/-! ## Names -/

/-- The name and role of a user, if there is one. -/
def identify (person : Option User) : Option String × Option Role :=
  (person.map (·.fullName), person.map (·.role))

/-- Whatever the map of people was built from, it has no other user under an
id than the one of that id. -/
theorem describe_of_mem {people : List User} (hpeople : ∀ u ∈ people, db.getUser u.id = some u)
    {userId : Nat} (hmem : ∀ u, db.getUser userId = some u → u ∈ people) :
    describe people (some userId) = identify (db.getUser userId) := by
  have hfind : people.reverse.find? (·.id == userId) = db.getUser userId := by
    cases hfound : people.reverse.find? (·.id == userId) with
    | some u =>
      have hid : u.id = userId := by simpa using List.find?_some hfound
      rw [← hid, hpeople u (List.mem_reverse.mp (List.mem_of_find?_eq_some hfound))]
    | none =>
      cases huser : db.getUser userId with
      | none => rfl
      | some u =>
        have hid : u.id = userId := by simpa using List.find?_some huser
        have hmissing := List.find?_eq_none.mp hfound u (List.mem_reverse.mpr (hmem u huser))
        simp [hid] at hmissing
  unfold describe
  rw [Option.bind_some, hfind]
  cases db.getUser userId <;> rfl

theorem actors_getUser (req : Request) : ∀ u ∈ actors db req, db.getUser u.id = some u := by
  have hself {id : Nat} {u : User} (h : db.getUser id = some u) : db.getUser u.id = some u := by
    have hid : u.id = id := by simpa using List.find?_some h
    rw [hid, h]
  intro u hu
  unfold actors at hu
  rcases List.mem_append.mp hu with hu | hu
  · rcases List.mem_append.mp hu with hu | hu
    · obtain ⟨party, -, hparty⟩ := List.mem_filterMap.mp hu
      obtain ⟨id, -, hid⟩ := Option.bind_eq_some_iff.mp hparty
      exact hself hid
    · obtain ⟨m, -, hm⟩ := List.mem_filterMap.mp hu
      exact hself hm
  · obtain ⟨h, -, hh⟩ := List.mem_filterMap.mp hu
    obtain ⟨id, -, hid⟩ := Option.bind_eq_some_iff.mp hh
    exact hself hid

/-- The author of a message is always named. -/
theorem describe_sender {req : Request} {m : Message} (hm : m ∈ db.messagesOf req.id) :
    describe (actors db req) (some m.senderId) = identify (db.getUser m.senderId) := by
  refine describe_of_mem db (actors_getUser db req) fun u hu => ?_
  refine List.mem_append_left _ (List.mem_append_right _ ?_)
  exact List.mem_filterMap.mpr ⟨m, hm, hu⟩

/-- So is whoever made a change. -/
theorem describe_changedBy {req : Request} {h : RequestHistory} (hh : h ∈ db.historyOf req.id) :
    describe (actors db req) h.changedBy = identify (h.changedBy.bind db.getUser) := by
  cases hactor : h.changedBy with
  | none => rfl
  | some userId =>
    refine describe_of_mem db (actors_getUser db req) fun u hu => ?_
    refine List.mem_append_right _ (List.mem_filterMap.mpr ⟨h, hh, ?_⟩)
    rw [hactor, Option.bind_some, hu]

/-! ## Lists -/

/-- The bounds of a page, as `Query(ge=..., le=...)` lets them through. -/
structure PageBounds where
  limit : Nat := 50
  offset : Nat := 0
  positive : 1 ≤ limit := by decide
  bounded : limit ≤ 200 := by decide
  deriving DecidableEq, Repr

/-- The status filter of both lists. -/
def checkStatusFilter (status : Option String) : Except Exc (Option RequestStatus) :=
  match status with
  | none => .ok none
  | some text =>
    match RequestStatus.ofCode text with
    | some s => .ok (some s)
    | none => .error (.http 422 ("Noma'lum holat: " ++ text))

/-- A page of the rows that pass the filters, in the order `sort` puts them in,
with the number of all of them. -/
def pageIn (sort : List Request → List Request) (rows : List Request) (bounds : PageBounds) :
    Page RequestSummary where
  items := (((sort rows).drop bounds.offset).take bounds.limit).map (requestSummary updatedAt now)
  total := rows.length
  limit := bounds.limit
  offset := bounds.offset

/-- The newest first. -/
def pageOf (rows : List Request) (bounds : PageBounds) : Page RequestSummary :=
  pageIn updatedAt now (orderBy fun r => -r.createdAt) rows bounds

/-- The query parameters of `GET /requests`. -/
structure RequestFilters where
  status : Option String := none
  facultyId : Option Nat := none
  categoryId : Option Nat := none
  assignedTo : Option Nat := none
  unassigned : Option Bool := none
  overdue : Option Bool := none
  search : Option String := none
  deriving DecidableEq, Repr

/-- The row filter of the caller's role. -/
def inScope (user : User) (r : Request) : Bool :=
  match user.role with
  | .student => r.studentId == user.id
  | .staff => r.assignedTo == some user.id
  | _ => true

/-- The `where` of `GET /requests`. -/
def matchesFilters (ilike : String → String → Bool) (f : RequestFilters)
    (status : Option RequestStatus) (r : Request) : Bool :=
  status.all (r.status == ·)
    && f.facultyId.all (r.facultyId == some ·)
    && f.categoryId.all (r.categoryId == ·)
    && f.assignedTo.all (r.assignedTo == some ·)
    && (!f.unassigned.getD false || r.assignedTo.isNone)
    && (!f.overdue.getD false
      || (RequestStatus.slaRunning.contains r.status && decide (r.slaDeadline < now)))
    && (f.search.all fun text => text.isEmpty
      || [r.title, r.description, r.trackingNo].any (ilike · ("%" ++ text ++ "%")))

/-- `list_requests`, in the order `sort` puts the rows in. -/
def listRequestsIn (sort : List Request → List Request) (ilike : String → String → Bool)
    (userId : Nat) (f : RequestFilters) (bounds : PageBounds) :
    Except Exc (Page RequestSummary) := do
  let user ← currentUser db userId
  let status ← checkStatusFilter f.status
  let rows := db.requests.filter fun r => inScope user r && matchesFilters now ilike f status r
  .ok (pageIn updatedAt now sort rows bounds)

/-- `list_requests`. -/
def listRequests (ilike : String → String → Bool) (userId : Nat) (f : RequestFilters)
    (bounds : PageBounds) : Except Exc (Page RequestSummary) :=
  listRequestsIn db updatedAt now (orderBy fun r => -r.createdAt) ilike userId f bounds

/-- The subquery of `student_hemis_id`. -/
def ownedByHemisId (hemisId : String) (r : Request) : Bool :=
  hemisId.isEmpty || (db.users.filter (hasHemisId hemisId)).any (·.id == r.studentId)

/-- `list_requests` of the integration. -/
def clientRequests (client : ApiClient) (status : Option String) (studentHemisId : Option String)
    (bounds : PageBounds) : Except Exc (Page RequestSummary) := do
  let status ← checkStatusFilter status
  let rows := db.requests.filter fun r =>
    r.apiClientId == some client.id && status.all (r.status == ·)
      && studentHemisId.all (ownedByHemisId db · r)
  .ok (pageOf updatedAt now rows bounds)

/-! ## Details -/

/-- `_sees_internal`. -/
def seesInternal (user : User) : Bool := user.hasRole Role.seesInternal

/-- `get_detail`. -/
def getDetail (userId requestId : Nat) : Except Exc RequestDetail := do
  let user ← currentUser db userId
  let w ← getRequestForUser db requestId user
  forViewer db updatedAt now (seesInternal user) w.req

/-- `reload_detail`, as `_client_view` shows it. -/
def clientView (requestId : Nat) : Except Exc RequestDetail :=
  match db.getRequest requestId with
  | some req => forViewer db updatedAt now false req
  | none => .error (.value "No row was found when one was required")

/-- `get_request` of the integration. -/
def clientDetail (client : ApiClient) (requestId : Nat) : Except Exc RequestDetail := do
  let w ← ownedRequest db requestId client
  clientView db updatedAt now w.req.id

/-! ## Downloads -/

/-- What `stored_file_response` asks the file system: where a stored path
leads from the storage root, whether that is under it, and whether there is
a file. -/
structure Disk where
  resolve : String → String
  underRoot : String → Bool
  present : String → Bool

/-- `FileResponse`. -/
structure FileResponse where
  path : String
  mediaType : String
  filename : String
  deriving DecidableEq, Repr

/-- `stored_file_response`. -/
def storedFileResponse (disk : Disk) (f : RequestFile) : Except Exc FileResponse :=
  let full := disk.resolve f.filePath
  if disk.underRoot full = false ∧ f.filePath.toList.head? ≠ some '/' then
    .error (.http 400 "Fayl yo'li yaroqsiz")
  else if disk.present full = false then .error (.http 404 "Fayl diskda topilmadi")
  else .ok ⟨full, f.mimeType, f.fileName⟩

/-- `request_file_response`: a file is looked up within its request. -/
def requestFileResponse (disk : Disk) (req : Request) (fileId : Nat) : Except Exc FileResponse :=
  match db.files.find? fun f => f.id == fileId && f.requestId == req.id with
  | some f => storedFileResponse disk f
  | none => .error (.http 404 "Fayl topilmadi")

/-- `download_file`. -/
def downloadFile (disk : Disk) (userId requestId fileId : Nat) : Except Exc FileResponse := do
  let user ← currentUser db userId
  let w ← getRequestForUser db requestId user
  requestFileResponse db disk w.req fileId

/-- `download_file` of the integration. -/
def clientDownload (disk : Disk) (client : ApiClient) (requestId fileId : Nat) :
    Except Exc FileResponse := do
  let w ← ownedRequest db requestId client
  requestFileResponse db disk w.req fileId

end Royd.Api
