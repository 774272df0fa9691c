/-
Royd.Api.Replies — the calls of an integration with what they are answered,
`api/v1/integration.py` from the token to the response. Filing, which
answers with the detail of the request it filed, is not among them.

`collate` is the collation `ORDER BY name` uses.
-/
import Royd.Api.Clients
import Royd.Api.Deeds
import Royd.Api.Views

namespace Royd.Api

/-! ## Rows as they are answered with -/

/-- What `post_message` returns: the row it has added, with the sender's
name. -/
def postedMessage (w : Work) (sender : User) (content : String) (isInternal : Bool) (now : Int) :
    MessageOut where
  id := w.session.nextMessageId
  requestId := w.req.id
  senderId := sender.id
  content := strip content
  isInternal := isInternal
  createdAt := now
  senderName := some sender.fullName
  senderRole := some sender.role

/-- What `attach_file` returns. -/
def attachedFile (cfg : Settings) (w : Work) (uploader : User) (isAnswer : Bool) (upload : Upload)
    (now : Int) : Except Exc RequestFileOut := do
  let fileMeta ← saveUpload cfg.maxUploadMb upload w.req.id
  .ok (requestFileOut (fileRecord w.req uploader isAnswer fileMeta now w.session.nextId))

/-- `CategoryTreeNode`. The catalogue has two levels, so what is nested has
no children of its own. -/
structure CategoryTreeNode where
  category : RequestCategory
  children : List RequestCategory
  deriving DecidableEq, Repr

/-- `category_tree` without the inactive rows. -/
def categoryTree (collate : String → String → Bool) (db : Db) : List CategoryTreeNode :=
  let rows := (db.categories.filter (·.isActive)).insertionSort fun a b =>
    collate a.name b.name = true
  (rows.filter (·.parentId.isNone)).map fun root =>
    { category := root, children := rows.filter (·.parentId == some root.id) }

/-! ## The calls -/

/-- What an integration may call, other than filing. -/
inductive ClientCall where
  | listCategories
  | listRequests (status studentHemisId : Option String) (bounds : PageBounds)
  | getRequest (requestId : Nat)
  | addMessage (requestId : Nat) (content : String)
  | uploadFile (requestId : Nat) (file : Upload)
  | downloadFile (requestId fileId : Nat)
  | resubmit (requestId : Nat) (comment : Option String)
  deriving DecidableEq, Repr

/-- The scopes the endpoint asks for. -/
def ClientCall.scopes : ClientCall → List String
  | .listCategories => [ApiClient.catalogsRead]
  | .listRequests .. => [ApiClient.requestsRead]
  | .getRequest .. => [ApiClient.requestsRead]
  | .addMessage .. => [ApiClient.requestsWrite]
  | .uploadFile .. => [ApiClient.requestsWrite]
  | .downloadFile .. => [ApiClient.requestsRead]
  | .resubmit .. => [ApiClient.requestsWrite]

/-- The request a call names. -/
def ClientCall.requestId? : ClientCall → Option Nat
  | .listCategories => none
  | .listRequests .. => none
  | .getRequest requestId => some requestId
  | .addMessage requestId _ => some requestId
  | .uploadFile requestId _ => some requestId
  | .downloadFile requestId _ => some requestId
  | .resubmit requestId _ => some requestId

/-- The body of a response. -/
inductive ClientReply where
  | tree (nodes : List CategoryTreeNode)
  | page (page : Page RequestSummary)
  | detail (detail : RequestDetail)
  | message (message : MessageOut)
  | record (file : RequestFileOut)
  | file (file : FileResponse)
  deriving DecidableEq, Repr

variable (cfg : Settings)

/-- `add_message` of the integration, up to its response. -/
def clientMessageReply (db : Db) (client : ApiClient) (requestId : Nat) (content : String)
    (now : Int) : Except Exc MessageOut := do
  let w ← ownedRequest db requestId client
  assertOpen w.req
  let student ← studentOf db w.req
  .ok (postedMessage w student content false now)

/-- `upload_file` of the integration, up to its response. -/
def clientUploadReply (db : Db) (client : ApiClient) (requestId : Nat) (upload : Upload)
    (now : Int) : Except Exc RequestFileOut := do
  let w ← ownedRequest db requestId client
  assertOpen w.req
  let student ← studentOf db w.req
  attachedFile cfg w student false upload now

/-- `resubmit` of the integration: the detail is read back after the commit. -/
def clientResubmitReply (o : Stamped) (client : ApiClient) (requestId : Nat)
    (comment : Option String) (now : Int) : Except Exc RequestDetail := do
  let w ← clientResubmit cfg o.db client requestId comment now
  let db := o.db.finish w
  clientView db (touch o.updatedAt o.db db now) now w.req.id

/-- What an endpoint answers the client it was called by. -/
def ClientCall.reply (collate : String → String → Bool) (disk : Disk) (o : Stamped) (now : Int)
    (client : ApiClient) : ClientCall → Except Exc ClientReply
  | .listCategories => .ok (.tree (categoryTree collate o.db))
  | .listRequests status studentHemisId bounds =>
    (clientRequests o.db o.updatedAt now client status studentHemisId bounds).map .page
  | .getRequest requestId => (clientDetail o.db o.updatedAt now client requestId).map .detail
  | .addMessage requestId content =>
    (clientMessageReply o.db client requestId content now).map .message
  | .uploadFile requestId file => (clientUploadReply cfg o.db client requestId file now).map .record
  | .downloadFile requestId fileId => (clientDownload o.db disk client requestId fileId).map .file
  | .resubmit requestId comment =>
    (clientResubmitReply cfg o client requestId comment now).map .detail

/-- The tables as an integration meets them: with the integrations. -/
structure Portal extends Stamped where
  clients : List ClientRow

/-- The response to a call. -/
def Portal.respond (collate : String → String → Bool) (disk : Disk) (p : Portal) (now : Int)
    (bearer : Bearer) (call : ClientCall) : Except Exc ClientReply := do
  let client ← getCurrentClient p.clients call.scopes bearer
  call.reply cfg collate disk p.toStamped now client.caller

/-! ## The rows behind the responses -/

section Rows

variable {cfg} {db : Db} {client : ApiClient} {requestId : Nat} {now : Int} {w : Work}

/-- A message is answered with the row that is committed. -/
theorem clientMessage_reply {content : String}
    (h : clientMessage cfg db client requestId content now = .ok w) :
    ∃ out m, clientMessageReply db client requestId content now = .ok out ∧
      w.session.messages = [m] ∧ (out.id, out.requestId, out.senderId, out.content, out.isInternal,
        out.createdAt) = (m.id, m.requestId, m.senderId, m.content, m.isInternal, m.createdAt) := by
  obtain ⟨w₀, howned, h⟩ := bind_eq_ok.mp h
  obtain ⟨_, hopen, h⟩ := bind_eq_ok.mp h
  obtain ⟨student, hstudent, h⟩ := bind_eq_ok.mp h
  cases h
  obtain ⟨r, -, -, -, rfl⟩ := ownedRequest_view howned
  refine ⟨postedMessage (Work.load db r) student content false now, _, ?_,
    (postMessage_leaves r student content false).messages, rfl⟩
  exact bind_eq_ok.mpr ⟨_, howned, bind_eq_ok.mpr ⟨_, hopen, bind_eq_ok.mpr ⟨_, hstudent, rfl⟩⟩⟩

/-- So is a file. -/
theorem clientUpload_reply {upload : Upload}
    (h : clientUpload cfg db client requestId upload now = .ok w) :
    ∃ out, clientUploadReply cfg db client requestId upload now = .ok out ∧
      w.session.files.map requestFileOut = [out] := by
  obtain ⟨w₀, howned, h⟩ := bind_eq_ok.mp h
  obtain ⟨_, hopen, h⟩ := bind_eq_ok.mp h
  obtain ⟨student, hstudent, h⟩ := bind_eq_ok.mp h
  obtain ⟨r, -, -, -, rfl⟩ := ownedRequest_view howned
  obtain ⟨fileMeta, hsaved, hready⟩ := attachFile_leaves (Work.ready_load db r) h
  refine ⟨requestFileOut (fileRecord r student false fileMeta now db.nextId), ?_, ?_⟩
  · exact bind_eq_ok.mpr ⟨_, howned, bind_eq_ok.mpr ⟨_, hopen, bind_eq_ok.mpr ⟨_, hstudent,
      bind_eq_ok.mpr ⟨fileMeta, hsaved, rfl⟩⟩⟩⟩
  · rw [hready.rows.files]
    rfl

end Rows

end Royd.Api
