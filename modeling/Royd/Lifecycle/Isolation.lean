/-
Royd.Lifecycle.Isolation — an integration sees its own requests only.

Two states may differ in everything but the client itself, the catalogue,
the users and the requests this client filed (`AgreeOn`): no call of the
client tells one from the other. The one thing that shows is which ids the
sequences give to the rows a call adds; `reissue` gives them out again.
-/
import Royd.Api.Replies
import Royd.Lifecycle.History
import Royd.Lib.Outcomes

namespace Royd

open Api

/-! ## States that agree -/

/-- The requests the client `c` has filed. -/
def Db.filedBy (db : Db) (c : Nat) : List Request := db.requests.filter (·.apiClientId == some c)

/-- What the primary key of `requests` and the sequence behind
`request_history` see to. -/
structure Db.Keyed (db : Db) : Prop where
  requestIds : (db.requests.map (·.id)).Nodup
  historyBelow : db.HistoryBelow

/-- Every state the system reaches is keyed. -/
theorem run_keyed (cfg : Settings) {db₀ : Db} (h : Start db₀) (es : List Event) :
    (Runs.run (step cfg) db₀ es).Keyed := by
  have hstart : db₀.HistoryBelow := fun e he => by simp [h.history] at he
  have hstep (db : Db) (e : Event) (hdb : db.Wf ∧ db.HistoryBelow) :
      (step cfg db e).Wf ∧ (step cfg db e).HistoryBelow :=
    ⟨(step_life cfg hdb.1 e).1, (step_effects hdb.1 e).historyBelow hdb.2⟩
  have hrun := Runs.run_invariant hstep ⟨h.wf, hstart⟩ es
  exact ⟨hrun.1.requestIds, hrun.2⟩

/-- The states agree on the client `c`, on the catalogue, on the users and
on all requests that `c` filed. -/
structure AgreeOn (c : Nat) (p p' : Portal) : Prop where
  client : findClient p.clients c = findClient p'.clients c
  categories : p.db.categories = p'.db.categories
  users : p.db.users = p'.db.users
  requests : p.db.filedBy c = p'.db.filedBy c
  updatedAt : ∀ r ∈ p.db.filedBy c, p.updatedAt r.id = p'.updatedAt r.id
  history : ∀ r ∈ p.db.filedBy c, p.db.historyOf r.id = p'.db.historyOf r.id
  files : ∀ r ∈ p.db.filedBy c, p.db.filesOf r.id = p'.db.filesOf r.id
  messages : ∀ r ∈ p.db.filedBy c, p.db.messagesOf r.id = p'.db.messagesOf r.id

/-! ## New ids -/

/-- The id `given`, given out again as `new`. -/
def reissue (given new id : Nat) : Nat := if id = given then new else id

def RequestHistory.reissue (f : Nat → Nat) (h : RequestHistory) : RequestHistory :=
  { h with id := f h.id }

namespace Api

def RequestHistoryOut.reissue (f : Nat → Nat) (h : RequestHistoryOut) : RequestHistoryOut :=
  { h with id := f h.id }

def RequestDetail.reissue (f : Nat → Nat) (d : RequestDetail) : RequestDetail :=
  { d with history := d.history.map (·.reissue f) }

/-- A response with the new ids in it renamed, `f` those of the tables and
`g` those of the messages: a message and a file are answered with the row
that was added, a resubmission with a detail whose history has a new entry. -/
def ClientReply.reissue (f g : Nat → Nat) : ClientReply → ClientReply
  | .detail d => .detail (d.reissue f)
  | .message m => .message { m with id := g m.id }
  | .record r => .record { r with id := f r.id }
  | reply => reply

end Api

@[simp] theorem reissue_given (given new : Nat) : reissue given new given = new := if_pos rfl

theorem reissue_below {given new id : Nat} (h : id < given) : reissue given new id = id :=
  if_neg (by omega)

/-- Renaming the newest id to a new one again keeps the order. -/
theorem reissue_le_iff {given new a b : Nat} (ha : a = given ∨ a < given ∧ a < new)
    (hb : b = given ∨ b < given ∧ b < new) :
    a ≤ b ↔ reissue given new a ≤ reissue given new b := by
  unfold reissue
  split <;> split <;> omega

/-! ## What a client is shown of a request -/

variable {cfg : Settings} {now : Int}

/-- The detail of a request depends on its own rows, on the catalogue and on
the users, and on the ids of its history only in their order. -/
theorem forViewer_reissue {db db' : Db} {updatedAt updatedAt' : Nat → Int} {f : Nat → Nat}
    {req : Request} (hcategories : db.categories = db'.categories) (husers : db.users = db'.users)
    (hupdated : updatedAt req.id = updatedAt' req.id)
    (hhistory : db.historyOf req.id = (db'.historyOf req.id).map (·.reissue f))
    (horder : ∀ a ∈ db'.historyOf req.id, ∀ b ∈ db'.historyOf req.id,
      a.id ≤ b.id ↔ f a.id ≤ f b.id)
    (hfiles : db.filesOf req.id = db'.filesOf req.id)
    (hmessages : db.messagesOf req.id = db'.messagesOf req.id) :
    forViewer db updatedAt now false req =
      (forViewer db' updatedAt' now false req).map (RequestDetail.reissue f) := by
  have huser : db.getUser = db'.getUser := by
    funext id
    unfold Db.getUser
    rw [husers]
  have hcategory : db.getCategory = db'.getCategory := by
    funext id
    unfold Db.getCategory
    rw [hcategories]
  have hactors : actors db req = actors db' req := by
    unfold actors
    rw [huser, hmessages, hhistory, List.filterMap_map]
    rfl
  have hsorted : orderBy (fun h => (h.id : Int)) (db.historyOf req.id) =
      (orderBy (fun h => (h.id : Int)) (db'.historyOf req.id)).map (·.reissue f) := by
    rw [hhistory]
    refine (List.map_insertionSort _ _ _ _ fun a ha b hb => ?_).symm
    rw [Int.ofNat_le, Int.ofNat_le]
    exact horder a ha b hb
  have hshown : (orderBy (·.createdAt) (orderBy (fun h => (h.id : Int)) (db.historyOf req.id))).map
        (historyOut (actors db' req)) =
      ((orderBy (·.createdAt) (orderBy (fun h => (h.id : Int)) (db'.historyOf req.id))).map
        (historyOut (actors db' req))).map (·.reissue f) := by
    have hlast (rows : List RequestHistory) : orderBy (·.createdAt) (rows.map (·.reissue f)) =
        (orderBy (·.createdAt) rows).map (·.reissue f) :=
      (map_orderBy (fun _ => rfl) rows).symm
    rw [hsorted, hlast, List.map_map, List.map_map]
    rfl
  have hsummary : requestSummary updatedAt now req = requestSummary updatedAt' now req := by
    unfold requestSummary
    rw [hupdated]
  have hanswer : answerOut db req = answerOut db' req := by
    funext files
    unfold answerOut
    rw [huser]
  unfold forViewer
  rw [huser, hcategory, hactors, hfiles, hmessages, hsummary, hanswer]
  cases db'.getCategory req.categoryId with
  | none => rfl
  | some category =>
    cases db'.getUser req.studentId with
    | none => rfl
    | some student =>
      refine congrArg Except.ok ?_
      dsimp only [RequestDetail.reissue]
      rw [hshown]

/-! ## Own requests -/

variable {c : Nat} {p p' : Portal} {client : ApiClient} {r : Request}

theorem Db.Keyed.getRequest {db : Db} (h : db.Keyed) (hr : r ∈ db.filedBy c) :
    db.getRequest r.id = some r :=
  getRequest_of_ids h.requestIds (List.mem_filter.mp hr).1

/-- Looking among all rows for one that also passes `q` is looking among
those that pass it. -/
theorem find?_and {α : Type} (rows : List α) (p q : α → Bool) :
    (rows.find? fun a => p a && q a) = (rows.filter q).find? p := by
  rw [List.find?_filter]
  refine congrArg (List.find? · rows) (funext fun a => ?_)
  rw [Bool.decide_and, Bool.decide_eq_true, Bool.decide_eq_true, Bool.and_comm]

/-- A request is looked up among those the client filed. -/
theorem find?_filedBy (db : Db) (c requestId : Nat) :
    (db.requests.find? fun r => r.id == requestId && r.apiClientId == some c) =
      (db.filedBy c).find? (·.id == requestId) := find?_and ..

/-- The rows of a list are among those the client filed. -/
theorem filter_filedBy (db : Db) (c : Nat) (keep : Request → Bool) :
    (db.requests.filter fun r => r.apiClientId == some c && keep r) =
      (db.filedBy c).filter keep := by
  unfold Db.filedBy
  rw [List.filter_filter]
  exact congrArg (List.filter · db.requests) (funext fun r => Bool.and_comm ..)

theorem pageOf_congr {updatedAt updatedAt' : Nat → Int} {rows : List Request} {bounds : PageBounds}
    (h : ∀ r ∈ rows, updatedAt r.id = updatedAt' r.id) :
    pageOf updatedAt now rows bounds = pageOf updatedAt' now rows bounds := by
  unfold pageOf pageIn
  refine congrArg (Page.mk · rows.length bounds.limit bounds.offset) ?_
  refine List.map_congr_left fun r hr => ?_
  unfold requestSummary
  rw [h r (mem_orderBy.mp (List.mem_of_mem_drop (List.mem_of_mem_take hr)))]

/-- A file is looked up among those of its request. -/
theorem find?_filesOf (db : Db) (requestId fileId : Nat) :
    (db.files.find? fun f => f.id == fileId && f.requestId == requestId) =
      (db.filesOf requestId).find? (·.id == fileId) := find?_and ..

namespace AgreeOn

/-- Both states have the request the client asks for, or neither. -/
theorem ownedRequest (h : AgreeOn c p p') (hclient : client.id = c) (requestId : Nat) :
    Outcomes (fun w w' => ∃ r ∈ p.db.filedBy c, w = Work.load p.db r ∧ w' = Work.load p'.db r)
      (ownedRequest p.db requestId client) (Api.ownedRequest p'.db requestId client) := by
  unfold Api.ownedRequest
  rw [find?_filedBy, find?_filedBy, hclient, ← h.requests]
  cases hfound : (p.db.filedBy c).find? (·.id == requestId) with
  | none => exact .error _
  | some r => exact .ok ⟨r, List.mem_of_find?_eq_some hfound, rfl, rfl⟩

theorem studentOf (h : AgreeOn c p p') (r : Request) : studentOf p.db r = Api.studentOf p'.db r := by
  unfold Api.studentOf Db.getUser
  rw [h.users]

/-- Reading: the detail of an own request is the same. -/
theorem clientView (h : AgreeOn c p p') (hkeyed : p.db.Keyed) (hkeyed' : p'.db.Keyed)
    (hr : r ∈ p.db.filedBy c) (new : Nat) :
    clientView p.db p.updatedAt now r.id =
      (Api.clientView p'.db p'.updatedAt now r.id).map
        (RequestDetail.reissue (reissue p'.db.nextId new)) := by
  have hold : ∀ e ∈ p'.db.historyOf r.id, reissue p'.db.nextId new e.id = e.id := fun e he =>
    reissue_below (hkeyed'.historyBelow e (List.mem_filter.mp he).1)
  unfold Api.clientView
  rw [hkeyed.getRequest hr, hkeyed'.getRequest (h.requests ▸ hr)]
  refine forViewer_reissue h.categories h.users (h.updatedAt r hr) ?_ (fun a ha b hb => ?_)
    (h.files r hr) (h.messages r hr)
  · rw [h.history r hr]
    refine (List.map_id' _).symm.trans (List.map_congr_left fun e he => ?_)
    rw [RequestHistory.reissue, hold e he]
  · rw [hold a ha, hold b hb]

theorem clientDetail (h : AgreeOn c p p') (hkeyed : p.db.Keyed) (hkeyed' : p'.db.Keyed)
    (hclient : client.id = c) (requestId new : Nat) :
    Outcomes (fun d d' => d = d'.reissue (reissue p'.db.nextId new))
      (clientDetail p.db p.updatedAt now client requestId)
      (Api.clientDetail p'.db p'.updatedAt now client requestId) := by
  unfold Api.clientDetail
  refine (h.ownedRequest hclient requestId).bind ?_
  rintro w w' ⟨r, hr, rfl, rfl⟩
  exact Outcomes.eq_map_iff.mp (h.clientView hkeyed hkeyed' hr new)

/-- Listing: the same page, the same total. -/
theorem clientRequests (h : AgreeOn c p p') (hclient : client.id = c) (status : Option String)
    (studentHemisId : Option String) (bounds : PageBounds) :
    clientRequests p.db p.updatedAt now client status studentHemisId bounds =
      Api.clientRequests p'.db p'.updatedAt now client status studentHemisId bounds := by
  have howned : ownedByHemisId p.db = ownedByHemisId p'.db := by
    unfold ownedByHemisId
    rw [h.users]
  unfold Api.clientRequests
  refine Outcomes.eq_of (.check _ fun status => .ok ?_)
  simp only [Bool.and_assoc]
  rw [hclient, filter_filedBy, filter_filedBy, ← h.requests, howned]
  exact pageOf_congr fun r hr => h.updatedAt r (List.mem_filter.mp hr).1

/-- Downloading: a file is looked up within an own request. -/
theorem clientDownload (h : AgreeOn c p p') (hclient : client.id = c) (disk : Disk)
    (requestId fileId : Nat) :
    clientDownload p.db disk client requestId fileId =
      Api.clientDownload p'.db disk client requestId fileId := by
  unfold Api.clientDownload
  refine Outcomes.eq_of ((h.ownedRequest hclient requestId).bind ?_)
  rintro w w' ⟨r, hr, rfl, rfl⟩
  have hsame : requestFileResponse p.db disk r fileId = requestFileResponse p'.db disk r fileId := by
    unfold requestFileResponse
    rw [find?_filesOf, find?_filesOf, h.files r hr]
  show Outcomes _ (requestFileResponse p.db disk r fileId) (requestFileResponse p'.db disk r fileId)
  rw [hsame]
  exact .same (fun _ => rfl) _

/-- A message is answered with the same row, under its new id. -/
theorem clientMessageReply (h : AgreeOn c p p') (hclient : client.id = c) (requestId : Nat)
    (content : String) :
    Outcomes (fun m m' => m = { m' with id := reissue p'.db.nextMessageId p.db.nextMessageId m'.id })
      (clientMessageReply p.db client requestId content now)
      (Api.clientMessageReply p'.db client requestId content now) := by
  unfold Api.clientMessageReply
  refine (h.ownedRequest hclient requestId).bind ?_
  rintro w w' ⟨r, hr, rfl, rfl⟩
  refine .check (assertOpen r) fun _ => ?_
  show Outcomes _ (Api.studentOf p.db r >>= _) (Api.studentOf p'.db r >>= _)
  rw [h.studentOf r]
  refine .check _ fun student => .ok ?_
  simp [postedMessage, Work.load, Db.begin, Session.empty, Session.nextMessageId]

/-- So is a file. -/
theorem clientUploadReply (h : AgreeOn c p p') (hclient : client.id = c) (requestId : Nat)
    (upload : Upload) :
    Outcomes (fun f f' => f = { f' with id := reissue p'.db.nextId p.db.nextId f'.id })
      (clientUploadReply cfg p.db client requestId upload now)
      (Api.clientUploadReply cfg p'.db client requestId upload now) := by
  unfold Api.clientUploadReply
  refine (h.ownedRequest hclient requestId).bind ?_
  rintro w w' ⟨r, hr, rfl, rfl⟩
  refine .check (assertOpen r) fun _ => ?_
  show Outcomes _ (Api.studentOf p.db r >>= _) (Api.studentOf p'.db r >>= _)
  rw [h.studentOf r]
  refine .check _ fun student => ?_
  unfold attachedFile
  refine .check (saveUpload cfg.maxUploadMb upload r.id) fun fileMeta => .ok ?_
  simp [requestFileOut, fileRecord, Work.load, Db.begin, Session.empty, Session.nextId]

end AgreeOn

/-! ## Sending a request back -/

/-- Whether a request can be sent back, and as what it is left, depends on
its row, on who sends it and on the clock. -/
theorem resubmitReturned_same (cfg : Settings) (db db' : Db) (r : Request) (student : User)
    (comment : Option String) (now : Int) :
    Outcomes (fun w w' => w.req = w'.req)
      (resubmitReturned cfg db (Work.load db r) student comment now)
      (resubmitReturned cfg db' (Work.load db' r) student comment now) := by
  have hrow {w v : Work} (hreq : w.req = v.req) : Outcomes (fun w w' => w.req = w'.req)
      (resubmitRequest cfg w student comment now) (resubmitRequest cfg v student comment now) := by
    unfold resubmitRequest
    rw [hreq]
    split
    · exact .error _
    split
    · exact .error _
    · exact .check _ fun req => .ok rfl
  have hloaded : (Work.load db r).req = (Work.load db' r).req := rfl
  exact (hrow hloaded).bind fun w w' h => .ok h

/-- The tables after a request was sent back. -/
structure SentBack (db : Db) (r : Request) (student : User) (comment : Option String) (now : Int)
    (w : Work) : Prop where
  id : w.req.id = r.id
  loaded : w.loaded = r
  history : w.session.history = [resubmission r student comment now db.nextId]
  files : w.session.files = []
  messages : w.session.messages = []

theorem resubmitReturned_sentBack {db : Db} {student : User} {comment : Option String} {w : Work}
    (h : resubmitReturned cfg db (Work.load db r) student comment now = .ok w) :
    SentBack db r student comment now w := by
  obtain ⟨-, -, happly, hloaded, hrows⟩ := resubmitReturned_leaves h
  have hid : w.req.id = r.id := by
    rw [(applyStatus_eq_ok happly).shape]
  exact ⟨hid, hloaded, hrows.history, hrows.files, hrows.messages⟩

namespace SentBack

variable {db : Db} {student : User} {comment : Option String} {w : Work}

theorem historyOf (h : SentBack db r student comment now w) : (db.finish w).historyOf r.id =
    db.historyOf r.id ++ [resubmission r student comment now db.nextId] := by
  show (db.history ++ w.session.history).filter _ = _
  rw [h.history, List.filter_append]
  simp [Db.historyOf, resubmission]

theorem filesOf (h : SentBack db r student comment now w) (id : Nat) :
    (db.finish w).filesOf id = db.filesOf id := by
  show (db.files ++ w.session.files).filter _ = _
  rw [h.files, List.append_nil]
  exact rfl

theorem messagesOf (h : SentBack db r student comment now w) (id : Nat) :
    (db.finish w).messagesOf id = db.messagesOf id := by
  show (db.messages ++ w.session.messages).filter _ = _
  rw [h.messages, List.append_nil]
  exact rfl

theorem getRequest (h : SentBack db r student comment now w) (hrow : db.getRequest r.id = some r) :
    (db.finish w).getRequest r.id = some (r.write r w.req) := by
  rw [getRequest_finish, hrow, h.loaded]
  simp

end SentBack

/-- The detail a client reads back after it has sent a request back. -/
theorem AgreeOn.clientResubmitReply (h : AgreeOn c p p') (hkeyed : p.db.Keyed)
    (hkeyed' : p'.db.Keyed) (hclient : client.id = c) (requestId : Nat) (comment : Option String) :
    Outcomes (fun d d' => d = d'.reissue (reissue p'.db.nextId p.db.nextId))
      (clientResubmitReply cfg p.toStamped client requestId comment now)
      (Api.clientResubmitReply cfg p'.toStamped client requestId comment now) := by
  have hsent : Outcomes (fun w w' => w.req = w'.req ∧ ∃ r ∈ p.db.filedBy c, ∃ student,
        SentBack p.db r student comment now w ∧ SentBack p'.db r student comment now w')
      (clientResubmit cfg p.db client requestId comment now)
      (clientResubmit cfg p'.db client requestId comment now) := by
    unfold clientResubmit
    refine (h.ownedRequest hclient requestId).bind ?_
    rintro w w' ⟨r, hr, rfl, rfl⟩
    show Outcomes _ (Api.studentOf p.db r >>= _) (Api.studentOf p'.db r >>= _)
    rw [h.studentOf r]
    refine .check _ fun student => ?_
    refine (resubmitReturned_same cfg p.db p'.db r student comment now).attach.mono ?_
    rintro w w' ⟨hw, hw', hreq⟩
    exact ⟨hreq, r, hr, student, resubmitReturned_sentBack hw, resubmitReturned_sentBack hw'⟩
  unfold Api.clientResubmitReply
  refine hsent.bind ?_
  rintro w w' ⟨hreq, r, hr, student, hw, hw'⟩
  have hrow := hkeyed.getRequest hr
  have hrow' := hkeyed'.getRequest (h.requests ▸ hr)
  have hleft := hw.getRequest hrow
  have hleft' := hw'.getRequest hrow'
  have hold : ∀ e ∈ p'.db.historyOf r.id, e.id < p.db.nextId := fun e he => by
    rw [← h.history r hr] at he
    exact hkeyed.historyBelow e (List.mem_filter.mp he).1
  have hold' : ∀ e ∈ p'.db.historyOf r.id, reissue p'.db.nextId p.db.nextId e.id = e.id :=
    fun e he => reissue_below (hkeyed'.historyBelow e (List.mem_filter.mp he).1)
  rw [← Outcomes.eq_map_iff]
  dsimp only
  unfold Api.clientView
  rw [hw.id, hw'.id, hleft, hleft', ← hreq]
  refine forViewer_reissue h.categories h.users ?_ ?_ ?_ ?_ ?_
  · show touch p.updatedAt p.db _ now r.id = touch p'.updatedAt p'.db _ now r.id
    unfold touch
    rw [hleft, hleft', hrow, hrow', hreq, h.updatedAt r hr]
  · show (p.db.finish w).historyOf r.id = ((p'.db.finish w').historyOf r.id).map _
    rw [hw.historyOf, hw'.historyOf, List.map_append, h.history r hr]
    refine congrArg₂ (· ++ ·) ?_ ?_
    · exact (List.map_id' _).symm.trans (List.map_congr_left fun e he => by
        rw [RequestHistory.reissue, hold' e he])
    · simp [RequestHistory.reissue, resubmission]
  · have hids : ∀ e ∈ (p'.db.finish w').historyOf r.id,
        e.id = p'.db.nextId ∨ e.id < p'.db.nextId ∧ e.id < p.db.nextId := by
      rw [hw'.historyOf]
      intro e he
      rcases List.mem_append.mp he with he | he
      · exact .inr ⟨hkeyed'.historyBelow e (List.mem_filter.mp he).1, hold e he⟩
      · rw [List.mem_singleton.mp he]
        exact .inl rfl
    exact fun a ha b hb => reissue_le_iff (hids a ha) (hids b hb)
  · show (p.db.finish w).filesOf r.id = (p'.db.finish w').filesOf r.id
    rw [hw.filesOf, hw'.filesOf, h.files r hr]
  · show (p.db.finish w).messagesOf r.id = (p'.db.finish w').messagesOf r.id
    rw [hw.messagesOf, hw'.messagesOf, h.messages r hr]

/-! ## Every call -/

/-- The client that a call of `c` is let through as. -/
theorem AgreeOn.getCurrentClient (h : AgreeOn c p p') {claims : ClientClaims}
    (hcaller : claims.sub = c) (required : List String) :
    getCurrentClient p.clients required (.token claims) =
      Api.getCurrentClient p'.clients required (.token claims) := by
  subst hcaller
  unfold Api.getCurrentClient
  dsimp only
  rw [h.client]

/-- What a call of `c` is answered. -/
theorem AgreeOn.reply (h : AgreeOn c p p') (hkeyed : p.db.Keyed) (hkeyed' : p'.db.Keyed)
    (hclient : client.id = c) (collate : String → String → Bool) (disk : Disk) (call : ClientCall) :
    call.reply cfg collate disk p.toStamped now client =
      (call.reply cfg collate disk p'.toStamped now client).map
        (ClientReply.reissue (reissue p'.db.nextId p.db.nextId)
          (reissue p'.db.nextMessageId p.db.nextMessageId)) := by
  cases call with
  | listCategories =>
    have htree : categoryTree collate p.db = categoryTree collate p'.db := by
      unfold categoryTree
      rw [h.categories]
    exact congrArg (fun nodes => Except.ok (ClientReply.tree nodes)) htree
  | listRequests status studentHemisId bounds =>
    refine Outcomes.map_eq_map ?_
    rw [h.clientRequests hclient status studentHemisId bounds]
    refine Outcomes.same (fun page => ?_) _
    rfl
  | getRequest requestId =>
    refine Outcomes.map_eq_map ((h.clientDetail hkeyed hkeyed' hclient requestId
      p.db.nextId).mono ?_)
    exact fun d d' hd => congrArg ClientReply.detail hd
  | addMessage requestId content =>
    refine Outcomes.map_eq_map ((h.clientMessageReply hclient requestId content).mono ?_)
    exact fun m m' hm => congrArg ClientReply.message hm
  | uploadFile requestId file =>
    refine Outcomes.map_eq_map ((h.clientUploadReply hclient requestId file).mono ?_)
    exact fun f f' hf => congrArg ClientReply.record hf
  | downloadFile requestId fileId =>
    refine Outcomes.map_eq_map ?_
    rw [h.clientDownload hclient disk requestId fileId]
    refine Outcomes.same (fun file => ?_) _
    rfl
  | resubmit requestId comment =>
    refine Outcomes.map_eq_map ((h.clientResubmitReply hkeyed hkeyed' hclient requestId
      comment).mono ?_)
    exact fun d d' hd => congrArg ClientReply.detail hd

/-- A request of another party, and one that does not exist. -/
theorem reply_missing {o : Stamped} {requestId : Nat}
    (h : ∀ r ∈ o.db.requests, r.id = requestId → r.apiClientId ≠ some client.id)
    (collate : String → String → Bool) (disk : Disk) {call : ClientCall}
    (hcall : call.requestId? = some requestId) :
    call.reply cfg collate disk o now client = .error (.http 404 "Murojaat topilmadi") := by
  have howned : ownedRequest o.db requestId client = .error (.http 404 "Murojaat topilmadi") := by
    have hnone : (o.db.requests.find? fun r => r.id == requestId && r.apiClientId == some client.id)
        = none := by
      refine List.find?_eq_none.mpr fun r hr hmatch => ?_
      rw [Bool.and_eq_true, beq_iff_eq, beq_iff_eq] at hmatch
      exact h r hr hmatch.1 hmatch.2
    unfold ownedRequest
    rw [hnone]
  cases call with
  | listCategories => cases hcall
  | listRequests => cases hcall
  | getRequest =>
    cases hcall
    simp only [ClientCall.reply, clientDetail, howned]
    rfl
  | addMessage =>
    cases hcall
    simp only [ClientCall.reply, clientMessageReply, howned]
    rfl
  | uploadFile =>
    cases hcall
    simp only [ClientCall.reply, clientUploadReply, howned]
    rfl
  | downloadFile =>
    cases hcall
    simp only [ClientCall.reply, clientDownload, howned]
    rfl
  | resubmit =>
    cases hcall
    simp only [ClientCall.reply, clientResubmitReply, clientResubmit, howned]
    rfl

/-- Client isolation. Whatever the rest of the office holds, a call of the
client `c` is answered the same: the same refusal, or the same body, up to
the ids that the sequences give to new rows. A request of somebody else is
answered like one that does not exist. -/
theorem client_isolation (cfg : Settings) (collate : String → String → Bool) (disk : Disk)
    (now : Int) {c : Nat} {p p' : Portal} (hkeyed : p.db.Keyed) (hkeyed' : p'.db.Keyed)
    (hagree : AgreeOn c p p') {claims : ClientClaims} (hcaller : claims.sub = c)
    (call : ClientCall) :
    p.respond cfg collate disk now (.token claims) call =
        (p'.respond cfg collate disk now (.token claims) call).map
          (ClientReply.reissue (reissue p'.db.nextId p.db.nextId)
            (reissue p'.db.nextMessageId p.db.nextMessageId)) ∧
      ∀ requestId, call.requestId? = some requestId →
        (∀ r ∈ p.db.requests, r.id = requestId → r.apiClientId ≠ some c) →
        p.respond cfg collate disk now (.token claims) call =
          (getCurrentClient p.clients call.scopes (.token claims)).bind fun _ =>
            .error (.http 404 "Murojaat topilmadi") := by
  have hid {client : ClientRow}
      (h : getCurrentClient p.clients call.scopes (.token claims) = .ok client) : client.id = c := by
    obtain ⟨_, hclaims, hadmits⟩ := getCurrentClient_eq_ok h
    cases hclaims
    have hfound : client.id = claims.sub := by simpa using List.find?_some hadmits.found
    rw [hfound, hcaller]
  unfold Portal.respond
  rw [← hagree.getCurrentClient hcaller]
  cases hclient : getCurrentClient p.clients call.scopes (.token claims) with
  | error e => exact ⟨rfl, fun _ _ _ => rfl⟩
  | ok client =>
    have howner : client.caller.id = c := hid hclient
    refine ⟨hagree.reply hkeyed hkeyed' howner collate disk call, fun requestId hcall hother => ?_⟩
    exact reply_missing (fun r hr hr' => howner ▸ hother r hr hr') collate disk hcall

/-- A client with the request 10, which was returned. -/
def portal : Portal where
  db :=
    { office with
      nextId := 30
      requests :=
        [{ id := 10, trackingNo := "REQ-1", studentId := 1, categoryId := 4, title := "Ariza",
           description := "Matn", status := .returned, slaDeadline := 20, slaPausedAt := some 15,
           apiClientId := some 7, createdAt := 0 }]
      history :=
        [{ id := 11, requestId := 10, changedBy := some 1, oldStatus := none, newStatus := .new,
           comment := none, createdAt := 0 }] }
  updatedAt := fun _ => 0
  clients :=
    [{ id := 7, name := "Portal", clientId := "royd_7", secretHash := "h",
       scopes := [ApiClient.requestsWrite] }]

/-- The same with a request of another client, and the sequence further on. -/
def sharedPortal : Portal :=
  { portal with
    db :=
      { portal.db with
        nextId := 50
        requests := portal.db.requests ++
          [{ id := 40, trackingNo := "REQ-2", studentId := 1, categoryId := 4, title := "Ariza",
             description := "Matn", slaDeadline := 20, apiClientId := some 8, createdAt := 3 }] } }

def portalClaims : ClientClaims :=
  { type := "client", sub := 7, ver := some 1, scope := "requests:write" }

def localDisk : Disk := ⟨id, fun _ => true, fun _ => true⟩

theorem portal_agree : AgreeOn 7 portal sharedPortal :=
  ⟨rfl, rfl, rfl, rfl, fun _ _ => rfl, fun _ _ => rfl, fun _ _ => rfl, fun _ _ => rfl⟩

/-- The returned request is sent back on both, with a new entry of its own
number. -/
theorem client_isolation_portal :
    (portal.respond {} (fun _ _ => true) localDisk 25 (.token portalClaims)
        (.resubmit 10 none)).isOk = true ∧
      portal.respond {} (fun _ _ => true) localDisk 25 (.token portalClaims) (.resubmit 10 none) =
        (sharedPortal.respond {} (fun _ _ => true) localDisk 25 (.token portalClaims)
          (.resubmit 10 none)).map (ClientReply.reissue (reissue 50 30) (reissue 1 1)) ∧
      ∀ requestId, (ClientCall.resubmit 10 none).requestId? = some requestId →
        (∀ r ∈ portal.db.requests, r.id = requestId → r.apiClientId ≠ some 7) →
        portal.respond {} (fun _ _ => true) localDisk 25 (.token portalClaims) (.resubmit 10 none) =
          (getCurrentClient portal.clients [ApiClient.requestsWrite] (.token portalClaims)).bind
            fun _ => .error (.http 404 "Murojaat topilmadi") :=
  ⟨by decide +kernel,
    client_isolation {} (fun _ _ => true) localDisk 25 ⟨by decide, by decide⟩
      ⟨by decide, by decide⟩ portal_agree rfl (.resubmit 10 none)⟩

end Royd
