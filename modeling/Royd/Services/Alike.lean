/-
Royd.Services.Alike — sessions that differ in how their messages are
numbered only.

A message's id is drawn from a sequence of its own and shows in two places:
its row, and the `message.created` event that announces it. `unnumbered`
blanks both. What the services add to two sessions that agree up to that,
they add alike, so the sessions stay so.
-/
import Royd.Lib.Outcomes
import Royd.Services.EventsTheorems
import Royd.Services.Sweep
import Royd.Services.Webhooks

namespace Royd

/-! ## Rows without the numbers of messages -/

def EventBody.unnumbered : EventBody → EventBody
  | .messageCreated _ content senderName senderRole fromStudent =>
    .messageCreated 0 content senderName senderRole fromStudent
  | body => body

def Webhook.unnumbered (w : Webhook) : Webhook := { w with body := w.body.unnumbered }

def OutboxPayload.unnumbered : OutboxPayload → OutboxPayload
  | .webhook data => .webhook data.unnumbered
  | payload => payload

def OutboxMessage.unnumbered (m : OutboxMessage) : OutboxMessage :=
  { m with payload := m.payload.unnumbered }

def Message.unnumbered (m : Message) : Message := { m with id := 0 }

def PendingRow.unnumbered : PendingRow → PendingRow
  | .message row => .message row.unnumbered
  | .outbox row => .outbox row.unnumbered
  | row => row

/-- Every other row keeps its id. -/
theorem PendingRow.id?_unnumbered (row : PendingRow) : row.unnumbered.id? = row.id? := by
  cases row <;> rfl

/-- Sessions that were begun at the same point of the other sequences and
hold the same rows, up to the numbers of messages. -/
structure Session.Alike (s t : Session) : Prop where
  start : s.start = t.start
  rows : s.rows.map PendingRow.unnumbered = t.rows.map PendingRow.unnumbered

namespace Session

theorem Alike.refl (s : Session) : s.Alike s := ⟨rfl, rfl⟩

theorem Alike.empty (start n m : Nat) : (Session.empty start n).Alike (.empty start m) := ⟨rfl, rfl⟩

variable {s t : Session}

/-- What is read off the rows without looking at a message's number is the
same of both. -/
theorem Alike.filterMap_eq {α : Type} (h : s.Alike t) {f : PendingRow → Option α}
    (hf : ∀ row, f row.unnumbered = f row) : s.rows.filterMap f = t.rows.filterMap f := by
  have hmap : ∀ rows : List PendingRow,
      (rows.map PendingRow.unnumbered).filterMap f = rows.filterMap f := by
    intro rows
    rw [List.filterMap_map]
    exact congrArg (List.filterMap · rows) (funext hf)
  rw [← hmap s.rows, ← hmap t.rows, h.rows]

theorem Alike.nextId (h : s.Alike t) : s.nextId = t.nextId := by
  unfold Session.nextId
  rw [h.start, h.filterMap_eq PendingRow.id?_unnumbered]

theorem Alike.history (h : s.Alike t) : s.history = t.history :=
  h.filterMap_eq fun row => by cases row <;> rfl

theorem Alike.files (h : s.Alike t) : s.files = t.files :=
  h.filterMap_eq fun row => by cases row <;> rfl

theorem Alike.notifications (h : s.Alike t) : s.notifications = t.notifications :=
  h.filterMap_eq fun row => by cases row <;> rfl

theorem Alike.auditLogs (h : s.Alike t) : s.auditLogs = t.auditLogs :=
  h.filterMap_eq fun row => by cases row <;> rfl

theorem Alike.messages (h : s.Alike t) :
    s.messages.map Message.unnumbered = t.messages.map Message.unnumbered := by
  unfold Session.messages
  rw [List.map_filterMap, List.map_filterMap]
  exact h.filterMap_eq fun row => by cases row <;> rfl

theorem Alike.outbox (h : s.Alike t) :
    s.outbox.map OutboxMessage.unnumbered = t.outbox.map OutboxMessage.unnumbered := by
  unfold Session.outbox
  rw [List.map_filterMap, List.map_filterMap]
  refine h.filterMap_eq fun row => ?_
  cases row with
  | outbox row =>
    obtain ⟨id, payload⟩ := row
    cases payload with
    | email => rfl
    | webhook data =>
      obtain ⟨requestId, trackingNo, clientRef, hemisId, status, label, deadline, body⟩ := data
      cases body <;> rfl
  | _ => rfl

/-! ## What the services add -/

namespace Alike

/-- Rows that agree up to a message's number, under the same id. -/
theorem add (h : s.Alike t) {row row' : Nat → PendingRow}
    (hrow : ∀ n, (row n).unnumbered = (row' n).unnumbered)
    (hid : ∀ n, (row n).id? = some n) (hid' : ∀ n, (row' n).id? = some n) :
    (s.add row hid).Alike (t.add row' hid') where
  start := h.start
  rows := by
    simp only [Session.add, List.map_append, List.map_cons, List.map_nil]
    rw [h.rows, h.nextId, hrow]

theorem addMessage (h : s.Alike t) {row : Nat → Message}
    (hrow : ∀ n m, (row n).unnumbered = (row m).unnumbered) (hid : ∀ n, (row n).id = n) :
    (s.addMessage row hid).Alike (t.addMessage row hid) where
  start := h.start
  rows := by
    simp only [Session.addMessage, List.map_append, List.map_cons, List.map_nil,
      PendingRow.unnumbered]
    rw [h.rows, hrow s.nextMessageId t.nextMessageId]

/-- A loop that adds for each item alike. -/
theorem foldl {α : Type} {f : Session → α → Session}
    (hf : ∀ {s t : Session} (a : α), s.Alike t → (f s a).Alike (f t a)) (h : s.Alike t)
    (xs : List α) : (xs.foldl f s).Alike (xs.foldl f t) := by
  induction xs generalizing s t with
  | nil => exact h
  | cons x xs ih => exact ih (hf x h)

theorem logAction (h : s.Alike t) (userId : Option Nat) (action entityType : String)
    (entityId : Nat) (oldValue newValue : List (String × AuditValue)) :
    (logAction s userId action entityType entityId oldValue newValue).Alike
      (logAction t userId action entityType entityId oldValue newValue) :=
  h.add (fun _ => rfl) _ _

theorem createNotification (h : s.Alike t) (userId : Nat) (type : NotificationType)
    (title body : String) (req : Request) (slaBreached : Option Bool) :
    (createNotification s userId type title body req slaBreached).Alike
      (createNotification t userId type title body req slaBreached) :=
  h.add (fun _ => rfl) _ _

theorem enqueueEmail (h : s.Alike t) (email : Email) :
    (enqueueEmail s email).Alike (enqueueEmail t email) :=
  h.add (fun _ => rfl) _ _

/-- An event that agrees up to a message's number. -/
theorem publish (h : s.Alike t) (cfg : Settings) (db : Db) (req : Request) {body body' : EventBody}
    (hbody : body.unnumbered = body'.unnumbered) :
    (publish cfg db s req body).Alike (publish cfg db t req body') := by
  unfold Royd.publish enqueueWebhook
  split
  · exact h
  · refine h.add (fun n => ?_) _ _
    simp only [PendingRow.unnumbered, OutboxMessage.unnumbered, OutboxPayload.unnumbered,
      Webhook.unnumbered, hbody]

theorem notifyUser (h : s.Alike t) (cfg : Settings) (db : Db) (userId : Nat)
    (type : NotificationType) (title : String) (lines : List String) (req : Request)
    (linkBase : String) :
    (notifyUser cfg db s userId type title lines req linkBase).Alike
      (notifyUser cfg db t userId type title lines req linkBase) := by
  unfold Royd.notifyUser
  have hnotified := h.createNotification userId type title
    (String.ofList ((" ".intercalate lines).toList.take 500)) req none
  dsimp only
  split
  · split
    · exact hnotified
    · exact hnotified.enqueueEmail _
  · exact hnotified

theorem notifyAssigned (h : s.Alike t) (cfg : Settings) (db : Db) (req : Request)
    (assigneeId : Nat) :
    (notifyAssigned cfg db s req assigneeId).Alike (notifyAssigned cfg db t req assigneeId) := by
  unfold Royd.notifyAssigned
  split
  · exact h
  · exact h.notifyUser cfg db _ _ _ _ _ _

theorem publishFileAdded (h : s.Alike t) (cfg : Settings) (db : Db) (req : Request)
    (record : RequestFile) :
    (publishFileAdded cfg db s req record).Alike (publishFileAdded cfg db t req record) :=
  h.publish cfg db req rfl

theorem addHistory (h : s.Alike t) (req : Request) (changedBy : Option Nat)
    (oldStatus : Option RequestStatus) (newStatus : RequestStatus) (comment : Option String)
    (now : Int) :
    (addHistory s req changedBy oldStatus newStatus comment now).Alike
      (addHistory t req changedBy oldStatus newStatus comment now) :=
  h.add (fun _ => rfl) _ _

theorem filingRows (h : s.Alike t) (db : Db) (req : Request) (category : RequestCategory)
    (assignee : Option User) (now : Int) :
    (filingRows db s req category assignee now).Alike
      (filingRows db t req category assignee now) := by
  unfold Royd.filingRows
  have hfiles : (if category.routing = .autoReply then
        addAutoReplyFiles s req (listAutoReplyFiles db category) now else s).Alike
      (if category.routing = .autoReply then
        addAutoReplyFiles t req (listAutoReplyFiles db category) now else t) := by
    split
    · refine Alike.foldl (fun f h' => ?_) h _
      exact h'.add (fun _ => rfl) _ _
    · exact h
  exact (hfiles.addHistory ..).addHistory ..

theorem sweepNotify (h : s.Alike t) (cfg : Settings) (db : Db) (req : Request) (breached : Bool)
    (now : Int) :
    (sweepNotify cfg db s req breached now).Alike (sweepNotify cfg db t req breached now) := by
  unfold Royd.sweepNotify
  refine Alike.addHistory ?_ ..
  unfold sweepTell
  dsimp only
  refine Alike.foldl (fun address h' => ?_) (Alike.foldl (fun id h' => ?_) h _) _
  · exact h'.enqueueEmail _
  · exact h'.createNotification ..

end Alike

end Session

/-! ## Units of work -/

/-- Units of work that differ in how their messages are numbered only. -/
structure Work.Alike (w v : Work) : Prop where
  loaded : w.loaded = v.loaded
  req : w.req = v.req
  session : w.session.Alike v.session

end Royd
