/-
Royd.Services.EventsTheorems — what telling the outside leaves alone.

`Announces s s'` says that between two points of a session only
notifications, audit entries, emails and webhooks without an answer were
added. Every function of `Services.Events` is one of these, with
`publish_answer` for the one webhook that does carry an answer.
-/
import Royd.Services.Events

namespace Royd

/-! ## The rows of a session, table by table -/

/-- The event carries a final answer. -/
def EventBody.carriesAnswer : EventBody → Bool
  | .statusChanged _ _ (some _) => true
  | _ => false

/-- A queued webhook that carries a final answer. -/
def OutboxMessage.carriesAnswer (m : OutboxMessage) : Bool :=
  match m.payload with
  | .webhook data => data.body.carriesAnswer
  | .email _ => false

/-- The answers an outbox has queued for a request. -/
def answersQueued (outbox : List OutboxMessage) (requestId : Nat) : List OutboxMessage :=
  outbox.filter fun m => m.carriesAnswer && match m.payload with
    | .webhook data => data.requestId == requestId
    | .email _ => false

namespace Session

@[simp] theorem start_empty (n k : Nat) : (empty n k).start = n := rfl
@[simp] theorem history_empty (n k : Nat) : (empty n k).history = [] := rfl
@[simp] theorem files_empty (n k : Nat) : (empty n k).files = [] := rfl
@[simp] theorem messages_empty (n k : Nat) : (empty n k).messages = [] := rfl
@[simp] theorem outbox_empty (n k : Nat) : (empty n k).outbox = [] := rfl
@[simp] theorem nextId_empty (n k : Nat) : (empty n k).nextId = n := rfl

variable (s : Session) (row : Nat → PendingRow) (hid : ∀ n, (row n).id? = some n)

@[simp] theorem start_add : (s.add row hid).start = s.start := rfl

@[simp] theorem nextId_add : (s.add row hid).nextId = s.nextId + 1 := by
  simp [nextId, add, hid, Nat.add_assoc]

@[simp] theorem rows_add : (s.add row hid).rows = s.rows ++ [row s.nextId] := rfl

variable (m : Nat → Message) (hm : ∀ n, (m n).id = n)

@[simp] theorem start_addMessage : (s.addMessage m hm).start = s.start := rfl

@[simp] theorem nextId_addMessage : (s.addMessage m hm).nextId = s.nextId := by
  simp [nextId, addMessage]

@[simp] theorem rows_addMessage :
    (s.addMessage m hm).rows = s.rows ++ [.message (m s.nextMessageId)] := rfl

end Session

/-- Between `s` and `s'` only announcements were added. -/
structure Session.Announces (s s' : Session) : Prop where
  start : s'.start = s.start
  nextId : s.nextId ≤ s'.nextId
  history : s'.history = s.history
  files : s'.files = s.files
  messages : s'.messages = s.messages
  answers : ∀ requestId, answersQueued s'.outbox requestId = answersQueued s.outbox requestId

namespace Session.Announces

theorem refl (s : Session) : Announces s s := ⟨rfl, le_rfl, rfl, rfl, rfl, fun _ => rfl⟩

theorem trans {s₁ s₂ s₃ : Session} (h₁ : Announces s₁ s₂) (h₂ : Announces s₂ s₃) :
    Announces s₁ s₃ where
  start := h₂.start.trans h₁.start
  nextId := h₁.nextId.trans h₂.nextId
  history := h₂.history.trans h₁.history
  files := h₂.files.trans h₁.files
  messages := h₂.messages.trans h₁.messages
  answers := fun id => (h₂.answers id).trans (h₁.answers id)

/-- A loop that announces something for each item announces. -/
theorem foldl {α : Type} {f : Session → α → Session} (h : ∀ s a, Announces s (f s a)) (s : Session) :
    ∀ xs : List α, Announces s (xs.foldl f s)
  | [] => .refl s
  | x :: xs => (h s x).trans (foldl h (f s x) xs)

end Session.Announces

/-! ## What each function adds -/

variable (cfg : Settings) (db : Db) (s : Session)

theorem logAction_announces (userId : Option Nat) (action entityType : String) (entityId : Nat)
    (oldValue newValue : List (String × AuditValue)) :
    s.Announces (logAction s userId action entityType entityId oldValue newValue) := by
  constructor <;>
    simp [logAction, Session.history, Session.files, Session.messages, Session.outbox]

theorem createNotification_announces (userId : Nat) (type : NotificationType) (title body : String)
    (req : Request) (slaBreached : Option Bool) :
    s.Announces (createNotification s userId type title body req slaBreached) := by
  constructor <;>
    simp [createNotification, Session.history, Session.files, Session.messages, Session.outbox]

theorem enqueueEmail_announces (email : Email) : s.Announces (enqueueEmail s email) := by
  constructor <;>
    simp [enqueueEmail, Session.history, Session.files, Session.messages, Session.outbox,
      answersQueued, OutboxMessage.carriesAnswer]

/-- A webhook whose body carries no answer is an announcement. -/
theorem publish_announces (req : Request) {body : EventBody} (h : body.carriesAnswer = false) :
    s.Announces (publish cfg db s req body) := by
  unfold publish enqueueWebhook
  split
  · exact .refl s
  · constructor <;>
      simp [Session.history, Session.files, Session.messages, Session.outbox,
        answersQueued, OutboxMessage.carriesAnswer, h]

/-- The webhook of a final answer: at most one more answer for its request,
none for any other. -/
theorem publish_answer (req : Request) (body : EventBody) (requestId : Nat) :
    (answersQueued (publish cfg db s req body).outbox requestId).length
      ≤ (answersQueued s.outbox requestId).length + if req.id = requestId then 1 else 0 := by
  unfold publish enqueueWebhook
  split
  · exact Nat.le_add_right _ _
  · by_cases hid : req.id = requestId <;> by_cases hbody : body.carriesAnswer = true <;>
      simp [Session.outbox, answersQueued, OutboxMessage.carriesAnswer, hid, hbody]

/-- Apart from its outbox, a webhook leaves the session as it was. -/
theorem publish_tables (req : Request) (body : EventBody) :
    (publish cfg db s req body).start = s.start
      ∧ s.nextId ≤ (publish cfg db s req body).nextId
      ∧ (publish cfg db s req body).history = s.history
      ∧ (publish cfg db s req body).files = s.files
      ∧ (publish cfg db s req body).messages = s.messages := by
  unfold publish enqueueWebhook
  split
  · exact ⟨rfl, le_rfl, rfl, rfl, rfl⟩
  · simp [Session.history, Session.files, Session.messages]

theorem notifyUser_announces (userId : Nat) (type : NotificationType) (title : String)
    (lines : List String) (req : Request) (linkBase : String) :
    s.Announces (notifyUser cfg db s userId type title lines req linkBase) := by
  unfold notifyUser
  have hnotif := createNotification_announces s userId type title
    (String.ofList ((" ".intercalate lines).toList.take 500)) req none
  dsimp only
  split
  · split
    · exact hnotif
    · exact hnotif.trans (enqueueEmail_announces _ _)
  · exact hnotif

theorem notifyAssigned_announces (req : Request) (assigneeId : Nat) :
    s.Announces (notifyAssigned cfg db s req assigneeId) := by
  unfold notifyAssigned
  split
  · exact .refl s
  · exact notifyUser_announces cfg db s _ _ _ _ _ _

theorem publishFileAdded_announces (req : Request) (record : RequestFile) :
    s.Announces (publishFileAdded cfg db s req record) :=
  publish_announces cfg db s req rfl

end Royd
