/-
Royd.Lifecycle.Life — the system seen from one request.

`Life` is a request with the rows that hang off it, and `Life.Step` the
machine a single request goes through: it is filed once and then changed.
`step_life` shows that every step of the system is, for every request id, a
chain of steps of this machine (a pass of the SLA sweep may be many, most
others are one or none). An invariant of the machine is then an invariant
of every request in every run.
-/
import Royd.Api.RequestsTheorems
import Royd.Lib.Tables
import Royd.Services.CatalogTheorems
import Mathlib.Logic.Relation
import Mathlib.Data.List.Nodup

namespace Royd

open Api

/-! ## The machine of one request -/

/-- A request with its history, files, messages and queued answers, in the
order they were inserted. -/
structure Life where
  req : Request
  history : List RequestHistory
  files : List RequestFile
  messages : List Message
  answers : List OutboxMessage
  deriving DecidableEq, Repr

/-- A life after a session was committed for its request. -/
def Life.after (l : Life) (req' : Request) (s : Session) : Life where
  req := req'
  history := l.history ++ s.history
  files := l.files ++ s.files
  messages := l.messages ++ s.messages
  answers := l.answers ++ answersQueued s.outbox l.req.id

/-- One step in the life of a request, made at `now` under the catalogue
`cats`. -/
inductive Life.Step (cfg : Settings) (now : Int) (cats : List RequestCategory) :
    Option Life → Option Life → Prop
  | filed {db : Db} {category : RequestCategory} {req : Request} {first second : RequestHistory}
      {fs : List RequestFile} (current : db.categories = cats) (catalogue : CatalogueOk db)
      (filed : Filed cfg db now category req)
      (opening : Opening now req category first second fs) (answers : List OutboxMessage)
      (announced : answers.length ≤ if req.status = .completed then 1 else 0) :
      Step cfg now cats none (some ⟨req, [first, second], fs, [], answers⟩)
  | changed {l : Life} {req' : Request} {start : Nat} {s : Session}
      (change : Change cfg start now l.req req' s) :
      Step cfg now cats (some l)
        (some (l.after req' s))

/-- Any number of steps made at one instant. -/
def Life.Steps (cfg : Settings) (now : Int) (cats : List RequestCategory) :
    Option Life → Option Life → Prop :=
  Relation.ReflTransGen (Life.Step cfg now cats)

/-- A request of the database with its own rows. -/
def Db.lifeOf (db : Db) (r : Request) : Life :=
  ⟨r, db.historyOf r.id, db.filesOf r.id, db.messagesOf r.id, answersQueued db.outbox r.id⟩

/-- The life of the request with this id, as the tables hold it. -/
def Db.life? (db : Db) (id : Nat) : Option Life :=
  (db.getRequest id).map fun r =>
    ⟨r, db.historyOf id, db.filesOf id, db.messagesOf id, answersQueued db.outbox id⟩

/-! ## What a change touches -/

section Change

variable {cfg : Settings} {start : Nat} {now : Int} {r req' : Request} {s : Session}

theorem Change.id (h : Change cfg start now r req' s) : req'.id = r.id := by
  cases h with
  | assigned => rfl
  | moved _ _ applied => rw [applied.shape]
  | answered _ _ _ _ applied => rw [applied.shape]
  | said => rfl
  | attached => rfl
  | noticed => rfl

theorem Change.categoryId (h : Change cfg start now r req' s) : req'.categoryId = r.categoryId := by
  cases h with
  | assigned => rfl
  | moved _ _ applied => rw [applied.shape]
  | answered _ _ _ _ applied => rw [applied.shape]
  | said => rfl
  | attached => rfl
  | noticed => rfl

/-- Only columns an `UPDATE` may write were assigned to. -/
theorem Change.write (h : Change cfg start now r req' s) : r.write r req' = req' := by
  cases h with
  | assigned => simp [Request.write]
  | moved _ _ applied => rw [applied.shape]; simp [Request.write]
  | answered _ _ _ _ applied => rw [applied.shape]; simp [Request.write]
  | said => simp
  | attached => simp
  | noticed => simp [Request.write]

/-- No answer is queued for another request. -/
theorem Change.answersElsewhere (h : Change cfg start now r req' s) {id : Nat} (hid : r.id ≠ id) :
    answersQueued s.outbox id = [] := by
  have hnone : ∀ {hs fs ms n}, s.Holds start r.id hs fs ms n → answersQueued s.outbox id = [] := by
    intro hs fs ms n hrows
    have hle := hrows.answers id
    rw [if_neg hid] at hle
    exact List.eq_nil_of_length_eq_zero (by omega)
  cases h with
  | assigned _ _ _ _ _ rows => exact hnone rows
  | moved _ _ _ _ _ rows => exact hnone rows
  | answered _ _ _ _ _ _ _ rows => exact hnone rows
  | said _ _ rows => exact hnone rows
  | attached _ _ _ rows => exact hnone rows
  | noticed _ _ _ _ rows => exact hnone rows

/-- Every row a change adds belongs to its request. -/
theorem Change.own (h : Change cfg start now r req' s) :
    (∀ e ∈ s.history, e.requestId = r.id) ∧ (∀ f ∈ s.files, f.requestId = r.id) ∧
      ∀ m ∈ s.messages, m.requestId = r.id := by
  cases h with
  | assigned _ _ _ _ entry rows =>
    rw [rows.history, rows.files, rows.messages]
    simp [entry.requestId]
  | moved _ _ _ entry _ rows =>
    rw [rows.history, rows.files, rows.messages]
    simp [entry.requestId]
  | answered _ _ _ _ _ entry answerFiles rows =>
    rw [rows.history, rows.files, rows.messages]
    simp only [List.mem_singleton, forall_eq, entry.requestId, List.not_mem_nil, false_implies,
      implies_true, and_true, true_and]
    exact fun f hf => (answerFiles f hf).1
  | said own _ rows =>
    rw [rows.history, rows.files, rows.messages]
    simp [own]
  | attached own _ _ rows =>
    rw [rows.history, rows.files, rows.messages]
    simp [own]
  | noticed _ _ _ entry rows =>
    rw [rows.history, rows.files, rows.messages]
    simp [entry.requestId]

end Change

/-! ## Well-formed databases -/

/-- Request ids are distinct, and no id in use is still to be given out. -/
structure Db.Wf (db : Db) : Prop where
  requestIds : (db.requests.map (·.id)).Nodup
  requestsBelow : ∀ r ∈ db.requests, r.id < db.nextId
  historyBelow : ∀ h ∈ db.history, h.requestId < db.nextId
  filesBelow : ∀ f ∈ db.files, f.requestId < db.nextId
  messagesBelow : ∀ m ∈ db.messages, m.requestId < db.nextId
  answersBelow : ∀ id, db.nextId ≤ id → answersQueued db.outbox id = []
  catalogue : CatalogueOk db

/-- A database before the first request: people and a catalogue whose
automatic services have an answer, as the seeded one does. -/
structure Start (db : Db) : Prop where
  requests : db.requests = []
  history : db.history = []
  files : db.files = []
  messages : db.messages = []
  outbox : db.outbox = []
  catalogue : CatalogueOk db

theorem Start.wf {db : Db} (h : Start db) : db.Wf where
  requestIds := by simp [h.requests]
  requestsBelow := by simp [h.requests]
  historyBelow := by simp [h.history]
  filesBelow := by simp [h.files]
  messagesBelow := by simp [h.messages]
  answersBelow := by simp [h.outbox, answersQueued]
  catalogue := h.catalogue

theorem Db.Wf.eq_of_id {db : Db} (h : db.Wf) {r r' : Request} (hr : r ∈ db.requests)
    (hr' : r' ∈ db.requests) (hid : r.id = r'.id) : r = r' :=
  Tables.eq_of_key h.requestIds hr hr' hid

theorem getRequest_of_ids {db : Db} (hids : (db.requests.map (·.id)).Nodup) {r : Request}
    (hr : r ∈ db.requests) : db.getRequest r.id = some r :=
  Tables.find?_of_mem hids hr

theorem Db.Wf.getRequest {db : Db} (h : db.Wf) {r : Request} (hr : r ∈ db.requests) :
    db.getRequest r.id = some r := getRequest_of_ids h.requestIds hr

/-! ## What one commit does to the tables -/

/-- One commit of the system: rows of a new request, a change of a
committed request, or an edit of something else. -/
inductive Effect (cfg : Settings) (now : Int) (cats : List RequestCategory) (db : Db) : Db → Prop
  | outside {db' : Db} (requests : db'.requests = db.requests) (history : db'.history = db.history)
      (files : db'.files = db.files) (messages : db'.messages = db.messages)
      (outbox : db'.outbox = db.outbox) (nextId : db.nextId ≤ db'.nextId) (catalogue : CatalogueOk db → CatalogueOk db') :
      Effect cfg now cats db db'
  | filed {category : RequestCategory} {req : Request} {first second : RequestHistory}
      {fs : List RequestFile} {s : Session} (current : db.categories = cats)
      (filed : Filed cfg db now category req)
      (opening : Opening now req category first second fs)
      (rows : s.Holds (db.nextId + 1) req.id [first, second] fs []
        (if req.status = .completed then 1 else 0)) :
      Effect cfg now cats db { db.commit s with requests := (db.commit s).requests ++ [req] }
  | changed {w : Work} (committed : w.loaded ∈ db.requests)
      (change : Change cfg db.nextId now w.loaded w.req w.session) : Effect cfg now cats db (db.finish w)

/-- A chain of commits made at one instant. -/
def Effects (cfg : Settings) (now : Int) (cats : List RequestCategory) : Db → Db → Prop :=
  Relation.ReflTransGen (Effect cfg now cats)

variable {cfg : Settings} {now : Int} {cats : List RequestCategory} {db db' : Db}

theorem nextId_le_finish (db : Db) (w : Work) : db.nextId ≤ (db.finish w).nextId :=
  Nat.le_max_left _ _

theorem answersQueued_commit (db : Db) (s : Session) (id : Nat) :
    answersQueued (db.commit s).outbox id =
      answersQueued db.outbox id ++ answersQueued s.outbox id :=
  List.filter_append ..

theorem answersQueued_finish (db : Db) (w : Work) (id : Nat) :
    answersQueued (db.finish w).outbox id =
      answersQueued db.outbox id ++ answersQueued w.session.outbox id :=
  answersQueued_commit db w.session id

theorem getRequest_finish (db : Db) (w : Work) (id : Nat) :
    (db.finish w).getRequest id = (db.getRequest id).map fun row =>
      if row.id = w.loaded.id then row.write w.loaded w.req else row := by
  unfold Db.getRequest Db.finish Db.updateRequest Db.commit
  dsimp only
  rw [List.find?_map]
  congr 2
  funext row
  dsimp only [Function.comp]
  split <;> rfl

/-- A commit of a change keeps the tables well formed, however old the row it
was made from is. -/
theorem Db.Wf.finish {start : Nat} {w : Work} (hwf : db.Wf) (hbelow : w.loaded.id < db.nextId)
    (change : Change cfg start now w.loaded w.req w.session) : (db.finish w).Wf := by
  have hle := nextId_le_finish db w
  obtain ⟨hhist, hfiles, hmsgs⟩ := change.own
  have hids : (db.finish w).requests.map (·.id) = db.requests.map (·.id) := by
    unfold Db.finish Db.updateRequest Db.commit
    dsimp only
    rw [List.map_map]
    refine List.map_congr_left fun row _ => ?_
    dsimp only [Function.comp]
    split <;> rfl
  constructor
  · rw [hids]; exact hwf.requestIds
  · intro r hr
    have : r.id ∈ db.requests.map (·.id) := hids ▸ List.mem_map_of_mem hr
    obtain ⟨r₀, hr₀, hid⟩ := List.mem_map.mp this
    rw [← hid]
    exact (hwf.requestsBelow r₀ hr₀).trans_le hle
  · intro e he
    rcases List.mem_append.mp he with he | he
    · exact (hwf.historyBelow e he).trans_le hle
    · rw [hhist e he]; exact hbelow.trans_le hle
  · intro f hf
    rcases List.mem_append.mp hf with hf | hf
    · exact (hwf.filesBelow f hf).trans_le hle
    · rw [hfiles f hf]; exact hbelow.trans_le hle
  · intro m hm
    rcases List.mem_append.mp hm with hm | hm
    · exact (hwf.messagesBelow m hm).trans_le hle
    · rw [hmsgs m hm]; exact hbelow.trans_le hle
  · intro id hid
    rw [answersQueued_finish, hwf.answersBelow id (hle.trans hid), List.nil_append]
    exact change.answersElsewhere (by omega)
  · exact hwf.catalogue

/-- Every commit keeps the tables well formed. -/
theorem Effect.wf (h : Effect cfg now cats db db') (hwf : db.Wf) : db'.Wf := by
  cases h with
  | outside requests history files messages outbox nextId catalogue =>
    constructor
    · rw [requests]; exact hwf.requestIds
    · rw [requests]; exact fun r hr => (hwf.requestsBelow r hr).trans_le nextId
    · rw [history]; exact fun r hr => (hwf.historyBelow r hr).trans_le nextId
    · rw [files]; exact fun r hr => (hwf.filesBelow r hr).trans_le nextId
    · rw [messages]; exact fun r hr => (hwf.messagesBelow r hr).trans_le nextId
    · rw [outbox]; exact fun id hid => hwf.answersBelow id (nextId.trans hid)
    · exact catalogue hwf.catalogue
  | @filed category req first second fs s current filed opening rows =>
    have hnext : db.nextId < max db.nextId s.nextId := by
      unfold Session.nextId
      rw [rows.start]
      omega
    have hid : req.id < max db.nextId s.nextId := by rw [filed.id]; exact hnext
    constructor
    · rw [List.map_append, List.nodup_append]
      refine ⟨hwf.requestIds, by simp, ?_⟩
      intro a ha b hb
      obtain ⟨r, hr, rfl⟩ := List.mem_map.mp ha
      rw [List.map_singleton, List.mem_singleton] at hb
      have := hwf.requestsBelow r hr
      rw [hb, filed.id]
      omega
    · intro r hr
      rcases List.mem_append.mp hr with hr | hr
      · exact (hwf.requestsBelow r hr).trans hnext
      · rw [List.mem_singleton.mp hr]
        exact hid
    · intro e he
      rcases List.mem_append.mp he with he | he
      · exact (hwf.historyBelow e he).trans hnext
      · rw [rows.history] at he
        have : e.requestId = req.id := by
          rcases List.mem_cons.mp he with rfl | he
          · exact opening.first.1
          · rw [List.mem_singleton.mp he]
            exact opening.entry.requestId
        rw [this]
        exact hid
    · intro f hf
      rcases List.mem_append.mp hf with hf | hf
      · exact (hwf.filesBelow f hf).trans hnext
      · rw [rows.files] at hf
        rw [(opening.answerFiles f hf).1]
        exact hid
    · intro m hm
      rcases List.mem_append.mp hm with hm | hm
      · exact (hwf.messagesBelow m hm).trans hnext
      · rw [rows.messages] at hm
        cases hm
    · intro other hother
      have hother' : max db.nextId s.nextId ≤ other := hother
      have hle := rows.answers other
      rw [if_neg (by omega)] at hle
      rw [answersQueued_commit, hwf.answersBelow other (by omega), List.nil_append]
      exact List.eq_nil_of_length_eq_zero (by omega)
    · exact hwf.catalogue
  | changed committed change => exact hwf.finish (hwf.requestsBelow _ committed) change

/-! ## A commit in the life of each request -/

theorem filter_own {α : Type} {key : α → Nat} {rows : List α} {id : Nat}
    (h : ∀ a ∈ rows, key a = id) : rows.filter (fun a => key a == id) = rows :=
  List.filter_eq_self.mpr fun a ha => by simp [h a ha]

theorem filter_other {α : Type} {key : α → Nat} {rows : List α} {id other : Nat}
    (h : ∀ a ∈ rows, key a = id) (hne : id ≠ other) :
    rows.filter (fun a => key a == other) = [] :=
  List.filter_eq_nil_iff.mpr fun a ha => by simp [h a ha, hne]

/-- No row of the tables refers to an id that was not given out yet. -/
theorem Db.Wf.filter_fresh {α : Type} {key : α → Nat} {rows : List α} {bound id : Nat}
    (h : ∀ a ∈ rows, key a < bound) (hid : bound ≤ id) :
    rows.filter (fun a => key a == id) = [] :=
  List.filter_eq_nil_iff.mpr fun a ha => by
    have := h a ha
    simp only [beq_iff_eq]
    omega

/-- The commit of a change reaches the request it was made from: its columns
are written onto the row as it is by then. -/
theorem life?_finish_own {start : Nat} {w : Work} {l : Life} (hl : db.life? w.loaded.id = some l)
    (change : Change cfg start now w.loaded w.req w.session) :
    (db.finish w).life? w.loaded.id
      = some (l.after (l.req.write w.loaded w.req) w.session) := by
  obtain ⟨hhist, hfiles, hmsgs⟩ := change.own
  obtain ⟨r, hr, rfl⟩ := Option.map_eq_some_iff.mp hl
  have hid := (getRequest_mem hr).2
  rw [Db.life?, getRequest_finish, hr, Option.map_some, Option.map_some, if_pos hid,
    answersQueued_finish]
  unfold Life.after Db.historyOf Db.filesOf Db.messagesOf Db.finish Db.updateRequest Db.commit
  dsimp only
  rw [List.filter_append, List.filter_append, List.filter_append, filter_own hhist,
    filter_own hfiles, filter_own hmsgs, hid]

/-- It leaves every other request alone. -/
theorem life?_finish_other {start : Nat} {w : Work} {id : Nat} (hid : w.loaded.id ≠ id)
    (change : Change cfg start now w.loaded w.req w.session) :
    (db.finish w).life? id = db.life? id := by
  obtain ⟨hhist, hfiles, hmsgs⟩ := change.own
  have hget : (db.finish w).getRequest id = db.getRequest id := by
    rw [getRequest_finish]
    cases hr : db.getRequest id with
    | none => rfl
    | some r =>
      rw [Option.map_some, if_neg]
      rw [(getRequest_mem hr).2]
      exact fun heq => hid heq.symm
  have hanswers := answersQueued_finish db w id
  rw [change.answersElsewhere hid, List.append_nil] at hanswers
  unfold Db.life?
  rw [hget, hanswers]
  unfold Db.historyOf Db.filesOf Db.messagesOf Db.finish Db.updateRequest Db.commit
  dsimp only
  rw [List.filter_append, List.filter_append, List.filter_append, filter_other hhist hid,
    filter_other hfiles hid, filter_other hmsgs hid]
  simp

/-- The life of a committed row, before and after its change. -/
theorem life?_changed {start : Nat} {w : Work} (hwf : db.Wf) (committed : w.loaded ∈ db.requests)
    (change : Change cfg start now w.loaded w.req w.session) :
    db.life? w.loaded.id = some (db.lifeOf w.loaded) ∧
      (db.finish w).life? w.loaded.id = some ((db.lifeOf w.loaded).after w.req w.session) := by
  have hbefore : db.life? w.loaded.id = some (db.lifeOf w.loaded) := by
    rw [Db.life?, hwf.getRequest committed, Option.map_some, Db.lifeOf]
  have hafter := life?_finish_own hbefore change
  dsimp only [Db.lifeOf] at hafter
  rw [change.write] at hafter
  exact ⟨hbefore, hafter⟩

section Filed

variable {category : RequestCategory} {req : Request} {first second : RequestHistory}
  {fs : List RequestFile} {s : Session} {answers : Nat}

/-- Every row of a filing belongs to the new request. -/
theorem Opening.own (opening : Opening now req category first second fs)
    (rows : s.Holds (db.nextId + 1) req.id [first, second] fs [] answers) :
    (∀ e ∈ s.history, e.requestId = req.id) ∧ (∀ f ∈ s.files, f.requestId = req.id) ∧
      ∀ m ∈ s.messages, m.requestId = req.id := by
  rw [rows.history, rows.files, rows.messages]
  refine ⟨?_, fun f hf => (opening.answerFiles f hf).1, by simp⟩
  simp [opening.first.1, opening.entry.requestId]

/-- Nothing refers to the id of a request that is still to be filed. -/
theorem life?_unfiled (hwf : db.Wf) {id : Nat} (hfresh : db.nextId ≤ id) : db.life? id = none := by
  unfold Db.life? Db.getRequest
  rw [List.find?_eq_none.mpr, Option.map_none]
  intro r hr
  have := hwf.requestsBelow r hr
  simp only [beq_iff_eq]
  omega

/-- A filing starts the life of its request. -/
theorem life?_filed (hwf : db.Wf) (filed : Filed cfg db now category req)
    (opening : Opening now req category first second fs)
    (rows : s.Holds (db.nextId + 1) req.id [first, second] fs [] answers) :
    Db.life? { db.commit s with requests := (db.commit s).requests ++ [req] } req.id
      = some ⟨req, [first, second], fs, [], answersQueued s.outbox req.id⟩ := by
  obtain ⟨hhist, hfiles, hmsgs⟩ := opening.own rows
  have hfresh : db.nextId ≤ req.id := by rw [filed.id]
  have hnone := life?_unfiled hwf hfresh
  unfold Db.life? Db.getRequest at hnone ⊢
  rw [Option.map_eq_none_iff] at hnone
  have hanswers := answersQueued_commit db s req.id
  rw [hwf.answersBelow req.id hfresh, List.nil_append] at hanswers
  rw [hanswers]
  unfold Db.historyOf Db.filesOf Db.messagesOf Db.commit
  dsimp only
  rw [List.find?_append, hnone, Option.none_or, List.filter_append, List.filter_append,
    List.filter_append, Db.Wf.filter_fresh hwf.historyBelow hfresh,
    Db.Wf.filter_fresh hwf.filesBelow hfresh, Db.Wf.filter_fresh hwf.messagesBelow hfresh,
    filter_own hhist, filter_own hfiles, filter_own hmsgs, rows.history, rows.files, rows.messages]
  simp

/-- It leaves every other request alone. -/
theorem life?_filed_other {id : Nat} (hid : req.id ≠ id)
    (opening : Opening now req category first second fs)
    (rows : s.Holds (db.nextId + 1) req.id [first, second] fs [] answers) :
    Db.life? { db.commit s with requests := (db.commit s).requests ++ [req] } id = db.life? id := by
  obtain ⟨hhist, hfiles, hmsgs⟩ := opening.own rows
  have hle := rows.answers id
  rw [if_neg hid] at hle
  have hanswers := answersQueued_commit db s id
  rw [List.eq_nil_of_length_eq_zero (l := answersQueued s.outbox id) (by omega),
    List.append_nil] at hanswers
  unfold Db.life? Db.getRequest
  dsimp only
  rw [hanswers]
  unfold Db.historyOf Db.filesOf Db.messagesOf Db.commit
  dsimp only
  rw [List.find?_append, List.filter_append, List.filter_append, List.filter_append,
    filter_other hhist hid, filter_other hfiles hid, filter_other hmsgs hid]
  simp [hid]

end Filed

/-- An edit of something else leaves every request alone. -/
theorem life?_outside (requests : db'.requests = db.requests) (history : db'.history = db.history)
    (files : db'.files = db.files) (messages : db'.messages = db.messages)
    (outbox : db'.outbox = db.outbox) (id : Nat) : db'.life? id = db.life? id := by
  unfold Db.life? Db.getRequest Db.historyOf Db.filesOf Db.messagesOf
  rw [requests, history, files, messages, outbox]

/-- A commit is a step in the life of at most one request. -/
theorem Effect.life (h : Effect cfg now cats db db') (hwf : db.Wf) (id : Nat) :
    db'.life? id = db.life? id ∨ Life.Step cfg now cats (db.life? id) (db'.life? id) := by
  cases h with
  | outside requests history files messages outbox nextId catalogue =>
    exact .inl (life?_outside requests history files messages outbox id)
  | @filed category req first second fs s current filed opening rows =>
    by_cases hid : req.id = id
    · right
      subst hid
      rw [life?_unfiled hwf (by rw [filed.id]), life?_filed hwf filed opening rows]
      have hle := rows.answers req.id
      rw [if_pos rfl] at hle
      exact .filed current hwf.catalogue filed opening _ hle
    · exact .inl (life?_filed_other hid opening rows)
  | @changed w committed change =>
    by_cases hid : w.loaded.id = id
    · right
      subst hid
      obtain ⟨hbefore, hafter⟩ := life?_changed hwf committed change
      rw [hbefore, hafter]
      exact .changed (l := db.lifeOf w.loaded) change
    · exact .inl (life?_finish_other hid change)

/-- A chain of commits is a chain of steps in the life of each request. -/
theorem Effects.life (h : Effects cfg now cats db db') (hwf : db.Wf) :
    db'.Wf ∧ ∀ id, Life.Steps cfg now cats (db.life? id) (db'.life? id) := by
  induction h with
  | refl => exact ⟨hwf, fun id => .refl⟩
  | tail _ heffect ih =>
    refine ⟨heffect.wf ih.1, fun id => ?_⟩
    rcases heffect.life ih.1 id with heq | hstep
    · rw [heq]
      exact ih.2 id
    · exact (ih.2 id).tail hstep

end Royd
