/-
Royd.Lifecycle.Sweeps — the sweep starves nobody.

`due` are the requests the query would select without its limit, and
`handleBatch` is a pass over some of them. A request that was noticed is due
no more at that instant and no other request is touched, so a pass takes
exactly its batch out of what is due (`due_handleBatch`); what it sends is
`Sent`. The database may break ties of the deadline as it likes: a batch is
any first 200 in an order of the deadlines (`Batches.IsBatch`).
-/
import Royd.Lib.Batches
import Royd.Lifecycle.InternalNotes
import Royd.Lifecycle.Notices

namespace Royd

open Api Runs Batches

variable {cfg : Settings} {now : Int} {db db' db'' : Db} {batch : List Request}

/-- The requests the query selects, were it not for the limit. -/
def due (cfg : Settings) (now : Int) (db : Db) : List Request :=
  db.requests.filter (needsNotice cfg now)

/-- A pass over the requests the query returned. -/
def handleBatch (cfg : Settings) (now : Int) (db : Db) (batch : List Request) : Db :=
  batch.foldl (fun db req => db.finish (sweepOne cfg db req now)) db

/-- `order_by(Request.sla_deadline)`. -/
def ByDeadline (a b : Request) : Prop := a.slaDeadline ≤ b.slaDeadline

/-- What the query may return. -/
def Selects (cfg : Settings) (now : Int) (db : Db) (batch : List Request) : Prop :=
  IsBatch ByDeadline sweepBatch (due cfg now db) batch

theorem sweepCandidates_selects (cfg : Settings) (now : Int) (db : Db) :
    Selects cfg now db (sweepCandidates cfg db now) :=
  isBatch_mergeSort sweepBatch (due cfg now db)

/-! ## One request -/

/-- The stage the deadline decides: past it, or only close to it. -/
def late (now : Int) (req : Request) : Bool := decide (req.slaDeadline < now)

/-- Once noticed, a request needs no other notice at that instant. -/
theorem not_needsNotice_sweepOne (cfg : Settings) (db : Db) (r : Request) (now : Int) :
    needsNotice cfg now (sweepOne cfg db r now).req = false := by
  by_cases hlate : r.slaDeadline < now
  · simp [needsNotice, sweepOne, hlate]
  · simp [needsNotice, sweepOne, hlate]

/-- The others are as they were. -/
theorem due_finish (hids : (db.requests.map (·.id)).Nodup) {r : Request} (hr : r ∈ due cfg now db) :
    due cfg now (db.finish (sweepOne cfg db r now)) = (due cfg now db).filter (· ≠ r) := by
  obtain ⟨hmem, hneeds⟩ := List.mem_filter.mp hr
  have hchange : Change cfg db.nextId now r (sweepOne cfg db r now).req
    (sweepOne cfg db r now).session := sweepOne_change (needsNotice_running hneeds)
  have hrow : ∀ x ∈ db.requests,
      (if x.id = r.id then x.write r (sweepOne cfg db r now).req else x) =
        if x = r then (sweepOne cfg db r now).req else x := by
    intro x hx
    by_cases hid : x.id = r.id
    · rw [if_pos hid, Tables.eq_of_key hids hx hmem hid, if_pos rfl, hchange.write]
    · rw [if_neg hid, if_neg fun heq => hid (congrArg _ heq)]
  have hrequests : (db.finish (sweepOne cfg db r now)).requests =
      db.requests.map fun x => if x = r then (sweepOne cfg db r now).req else x :=
    List.map_congr_left hrow
  rw [due, due, hrequests, List.filter_map, List.filter_filter]
  have hkept : db.requests.filter
        (needsNotice cfg now ∘ fun x => if x = r then (sweepOne cfg db r now).req else x) =
      db.requests.filter fun x => decide (x ≠ r) && needsNotice cfg now x := by
    apply List.filter_congr
    intro x _
    by_cases heq : x = r
    · simp [heq, not_needsNotice_sweepOne]
    · simp [heq]
  rw [hkept]
  apply (List.map_congr_left fun x hx => if_neg ?_).trans (List.map_id' _)
  have hne := (List.mem_filter.mp hx).2
  rw [Bool.and_eq_true, decide_eq_true_iff] at hne
  exact hne.1

/-! ## A pass -/

theorem ids_finish (w : Work) : (db.finish w).requests.map (·.id) = db.requests.map (·.id) := by
  show (db.requests.map _).map _ = _
  rw [List.map_map]
  apply List.map_congr_left
  intro r _
  dsimp only [Function.comp]
  split
  · rfl
  · rfl

theorem ids_handleBatch (batch : List Request) :
    (handleBatch cfg now db batch).requests.map (·.id) = db.requests.map (·.id) := by
  induction batch generalizing db with
  | nil => rfl
  | cons r rest ih => exact ih.trans (ids_finish _)

/-- A pass takes what it handles out of what is due, and puts nothing in. -/
theorem due_handleBatch (hids : (db.requests.map (·.id)).Nodup) (hbatch : batch.Nodup)
    (hdue : ∀ r ∈ batch, r ∈ due cfg now db) :
    due cfg now (handleBatch cfg now db batch) = (due cfg now db).filter (· ∉ batch) := by
  induction batch generalizing db with
  | nil =>
    show due cfg now db = _
    simp
  | cons r rest ih =>
    obtain ⟨hnew, hrest⟩ := List.nodup_cons.mp hbatch
    obtain ⟨hr, hothers⟩ := List.forall_mem_cons.mp hdue
    have hnext := due_finish hids hr
    have hids' : ((db.finish (sweepOne cfg db r now)).requests.map (·.id)).Nodup := by
      rw [ids_finish]
      exact hids
    show due cfg now (handleBatch cfg now (db.finish (sweepOne cfg db r now)) rest) = _
    rw [ih hids' hrest, hnext, List.filter_filter]
    · apply List.filter_congr
      intro x _
      simp [Bool.and_comm]
    · intro x hx
      rw [hnext]
      exact List.mem_filter.mpr ⟨hothers x hx, by simpa using fun heq : x = r => hnew (heq ▸ hx)⟩

/-! ## What is sent -/

/-- The entry `_notify` leaves for a request. -/
def NoticeOf (now : Int) (req : Request) (e : RequestHistory) : Prop :=
  e.requestId = req.id ∧ ∀ breached, e.isNotice breached = (breached == late now req)

/-- Whom a notification told, of which request, at which stage. -/
def Notification.told (n : Notification) : Nat × Nat × Option Bool :=
  (n.userId, n.requestId, n.slaBreached)

/-- Whom the notice of a request tells in the system. -/
def tells (now : Int) (db : Db) (req : Request) : List (Nat × Nat × Option Bool) :=
  (sweepRecipients db req (late now req)).map fun userId => (userId, req.id, some (late now req))

/-- And whom by email. -/
def writesTo (now : Int) (db : Db) (req : Request) : List String :=
  ((db.users.filter fun u => (sweepRecipients db req (late now req)).contains u.id).filterMap
    (·.email)).filter (¬ ·.isEmpty)

/-- For each request of the batch one notice, in the order of the batch. -/
structure Sent (now : Int) (db : Db) (batch : List Request) (db' : Db) : Prop where
  users : db'.users = db.users
  departments : db'.departments = db.departments
  entries : ∃ es, db'.history = db.history ++ es ∧ List.Forall₂ (NoticeOf now) batch es
  notifications : ∃ ns, db'.notifications = db.notifications ++ ns ∧
    ns.map (·.told) = batch.flatMap (tells now db)
  emails : ∃ os, db'.outbox = db.outbox ++ os ∧
    (emailsIn os).map (·.recipient) = batch.flatMap (writesTo now db)

theorem tells_congr (husers : db'.users = db.users) (hdepartments : db'.departments = db.departments) :
    tells now db' = tells now db := by
  funext req
  simp only [tells, sweepRecipients, facultyRegistratorIds, departmentHeadId, husers, hdepartments]

theorem writesTo_congr (husers : db'.users = db.users)
    (hdepartments : db'.departments = db.departments) : writesTo now db' = writesTo now db := by
  funext req
  simp only [writesTo, sweepRecipients, facultyRegistratorIds, departmentHeadId, husers, hdepartments]

theorem emailsIn_append (xs ys : List OutboxMessage) :
    emailsIn (xs ++ ys) = emailsIn xs ++ emailsIn ys := List.filterMap_append

theorem Sent.nil (now : Int) (db : Db) : Sent now db [] db where
  users := rfl
  departments := rfl
  entries := ⟨[], by simp, .nil⟩
  notifications := ⟨[], by simp, rfl⟩
  emails := ⟨[], by simp, rfl⟩

theorem Sent.append {later : List Request} (h : Sent now db batch db')
    (h' : Sent now db' later db'') : Sent now db (batch ++ later) db'' where
  users := h'.users.trans h.users
  departments := h'.departments.trans h.departments
  entries := by
    obtain ⟨es, hes, hall⟩ := h.entries
    obtain ⟨es', hes', hall'⟩ := h'.entries
    exact ⟨es ++ es', by rw [hes', hes, List.append_assoc], List.rel_append hall hall'⟩
  notifications := by
    obtain ⟨ns, hns, htold⟩ := h.notifications
    obtain ⟨ns', hns', htold'⟩ := h'.notifications
    refine ⟨ns ++ ns', by rw [hns', hns, List.append_assoc], ?_⟩
    rw [List.map_append, htold, htold', tells_congr h.users h.departments, List.flatMap_append]
  emails := by
    obtain ⟨os, hos, hmailed⟩ := h.emails
    obtain ⟨os', hos', hmailed'⟩ := h'.emails
    refine ⟨os ++ os', by rw [hos', hos, List.append_assoc], ?_⟩
    rw [emailsIn_append, List.map_append, hmailed, hmailed', writesTo_congr h.users h.departments,
      List.flatMap_append]

/-! ### One notice -/

theorem createNotifications (req : Request) (title body : String) (breached : Bool) :
    ∀ (recipients : List Nat) (s : Session), ∃ ns,
      (recipients.foldl (fun s id =>
        createNotification s id .system title body req (some breached)) s).notifications =
          s.notifications ++ ns ∧
      (recipients.foldl (fun s id =>
        createNotification s id .system title body req (some breached)) s).outbox = s.outbox ∧
      ns.map (·.told) = recipients.map fun userId => (userId, req.id, some breached)
  | [], s => ⟨[], by simp, rfl, rfl⟩
  | id :: rest, s => by
    obtain ⟨ns, hns, houtbox, htold⟩ := createNotifications req title body breached rest
      (createNotification s id .system title body req (some breached))
    refine ⟨{ id := s.nextId, userId := id, type := .system, title, body, requestId := req.id,
              trackingNo := req.trackingNo, slaBreached := some breached } :: ns, ?_, ?_, ?_⟩
    · rw [List.foldl_cons, hns, createNotification, Session.notifications, Session.rows_add,
        List.filterMap_append, List.append_assoc]
      rfl
    · rw [List.foldl_cons, houtbox, createNotification, Session.outbox, Session.rows_add,
        List.filterMap_append]
      exact List.append_nil _
    · rw [List.map_cons, htold, List.map_cons]
      rfl

theorem enqueueEmails (make : String → Email) (hmake : ∀ address, (make address).recipient = address) :
    ∀ (addresses : List String) (s : Session), ∃ os,
      (addresses.foldl (fun s address => enqueueEmail s (make address)) s).outbox = s.outbox ++ os ∧
      (addresses.foldl (fun s address => enqueueEmail s (make address)) s).notifications =
        s.notifications ∧
      (emailsIn os).map (·.recipient) = addresses
  | [], s => ⟨[], by simp, rfl, rfl⟩
  | address :: rest, s => by
    obtain ⟨os, hos, hnotifications, hmailed⟩ := enqueueEmails make hmake rest
      (enqueueEmail s (make address))
    refine ⟨{ id := s.nextId, payload := .email (make address) } :: os, ?_, ?_, ?_⟩
    · rw [List.foldl_cons, hos, enqueueEmail, Session.outbox, Session.rows_add,
        List.filterMap_append, List.append_assoc]
      rfl
    · rw [List.foldl_cons, hnotifications, enqueueEmail, Session.notifications, Session.rows_add,
        List.filterMap_append]
      exact List.append_nil _
    · show (make address).recipient :: (emailsIn os).map (·.recipient) = _
      rw [hmailed, hmake]

theorem sweepTell_sends (cfg : Settings) (now : Int) (db : Db) (s : Session) (r : Request) :
    (∃ ns, (sweepTell cfg db s r (late now r) now).notifications = s.notifications ++ ns ∧
      ns.map (·.told) = tells now db r) ∧
      ∃ os, (sweepTell cfg db s r (late now r) now).outbox = s.outbox ++ os ∧
        (emailsIn os).map (·.recipient) = writesTo now db r := by
  let title := (if late now r then "SLA buzildi: " else "SLA muddati yaqin: ") ++ r.trackingNo
  let body := sweepBody r (late now r) now
  obtain ⟨ns, hns, houtbox, htold⟩ := createNotifications r title body (late now r)
    (sweepRecipients db r (late now r)) s
  obtain ⟨os, hos, hsame, hmailed⟩ := enqueueEmails
    (fun address =>
      { recipient := address
        subject := title
        lines := [body, "Muddat: " ++ toString r.slaDeadline]
        link := requestLink cfg r.id "/registrator/requests" })
    (fun _ => rfl) (writesTo now db r) _
  refine ⟨⟨ns, ?_, htold⟩, ⟨os, ?_, hmailed⟩⟩
  · exact hsame.trans hns
  · rw [← houtbox]
    exact hos

/-- The pass over one request sends its notice. -/
theorem sent_sweepOne (cfg : Settings) (now : Int) (db : Db) (r : Request) :
    Sent now db [r] (db.finish (sweepOne cfg db r now)) where
  users := rfl
  departments := rfl
  entries := by
    have hentry := (sweepOne_leaves cfg db r now).history
    refine ⟨(sweepOne cfg db r now).session.history, rfl, ?_⟩
    rw [hentry]
    exact .cons ⟨rfl, isNotice_marked rfl rfl rfl⟩ .nil
  notifications := by
    obtain ⟨ns, hns, htold⟩ := (sweepTell_sends cfg now db db.begin r).1
    refine ⟨(sweepOne cfg db r now).session.notifications, rfl, ?_⟩
    have hsession : (sweepOne cfg db r now).session.notifications = ns :=
      (List.filterMap_append.trans (List.append_nil _)).trans hns
    rw [hsession, htold, List.flatMap_singleton]
  emails := by
    obtain ⟨os, hos, hmailed⟩ := (sweepTell_sends cfg now db db.begin r).2
    refine ⟨(sweepOne cfg db r now).session.outbox, rfl, ?_⟩
    have hsession : (sweepOne cfg db r now).session.outbox = os :=
      (List.filterMap_append.trans (List.append_nil _)).trans hos
    rw [hsession, hmailed, List.flatMap_singleton]

theorem sent_handleBatch (cfg : Settings) (now : Int) (batch : List Request) (db : Db) :
    Sent now db batch (handleBatch cfg now db batch) := by
  induction batch generalizing db with
  | nil => exact .nil now db
  | cons r rest ih => exact (sent_sweepOne cfg now db r).append (ih _)

theorem sent_run (cfg : Settings) (now : Int) (batches : List (List Request)) (db : Db) :
    Sent now db batches.flatten (run (handleBatch cfg now) db batches) := by
  induction batches generalizing db with
  | nil => exact .nil now db
  | cons batch rest ih => exact (sent_handleBatch cfg now batch db).append (ih _)

/-! ## A request at a time -/

/-- The notices of a stage in a request's history. -/
def noticesOf (db : Db) (requestId : Nat) (breached : Bool) : Nat :=
  (db.historyOf requestId).countP (·.isNotice breached)

/-- A batch without repetitions adds a notice to each of its requests, of the
stage its deadline decides, and to no other. -/
theorem Sent.noticesOf (h : Sent now db batch db') (hids : (batch.map (·.id)).Nodup)
    (requestId : Nat) (breached : Bool) :
    noticesOf db' requestId breached = noticesOf db requestId breached +
      if ∃ r ∈ batch, r.id = requestId ∧ late now r = breached then 1 else 0 := by
  obtain ⟨es, hes, hall⟩ := h.entries
  have hcount : (es.filter (·.requestId == requestId)).countP (·.isNotice breached) =
      if ∃ r ∈ batch, r.id = requestId ∧ late now r = breached then 1 else 0 := by
    clear hes h
    induction hall with
    | nil => simp
    | @cons r e rest es hnotice hrest ih =>
      obtain ⟨hid, hstage⟩ := hnotice
      rw [List.map_cons, List.nodup_cons] at hids
      have hlater := ih hids.2
      by_cases hown : r.id = requestId
      · have hnone : ¬ ∃ r ∈ rest, r.id = requestId ∧ late now r = breached := by
          rintro ⟨r', hr', hid', -⟩
          exact hids.1 (List.mem_map.mpr ⟨r', hr', hid'.trans hown.symm⟩)
        rw [if_neg hnone] at hlater
        rw [List.filter_cons_of_pos (by simp [hid, hown]), List.countP_cons, hlater, hstage]
        simp only [List.exists_mem_cons_iff, hown, true_and, hnone, or_false, Nat.zero_add]
        by_cases hsame : late now r = breached
        · simp [hsame]
        · simp [hsame, Ne.symm hsame]
      · rw [List.filter_cons_of_neg (by simp [hid, hown]), hlater]
        simp [hown]
  rw [Royd.noticesOf, Royd.noticesOf, Db.historyOf, Db.historyOf, hes, List.filter_append,
    List.countP_append, hcount]

/-! ## Every pass -/

/-- What a pass does to the requests that were due. -/
structure Handled (cfg : Settings) (now : Int) (db : Db) (batch : List Request) (db' : Db) : Prop where
  size : batch.length = min sweepBatch (due cfg now db).length
  distinct : (batch.map (·.id)).Nodup
  among : ∀ r ∈ batch, r ∈ due cfg now db
  ordered : batch.Pairwise ByDeadline
  first : ∀ r ∈ batch, ∀ r' ∈ due cfg now db, r' ∉ batch → ByDeadline r r'
  sent : Sent now db batch db'
  left : due cfg now db' = (due cfg now db).filter (· ∉ batch)

theorem nodup_due (hids : (db.requests.map (·.id)).Nodup) : ((due cfg now db).map (·.id)).Nodup :=
  hids.sublist (List.filter_sublist.map _)

theorem Selects.handled (h : Selects cfg now db batch) (hids : (db.requests.map (·.id)).Nodup) :
    Handled cfg now db batch (handleBatch cfg now db batch) where
  size := h.length
  distinct := h.nodup_map (nodup_due hids)
  among := h.subset
  ordered := h.ordered
  first := fun _ hr _ hr' hleft => h.first hr hr' hleft
  sent := sent_handleBatch cfg now batch db
  left := due_handleBatch hids (h.nodup_map (nodup_due hids)).of_map h.subset

/-- The passes of a run, each with what the query may return to it. -/
def Passes (cfg : Settings) (now : Int) (db : Db) (batches : List (List Request)) : Prop :=
  Along (handleBatch cfg now) (Selects cfg now) db batches

/-- For every database and instant: a pass of the sweep handles the first 200
of the requests that are due, each with one notice, and takes exactly these
out of what is due; and after as many passes as it takes to get through all of
them every one has had one notice of its stage, and no other request has. -/
theorem sweep_starves_nobody (cfg : Settings) (now : Int) (db : Db)
    (hids : (db.requests.map (·.id)).Nodup) :
    (∀ useLock won, (useLock && !won) = false → ∃ batch, Selects cfg now db batch ∧
        sweepSlaDeadlines cfg db useLock won now = handleBatch cfg now db batch) ∧
      (∀ batch, Selects cfg now db batch →
        Handled cfg now db batch (handleBatch cfg now db batch)) ∧
      ∀ batches, Passes cfg now db batches →
        batches.length = ((due cfg now db).length + (sweepBatch - 1)) / sweepBatch →
        due cfg now (run (handleBatch cfg now) db batches) = [] ∧
          batches.flatten.Perm (due cfg now db) ∧
          Sent now db batches.flatten (run (handleBatch cfg now) db batches) ∧
          ∀ requestId breached,
            noticesOf (run (handleBatch cfg now) db batches) requestId breached =
              noticesOf db requestId breached +
                if ∃ r ∈ due cfg now db, r.id = requestId ∧ late now r = breached then 1 else 0 := by
  have hkeep : ∀ (db : Db) batch, (db.requests.map (·.id)).Nodup → Selects cfg now db batch →
      ((handleBatch cfg now db batch).requests.map (·.id)).Nodup ∧
        due cfg now (handleBatch cfg now db batch) = (due cfg now db).filter (· ∉ batch) := by
    intro db batch hids hselects
    refine ⟨?_, (hselects.handled hids).left⟩
    rw [ids_handleBatch]
    exact hids
  refine ⟨?_, ?_, ?_⟩
  · intro useLock won hruns
    refine ⟨_, sweepCandidates_selects cfg now db, ?_⟩
    rw [sweepSlaDeadlines, hruns, if_neg Bool.false_ne_true]
    rfl
  · intro batch hselects
    exact hselects.handled hids
  · intro batches hpasses hlength
    have henough : (due cfg now db).length ≤ batches.length * sweepBatch := by
      rw [hlength, sweepBatch]
      omega
    have hdrained := drained (I := fun db => (db.requests.map (·.id)).Nodup)
      (fun _ hids => (nodup_due hids).of_map) hkeep hids hpasses henough
    have hperm := flatten_perm (I := fun db => (db.requests.map (·.id)).Nodup)
      (fun _ hids => (nodup_due hids).of_map) hkeep hids hpasses
    rw [hdrained, List.append_nil] at hperm
    have hsent := sent_run cfg now batches db
    have hdistinct : (batches.flatten.map (·.id)).Nodup :=
      (hperm.map _).nodup_iff.mpr (nodup_due hids)
    refine ⟨hdrained, hperm, hsent, ?_⟩
    intro requestId breached
    rw [hsent.noticesOf hdistinct]
    simp only [hperm.mem_iff]

/-! ### Two requests due -/

/-- One is past its deadline, one is close to it. -/
def twoDue : Db where
  nextId := 10
  requests :=
    [{ id := 6, trackingNo := "REQ-2025-00001", studentId := 1, categoryId := 5, title := "Birinchi",
       description := "", status := .inProgress, slaDeadline := Sla.hours 11, createdAt := 0 },
     { id := 7, trackingNo := "REQ-2025-00002", studentId := 1, categoryId := 5, title := "Ikkinchi",
       description := "", status := .inProgress, slaDeadline := Sla.hours 9, createdAt := 0 }]

theorem sweep_starves_nobody_twoDue :
    due {} (Sla.hours 10) (sweepSlaDeadlines {} twoDue false true (Sla.hours 10)) = [] ∧
      noticesOf (sweepSlaDeadlines {} twoDue false true (Sla.hours 10)) 6 false = 1 ∧
      noticesOf (sweepSlaDeadlines {} twoDue false true (Sla.hours 10)) 7 true = 1 := by
  have hpasses : Passes {} (Sla.hours 10) twoDue [sweepCandidates {} twoDue (Sla.hours 10)] :=
    ⟨sweepCandidates_selects {} (Sla.hours 10) twoDue, trivial⟩
  obtain ⟨hnone, -, -, hnotices⟩ := (sweep_starves_nobody {} (Sla.hours 10) twoDue (by decide)).2.2
    _ hpasses (by decide)
  refine ⟨hnone, ?_, ?_⟩
  · exact (hnotices 6 false).trans (by decide)
  · exact (hnotices 7 true).trans (by decide)

end Royd
