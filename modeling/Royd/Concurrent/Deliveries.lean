/-
Royd.Concurrent.Deliveries — `deliver_pending` run by any number of workers
while rows are queued.

An `enqueue_*` flushes its row in the producer's own transaction: the row has
its id from there on, and nobody else sees it until the producer commits. So
rows need not become visible in the order of their ids, and those of a
producer that rolls back never do.

A worker selects what is due and holds those rows to the end of its
transaction; `SKIP LOCKED` keeps them from the others. It calls one sender
after the other, each call with a start and an end, and commits when its
loop is through. The clock only moves forward, by what each event says has
elapsed.

The row as a worker holds it and the rows nobody holds are each what their
calls have made of them (`World.Ok`), which is all the contract needs.
-/
import Royd.Lib.Runs
import Royd.Lib.Tables
import Royd.Services.Outbox
import Royd.Api.Views

namespace Royd

namespace Outbox

/-! ## Workers -/

/-- A transaction of `deliver_pending`: the rows it has still to attempt, the
one whose sender it is calling with the `now` it read, and those it is
through with. -/
structure Worker where
  queue : List Row
  calling : Option (Row × Int) := none
  done : List Row := []
  deriving DecidableEq, Repr

/-- The rows a worker has locked. -/
def Worker.held (k : Worker) : List Row := k.done ++ (k.calling.map (·.1)).toList ++ k.queue

/-- A row that is flushed by a producer whose transaction is still open. -/
structure Draft where
  producer : Nat
  row : Row
  deriving DecidableEq, Repr

/-- The committed rows and those that are only flushed, the workers, and the
calls that came back so far. -/
structure World where
  clock : Int := 0
  nextId : Nat := 1
  rows : List Row := []
  drafts : List Draft := []
  workers : List Worker := []
  calls : List SenderCall := []
  deriving DecidableEq, Repr

/-- The rows that have an id, whether they are committed or not. -/
def World.drawn (w : World) : List Row := w.rows ++ w.drafts.map (·.row)

/-- The rows that are locked. -/
def World.held (w : World) : List Row := w.workers.flatMap Worker.held

/-- The calls of a row's sender. -/
def World.callsOf (w : World) (id : Nat) : List SenderCall := w.calls.filter (·.rowId == id)

/-- `_BATCH`. -/
def batch : Nat := 50

/-- The rows `deliver_pending` selects. -/
def World.due (w : World) : List Row :=
  (Api.orderBy (fun r => (r.id : Int)) (w.rows.filter fun r =>
    r.status == .pending && decide (r.nextAttemptAt ≤ w.clock)
      && !w.held.any (·.id == r.id))).take batch

/-- What can happen. A producer queues any number of rows before it commits or
rolls back. `won` is the answer of `claim`, asked unless `use_lock` is off;
what a sender raises is up to the other side. -/
inductive Act where
  | enqueueEmail (producer : Nat) (email : Email)
  | enqueueWebhook (producer : Nat) (data : Webhook)
  | publish (producer : Nat)
  | rollback (producer : Nat)
  | select (useLock won : Bool)
  | start (worker : Nat)
  | finish (worker : Nat) (error : Option SendError)
  | commit (worker : Nat)
  deriving DecidableEq, Repr

/-- An act, and the time that has passed since the one before. -/
structure Event where
  elapsed : Nat
  act : Act
  deriving DecidableEq, Repr

/-- `db.add` and `db.flush()`: the row gets its id in the producer's
transaction. -/
def World.flush (w : World) (producer : Nat) (payload : OutboxPayload) : World :=
  { w with
    nextId := w.nextId + 1
    drafts := w.drafts ++ [{ producer, row := queued w.nextId payload w.clock }] }

/-- The producer commits, and its rows are there. -/
def World.publish (w : World) (producer : Nat) : World :=
  { w with
    rows := w.rows ++ (w.drafts.filter (·.producer == producer)).map (·.row)
    drafts := w.drafts.filter (·.producer != producer) }

/-- The producer rolls back; the ids are not given again. -/
def World.rollback (w : World) (producer : Nat) : World :=
  { w with drafts := w.drafts.filter (·.producer != producer) }

/-- The `UPDATE`s of a commit. -/
def World.write (w : World) (done : List Row) : List Row :=
  w.rows.map fun r => (done.find? (·.id == r.id)).getD r

variable (cfg : Settings) (maxAttempts : Nat)

/-- What an act does; one that is not the worker's next does nothing. -/
def World.act (w : World) : Act → World
  | .enqueueEmail producer email => w.flush producer (.email email)
  | .enqueueWebhook producer data =>
    if cfg.webhookUrl.isEmpty then w else w.flush producer (.webhook data)
  | .publish producer => w.publish producer
  | .rollback producer => w.rollback producer
  | .select useLock won =>
    if useLock && !won then w else { w with workers := w.workers ++ [{ queue := w.due }] }
  | .start i =>
    match w.workers[i]? with
    | some { queue := r :: rest, calling := none, done } =>
      { w with workers := w.workers.set i { queue := rest, calling := some (r, w.clock), done } }
    | _ => w
  | .finish i error =>
    match w.workers[i]? with
    | some { queue, calling := some (r, start), done } =>
      { w with
        workers := w.workers.set i
          { queue, done := done ++ [deliverOne maxAttempts r start error] }
        calls := w.calls ++ [{ rowId := r.id, start, finish := w.clock, error }] }
    | _ => w
  | .commit i =>
    match w.workers[i]? with
    | some { queue := [], calling := none, done } =>
      { w with rows := w.write done, workers := w.workers.eraseIdx i }
    | _ => w

/-- The clock moves on, and the act is done. -/
def World.step (w : World) (e : Event) : World :=
  World.act cfg maxAttempts { w with clock := w.clock + e.elapsed } e.act

/-! ## Order among the workers -/

/-- Whatever is held is held once, is a copy of a committed row, and is what
its calls have made of it; so is a row that nobody holds. A row that is not
committed is as it was queued, and uncalled. What a worker has still to attempt
is pending and due. -/
structure World.Ok (w : World) : Prop where
  ids : (w.drawn.map (·.id)).Nodup
  below : ∀ r ∈ w.drawn, r.id < w.nextId
  drafted : ∀ d ∈ w.drafts, d.row.origin = d.row ∧ w.callsOf d.row.id = []
  callsBelow : ∀ c ∈ w.calls, c.rowId < w.nextId
  heldIds : (w.held.map (·.id)).Nodup
  heldRows : ∀ h ∈ w.held, ∃ r ∈ w.rows, r.origin = h.origin
  copies : ∀ h ∈ w.held, Delivered maxAttempts (w.callsOf h.id) h
  free : ∀ r ∈ w.rows, (∀ h ∈ w.held, h.id ≠ r.id) →
    Delivered maxAttempts (w.callsOf r.id) r
  waiting : ∀ k ∈ w.workers, ∀ r ∈ k.queue, r.status = .pending ∧ r.nextAttemptAt ≤ w.clock
  calling : ∀ k ∈ w.workers, ∀ r t, k.calling = some (r, t) →
    r.status = .pending ∧ r.nextAttemptAt ≤ t ∧ t ≤ w.clock

variable {cfg maxAttempts} {w : World}

theorem World.Ok.rowIds (h : w.Ok maxAttempts) : (w.rows.map (·.id)).Nodup :=
  h.ids.sublist ((List.sublist_append_left _ _).map _)

/-- A row of the table is not one that is still to come. -/
theorem World.Ok.draft_ne (h : w.Ok maxAttempts) {r : Row} (hr : r ∈ w.rows) {d : Draft}
    (hd : d ∈ w.drafts) : r.id ≠ d.row.id := by
  have hids := h.ids
  unfold World.drawn at hids
  rw [List.map_append, List.nodup_append] at hids
  exact hids.2.2 _ (List.mem_map_of_mem hr) _ (List.mem_map_of_mem (List.mem_map_of_mem hd))

/-- Time passes. -/
theorem World.Ok.advance (h : w.Ok maxAttempts) (elapsed : Nat) :
    World.Ok maxAttempts { w with clock := w.clock + elapsed } where
  ids := h.ids
  below := h.below
  drafted := h.drafted
  callsBelow := h.callsBelow
  heldIds := h.heldIds
  heldRows := h.heldRows
  copies := h.copies
  free := h.free
  waiting k hk r hr := by
    obtain ⟨hpending, hdue⟩ := h.waiting k hk r hr
    exact ⟨hpending, hdue.trans (Int.le_add_of_nonneg_right (Int.natCast_nonneg _))⟩
  calling k hk r t hcalling := by
    obtain ⟨hpending, hdue, hread⟩ := h.calling k hk r t hcalling
    exact ⟨hpending, hdue, hread.trans (Int.le_add_of_nonneg_right (Int.natCast_nonneg _))⟩

/-- A row that was never called has no calls. -/
theorem World.Ok.callsOf_fresh (h : w.Ok maxAttempts) : w.callsOf w.nextId = [] := by
  refine List.filter_eq_nil_iff.mpr fun c hc => ?_
  simpa using (h.callsBelow c hc).ne

theorem World.Ok.flush (h : w.Ok maxAttempts) (producer : Nat) (payload : OutboxPayload) :
    (w.flush producer payload).Ok maxAttempts := by
  have hdrawn : (w.flush producer payload).drawn
      = w.drawn ++ [queued w.nextId payload w.clock] := by
    simp [World.drawn, World.flush]
  refine
    { ids := ?_
      below := fun r hr => ?_
      drafted := fun d hd => ?_
      callsBelow := fun c hc => (h.callsBelow c hc).trans (Nat.lt_succ_self _)
      heldIds := h.heldIds
      heldRows := h.heldRows
      copies := h.copies
      free := h.free
      waiting := h.waiting
      calling := h.calling }
  · rw [hdrawn]
    exact Tables.nodup_concat h.ids fun r hr => (h.below r hr).ne
  · rw [hdrawn] at hr
    rcases List.mem_append.mp hr with hr | hr
    · exact (h.below r hr).trans (Nat.lt_succ_self _)
    · rw [List.mem_singleton.mp hr]
      exact Nat.lt_succ_self _
  · rcases List.mem_append.mp hd with hd | hd
    · exact h.drafted d hd
    · rw [List.mem_singleton.mp hd]
      exact ⟨rfl, h.callsOf_fresh⟩

/-- The rows of a producer only move from the one list to the other. -/
theorem drawn_publish (w : World) (producer : Nat) : (w.publish producer).drawn.Perm w.drawn := by
  unfold World.drawn World.publish
  rw [List.append_assoc, ← List.map_append]
  exact ((List.filter_append_perm (·.producer == producer) w.drafts).map _).append_left _

theorem World.Ok.publish (h : w.Ok maxAttempts) (producer : Nat) :
    (w.publish producer).Ok maxAttempts := by
  have hdrawn := drawn_publish w producer
  refine
    { ids := (hdrawn.map _).nodup_iff.mpr h.ids
      below := fun r hr => h.below r (hdrawn.mem_iff.mp hr)
      drafted := fun d hd => h.drafted d (List.mem_filter.mp hd).1
      callsBelow := h.callsBelow
      heldIds := h.heldIds
      heldRows := fun k hk => ?_
      copies := h.copies
      free := fun r hr hfree => ?_
      waiting := h.waiting
      calling := h.calling }
  · obtain ⟨r, hr, horigin⟩ := h.heldRows k hk
    exact ⟨r, List.mem_append_left _ hr, horigin⟩
  · rcases List.mem_append.mp hr with hr | hr
    · exact h.free r hr hfree
    · obtain ⟨d, hd, rfl⟩ := List.mem_map.mp hr
      obtain ⟨horigin, hnone⟩ := h.drafted d (List.mem_filter.mp hd).1
      change Delivered _ (w.callsOf d.row.id) _
      rw [hnone, ← horigin]
      exact delivered_queued _ _ _

/-- Fewer rows have an id. -/
theorem drawn_rollback (w : World) (producer : Nat) :
    (w.rollback producer).drawn.Sublist w.drawn :=
  (List.filter_sublist.map _).append_left _

theorem World.Ok.rollback (h : w.Ok maxAttempts) (producer : Nat) :
    (w.rollback producer).Ok maxAttempts where
  ids := h.ids.sublist ((drawn_rollback w producer).map _)
  below r hr := h.below r ((drawn_rollback w producer).subset hr)
  drafted d hd := h.drafted d (List.mem_filter.mp hd).1
  callsBelow := h.callsBelow
  heldIds := h.heldIds
  heldRows := h.heldRows
  copies := h.copies
  free := h.free
  waiting := h.waiting
  calling := h.calling

/-- What is selected is pending, due and not locked. -/
theorem mem_due {r : Row} (h : r ∈ w.due) : r ∈ w.rows ∧ r.status = .pending ∧
    r.nextAttemptAt ≤ w.clock ∧ ∀ k ∈ w.held, k.id ≠ r.id := by
  have hmem := Api.mem_orderBy.mp (List.mem_of_mem_take h)
  obtain ⟨hrow, hdue⟩ := List.mem_filter.mp hmem
  simp only [Bool.and_eq_true, beq_iff_eq, decide_eq_true_eq, Bool.not_eq_true',
    List.any_eq_false] at hdue
  exact ⟨hrow, hdue.1.1, hdue.1.2, hdue.2⟩

theorem due_ids (h : w.Ok maxAttempts) : (w.due.map (·.id)).Nodup := by
  have hperm := List.perm_insertionSort (fun a b : Row => (a.id : Int) ≤ b.id)
    (w.rows.filter fun r => r.status == .pending && decide (r.nextAttemptAt ≤ w.clock)
      && !w.held.any (·.id == r.id))
  have hsorted :=
    (hperm.map (·.id)).nodup_iff.mpr (h.rowIds.sublist (List.filter_sublist.map _))
  exact hsorted.sublist ((List.take_sublist _ _).map _)

/-! What is held after an act of the worker. -/

theorem held_select (w : World) :
    World.held { w with workers := w.workers ++ [{ queue := w.due }] } = w.held ++ w.due := by
  simp [World.held, Worker.held]

theorem held_start {i : Nat} {r : Row} {rest done : List Row}
    (hk : w.workers[i]? = some { queue := r :: rest, calling := none, done }) :
    World.held { w with
      workers := w.workers.set i { queue := rest, calling := some (r, w.clock), done } } = w.held := by
  obtain ⟨xs, ys, hworkers, hset, -⟩ := Tables.split_at hk
  unfold World.held
  rw [hset, hworkers]
  simp [Worker.held]

/-- The row whose sender came back is exchanged for what `_deliver_one` makes of it. -/
theorem held_finish {i : Nat} {r : Row} {t : Int} {queue done : List Row} (sent : Row)
    (hk : w.workers[i]? = some { queue, calling := some (r, t), done }) :
    ∃ as bs, w.held = as ++ r :: bs ∧ ∀ calls,
      World.held { w with workers := w.workers.set i { queue, done := done ++ [sent] }, calls }
        = as ++ sent :: bs := by
  obtain ⟨xs, ys, hworkers, hset, -⟩ := Tables.split_at hk
  refine ⟨xs.flatMap Worker.held ++ done, queue ++ ys.flatMap Worker.held, ?_, fun calls => ?_⟩
  · unfold World.held
    rw [hworkers]
    simp [Worker.held]
  · unfold World.held
    rw [hset]
    simp [Worker.held]

/-- A commit lets go of what its worker is through with. -/
theorem held_commit {i : Nat} {done : List Row}
    (hk : w.workers[i]? = some { queue := [], calling := none, done }) (rows : List Row) :
    w.held.Perm (done ++ World.held { w with rows, workers := w.workers.eraseIdx i }) := by
  obtain ⟨xs, ys, hworkers, -, herase⟩ := Tables.split_at hk
  have hbefore : w.held = xs.flatMap Worker.held ++ done ++ ys.flatMap Worker.held := by
    unfold World.held
    rw [hworkers]
    simp [Worker.held]
  have hafter : World.held { w with rows, workers := w.workers.eraseIdx i }
      = xs.flatMap Worker.held ++ ys.flatMap Worker.held := by
    unfold World.held
    rw [herase, List.flatMap_append]
  rw [hbefore, hafter, ← List.append_assoc done]
  exact List.perm_append_comm.append_right _

theorem World.Ok.select (h : w.Ok maxAttempts) :
    World.Ok maxAttempts { w with workers := w.workers ++ [{ queue := w.due }] } := by
  have hheld := held_select w
  have hin : ∀ {r}, r ∈ World.held { w with workers := w.workers ++ [{ queue := w.due }] } →
      r ∈ w.held ∨ r ∈ w.due := fun {r} hr => List.mem_append.mp (hheld ▸ hr)
  refine
    { ids := h.ids
      below := h.below
      drafted := h.drafted
      callsBelow := h.callsBelow
      heldIds := ?_
      heldRows := fun r hr => ?_
      copies := fun r hr => ?_
      free := fun r hr hfree => h.free r hr fun k hk => hfree k ?_
      waiting := fun k hk r hr => ?_
      calling := fun k hk r t hcalling => ?_ }
  · rw [hheld, List.map_append, List.nodup_append]
    refine ⟨h.heldIds, due_ids h, ?_⟩
    rintro id hid id' hid' rfl
    obtain ⟨k, hk, hkid⟩ := List.mem_map.mp hid
    obtain ⟨r, hr, rfl⟩ := List.mem_map.mp hid'
    exact (mem_due hr).2.2.2 k hk hkid
  · rcases hin hr with hr | hr
    · exact h.heldRows r hr
    · exact ⟨r, (mem_due hr).1, rfl⟩
  · rcases hin hr with hr | hr
    · exact h.copies r hr
    · exact h.free r (mem_due hr).1 (mem_due hr).2.2.2
  · rw [hheld]
    exact List.mem_append_left _ hk
  · rcases List.mem_append.mp hk with hk | hk
    · exact h.waiting k hk r hr
    · rw [List.mem_singleton.mp hk] at hr
      exact ⟨(mem_due hr).2.1, (mem_due hr).2.2.1⟩
  · rcases List.mem_append.mp hk with hk | hk
    · exact h.calling k hk r t hcalling
    · rw [List.mem_singleton.mp hk] at hcalling
      cases hcalling

/-- The worker reads the clock and calls the next sender. What it holds does
not change. -/
theorem World.Ok.start (h : w.Ok maxAttempts) {i : Nat} {r : Row} {rest done : List Row}
    (hk : w.workers[i]? = some { queue := r :: rest, calling := none, done }) :
    World.Ok maxAttempts { w with
      workers := w.workers.set i { queue := rest, calling := some (r, w.clock), done } } := by
  have hheld := held_start hk
  have hold : ∀ k ∈ w.workers.set i { queue := rest, calling := some (r, w.clock), done },
      k ∈ w.workers ∨ k = { queue := rest, calling := some (r, w.clock), done } := fun k hk' => by
    rcases List.mem_or_eq_of_mem_set hk' with hk' | hk'
    · exact .inl hk'
    · exact .inr hk'
  have hworker := List.mem_of_getElem? hk
  refine
    { ids := h.ids
      below := h.below
      drafted := h.drafted
      callsBelow := h.callsBelow
      heldIds := by rw [hheld]; exact h.heldIds
      heldRows := by rw [hheld]; exact h.heldRows
      copies := by rw [hheld]; exact h.copies
      free := by rw [hheld]; exact h.free
      waiting := fun k hk' q hq => ?_
      calling := fun k hk' q t hcalling => ?_ }
  · rcases hold k hk' with hk' | rfl
    · exact h.waiting k hk' q hq
    · exact h.waiting _ hworker q (List.mem_cons_of_mem _ hq)
  · rcases hold k hk' with hk' | rfl
    · exact h.calling k hk' q t hcalling
    · cases hcalling
      obtain ⟨hpending, hdue⟩ := h.waiting _ hworker r List.mem_cons_self
      exact ⟨hpending, hdue, le_rfl⟩

/-- The calls after one more. -/
theorem callsOf_concat (w : World) (c : SenderCall) (id : Nat) :
    World.callsOf { w with calls := w.calls ++ [c] } id
      = w.callsOf id ++ if c.rowId = id then [c] else [] := by
  unfold World.callsOf
  rw [List.filter_append]
  by_cases hid : c.rowId = id
  · simp [hid]
  · simp [hid]

/-- A sender comes back, and the worker's copy is what `_deliver_one` makes of
it. -/
theorem World.Ok.finish (h : w.Ok maxAttempts) {i : Nat} {r : Row} {t : Int}
    {queue done : List Row} (error : Option SendError)
    (hk : w.workers[i]? = some { queue, calling := some (r, t), done }) :
    World.Ok maxAttempts { w with
      workers := w.workers.set i { queue, done := done ++ [deliverOne maxAttempts r t error] }
      calls := w.calls ++ [{ rowId := r.id, start := t, finish := w.clock, error }] } := by
  obtain ⟨c, hc⟩ : ∃ c : SenderCall, c = { rowId := r.id, start := t, finish := w.clock, error } :=
    ⟨_, rfl⟩
  rw [← hc]
  obtain ⟨k', hk'⟩ : ∃ k' : Worker,
      k' = { queue, done := done ++ [deliverOne maxAttempts r t error] } := ⟨_, rfl⟩
  rw [← hk']
  have hworker := List.mem_of_getElem? hk
  obtain ⟨hpending, hdue, hread⟩ := h.calling _ hworker r t rfl
  have hsent : (deliverOne maxAttempts r t error).id = r.id :=
    congrArg OutboxMessage.id (deliverOne_message t error)
  -- What is held before and after, around the row whose sender came back.
  obtain ⟨as, bs, hbefore, hafter⟩ : ∃ as bs, w.held = as ++ r :: bs ∧
      World.held { w with workers := w.workers.set i k', calls := w.calls ++ [c] }
        = as ++ deliverOne maxAttempts r t error :: bs := by
    obtain ⟨as, bs, hbefore, hafter⟩ := held_finish (deliverOne maxAttempts r t error) hk
    exact ⟨as, bs, hbefore, hk' ▸ hafter _⟩
  have hids := h.heldIds
  rw [hbefore] at hids
  have hin : ∀ q ∈ World.held { w with workers := w.workers.set i k', calls := w.calls ++ [c] },
      q = deliverOne maxAttempts r t error ∨ (q ∈ w.held ∧ q.id ≠ r.id) := by
    intro q hq
    rw [hafter] at hq
    rw [hbefore]
    exact Tables.mem_exchange_key hids hq
  have hrowId : c.rowId = r.id := by rw [hc]
  have hcalls : ∀ id, id ≠ r.id →
      World.callsOf { w with workers := w.workers.set i k', calls := w.calls ++ [c] } id
        = w.callsOf id := by
    intro id hne
    show World.callsOf { w with calls := w.calls ++ [c] } id = _
    rw [callsOf_concat, if_neg (by rw [hrowId]; exact hne.symm), List.append_nil]
  have hmem : r ∈ w.held := by rw [hbefore]; simp
  obtain ⟨row, hrow, horigin⟩ := h.heldRows r hmem
  have hrowIdEq : row.id = r.id := congrArg (·.id) horigin
  refine
    { ids := h.ids
      below := h.below
      drafted := fun d hd => ?_
      callsBelow := fun c' hc' => ?_
      heldIds := ?_
      heldRows := fun q hq => ?_
      copies := fun q hq => ?_
      free := fun q hq hfree => ?_
      waiting := fun k hk'' q hq => ?_
      calling := fun k hk'' q t' hcalling => ?_ }
  · obtain ⟨hfresh, hnone⟩ := h.drafted d hd
    exact ⟨hfresh, (hcalls _ (hrowIdEq ▸ (h.draft_ne hrow hd).symm)).trans hnone⟩
  · rcases List.mem_append.mp hc' with hc' | hc'
    · exact h.callsBelow c' hc'
    · rw [List.mem_singleton.mp hc', hrowId, ← hrowIdEq]
      exact h.below row (List.mem_append_left _ hrow)
  · rw [hafter]
    simpa [hsent] using hids
  · rcases hin q hq with rfl | ⟨hq, -⟩
    · rw [deliverOne_origin]
      exact ⟨row, hrow, horigin⟩
    · exact h.heldRows q hq
  · rcases hin q hq with rfl | ⟨hq, hne⟩
    · have hdelivered := (h.copies r hmem).call (c := c) hpending (by rw [hc]; exact hdue)
      rw [hsent]
      show Delivered _ (World.callsOf { w with calls := w.calls ++ [c] } r.id) _
      rw [callsOf_concat, if_pos hrowId]
      rwa [hc] at hdelivered ⊢
    · rw [hcalls q.id hne]
      exact h.copies q hq
  · have hne : q.id ≠ r.id := fun heq => hfree _ (by rw [hafter]; simp) (hsent.trans heq.symm)
    rw [hcalls q.id hne]
    refine h.free q hq fun k hk'' heq => ?_
    by_cases hkr : k.id = r.id
    · exact hne (heq ▸ hkr)
    · refine hfree k ?_ heq
      rw [hafter]
      rw [hbefore] at hk''
      exact (Tables.mem_exchange hk'').resolve_left fun hsame => hkr (hsame ▸ rfl)
  · rcases List.mem_or_eq_of_mem_set hk'' with hk'' | rfl
    · exact h.waiting k hk'' q hq
    · rw [hk'] at hq
      exact h.waiting _ hworker q hq
  · rcases List.mem_or_eq_of_mem_set hk'' with hk'' | rfl
    · exact h.calling k hk'' q t' hcalling
    · rw [hk'] at hcalling
      cases hcalling

/-- A row after the updates of a commit: a copy, or a row of which there is
none. -/
theorem write_row (done : List Row) (r : Row) :
    ((done.find? (·.id == r.id)).getD r).id = r.id ∧
      ((done.find? (·.id == r.id)).getD r ∈ done ∨
        ((done.find? (·.id == r.id)).getD r = r ∧ ∀ k ∈ done, k.id ≠ r.id)) := by
  cases hfind : done.find? (·.id == r.id) with
  | none =>
    refine ⟨rfl, .inr ⟨rfl, fun k hk => ?_⟩⟩
    simpa using List.find?_eq_none.mp hfind k hk
  | some k =>
    obtain ⟨hmem, hid⟩ := Tables.find?_mem hfind
    exact ⟨hid, .inl hmem⟩

theorem write_ids (w : World) (done : List Row) :
    (w.write done).map (·.id) = w.rows.map (·.id) := by
  unfold World.write
  rw [List.map_map]
  exact List.map_congr_left fun r _ => (write_row done r).1

theorem World.Ok.commit (h : w.Ok maxAttempts) {i : Nat} {done : List Row}
    (hk : w.workers[i]? = some { queue := [], calling := none, done }) :
    World.Ok maxAttempts { w with rows := w.write done, workers := w.workers.eraseIdx i } := by
  have hperm := held_commit hk (w.write done)
  have hids := h.heldIds
  rw [(hperm.map (·.id)).nodup_iff, List.map_append, List.nodup_append] at hids
  have hheld : ∀ q, q ∈ w.held ↔ q ∈ done ∨
      q ∈ World.held { w with rows := w.write done, workers := w.workers.eraseIdx i } := fun q => by
    rw [hperm.mem_iff, List.mem_append]
  have hrows : ∀ q ∈ w.write done, ∃ r ∈ w.rows, q = (done.find? (·.id == r.id)).getD r :=
    fun q hq => by
      obtain ⟨r, hr, rfl⟩ := List.mem_map.mp hq
      exact ⟨r, hr, rfl⟩
  have hdrawn : (World.drawn { w with
      rows := w.write done, workers := w.workers.eraseIdx i }).map (·.id)
        = w.drawn.map (·.id) := by
    unfold World.drawn
    rw [List.map_append, List.map_append, write_ids]
  refine
    { ids := ?_
      below := fun q hq => ?_
      drafted := h.drafted
      callsBelow := h.callsBelow
      heldIds := ?_
      heldRows := fun q hq => ?_
      copies := fun q hq => h.copies q ((hheld q).mpr (.inr hq))
      free := fun q hq hfree => ?_
      waiting := fun k hk' => h.waiting k (List.mem_of_mem_eraseIdx hk')
      calling := fun k hk' => h.calling k (List.mem_of_mem_eraseIdx hk') }
  · rw [hdrawn]
    exact h.ids
  · obtain ⟨r, hr, hid⟩ := List.mem_map.mp (hdrawn ▸ List.mem_map_of_mem hq)
    exact hid ▸ h.below r hr
  · exact hids.2.1
  · obtain ⟨r, hr, horigin⟩ := h.heldRows q ((hheld q).mpr (.inr hq))
    refine ⟨_, List.mem_map_of_mem hr, ?_⟩
    have hid : r.id = q.id := congrArg (·.id) horigin
    rcases (write_row done r).2 with hcopy | ⟨hsame, -⟩
    · -- The row is held by another worker, so this one has no copy of it.
      refine absurd ?_ (hids.2.2 _ (List.mem_map_of_mem hcopy) q.id ?_)
      · exact (write_row done r).1.trans hid
      · exact List.mem_map_of_mem hq
    · rw [hsame]
      exact horigin
  · obtain ⟨r, hr, rfl⟩ := hrows q hq
    rcases (write_row done r).2 with hcopy | ⟨hsame, hnone⟩
    · exact h.copies _ ((hheld _).mpr (.inl hcopy))
    · rw [hsame] at hfree ⊢
      refine h.free r hr fun k hk' => ?_
      rcases (hheld k).mp hk' with hk' | hk'
      · exact hnone k hk'
      · exact hfree k hk'

/-- Whatever happens, the outbox stays in order. -/
theorem step_ok (h : w.Ok maxAttempts) (e : Event) :
    (World.step cfg maxAttempts w e).Ok maxAttempts := by
  have hlater := h.advance e.elapsed
  unfold World.step
  generalize { w with clock := w.clock + e.elapsed } = w' at hlater ⊢
  cases e.act with
  | enqueueEmail producer email => exact hlater.flush producer _
  | enqueueWebhook producer data =>
    simp only [World.act]
    split
    · exact hlater
    · exact hlater.flush producer _
  | publish producer => exact hlater.publish producer
  | rollback producer => exact hlater.rollback producer
  | select useLock won =>
    simp only [World.act]
    split
    · exact hlater
    · exact hlater.select
  | start i =>
    simp only [World.act]
    split
    · rename_i hk
      exact hlater.start hk
    · exact hlater
  | finish i error =>
    simp only [World.act]
    split
    · rename_i hk
      exact hlater.finish error hk
    · exact hlater
  | commit i =>
    simp only [World.act]
    split
    · rename_i hk
      exact hlater.commit hk
    · exact hlater

theorem ok_empty : World.Ok maxAttempts {} where
  ids := List.nodup_nil
  below r hr := by cases hr
  drafted d hd := by cases hd
  callsBelow c hc := by cases hc
  heldIds := List.nodup_nil
  heldRows r hr := by cases hr
  copies r hr := by cases hr
  free r hr := by cases hr
  waiting k hk := by cases hk
  calling k hk := by cases hk

/-! ## What stays -/

/-- Rows are only added, and so are calls. -/
structure World.Grows (w w' : World) : Prop where
  rows : ∀ r ∈ w.rows, ∃ r' ∈ w'.rows, r'.origin = r.origin
  calls : ∃ more, w'.calls = w.calls ++ more

theorem World.Grows.refl (w : World) : w.Grows w := ⟨fun r hr => ⟨r, hr, rfl⟩, [], by simp⟩

theorem World.Grows.trans {w₁ w₂ w₃ : World} (h : w₁.Grows w₂) (h' : w₂.Grows w₃) : w₁.Grows w₃ where
  rows r hr := by
    obtain ⟨r', hr', horigin⟩ := h.rows r hr
    obtain ⟨r'', hr'', horigin'⟩ := h'.rows r' hr'
    exact ⟨r'', hr'', horigin'.trans horigin⟩
  calls := by
    obtain ⟨more, hmore⟩ := h.calls
    obtain ⟨more', hmore'⟩ := h'.calls
    exact ⟨more ++ more', by rw [hmore', hmore, List.append_assoc]⟩

theorem grows_same {w' : World} (hrows : w'.rows = w.rows) (hcalls : w'.calls = w.calls) :
    w.Grows w' :=
  ⟨fun r hr => ⟨r, hrows ▸ hr, rfl⟩, [], by rw [hcalls, List.append_nil]⟩

theorem grows_publish (w : World) (producer : Nat) : w.Grows (w.publish producer) :=
  ⟨fun r hr => ⟨r, List.mem_append_left _ hr, rfl⟩, [], (List.append_nil _).symm⟩

/-- A commit writes copies of the rows it holds. -/
theorem grows_commit (h : w.Ok maxAttempts) {i : Nat} {done : List Row}
    (hk : w.workers[i]? = some { queue := [], calling := none, done }) :
    w.Grows { w with rows := w.write done, workers := w.workers.eraseIdx i } := by
  refine ⟨fun r hr => ⟨_, List.mem_map_of_mem hr, ?_⟩, [], (List.append_nil _).symm⟩
  obtain ⟨hid, hcopy | ⟨hsame, -⟩⟩ := write_row done r
  · have hheld : (done.find? (·.id == r.id)).getD r ∈ w.held :=
      List.mem_flatMap.mpr ⟨_, List.mem_of_getElem? hk, by simpa [Worker.held] using hcopy⟩
    obtain ⟨r', hr', horigin⟩ := h.heldRows _ hheld
    have hid' : r'.id = r.id := (congrArg (·.id) horigin).trans hid
    rw [Tables.eq_of_key h.rowIds hr' hr hid'] at horigin
    exact horigin.symm
  · rw [hsame]

theorem step_grows (h : w.Ok maxAttempts) (e : Event) :
    w.Grows (World.step cfg maxAttempts w e) := by
  have hlater := h.advance e.elapsed
  have hsame : w.Grows { w with clock := w.clock + e.elapsed } := grows_same rfl rfl
  unfold World.step
  generalize { w with clock := w.clock + e.elapsed } = w' at hlater hsame ⊢
  refine hsame.trans ?_
  cases e.act with
  | enqueueEmail producer email => exact grows_same rfl rfl
  | enqueueWebhook producer data =>
    simp only [World.act]
    split
    · exact .refl w'
    · exact grows_same rfl rfl
  | publish producer => exact grows_publish w' producer
  | rollback producer => exact grows_same rfl rfl
  | select useLock won =>
    simp only [World.act]
    split
    · exact .refl w'
    · exact grows_same rfl rfl
  | start i =>
    simp only [World.act]
    split
    · exact grows_same rfl rfl
    · exact .refl w'
  | finish i error =>
    simp only [World.act]
    split
    · exact ⟨fun r hr => ⟨r, hr, rfl⟩, _, rfl⟩
    · exact .refl w'
  | commit i =>
    simp only [World.act]
    split
    · rename_i hk
      exact grows_commit hlater hk
    · exact .refl w'

theorem run_ok (h : w.Ok maxAttempts) (es : List Event) :
    (Runs.run (World.step cfg maxAttempts) w es).Ok maxAttempts :=
  Runs.run_invariant (I := World.Ok maxAttempts) (fun _ e hw => step_ok hw e) h es

theorem run_grows (h : w.Ok maxAttempts) (es : List Event) :
    w.Grows (Runs.run (World.step cfg maxAttempts) w es) :=
  Runs.run_relates (I := World.Ok maxAttempts) World.Grows.refl World.Grows.trans
    (fun _ e hw => step_ok hw e) (fun _ e hw => step_grows hw e) h es

/-! ## The law -/

/-- The row as it is: as the worker holds it that has locked it, else as it
is committed. -/
def World.Current (w : World) (r : Row) : Prop :=
  r ∈ w.held ∨ (r ∈ w.rows ∧ ∀ k ∈ w.held, k.id ≠ r.id)

theorem World.Ok.current (h : w.Ok maxAttempts) {r : Row} (hr : w.Current r) :
    Delivered maxAttempts (w.callsOf r.id) r := by
  rcases hr with hr | ⟨hr, hfree⟩
  · exact h.copies r hr
  · exact h.free r hr hfree

/-- A row whose sender is being called has attempts left, none of them
succeeded, and it is being called when it was due. -/
structure InFlight (maxAttempts : Nat) (calls : List SenderCall) (start : Int) : Prop where
  left : calls.length < maxAttempts
  failed : ∀ c ∈ calls, c.Failed
  spaced : ∀ last, calls.getLast? = some last →
    last.start + minutes (2 ^ (calls.length - 1)) ≤ start

/-- What the outbox promises of a state. -/
structure Delivering (maxAttempts : Nat) (w : World) : Prop where
  contract : ∀ r, w.Current r → Contract maxAttempts (w.callsOf r.id) r
  inFlight : ∀ k ∈ w.workers, ∀ r start, k.calling = some (r, start) →
    InFlight maxAttempts (w.callsOf r.id) start

/-- What the outbox promises of two states, the later one second: no row
disappears, and a row that is sent or failed is not attempted again. -/
structure Settled (w w' : World) : Prop where
  stays : ∀ r ∈ w.rows, ∃ r' ∈ w'.rows, r'.origin = r.origin
  final : ∀ r, w.Current r → r.status ≠ .pending → w'.callsOf r.id = w.callsOf r.id ∧
    ∀ k ∈ w'.workers, ∀ q start, k.calling = some (q, start) → q.id ≠ r.id

theorem World.Ok.delivering (h : w.Ok maxAttempts) (hmax : 1 ≤ maxAttempts) :
    Delivering maxAttempts w where
  contract r hr := (h.current hr).contract hmax
  inFlight k hk r start hcalling := by
    have hheld : r ∈ w.held :=
      List.mem_flatMap.mpr ⟨k, hk, by simp [Worker.held, hcalling]⟩
    obtain ⟨hpending, hdue, -⟩ := h.calling k hk r start hcalling
    have hcontract := (h.copies r hheld).contract hmax
    obtain ⟨hleft, hfailed⟩ := hcontract.pending hpending
    exact ⟨hleft, hfailed, fun last hlast => hcontract.next hpending last hlast ▸ hdue⟩

/-- Whoever holds a row, one of its versions is current. -/
theorem exists_current {r : Row} (hr : r ∈ w.rows) :
    ∃ r', w.Current r' ∧ r'.id = r.id := by
  by_cases hheld : ∃ k ∈ w.held, k.id = r.id
  · obtain ⟨k, hk, hid⟩ := hheld
    exact ⟨k, .inl hk, hid⟩
  · exact ⟨r, .inr ⟨hr, fun k hk hid => hheld ⟨k, hk, hid⟩⟩, rfl⟩

theorem World.Ok.row_of_current (h : w.Ok maxAttempts) {r : Row} (hr : w.Current r) :
    ∃ r' ∈ w.rows, r'.id = r.id := by
  rcases hr with hr | ⟨hr, -⟩
  · obtain ⟨r', hr', horigin⟩ := h.heldRows r hr
    exact ⟨r', hr', congrArg (·.id) horigin⟩
  · exact ⟨r, hr, rfl⟩

/-- No more calls follow those that settled a row. -/
theorem Contract.settled {calls more : List SenderCall} {r r' : Row} (h : Contract maxAttempts calls r)
    (h' : Contract maxAttempts (calls ++ more) r') (hr : r.status ≠ .pending) : more = [] := by
  cases hstatus : r.status with
  | pending => exact absurd hstatus hr
  | sent =>
    obtain ⟨c, hlast, hok⟩ := h.sent.mp hstatus
    by_contra hmore
    refine hok (h'.once c ?_)
    rw [List.dropLast_append_of_ne_nil hmore]
    exact List.mem_append_left _ (List.mem_of_getLast? hlast)
  | failed =>
    have hlen := (h.failed.mp hstatus).1
    have hmost := h'.bounded
    rw [List.length_append] at hmost
    exact List.eq_nil_of_length_eq_zero (by omega)

/-- A row that is settled is not being called. -/
theorem Contract.not_inFlight {calls : List SenderCall} {r : Row} (h : Contract maxAttempts calls r)
    (hr : r.status ≠ .pending) (start : Int) : ¬ InFlight maxAttempts calls start := by
  rintro ⟨hleft, hfailed, -⟩
  cases hstatus : r.status with
  | pending => exact hr hstatus
  | sent =>
    obtain ⟨c, hlast, hok⟩ := h.sent.mp hstatus
    exact hok (hfailed c (List.mem_of_getLast? hlast))
  | failed => exact hleft.ne (h.failed.mp hstatus).1

theorem World.Grows.settled {w' : World} (h : w.Grows w') (hmax : 1 ≤ maxAttempts)
    (hw : w.Ok maxAttempts) (hw' : w'.Ok maxAttempts) : Settled w w' where
  stays := h.rows
  final r hr hstatus := by
    have hcontract := (hw.current hr).contract hmax
    obtain ⟨more, hmore⟩ := h.calls
    have hcalls : w'.callsOf r.id = w.callsOf r.id ++ more.filter (·.rowId == r.id) := by
      unfold World.callsOf
      rw [hmore, List.filter_append]
    obtain ⟨row, hrow, hid⟩ := hw.row_of_current hr
    obtain ⟨row', hrow', horigin⟩ := h.rows row hrow
    have hid' : row'.id = row.id := congrArg (·.id) horigin
    obtain ⟨r', hr', hr'id⟩ := exists_current hrow'
    have hcontract' := (hw'.current hr').contract hmax
    rw [hr'id, hid', hid, hcalls] at hcontract'
    have hnone := hcontract.settled hcontract' hstatus
    rw [hnone, List.append_nil] at hcalls
    refine ⟨hcalls, fun k hk q start hcalling hq => ?_⟩
    have hflight := (hw'.delivering hmax).inFlight k hk q start hcalling
    rw [hq, hcalls] at hflight
    exact hcontract.not_inFlight hstatus start hflight

/-- From an empty outbox, in every run of queueing and of any number of
workers, whatever the senders answer: every row keeps its contract, an
attempt is started in time, and what is sent or failed stays as it is. -/
theorem delivery_contract (cfg : Settings) {maxAttempts : Nat} (hmax : 1 ≤ maxAttempts)
    (es : List Event) :
    Delivering maxAttempts (Runs.run (World.step cfg maxAttempts) {} es) ∧
      ∀ es', Settled (Runs.run (World.step cfg maxAttempts) {} es)
        (Runs.run (World.step cfg maxAttempts) {} (es ++ es')) := by
  have hok : (Runs.run (World.step cfg maxAttempts) {} es).Ok maxAttempts := run_ok ok_empty es
  refine ⟨hok.delivering hmax, fun es' => ?_⟩
  rw [Runs.run_append]
  exact (run_grows hok es').settled hmax hok (run_ok hok es')

/-! ## A slow mail server -/

/-- An email whose sender raises after fifteen seconds, and succeeds one
minute after it was first started. -/
def slowServer : List Event :=
  [⟨0, .enqueueEmail 1
      { recipient := "a@test.uz", subject := "Mavzu", lines := ["Matn"], link := "" }⟩,
    ⟨0, .publish 1⟩, ⟨0, .select true true⟩, ⟨0, .start 0⟩,
    ⟨15000000, .finish 0 (some ⟨"SMTPConnectTimeoutError", "timed out"⟩)⟩, ⟨0, .commit 0⟩,
    ⟨45000000, .select true true⟩, ⟨0, .start 0⟩, ⟨1000000, .finish 0 none⟩, ⟨0, .commit 0⟩]

theorem delivery_contract_slowServer :
    Delivering 8 (Runs.run (World.step {} 8) {} slowServer) ∧
      ∀ es', Settled (Runs.run (World.step {} 8) {} slowServer)
        (Runs.run (World.step {} 8) {} (slowServer ++ es')) :=
  delivery_contract {} (by decide) slowServer

/-- The second attempt starts forty-five seconds after the failure of the
first: the minute is counted from the start of the attempt. -/
theorem slowServer_early_retry :
    ¬ ∀ k c c', ((Runs.run (World.step {} 8) {} slowServer).callsOf 1)[k]? = some c → c.Failed →
      ((Runs.run (World.step {} 8) {} slowServer).callsOf 1)[k + 1]? = some c' →
      c.finish + minutes (2 ^ k) ≤ c'.start := by
  intro h
  have hfirst : ((Runs.run (World.step {} 8) {} slowServer).callsOf 1)[0]?
      = some ⟨1, 0, 15000000, some ⟨"SMTPConnectTimeoutError", "timed out"⟩⟩ := by decide +kernel
  have hsecond : ((Runs.run (World.step {} 8) {} slowServer).callsOf 1)[1]?
      = some ⟨1, 60000000, 61000000, none⟩ := by decide +kernel
  exact absurd (h 0 _ _ hfirst rfl hsecond) (by decide)

end Outbox

end Royd
