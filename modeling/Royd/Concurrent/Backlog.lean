/-
Royd.Concurrent.Backlog — what a failing backlog does to the rows behind it.

A tick takes the fifty lowest ids that are due. If a row is due and is not among
them, the fifty are all older, and each of them uses up an attempt when the tick
commits (`attempted_le`). The older rows are attempted no more often than they have
attempts left (`calls_ahead_le`), and a row that is queued later is not older. So the
ticks that pass a row by are few (`backlog_passes_by`).

Older is by id, and ids are drawn at the flush. A row that was flushed before and is
committed late comes in ahead, so the rows that count are the drawn ones: with the
committed ones alone the bound fails (`overlap_passes_by`).

Ticks are read off a run in the order of their selections (`ticks`); that they
overlap does not matter.
-/
import Mathlib
import Royd.Concurrent.Deliveries
import Royd.Lib.Grouping

namespace Royd

namespace Outbox

/-! ## Ticks -/

/-- The act is a `deliver_pending` that got past `claim`. -/
def Act.selects : Act → Bool
  | .select useLock won => !(useLock && !won)
  | _ => false

/-- The worker whose transaction the act commits. -/
def World.commitOf (w : World) : Act → Option Nat
  | .commit i =>
    match w.workers[i]? with
    | some { queue := [], calling := none, .. } => some i
    | _ => none
  | _ => none

/-- A row is there, pending and due. -/
def World.isDue (w : World) (id : Nat) : Bool :=
  w.rows.any fun r => r.id == id && r.status == .pending && decide (r.nextAttemptAt ≤ w.clock)

/-- A tick, as seen from one row: whether the row was due at the selection, the ids
that were selected, and whether the tick commits. -/
structure Tick where
  due : Bool
  rows : List Nat
  committed : Bool
  deriving DecidableEq, Repr

section Definitions

variable (cfg : Settings) (maxAttempts : Nat)

/-- A worker commits in the events. A commit of another one moves it up the list. -/
def commits (w : World) (j : Nat) : List Event → Bool
  | [] => false
  | e :: es =>
    match w.commitOf e.act with
    | some i => i == j || commits (w.step cfg maxAttempts e) (if i < j then j - 1 else j) es
    | none => commits (w.step cfg maxAttempts e) j es

/-- The tick that an event begins. -/
def tick (id : Nat) (w : World) (e : Event) (es : List Event) : Tick :=
  let now := { w with clock := w.clock + e.elapsed }
  { due := now.isDue id
    rows := now.due.map (·.id)
    committed := commits cfg maxAttempts (w.step cfg maxAttempts e) w.workers.length es }

/-- The ticks of a run, in the order of their selections. -/
def ticks (id : Nat) (w : World) : List Event → List Tick
  | [] => []
  | e :: es =>
    let rest := ticks id (w.step cfg maxAttempts e) es
    if e.act.selects then tick cfg maxAttempts id w e es :: rest else rest

/-- The attempts that the pending ones of the rows with smaller ids have left. -/
def ahead (id : Nat) (rows : List Row) : Nat :=
  ((rows.filter fun r => r.status == .pending && decide (r.id < id)).map fun r =>
    maxAttempts - r.attempts).sum

end Definitions

/-! ## What an act does -/

/-- The worlds an act leads to. -/
inductive World.Moves (maxAttempts : Nat) (w : World) (a : Act) : World → Prop where
  | idle (selects : a.selects = false) (commit : w.commitOf a = none) : Moves maxAttempts w a w
  | flush (producer : Nat) (payload : OutboxPayload) (selects : a.selects = false)
    (commit : w.commitOf a = none) : Moves maxAttempts w a (w.flush producer payload)
  | publish (producer : Nat) (selects : a.selects = false) (commit : w.commitOf a = none) :
    Moves maxAttempts w a (w.publish producer)
  | rollback (producer : Nat) (selects : a.selects = false) (commit : w.commitOf a = none) :
    Moves maxAttempts w a (w.rollback producer)
  | select (selects : a.selects = true) (commit : w.commitOf a = none) :
    Moves maxAttempts w a { w with workers := w.workers ++ [{ queue := w.due }] }
  | start {i : Nat} {r : Row} {rest done : List Row}
    (worker : w.workers[i]? = some { queue := r :: rest, calling := none, done })
    (selects : a.selects = false) (commit : w.commitOf a = none) :
    Moves maxAttempts w a
      { w with workers := w.workers.set i { queue := rest, calling := some (r, w.clock), done } }
  | finish {i : Nat} {r : Row} {t : Int} {queue done : List Row} (error : Option SendError)
    (worker : w.workers[i]? = some { queue, calling := some (r, t), done })
    (selects : a.selects = false) (commit : w.commitOf a = none) :
    Moves maxAttempts w a
      { w with
        workers := w.workers.set i
          { queue, done := done ++ [deliverOne maxAttempts r t error] }
        calls := w.calls ++ [{ rowId := r.id, start := t, finish := w.clock, error }] }
  | commit {i : Nat} {done : List Row}
    (worker : w.workers[i]? = some { queue := [], calling := none, done })
    (selects : a.selects = false) (commit : w.commitOf a = some i) :
    Moves maxAttempts w a { w with rows := w.write done, workers := w.workers.eraseIdx i }

variable {cfg : Settings} {maxAttempts : Nat} {w : World}

theorem act_moves (cfg : Settings) (maxAttempts : Nat) (w : World) (a : Act) :
    w.Moves maxAttempts a (w.act cfg maxAttempts a) := by
  cases a with
  | enqueueEmail producer email => exact .flush producer _ rfl rfl
  | enqueueWebhook producer data =>
    simp only [World.act]
    split
    · exact .idle rfl rfl
    · exact .flush producer _ rfl rfl
  | publish producer => exact .publish producer rfl rfl
  | rollback producer => exact .rollback producer rfl rfl
  | select useLock won =>
    simp only [World.act]
    split
    · rename_i hlost
      exact .idle (by simp [Act.selects, hlost]) rfl
    · rename_i hwon
      exact .select (by simp [Act.selects, hwon]) rfl
  | start i =>
    simp only [World.act]
    split
    · rename_i hk
      exact .start hk rfl rfl
    · exact .idle rfl rfl
  | finish i error =>
    simp only [World.act]
    split
    · rename_i hk
      exact .finish error hk rfl rfl
    · exact .idle rfl rfl
  | commit i =>
    simp only [World.act]
    split
    · rename_i hk
      exact .commit hk rfl (by simp [World.commitOf, hk])
    · rename_i hnot
      refine .idle rfl ?_
      simp only [World.commitOf]

/-! ## Every selected row is attempted -/

/-- The rows a worker has still to attempt, of those that matter. -/
def Worker.left (k : Worker) (p : Nat → Bool) : Nat :=
  ((k.calling.map (·.1)).toList ++ k.queue).countP fun r => p r.id

/-- What those of the workers have still to attempt that commit. -/
def owedBy (p : Nat → Bool) : (Nat → Bool) → List Worker → Nat
  | _, [] => 0
  | f, k :: ks => (if f 0 then k.left p else 0) + owedBy p (fun j => f (j + 1)) ks

def World.owed (cfg : Settings) (maxAttempts : Nat) (p : Nat → Bool) (w : World)
    (es : List Event) : Nat :=
  owedBy p (fun j => commits cfg maxAttempts w j es) w.workers

/-- The calls so far, of the rows that matter. -/
def World.called (w : World) (p : Nat → Bool) : Nat := w.calls.countP fun c => p c.rowId

theorem length_callsOf (w : World) (id : Nat) :
    (w.callsOf id).length = w.called fun i => i == id := by
  unfold World.callsOf World.called
  rw [List.countP_eq_length_filter]

/-- What a tick that commits has attempted. -/
def Tick.attempted (t : Tick) (p : Nat → Bool) : Nat := if t.committed then t.rows.countP p else 0

variable {p : Nat → Bool} {f : Nat → Bool} {ks : List Worker} {k : Worker}

theorem owedBy_concat (f : Nat → Bool) (ks : List Worker) (k : Worker) :
    owedBy p f (ks ++ [k]) = owedBy p f ks + if f ks.length then k.left p else 0 := by
  induction ks generalizing f with
  | nil => simp [owedBy]
  | cons k' ks ih =>
    rw [List.cons_append, owedBy, owedBy, ih]
    exact (Nat.add_assoc _ _ _).symm

/-- One of the workers goes on. -/
theorem owedBy_set (f : Nat → Bool) {i : Nat} (hk : ks[i]? = some k) (k' : Worker) :
    owedBy p f (ks.set i k') + (if f i then k.left p else 0) =
      owedBy p f ks + if f i then k'.left p else 0 := by
  induction ks generalizing f i with
  | nil => cases hk
  | cons k₀ ks ih =>
    cases i with
    | zero =>
      cases hk
      rw [List.set_cons_zero, owedBy, owedBy]
      omega
    | succ i =>
      have hrest := ih (fun j => f (j + 1)) hk
      rw [List.set_cons_succ, owedBy, owedBy]
      omega

/-- One that has nothing left to attempt goes. -/
theorem owedBy_eraseIdx {f : Nat → Bool} (f' : Nat → Bool) {i : Nat} (hk : ks[i]? = some k) (hleft : k.left p = 0)
    (hf : ∀ j, j ≠ i → f j = f' (if i < j then j - 1 else j)) :
    owedBy p f ks = owedBy p f' (ks.eraseIdx i) := by
  induction ks generalizing f f' i with
  | nil => cases hk
  | cons k₀ ks ih =>
    cases i with
    | zero =>
      cases hk
      have hrest : (fun j => f (j + 1)) = f' := by
        funext j
        rw [hf (j + 1) (Nat.succ_ne_zero j), if_pos (Nat.succ_pos j), Nat.add_sub_cancel]
      rw [List.eraseIdx_cons_zero, owedBy, hleft, ite_self, Nat.zero_add, hrest]
    | succ i =>
      have hshift : ∀ j, j ≠ i → f (j + 1) = f' ((if i < j then j - 1 else j) + 1) := by
        intro j hj
        rw [hf (j + 1) (by omega)]
        congr 1
        split <;> split <;> omega
      have hhead := hf 0 (Nat.succ_ne_zero i).symm
      rw [if_neg (Nat.not_lt_zero _)] at hhead
      rw [List.eraseIdx_cons_succ, owedBy, owedBy, hhead,
        ih (fun j => f' (j + 1)) hk hshift]

/-- What is selected, or was, is called before its commit. -/
theorem owed_step (cfg : Settings) (maxAttempts : Nat) (p : Nat → Bool) (id : Nat) (w : World)
    (e : Event) (es : List Event) :
    w.owed cfg maxAttempts p (e :: es) + w.called p +
        (if e.act.selects then (tick cfg maxAttempts id w e es).attempted p else 0) ≤
      (w.step cfg maxAttempts e).owed cfg maxAttempts p es +
        (w.step cfg maxAttempts e).called p := by
  have hmoves : World.Moves maxAttempts { w with clock := w.clock + e.elapsed } e.act
      (w.step cfg maxAttempts e) := act_moves cfg maxAttempts _ _
  obtain ⟨f, hf⟩ : ∃ f : Nat → Bool, ∀ j,
      commits cfg maxAttempts (w.step cfg maxAttempts e) j es = f j := ⟨_, fun _ => rfl⟩
  have hcommits : ∀ j, commits cfg maxAttempts w j (e :: es) =
      match World.commitOf { w with clock := w.clock + e.elapsed } e.act with
      | some i => i == j || f (if i < j then j - 1 else j)
      | none => f j := by
    intro j
    simp only [← hf]
    rfl
  unfold World.owed World.called Tick.attempted tick
  simp only [hcommits, hf, List.countP_map]
  clear hf hcommits
  generalize w.step cfg maxAttempts e = w' at hmoves ⊢
  cases hmoves with
  | idle hselects hcommit => simp [hselects, hcommit]
  | flush producer payload hselects hcommit => simp [hselects, hcommit, World.flush]
  | publish producer hselects hcommit => simp [hselects, hcommit, World.publish]
  | rollback producer hselects hcommit => simp [hselects, hcommit, World.rollback]
  | select hselects hcommit =>
    simp only [hselects, hcommit, if_true]
    rw [owedBy_concat]
    simp only [Worker.left, Option.map_none, Option.toList_none, List.nil_append]
    change _ + _ + (if f w.workers.length then List.countP (fun r : Row => p r.id) _ else 0) ≤ _
    omega
  | @start i r rest done hk hselects hcommit =>
    simp only [hselects, hcommit, Bool.false_eq_true, if_false]
    have hset := owedBy_set (p := p) f hk
      { queue := rest, calling := some (r, w.clock + e.elapsed), done }
    have hsame : Worker.left { queue := r :: rest, calling := none, done } p =
        Worker.left { queue := rest, calling := some (r, w.clock + e.elapsed), done } p := rfl
    rw [hsame] at hset
    exact (Nat.add_le_add_right (Nat.add_right_cancel hset).ge _)
  | @finish i r t queue done error hk hselects hcommit =>
    simp only [hselects, hcommit, Bool.false_eq_true, if_false]
    have hset := owedBy_set (p := p) f hk
      { queue, done := done ++ [deliverOne maxAttempts r t error] }
    have hless : Worker.left { queue, calling := some (r, t), done } p =
        Worker.left { queue, done := done ++ [deliverOne maxAttempts r t error] } p +
          if p r.id then 1 else 0 := by
      unfold Worker.left
      exact List.countP_cons
    rw [hless] at hset
    rw [List.countP_append, List.countP_singleton]
    change owedBy p f (w.workers.set i _) + _ = owedBy p f w.workers + _ at hset
    change owedBy p f w.workers + _ + 0 ≤
      owedBy p f (w.workers.set i _) + (_ + if p r.id then 1 else 0)
    -- What is no longer owed is called, and if it was not owed it is called all the same.
    cases hcommits : f i with
    | true =>
      rw [hcommits, if_pos rfl, if_pos rfl] at hset
      omega
    | false =>
      rw [hcommits, if_neg Bool.false_ne_true, if_neg Bool.false_ne_true] at hset
      omega
  | @commit i done hk hselects hcommit =>
    simp only [hselects, hcommit, Bool.false_eq_true, if_false]
    rw [owedBy_eraseIdx f (p := p) hk rfl]
    · exact le_rfl
    · intro j hj
      simp [hj.symm]

theorem commits_nil (w : World) (j : Nat) : commits cfg maxAttempts w j [] = false := rfl

/-- Every row that a committed tick of the run has selected was called in the run. -/
theorem attempted_le (cfg : Settings) (maxAttempts : Nat) (p : Nat → Bool) (id : Nat) (w : World)
    (es : List Event) :
    ((ticks cfg maxAttempts id w es).map (·.attempted p)).sum + w.owed cfg maxAttempts p es +
        w.called p ≤
      (Runs.run (World.step cfg maxAttempts) w es).called p := by
  induction es generalizing w with
  | nil =>
    have hnone : w.owed cfg maxAttempts p [] = 0 := by
      unfold World.owed
      simp only [commits_nil]
      induction w.workers with
      | nil => rfl
      | cons k ks ih => exact (Nat.zero_add _).trans ih
    rw [hnone]
    simp [ticks]
  | cons e es ih =>
    have hrest := ih (w.step cfg maxAttempts e)
    have hstep := owed_step cfg maxAttempts p id w e es
    rw [Runs.run_cons]
    unfold ticks
    cases hselects : e.act.selects with
    | false =>
      rw [hselects, if_neg Bool.false_ne_true] at hstep
      rw [if_neg Bool.false_ne_true]
      omega
    | true =>
      rw [hselects, if_pos rfl] at hstep
      rw [if_pos rfl, List.map_cons, List.sum_cons]
      omega

/-! ## What the older rows have left -/

/-- A locked row is committed as it was selected, and every call is of a row. -/
structure World.Kept (w : World) : Prop where
  locked : ∀ k ∈ w.held, ∃ r ∈ w.rows, r.id = k.id ∧ r.status = .pending ∧ r.attempts ≤ k.attempts
  calls : ∀ c ∈ w.calls, ∃ r ∈ w.rows, r.id = c.rowId

theorem kept_empty : World.Kept {} where
  locked k hk := by cases hk
  calls c hc := by cases hc

theorem World.Kept.step (h : w.Kept) (hok : w.Ok maxAttempts) (e : Event) :
    (w.step cfg maxAttempts e).Kept := by
  have hmoves : World.Moves maxAttempts { w with clock := w.clock + e.elapsed } e.act
      (w.step cfg maxAttempts e) := act_moves cfg maxAttempts _ _
  have hlater := hok.advance e.elapsed
  have hkept : World.Kept { w with clock := w.clock + e.elapsed } := ⟨h.locked, h.calls⟩
  generalize { w with clock := w.clock + e.elapsed } = now at hmoves hlater hkept
  generalize w.step cfg maxAttempts e = w' at hmoves ⊢
  cases hmoves with
  | idle => exact hkept
  | flush => exact ⟨hkept.locked, hkept.calls⟩
  | rollback => exact ⟨hkept.locked, hkept.calls⟩
  | publish producer =>
    constructor
    · intro k hk
      obtain ⟨r, hr, hlocked⟩ := hkept.locked k hk
      exact ⟨r, List.mem_append_left _ hr, hlocked⟩
    · intro c hc
      obtain ⟨r, hr, hid⟩ := hkept.calls c hc
      exact ⟨r, List.mem_append_left _ hr, hid⟩
  | select =>
    refine ⟨fun k hk => ?_, hkept.calls⟩
    rw [held_select] at hk
    rcases List.mem_append.mp hk with hk | hk
    · exact hkept.locked k hk
    · obtain ⟨hrow, hpending, -⟩ := mem_due hk
      exact ⟨k, hrow, rfl, hpending, le_rfl⟩
  | start hk =>
    refine ⟨fun k hheld => ?_, hkept.calls⟩
    rw [held_start hk] at hheld
    exact hkept.locked k hheld
  | @finish i r t queue done error hk =>
    obtain ⟨as, bs, hbefore, hafter⟩ := held_finish (deliverOne maxAttempts r t error) hk
    have hmem : r ∈ now.held := by rw [hbefore]; simp
    obtain ⟨row, hrow, hid, hpending, hattempts⟩ := hkept.locked r hmem
    constructor
    · intro k hheld
      rw [hafter] at hheld
      rcases Tables.mem_exchange hheld with rfl | hheld
      · refine ⟨row, hrow, hid.trans ?_, hpending, ?_⟩
        · exact (congrArg OutboxMessage.id (deliverOne_message t error)).symm
        · rw [deliverOne_attempts]
          omega
      · exact hkept.locked k (hbefore ▸ hheld)
    · intro c hc
      rcases List.mem_append.mp hc with hc | hc
      · exact hkept.calls c hc
      · rw [List.mem_singleton.mp hc]
        exact ⟨row, hrow, hid⟩
  | @commit i done hk =>
    have hperm := held_commit hk (now.write done)
    have hids := (hperm.map (·.id)).nodup_iff.mp hlater.heldIds
    rw [List.map_append, List.nodup_append] at hids
    constructor
    · intro k hheld
      obtain ⟨r, hr, hid, hlocked⟩ :=
        hkept.locked k (hperm.mem_iff.mpr (List.mem_append_right _ hheld))
      -- Another worker holds the row, so this one writes no copy of it.
      have hsame : (done.find? (·.id == r.id)).getD r = r := by
        obtain ⟨hcopyId, hcopy | ⟨hsame, -⟩⟩ := write_row done r
        · exact absurd (hcopyId.trans hid)
            (hids.2.2 _ (List.mem_map_of_mem hcopy) _ (List.mem_map_of_mem hheld))
        · exact hsame
      exact ⟨r, List.mem_map.mpr ⟨r, hr, hsame⟩, hid, hlocked⟩
    · intro c hc
      obtain ⟨r, hr, hid⟩ := hkept.calls c hc
      exact ⟨_, List.mem_map_of_mem hr, (write_row done r).1.trans hid⟩

/-- Rows that are queued get new ids. -/
structure World.Follows (w w' : World) : Prop where
  next : w.nextId ≤ w'.nextId
  rows : ∀ r' ∈ w'.drawn, r'.id < w.nextId → ∃ r ∈ w.drawn, r.id = r'.id

theorem World.Follows.refl (w : World) : w.Follows w := ⟨le_rfl, fun r hr _ => ⟨r, hr, rfl⟩⟩

theorem World.Follows.trans {w₁ w₂ w₃ : World} (h : w₁.Follows w₂) (h' : w₂.Follows w₃) :
    w₁.Follows w₃ where
  next := h.next.trans h'.next
  rows r hr hlt := by
    obtain ⟨r₂, hr₂, hid₂⟩ := h'.rows r hr (hlt.trans_le h.next)
    obtain ⟨r₁, hr₁, hid₁⟩ := h.rows r₂ hr₂ (hid₂ ▸ hlt)
    exact ⟨r₁, hr₁, hid₁.trans hid₂⟩

theorem step_follows (w : World) (e : Event) : w.Follows (w.step cfg maxAttempts e) := by
  have hmoves : World.Moves maxAttempts { w with clock := w.clock + e.elapsed } e.act
      (w.step cfg maxAttempts e) := act_moves cfg maxAttempts _ _
  generalize w.step cfg maxAttempts e = w' at hmoves ⊢
  cases hmoves with
  | idle => exact ⟨le_rfl, fun r hr _ => ⟨r, hr, rfl⟩⟩
  | flush producer payload =>
    refine ⟨Nat.le_succ _, fun r hr hlt => ?_⟩
    rcases List.mem_append.mp hr with hr | hr
    · exact ⟨r, List.mem_append_left _ hr, rfl⟩
    · obtain ⟨d, hd, rfl⟩ := List.mem_map.mp hr
      rcases List.mem_append.mp hd with hd | hd
      · exact ⟨d.row, List.mem_append_right _ (List.mem_map_of_mem hd), rfl⟩
      · rw [List.mem_singleton.mp hd] at hlt
        exact absurd hlt (lt_irrefl _)
  | publish producer =>
    exact ⟨le_rfl, fun r hr _ => ⟨r, (drawn_publish _ producer).mem_iff.mp hr, rfl⟩⟩
  | rollback producer =>
    exact ⟨le_rfl, fun r hr _ => ⟨r, (drawn_rollback _ producer).subset hr, rfl⟩⟩
  | select => exact ⟨le_rfl, fun r hr _ => ⟨r, hr, rfl⟩⟩
  | start => exact ⟨le_rfl, fun r hr _ => ⟨r, hr, rfl⟩⟩
  | finish => exact ⟨le_rfl, fun r hr _ => ⟨r, hr, rfl⟩⟩
  | @commit i done hk =>
    refine ⟨le_rfl, fun r hr _ => ?_⟩
    rcases List.mem_append.mp hr with hr | hr
    · obtain ⟨row, hrow, rfl⟩ := List.mem_map.mp hr
      exact ⟨row, List.mem_append_left _ hrow, (write_row done row).1.symm⟩
    · exact ⟨r, List.mem_append_right _ hr, rfl⟩

/-- No row is called more often than that. -/
theorem callsOf_le_max (hmax : 1 ≤ maxAttempts) (hok : w.Ok maxAttempts) (hkept : w.Kept)
    (id : Nat) : (w.callsOf id).length ≤ maxAttempts := by
  cases hcalls : w.callsOf id with
  | nil => exact Nat.zero_le _
  | cons c cs =>
    have hc : c ∈ w.callsOf id := hcalls ▸ List.mem_cons_self
    obtain ⟨hmem, hrowId⟩ := List.mem_filter.mp hc
    obtain ⟨r, hr, hid⟩ := hkept.calls c hmem
    obtain ⟨now, hnow, hnowId⟩ := exists_current hr
    have hbounded := ((hok.current hnow).contract hmax).bounded
    rwa [hnowId, hid, beq_iff_eq.mp hrowId, hcalls] at hbounded

/-- A committed row has been called as often as it says, or more often if a worker
holds it. -/
theorem attempts_le_callsOf (hmax : 1 ≤ maxAttempts) (hok : w.Ok maxAttempts) (hkept : w.Kept)
    {r : Row} (hr : r ∈ w.rows) : r.attempts ≤ (w.callsOf r.id).length := by
  obtain ⟨now, hnow, hnowId⟩ := exists_current hr
  have hattempts := ((hok.current hnow).contract hmax).attempts
  rw [hnowId] at hattempts
  rw [← hattempts]
  rcases hnow with hheld | ⟨hrow, -⟩
  · obtain ⟨row, hrow, hrowId, -, hle⟩ := hkept.locked now hheld
    rwa [Tables.eq_of_key hok.rowIds hrow hr (hrowId.trans hnowId)] at hle
  · rw [Tables.eq_of_key hok.rowIds hrow hr hnowId]

/-- A pending row is not called more often than it has attempts left, and one that
is settled not at all. -/
theorem callsOf_le {w' : World} (hmax : 1 ≤ maxAttempts) (hok : w.Ok maxAttempts) (hkept : w.Kept)
    (hok' : w'.Ok maxAttempts) (hkept' : w'.Kept) (hgrows : w.Grows w') {r : Row}
    (hr : r ∈ w.drawn) :
    (w'.callsOf r.id).length ≤ (w.callsOf r.id).length +
      if r.status = .pending then maxAttempts - r.attempts else 0 := by
  have hmost := callsOf_le_max hmax hok' hkept' r.id
  rcases List.mem_append.mp hr with hr | hr
  · by_cases hpending : r.status = .pending
    · have hleast := attempts_le_callsOf hmax hok hkept hr
      rw [if_pos hpending]
      omega
    · rw [if_neg hpending]
      have hfree : ∀ k ∈ w.held, k.id ≠ r.id := by
        intro k hk hid
        obtain ⟨row, hrow, hrowId, hlocked, -⟩ := hkept.locked k hk
        rw [Tables.eq_of_key hok.rowIds hrow hr (hrowId.trans hid)] at hlocked
        exact hpending hlocked
      have hsettled := (hgrows.settled hmax hok hok').final r (.inr ⟨hr, hfree⟩) hpending
      rw [hsettled.1, Nat.add_zero]
  · -- A draft is as it was queued, with all its attempts before it.
    obtain ⟨d, hd, rfl⟩ := List.mem_map.mp hr
    obtain ⟨horigin, -⟩ := hok.drafted d hd
    rw [← horigin]
    exact hmost.trans (Nat.le_add_left _ _)

/-- In no run are the older rows called more often than they have attempts left. -/
theorem calls_ahead_le {w' : World} (hmax : 1 ≤ maxAttempts) (hok : w.Ok maxAttempts)
    (hkept : w.Kept) (hok' : w'.Ok maxAttempts) (hkept' : w'.Kept) (hgrows : w.Grows w')
    (hfollows : w.Follows w') {id : Nat} (hid : id < w.nextId) :
    w'.called (fun i => decide (i < id)) ≤
      w.called (fun i => decide (i < id)) + ahead maxAttempts id w.drawn := by
  obtain ⟨more, hmore⟩ := hgrows.calls
  have hcallsOf : ∀ i,
      (w'.callsOf i).length = (w.callsOf i).length + more.countP (·.rowId == i) := by
    intro i
    unfold World.callsOf
    rw [hmore, List.filter_append, List.length_append, List.countP_eq_length_filter (l := more)]
  have hkeys : ∀ c ∈ more, decide (c.rowId < id) = true →
      ∃ r ∈ w.drawn.filter (fun r => r.status == .pending && decide (r.id < id)),
        r.id = c.rowId := by
    intro c hc hlt
    rw [decide_eq_true_iff] at hlt
    obtain ⟨r', hr', hid'⟩ := hkept'.calls c (hmore ▸ List.mem_append_right _ hc)
    obtain ⟨r, hr, hrid⟩ := hfollows.rows r' (List.mem_append_left _ hr') (by omega)
    refine ⟨r, List.mem_filter.mpr ⟨hr, ?_⟩, hrid.trans hid'⟩
    have hle := callsOf_le hmax hok hkept hok' hkept' hgrows hr
    rw [hcallsOf] at hle
    -- It was called, so it is not settled.
    have hcalled : 0 < more.countP (·.rowId == r.id) :=
      List.countP_pos_iff.mpr ⟨c, hc, by simp [hrid, hid']⟩
    have hpending : r.status = .pending := by
      by_contra hnot
      rw [if_neg hnot] at hle
      omega
    simp only [hpending, beq_self_eq_true, Bool.true_and, decide_eq_true_iff]
    omega
  have hsum := Grouping.countP_le_sum_keys (fun r : Row => r.id) hkeys
  have hleft : (((w.drawn.filter fun r => r.status == .pending && decide (r.id < id)).map fun r =>
      more.countP fun c => c.rowId == r.id).sum) ≤ ahead maxAttempts id w.drawn := by
    refine List.sum_le_sum fun r hr => ?_
    obtain ⟨hr, hahead⟩ := List.mem_filter.mp hr
    have hle := callsOf_le hmax hok hkept hok' hkept' hgrows hr
    rw [hcallsOf, if_pos (by simpa using (Bool.and_eq_true_iff.mp hahead).1)] at hle
    omega
  unfold World.called
  rw [hmore, List.countP_append]
  exact Nat.add_le_add_left (hsum.trans hleft) _

/-! ## A row that is passed by -/

/-- What is held was held, or is selected. -/
theorem held_step {k : Row} {e : Event} (hk : k ∈ (w.step cfg maxAttempts e).held) :
    (∃ k' ∈ w.held, k'.id = k.id) ∨
      (e.act.selects = true ∧ k ∈ World.due { w with clock := w.clock + e.elapsed }) := by
  have hmoves : World.Moves maxAttempts { w with clock := w.clock + e.elapsed } e.act
      (w.step cfg maxAttempts e) := act_moves cfg maxAttempts _ _
  have hheld : World.held { w with clock := w.clock + e.elapsed } = w.held := rfl
  rw [← hheld]
  generalize { w with clock := w.clock + e.elapsed } = now at hmoves
  generalize w.step cfg maxAttempts e = w' at hmoves hk
  cases hmoves with
  | idle => exact .inl ⟨k, hk, rfl⟩
  | flush => exact .inl ⟨k, hk, rfl⟩
  | publish => exact .inl ⟨k, hk, rfl⟩
  | rollback => exact .inl ⟨k, hk, rfl⟩
  | select hselects =>
    rw [held_select] at hk
    rcases List.mem_append.mp hk with hk | hk
    · exact .inl ⟨k, hk, rfl⟩
    · exact .inr ⟨hselects, hk⟩
  | start hworker =>
    rw [held_start hworker] at hk
    exact .inl ⟨k, hk, rfl⟩
  | @finish i r t queue done error hworker =>
    obtain ⟨as, bs, hbefore, hafter⟩ := held_finish (deliverOne maxAttempts r t error) hworker
    rw [hafter] at hk
    rcases Tables.mem_exchange (a := r) hk with rfl | hk
    · refine .inl ⟨r, by rw [hbefore]; simp, ?_⟩
      exact (congrArg OutboxMessage.id (deliverOne_message t error)).symm
    · exact .inl ⟨k, hbefore ▸ hk, rfl⟩
  | @commit i done hworker =>
    exact .inl ⟨k, (held_commit hworker _).mem_iff.mpr (List.mem_append_right _ hk), rfl⟩

/-- If a row is due and not among those selected, these are a full batch of older
ones. -/
theorem due_full {id : Nat} (hdue : w.isDue id = true)
    (hfree : ∀ k ∈ w.held, k.id ≠ id) (hnot : id ∉ w.due.map (·.id)) :
    w.due.length = batch ∧ ∀ r ∈ w.due, r.id < id := by
  obtain ⟨r, hr, hcond⟩ := List.any_eq_true.mp hdue
  simp only [Bool.and_eq_true, beq_iff_eq, decide_eq_true_eq] at hcond
  obtain ⟨⟨rfl, hpending⟩, hat⟩ := hcond
  have hsorted := List.pairwise_insertionSort (fun a b : Row => (a.id : Int) ≤ b.id)
    (w.rows.filter fun r => r.status == .pending && decide (r.nextAttemptAt ≤ w.clock)
      && !w.held.any (·.id == r.id))
  have hmem : r ∈ Api.orderBy (fun r => (r.id : Int)) (w.rows.filter fun r =>
      r.status == .pending && decide (r.nextAttemptAt ≤ w.clock)
        && !w.held.any (·.id == r.id)) := by
    refine Api.mem_orderBy.mpr (List.mem_filter.mpr ⟨hr, ?_⟩)
    simpa [hpending, hat] using hfree
  unfold World.due at hnot ⊢
  change List.Pairwise _ (Api.orderBy (fun r : Row => (r.id : Int)) _) at hsorted
  generalize Api.orderBy _ _ = rows at hsorted hmem hnot ⊢
  rw [← List.take_append_drop batch rows] at hsorted hmem
  have hlater : r ∈ rows.drop batch := by
    rcases List.mem_append.mp hmem with hin | hin
    · exact absurd (List.mem_map_of_mem hin) hnot
    · exact hin
  constructor
  · have hlength := List.length_pos_of_mem hlater
    rw [List.length_drop] at hlength
    rw [List.length_take]
    omega
  · intro q hq
    have hle := (List.pairwise_append.mp hsorted).2.2 q hq r hlater
    have hne : q.id ≠ r.id := fun heq => hnot (heq ▸ List.mem_map_of_mem hq)
    omega

/-- Until a row is selected, each tick that commits and finds it due attempts a full
batch of older ones. -/
theorem passed_by_le (cfg : Settings) (h : w.Ok maxAttempts) {id : Nat}
    (hfree : ∀ k ∈ w.held, k.id ≠ id) (es : List Event) :
    batch * (((ticks cfg maxAttempts id w es).takeWhile fun t =>
        !t.rows.contains id).countP fun t => t.due && t.committed) ≤
      ((ticks cfg maxAttempts id w es).map (·.attempted fun i => decide (i < id))).sum := by
  induction es generalizing w with
  | nil => exact le_rfl
  | cons e es ih =>
    have hok : (w.step cfg maxAttempts e).Ok maxAttempts := step_ok h e
    unfold ticks
    cases hselects : e.act.selects with
    | false =>
      rw [if_neg Bool.false_ne_true]
      refine ih hok fun k hk => ?_
      rcases held_step hk with ⟨k', hk', hid⟩ | ⟨hselected, -⟩
      · exact hid ▸ hfree k' hk'
      · rw [hselects] at hselected
        cases hselected
    | true =>
      rw [if_pos rfl, List.map_cons, List.sum_cons]
      by_cases hin : id ∈ (World.due { w with clock := w.clock + e.elapsed }).map (·.id)
      · rw [List.takeWhile_cons_of_neg (by simpa [tick] using hin)]
        exact Nat.zero_le _
      · have hrest := ih hok fun k hk => by
          rcases held_step hk with ⟨k', hk', hid⟩ | ⟨-, hselected⟩
          · exact hid ▸ hfree k' hk'
          · exact fun hid => hin (hid ▸ List.mem_map_of_mem hselected)
        rw [List.takeWhile_cons_of_pos (by simpa [tick] using hin), List.countP_cons, Nat.mul_add,
          Nat.add_comm]
        refine Nat.add_le_add ?_ hrest
        split
        · rename_i hcounts
          obtain ⟨hdue, hcommitted⟩ := Bool.and_eq_true_iff.mp hcounts
          obtain ⟨hlength, holder⟩ := due_full hdue hfree hin
          have hall : (tick cfg maxAttempts id w e es).rows.countP (fun i => decide (i < id)) =
              (tick cfg maxAttempts id w e es).rows.length := by
            rw [List.countP_eq_length]
            intro i hi
            obtain ⟨q, hq, rfl⟩ := List.mem_map.mp hi
            exact decide_eq_true (holder q hq)
          rw [Tick.attempted, if_pos hcommitted, hall]
          change batch * 1 ≤ List.length (List.map _ _)
          rw [List.length_map, hlength, Nat.mul_one]
        · exact Nat.zero_le _

theorem run_kept (h : w.Ok maxAttempts) (hkept : w.Kept) (es : List Event) :
    (Runs.run (World.step cfg maxAttempts) w es).Kept :=
  (Runs.run_invariant (I := fun w : World => w.Ok maxAttempts ∧ w.Kept)
    (fun _ e hw => ⟨step_ok hw.1 e, hw.2.step hw.1 e⟩) ⟨h, hkept⟩ es).2

theorem run_follows (w : World) (es : List Event) :
    w.Follows (Runs.run (World.step cfg maxAttempts) w es) :=
  Runs.run_relates (I := fun _ => True) World.Follows.refl World.Follows.trans
    (fun _ _ _ => trivial) (fun w e _ => step_follows w e) trivial es

/-- A tick that commits has attempted what it selected. -/
theorem countP_attempted (id : Nat) (ts : List Tick) :
    (ts.countP fun t => t.committed && t.rows.contains id) ≤
      (ts.map (·.attempted fun i => i == id)).sum := by
  induction ts with
  | nil => exact le_rfl
  | cons t ts ih =>
    rw [List.countP_cons, List.map_cons, List.sum_cons, Nat.add_comm]
    refine Nat.add_le_add ?_ ih
    split
    · rename_i hattempted
      obtain ⟨hcommitted, hin⟩ := Bool.and_eq_true_iff.mp hattempted
      rw [Tick.attempted, if_pos hcommitted, Nat.one_le_iff_ne_zero, ← Nat.pos_iff_ne_zero]
      exact List.countP_pos_iff.mpr ⟨id, by simpa using hin, beq_self_eq_true id⟩
    · exact Nat.zero_le _

/-- A row is pending in an outbox that any run has led to, and no tick is holding it.
In every run from there, of the ticks before the first that selects it, as many
commit and find it due as there are fifties among the attempts that the pending rows
with smaller ids have left, or fewer. Those that a producer has flushed and not
committed are among them; what is queued later is not. And a tick that commits has
attempted what it selected. -/
theorem backlog_passes_by (cfg : Settings) (maxAttempts : Nat) (before es : List Event) (r : Row) :
    let w := Runs.run (World.step cfg maxAttempts) {} before
    (∀ q ∈ w.rows, q.status = .pending → q.attempts < maxAttempts) →
    r ∈ w.rows → r.status = .pending → (∀ k ∈ w.held, k.id ≠ r.id) →
      (((ticks cfg maxAttempts r.id w es).takeWhile fun t => !t.rows.contains r.id).countP fun t =>
          t.due && t.committed) ≤ ahead maxAttempts r.id w.drawn / 50 ∧
      ∀ id, ((ticks cfg maxAttempts r.id w es).countP fun t => t.committed && t.rows.contains id) +
          (w.callsOf id).length ≤
        ((Runs.run (World.step cfg maxAttempts) w es).callsOf id).length := by
  intro w hcontent hr hpending hfree
  have hmax : 1 ≤ maxAttempts := by
    have hattempts := hcontent r hr hpending
    omega
  have hok : w.Ok maxAttempts := run_ok ok_empty before
  have hkept : w.Kept := run_kept ok_empty kept_empty before
  constructor
  · have hlater : (Runs.run (World.step cfg maxAttempts) w es).Ok maxAttempts := run_ok hok es
    have hpassed := passed_by_le cfg hok hfree es
    have hattempted := attempted_le cfg maxAttempts (fun i => decide (i < r.id)) r.id w es
    have hcalls := calls_ahead_le hmax hok hkept hlater (run_kept hok hkept es)
      (run_grows hok es) (run_follows w es) (hok.below r (List.mem_append_left _ hr))
    rw [Nat.le_div_iff_mul_le (by decide)]
    unfold batch at hpassed
    omega
  · intro id
    have hattempted := attempted_le cfg maxAttempts (fun i => i == id) r.id w es
    have hcount := countP_attempted id (ticks cfg maxAttempts r.id w es)
    rw [length_callsOf, length_callsOf]
    omega

/-- Every one of these producers queues an email. -/
def emails (producers : List Nat) : List Event :=
  producers.map fun producer => ⟨0, .enqueueEmail producer
    { recipient := "a@test.uz", subject := "Mavzu", lines := ["Matn"], link := "" }⟩

/-- A tick whose senders all raise. -/
def failingTick (rows : Nat) : List Event :=
  ⟨0, .select true true⟩ ::
    (List.replicate rows
      [⟨0, .start 0⟩, ⟨0, .finish 0 (some ⟨"SMTPConnectTimeoutError", "timed out"⟩)⟩]).flatten ++
    [⟨0, .commit 0⟩]

/-- Fifty-one emails, with one attempt each. -/
def fiftyOne : List Event := emails (List.replicate 51 1) ++ [⟨0, .publish 1⟩]

/-- The last of the fifty-one. -/
def last : Row :=
  queued 51 (.email { recipient := "a@test.uz", subject := "Mavzu", lines := ["Matn"], link := "" }) 0

theorem backlog_passes_by_fiftyOne :
    let w := Runs.run (World.step {} 1) {} fiftyOne
    let ts := ticks {} 1 51 w (failingTick 50 ++ failingTick 1)
    ((ts.takeWhile fun t => !t.rows.contains 51).countP fun t => t.due && t.committed) ≤
        ahead 1 51 w.drawn / 50 ∧
      ∀ id, (ts.countP fun t => t.committed && t.rows.contains id) + (w.callsOf id).length ≤
        ((Runs.run (World.step {} 1) w (failingTick 50 ++ failingTick 1)).callsOf id).length :=
  backlog_passes_by {} 1 fiftyOne (failingTick 50 ++ failingTick 1) last
    (by decide +kernel) (by decide +kernel) rfl (by decide +kernel)

/-- The bound is reached. -/
example :
    let w := Runs.run (World.step {} 1) {} fiftyOne
    let ts := ticks {} 1 51 w (failingTick 50 ++ failingTick 1)
    (ts.takeWhile fun t => !t.rows.contains 51).length = 1 ∧ ts.length = 2 ∧
      ahead 1 51 w.drawn / 50 = 1 := by decide +kernel

/-- Forty-nine emails of one producer, the fiftieth of a second one that is still
open, and the last of the first again, which commits. -/
def overlap : List Event :=
  emails (List.replicate 49 1 ++ [2, 1]) ++ [⟨0, .publish 1⟩]

/-- The committed rows alone do not bound the ticks: the second producer commits, and
the tick takes its row and the forty-nine. -/
theorem overlap_passes_by :
    ¬ ∀ (before es : List Event) (r : Row),
      let w := Runs.run (World.step {} 1) {} before
      (∀ q ∈ w.rows, q.status = .pending → q.attempts < 1) →
      r ∈ w.rows → r.status = .pending → (∀ k ∈ w.held, k.id ≠ r.id) →
        (((ticks {} 1 r.id w es).takeWhile fun t => !t.rows.contains r.id).countP fun t =>
          t.due && t.committed) ≤ ahead 1 r.id w.rows / 50 := by
  intro hbound
  have hlast := hbound overlap (⟨0, .publish 2⟩ :: failingTick 50) last
    (by decide +kernel) (by decide +kernel) rfl (by decide +kernel)
  revert hlast
  decide +kernel

end Outbox

end Royd
