/-
Royd.Lifecycle.Schedulers — `core/locks.py`, and what the schedulers that
`main.py` starts in every worker make of it.

A tick of a job claims the job's key; who wins runs the job, and the key is
left to expire. Any worker may tick at any time, so a tick carries only what
its claim depends on: the job, the token it drew, and whether Redis answered.
A won tick of the sweep is the step `sweep` of the system; what a won tick of
the outbox delivers is followed elsewhere, and touches no request.

`Deployment.Kept` says that the keys are live for what was run last. From it
the runs of a job keep their distance, and a request that is overdue is
noticed by the first tick that finds the key expired.
-/
import Royd.Lib.ExpiringStore
import Royd.Lifecycle.Sweeps

namespace Royd

open Api Runs

/-! ## Locks -/

/-- `timedelta(seconds=n)`. -/
def seconds (n : Int) : Int := n * 1000000

/-- The keys of Redis that are claimed, with the tokens they were claimed with. -/
abbrev LockStore := ExpiringStore.Store String String

/-- `f"{_PREFIX}{name}"`. -/
def lockKey (name : String) : String := "joblock:" ++ name

/-- `claim`: `SET NX EX`. `reachable` says whether Redis answered. -/
def claim (redis : LockStore) (now : Int) (name : String) (ttlSeconds : Int) (token : String)
    (reachable : Bool) : Bool × LockStore :=
  if reachable then
    if ExpiringStore.contains redis now (lockKey name) then (false, redis)
    else (true, ExpiringStore.setex redis now (lockKey name) (seconds (max 1 ttlSeconds)) token)
  else (false, redis)

/-! ## Jobs -/

/-- The intervals of the scheduler. -/
structure Intervals where
  slaCheckIntervalMinutes : Int := 15
  outboxIntervalSeconds : Int := 30
  deriving DecidableEq, Repr

/-- The jobs of the scheduler. -/
inductive Job where
  | slaSweep
  | outbox
  deriving DecidableEq, Repr

/-- The name a job is claimed under. -/
def Job.name : Job → String
  | .slaSweep => "sla_sweep"
  | .outbox => "outbox"

/-- For how long a job is claimed. -/
def Job.ttlSeconds (ivals : Intervals) : Job → Int
  | .slaSweep => ivals.slaCheckIntervalMinutes * 60 - 5
  | .outbox => ivals.outboxIntervalSeconds - 2

/-- For how long the key of a job is set. -/
def Job.ttl (ivals : Intervals) (job : Job) : Int := seconds (max 1 (job.ttlSeconds ivals))

/-- A run of a job. -/
structure Pass where
  job : Job
  start : Int
  deriving DecidableEq, Repr

/-! ## The deployment -/

/-- The clock, the keys, the database, and which jobs were run so far. -/
structure Deployment where
  clock : Int
  redis : LockStore := []
  db : Db
  passes : List Pass := []

/-- A step of the system that is not the scheduler's, or a tick. -/
inductive Deployment.Act where
  | handle (s : Api.Step)
  | tick (job : Job) (token : String) (reachable : Bool)
  deriving DecidableEq, Repr

/-- An act, and the time that has passed since the one before. -/
structure Deployment.Event where
  elapsed : Nat
  act : Deployment.Act
  deriving DecidableEq, Repr

variable (cfg : Settings) (ivals : Intervals)

/-- The clock moves on. -/
def Deployment.elapse (w : Deployment) (elapsed : Nat) : Deployment :=
  { w with clock := w.clock + elapsed }

/-- What the worker that has claimed a job makes of the database. -/
def Deployment.perform (w : Deployment) : Job → Db
  | .slaSweep => Api.step cfg w.db ⟨w.clock, .sweep true true⟩
  | .outbox => w.db

/-- What an act does. The passes of the sweep are the scheduler's alone. -/
def Deployment.act (w : Deployment) : Deployment.Act → Deployment
  | .handle (.sweep _ _) => w
  | .handle s => { w with db := Api.step cfg w.db ⟨w.clock, s⟩ }
  | .tick job token reachable =>
    match claim w.redis w.clock job.name (job.ttlSeconds ivals) token reachable with
    | (true, redis) =>
      { w with redis, db := w.perform cfg job, passes := w.passes ++ [⟨job, w.clock⟩] }
    | (false, redis) => { w with redis }

/-- The clock moves on, and the act is done. -/
def Deployment.step (w : Deployment) (e : Deployment.Event) : Deployment :=
  (w.elapse e.elapsed).act cfg ivals e.act

variable {cfg ivals}

/-- A tick whose claim is refused, or lost with Redis, changes nothing. -/
theorem Deployment.act_refused {w : Deployment} {job : Job} {reachable : Bool} (token : String)
    (h : reachable = false ∨ ExpiringStore.contains w.redis w.clock (lockKey job.name) = true) :
    w.act cfg ivals (.tick job token reachable) = w := by
  rcases h with rfl | hlive
  · rfl
  · cases reachable with
    | false => rfl
    | true => simp [Deployment.act, claim, hlive]

/-- A tick that finds the key expired claims it and runs its job. -/
theorem Deployment.act_claimed {w : Deployment} {job : Job} (token : String)
    (h : ExpiringStore.contains w.redis w.clock (lockKey job.name) = false) :
    w.act cfg ivals (.tick job token true) =
      { clock := w.clock
        redis := ExpiringStore.setex w.redis w.clock (lockKey job.name) (job.ttl ivals) token
        db := w.perform cfg job
        passes := w.passes ++ [⟨job, w.clock⟩] } := by
  simp [Deployment.act, claim, h, Job.ttl]

variable (cfg ivals) in
/-- Anything else leaves the scheduler's things alone. -/
theorem Deployment.act_handle (w : Deployment) (s : Api.Step) :
    (w.act cfg ivals (.handle s)).clock = w.clock ∧ (w.act cfg ivals (.handle s)).redis = w.redis ∧
      (w.act cfg ivals (.handle s)).passes = w.passes := by
  unfold Deployment.act
  split <;> simp_all

theorem lockKey_inj {job job' : Job} (h : lockKey job.name = lockKey job'.name) : job = job' := by
  cases job <;> cases job' <;> first | rfl | exact absurd h (by decide)

/-! ## The keys and the passes -/

/-- What was run is behind, a job's key is live as long as its last run
says, and runs of one job keep their distance. -/
structure Deployment.Kept (ivals : Intervals) (w : Deployment) : Prop where
  behind : ∀ p ∈ w.passes, p.start ≤ w.clock
  live : ∀ job now, w.clock ≤ now →
    (ExpiringStore.contains w.redis now (lockKey job.name) = true ↔
      ∃ p ∈ w.passes, p.job = job ∧ now ≤ p.start + job.ttl ivals)
  apart : w.passes.Pairwise fun p q => p.job = q.job → p.start + p.job.ttl ivals < q.start

namespace Deployment

variable {w : Deployment}

theorem Kept.elapse (h : w.Kept ivals) (elapsed : Nat) : (w.elapse elapsed).Kept ivals where
  behind p hp := by
    have hle := h.behind p hp
    show p.start ≤ w.clock + elapsed
    omega
  live job now hnow := h.live job now (by
    have hle : w.clock + elapsed ≤ now := hnow
    omega)
  apart := h.apart

/-- Setting a key makes it live for its time, and no other. -/
theorem contains_setex (redis : LockStore) (job job' : Job) (token : String) (now later : Int)
    (hexpired : ExpiringStore.contains redis now (lockKey job.name) = false) (hlater : now ≤ later) :
    ExpiringStore.contains (ExpiringStore.setex redis now (lockKey job.name) (job.ttl ivals) token)
        later (lockKey job'.name) = true ↔
      ExpiringStore.contains redis later (lockKey job'.name) = true ∨
        job = job' ∧ later ≤ now + job.ttl ivals := by
  by_cases hjob : job = job'
  · subst hjob
    have hdead : ExpiringStore.contains redis later (lockKey job.name) = false :=
      ExpiringStore.contains_eq_false.mpr
        ((ExpiringStore.until_of_contains_eq_false hexpired).get_eq_none (by omega))
    rw [hdead]
    by_cases hlive : later ≤ now + job.ttl ivals
    · have hget := ExpiringStore.get_setex_self (s := redis) (k := lockKey job.name) (v := token) hlive
      simp [ExpiringStore.contains, hget, hlive]
    · have huntil : ExpiringStore.Until
          (ExpiringStore.setex redis now (lockKey job.name) (job.ttl ivals) token)
          (lockKey job.name) (now + job.ttl ivals) := ExpiringStore.Until.setex_self le_rfl
      have hnone := huntil.get_eq_none (show now + job.ttl ivals < later by omega)
      simp [ExpiringStore.contains, hnone, hlive]
  · have hne : lockKey job'.name ≠ lockKey job.name := fun heq => hjob (lockKey_inj heq).symm
    simp [ExpiringStore.contains, ExpiringStore.get_setex_of_ne later hne, hjob]

/-- A run is made when the last one of its job has expired. -/
theorem Kept.claimed (h : w.Kept ivals) {job : Job} (token : String)
    (hexpired : ExpiringStore.contains w.redis w.clock (lockKey job.name) = false) :
    (w.act cfg ivals (.tick job token true)).Kept ivals := by
  have hpast : ∀ p ∈ w.passes, p.job = job → p.start + p.job.ttl ivals < w.clock := by
    rintro p hp rfl
    by_contra hlive
    have := (h.live p.job w.clock le_rfl).mpr ⟨p, hp, rfl, by omega⟩
    rw [hexpired] at this
    cases this
  rw [act_claimed token hexpired]
  constructor
  · intro p hp
    rcases List.mem_append.mp hp with hp | hp
    · exact h.behind p hp
    · rw [List.mem_singleton.mp hp]
  · intro job' now hnow
    show ExpiringStore.contains (ExpiringStore.setex _ _ _ _ _) _ _ = true ↔ _
    rw [contains_setex w.redis job job' token w.clock now hexpired hnow, h.live job' now hnow]
    simp only [List.mem_append, List.mem_singleton, or_and_right, exists_or, exists_eq_left]
    constructor
    · rintro (hold | ⟨rfl, hlive⟩)
      · exact .inl hold
      · exact .inr ⟨rfl, hlive⟩
    · rintro (hold | ⟨rfl, hlive⟩)
      · exact .inl hold
      · exact .inr ⟨rfl, hlive⟩
  · refine List.pairwise_append.mpr ⟨h.apart, List.pairwise_singleton .., fun p hp q hq hjob => ?_⟩
    rw [List.mem_singleton.mp hq] at hjob ⊢
    exact hpast p hp hjob

theorem Kept.act (h : w.Kept ivals) (a : Act) : (w.act cfg ivals a).Kept ivals := by
  cases a with
  | handle s =>
    obtain ⟨hclock, hredis, hpasses⟩ := act_handle cfg ivals w s
    constructor
    · rw [hclock, hpasses]
      exact h.behind
    · rw [hclock, hredis, hpasses]
      exact h.live
    · rw [hpasses]
      exact h.apart
  | tick job token reachable =>
    cases hlive : ExpiringStore.contains w.redis w.clock (lockKey job.name) with
    | true =>
      rw [act_refused token (.inr hlive)]
      exact h
    | false =>
      cases reachable with
      | false =>
        rw [act_refused token (.inl rfl)]
        exact h
      | true => exact h.claimed token hlive

theorem Kept.step (h : w.Kept ivals) (e : Event) : (w.step cfg ivals e).Kept ivals :=
  (h.elapse e.elapsed).act e.act

/-- A deployment whose jobs have not run yet. -/
def fresh (db : Db) (clock : Int) : Deployment := { clock, db }

theorem kept_fresh (db : Db) (clock : Int) : (fresh db clock).Kept ivals where
  behind := nofun
  live job now _ := by simp [fresh, ExpiringStore.contains, ExpiringStore.get]
  apart := .nil

theorem kept_run (cfg : Settings) (ivals : Intervals) (db : Db) (clock : Int) (es : List Event) :
    (Runs.run (step cfg ivals) (fresh db clock) es).Kept ivals :=
  run_invariant (fun _ e h => h.step e) (kept_fresh db clock) es

variable (cfg) in
/-- Right after a tick that reached Redis, its job was run within the time of
its key. -/
theorem Kept.ran (h : w.Kept ivals) (job : Job) (token : String) :
    ∃ p ∈ (w.act cfg ivals (.tick job token true)).passes, p.job = job ∧
      (w.act cfg ivals (.tick job token true)).clock ≤ p.start + job.ttl ivals := by
  cases hlive : ExpiringStore.contains w.redis w.clock (lockKey job.name) with
  | true =>
    rw [act_refused token (.inr hlive)]
    exact (h.live job w.clock le_rfl).mp hlive
  | false =>
    rw [act_claimed token hlive]
    refine ⟨⟨job, w.clock⟩, by simp, rfl, ?_⟩
    have hpos : 0 < job.ttl ivals := by
      unfold Job.ttl seconds
      omega
    show w.clock ≤ w.clock + job.ttl ivals
    omega

end Deployment

/-- Whatever the workers do, and whether a tick finds Redis or not, the runs of
a job are further apart than its key lives, so no tick is served twice; and no
tick that reached Redis was in vain: its job was run by it, or by another worker
within the time the key lives. Redis is taken to lose no key and no reply. -/
theorem jobs_take_turns (cfg : Settings) (ivals : Intervals) (db : Db) (clock : Int)
    (es : List Deployment.Event) :
    ((run (Deployment.step cfg ivals) (.fresh db clock) es).passes.Pairwise fun p q =>
        p.job = q.job → p.start + p.job.ttl ivals < q.start) ∧
      ∀ elapsed job token,
        let w := run (Deployment.step cfg ivals) (.fresh db clock)
          (es ++ [⟨elapsed, .tick job token true⟩])
        ∃ p ∈ w.passes, p.job = job ∧ p.start ≤ w.clock ∧ w.clock ≤ p.start + job.ttl ivals := by
  have hkept := Deployment.kept_run cfg ivals db clock es
  refine ⟨hkept.apart, fun elapsed job token => ?_⟩
  rw [run_concat]
  obtain ⟨p, hp, hjob, hle⟩ := (hkept.elapse elapsed).ran cfg job token
  exact ⟨p, hp, hjob, ((hkept.elapse elapsed).act (.tick job token true)).behind p hp, hle⟩

/-! ## A request that is overdue -/

/-- The history of a request holds a notice of its breach exactly if it is
marked. -/
def Life.Told (l : Life) : Prop :=
  l.history.countP (·.isNotice true) = l.req.slaBreachedAt.isSome.toNat

theorem Unnoticed.countP {es : List RequestHistory} (h : Unnoticed es) (b : Bool) :
    es.countP (·.isNotice b) = 0 :=
  List.countP_eq_zero.mpr fun e he => by simp [h b e he]

/-- A change of status neither marks a request nor takes its mark away. -/
theorem Overdue.isSome_breached {t : Int} {r r' : Request} {target : RequestStatus}
    (h : Overdue t r) (hmarks : MarksApplied cfg r target r') :
    r'.slaBreachedAt.isSome = r.slaBreachedAt.isSome := by
  cases hb : r.slaBreachedAt with
  | some b => rw [(h.keeps hmarks hb).1]
  | none =>
    cases hmarks with
    | kept warned breached deadline => rw [breached, hb]
    | cleared returned leaves paused left breached => rw [breached]

/-- Every step in the life of a request keeps the notice and the mark
together. -/
theorem story_told {e : Api.Event} {l l' : Option Life} {ws : List Webhook}
    (hstory : Story cfg e l l' ws) (h : ∀ k, l = some k → k.Noted e.now ∧ k.Told) :
    ∀ k, l' = some k → k.Noted e.now ∧ k.Told := by
  intro k hk
  have hnoted := story_noted hstory (fun k hk => (h k hk).1) k hk
  refine ⟨hnoted, ?_⟩
  cases hstory with
  | filed opened catalogue answers =>
    cases hk
    obtain ⟨-, hunbreached⟩ := opened.unmarked
    unfold Life.Told
    rw [hunbreached, List.countP_eq_zero.mpr fun e he => by
      simp [hnoted.2.unbreached hunbreached e he]]
    rfl
  | done call deed change =>
    cases hk
    obtain ⟨⟨hsound, hold⟩, htold⟩ := h _ rfl
    obtain ⟨target, hmarks, -⟩ := deed.marks hsound
    have hquiet : Unnoticed _ := fun b e he => not_isNotice_of_signed (deed.signed e he) b
    have hsame := hold.overdue.isSome_breached hmarks
    unfold Life.Told at htold ⊢
    dsimp only [Life.after]
    rw [List.countP_append, hquiet.countP, Nat.add_zero, htold, hsame]
  | @noticed db useLock won l sweep needs =>
    cases hk
    obtain ⟨-, htold⟩ := h _ rfl
    obtain ⟨hnone, -⟩ := needsNotice_unmarked needs
    obtain ⟨entry, hentry, -, hnotice⟩ := sweepOne_notice cfg db l.req e.now
    unfold Life.Told at htold ⊢
    dsimp only [Life.after]
    rw [hnone] at htold
    rw [List.countP_append, htold, hentry, List.countP_singleton, hnotice]
    by_cases hlate : l.req.slaDeadline < e.now
    · simp [sweepOne, hlate]
    · simp [sweepOne, hlate, hnone]

namespace Deployment

/-- The tables are well formed, and at this instant every request has the
notice its mark says it has. -/
structure Sound (w : Deployment) : Prop where
  wf : w.db.Wf
  told : ∀ id k, w.db.life? id = some k → k.Noted w.clock ∧ k.Told

variable {w : Deployment}

theorem Sound.elapse (h : w.Sound) (elapsed : Nat) : (w.elapse elapsed).Sound where
  wf := h.wf
  told id k hk := by
    obtain ⟨⟨hsound, hnoted⟩, htold⟩ := h.told id k hk
    have hle : w.clock ≤ w.clock + elapsed := by omega
    exact ⟨⟨hsound, hnoted.advance hle⟩, htold⟩

variable (cfg) in
/-- A step of the system keeps them so. -/
theorem Sound.stepped (h : w.Sound) (s : Api.Step) :
    Sound { w with db := Api.step cfg w.db ⟨w.clock, s⟩ } := by
  refine ⟨(step_life cfg h.wf _).1, fun id => ?_⟩
  exact acts_keep (P := fun l _ => ∀ k, l = some k → k.Noted w.clock ∧ k.Told)
    (fun hstory hl => story_told hstory hl) h.wf (step_acts cfg h.wf ⟨w.clock, s⟩) (h.told id)

theorem Sound.act (h : w.Sound) (a : Act) : (w.act cfg ivals a).Sound := by
  cases a with
  | handle s =>
    cases s with
    | sweep useLock won => exact h
    | create => exact h.stepped cfg _
    | clientCreate => exact h.stepped cfg _
    | call => exact h.stepped cfg _
    | catalogue => exact h.stepped cfg _
    | people => exact h.stepped cfg _
  | tick job token reachable =>
    cases hlive : ExpiringStore.contains w.redis w.clock (lockKey job.name) with
    | true =>
      rw [act_refused token (.inr hlive)]
      exact h
    | false =>
      cases reachable with
      | false =>
        rw [act_refused token (.inl rfl)]
        exact h
      | true =>
        rw [act_claimed token hlive]
        cases job with
        | slaSweep =>
          have hswept := h.stepped cfg (.sweep true true)
          exact ⟨hswept.wf, hswept.told⟩
        | outbox => exact ⟨h.wf, h.told⟩

theorem Sound.step (h : w.Sound) (e : Event) : (w.step cfg ivals e).Sound :=
  (h.elapse e.elapsed).act e.act

theorem sound_run (cfg : Settings) (ivals : Intervals) {db : Db} (h : Start db) (clock : Int)
    (es : List Event) : (Runs.run (step cfg ivals) (fresh db clock) es).Sound := by
  refine run_invariant (fun _ e h => h.step e) ⟨h.wf, fun id k hk => ?_⟩ es
  rw [show (fresh db clock).db.life? id = none from h.life? id] at hk
  cases hk

/-- The request is marked as overdue since `b`. -/
def Marked (id : Nat) (b : Int) (w : Deployment) : Prop :=
  ∃ r ∈ w.db.requests, r.id = id ∧ r.slaBreachedAt = some b

variable (cfg) in
/-- A mark stays, with its one notice. -/
theorem Marked.stepped {id : Nat} {b : Int} (h : w.Marked id b) (hsound : w.Sound) (s : Api.Step) :
    Marked id b { w with db := Api.step cfg w.db ⟨w.clock, s⟩ } := by
  obtain ⟨r, hr, rfl, hb⟩ := h
  have hlife := hsound.wf.life?_mem hr
  have hstart : (w.db.lifeOf r).Notified ⟨w.clock, s⟩ (w.db.lifeOf r) :=
    ⟨(hsound.told r.id _ hlife).1, fun _ hb => hb, fun _ => rfl, fun hhalted _ => hhalted⟩
  obtain ⟨k, hk, hnotified⟩ : ∃ k, (Api.step cfg w.db ⟨w.clock, s⟩).life? r.id = some k ∧
      (w.db.lifeOf r).Notified ⟨w.clock, s⟩ k := acts_keep
    (P := fun l _ => ∃ k, l = some k ∧ (w.db.lifeOf r).Notified ⟨w.clock, s⟩ k)
    (fun hstory hl => story_notified hstory hl) hsound.wf
    (step_acts cfg hsound.wf ⟨w.clock, s⟩) ⟨_, hlife, hstart⟩
  obtain ⟨r', hr', hid, rfl⟩ := life?_eq_some hk
  exact ⟨r', hr', hid, hnotified.breached b hb⟩

theorem Marked.act {id : Nat} {b : Int} (h : w.Marked id b) (hsound : w.Sound) (a : Act) :
    (w.act cfg ivals a).Marked id b := by
  cases a with
  | handle s =>
    cases s with
    | sweep useLock won => exact h
    | create => exact h.stepped cfg hsound _
    | clientCreate => exact h.stepped cfg hsound _
    | call => exact h.stepped cfg hsound _
    | catalogue => exact h.stepped cfg hsound _
    | people => exact h.stepped cfg hsound _
  | tick job token reachable =>
    cases hlive : ExpiringStore.contains w.redis w.clock (lockKey job.name) with
    | true =>
      rw [act_refused token (.inr hlive)]
      exact h
    | false =>
      cases reachable with
      | false =>
        rw [act_refused token (.inl rfl)]
        exact h
      | true =>
        rw [act_claimed token hlive]
        cases job with
        | slaSweep => exact h.stepped cfg hsound (.sweep true true)
        | outbox => exact h

/-- A request a pass of the sweep made now would find overdue, among the
first of its batch. -/
def Waits (cfg : Settings) (id : Nat) (w : Deployment) : Prop :=
  ∃ r ∈ w.db.requests, r.id = id ∧ r.status ∈ RequestStatus.slaRunning ∧ r.slaDeadline < w.clock ∧
    ((due cfg w.clock w.db).filter fun x => x.slaDeadline ≤ r.slaDeadline).length ≤ sweepBatch

/-- Whenever a worker ticks for the sweep, the request waits. -/
def SweepFinds (cfg : Settings) (id : Nat) (w : Deployment) (e : Event) : Prop :=
  match e.act with
  | .tick .slaSweep _ _ => (w.elapse e.elapsed).Waits cfg id
  | _ => True

/-- What is left out of a batch is not among the first of those due. -/
theorem mem_batch {now : Int} {db : Db} {batch : List Request} {r : Request}
    (h : Selects cfg now db batch) (hids : (db.requests.map (·.id)).Nodup) (hr : r ∈ due cfg now db)
    (hfew : ((due cfg now db).filter fun x => x.slaDeadline ≤ r.slaDeadline).length ≤ sweepBatch) :
    r ∈ batch := by
  by_contra hleft
  have hhandled := h.handled hids
  have hnodup : batch.Nodup := hhandled.distinct.of_map
  -- The batch and the request are all among those with no later deadline.
  have hsub : ∀ x ∈ r :: batch, x ∈ (due cfg now db).filter fun x => x.slaDeadline ≤ r.slaDeadline := by
    intro x hx
    rcases List.mem_cons.mp hx with rfl | hx
    · exact List.mem_filter.mpr ⟨hr, by simp⟩
    · exact List.mem_filter.mpr ⟨hhandled.among x hx, decide_eq_true (hhandled.first x hx r hr hleft)⟩
  have hlength := ((List.nodup_cons.mpr ⟨hleft, hnodup⟩).subperm hsub).length_le
  have hall : ∀ x ∈ r :: batch, x ∈ due cfg now db := fun x hx => (List.mem_filter.mp (hsub x hx)).1
  have hdue := ((List.nodup_cons.mpr ⟨hleft, hnodup⟩).subperm hall).length_le
  have hsize := hhandled.size
  rw [List.length_cons] at hlength hdue
  omega

/-- A pass marks a request that waits. -/
theorem Waits.swept {id : Nat} (h : w.Waits cfg id) (hsound : w.Sound) :
    ∃ b, Marked id b { w with db := w.perform cfg .slaSweep } := by
  obtain ⟨r, hr, rfl, hrunning, hlate, hfew⟩ := h
  have hswept := hsound.stepped cfg (.sweep true true)
  cases hb : r.slaBreachedAt with
  | some b => exact ⟨b, Marked.stepped cfg ⟨r, hr, rfl, hb⟩ hsound (.sweep true true)⟩
  | none =>
    have hdue : r ∈ due cfg w.clock w.db :=
      List.mem_filter.mpr ⟨hr, by simp [needsNotice, hb, hlate, hrunning]⟩
    have hselects := sweepCandidates_selects cfg w.clock w.db
    have hmem := mem_batch hselects hsound.wf.requestIds hdue hfew
    have hhandled := hselects.handled hsound.wf.requestIds
    have hcount := hhandled.sent.noticesOf hhandled.distinct r.id true
    rw [if_pos ⟨r, hmem, rfl, by simpa [late] using hlate⟩] at hcount
    obtain ⟨r', hr', hid⟩ : ∃ r' ∈ (w.perform cfg .slaSweep).requests, r'.id = r.id := by
      have hids : (w.perform cfg .slaSweep).requests.map (·.id) = w.db.requests.map (·.id) :=
        ids_handleBatch _
      exact List.mem_map.mp (hids ▸ List.mem_map_of_mem hr)
    have htold : noticesOf (w.perform cfg .slaSweep) r'.id true = r'.slaBreachedAt.isSome.toNat :=
      (hswept.told r'.id _ (hswept.wf.life?_mem hr')).2
    rw [hid] at htold
    cases hb' : r'.slaBreachedAt with
    | some b => exact ⟨b, r', hr', hid, hb'⟩
    | none =>
      rw [hb'] at htold
      rw [show noticesOf (w.perform cfg .slaSweep) r.id true = _ + 1 from hcount] at htold
      cases htold

/-- A request that waits from when the clock stood at `since` on: it is
marked by now, or the sweep has not run since. -/
structure Pending (cfg : Settings) (ivals : Intervals) (id : Nat) (since : Int)
    (w : Deployment) : Prop where
  kept : w.Kept ivals
  sound : w.Sound
  marked : (∃ b, w.Marked id b) ∨ ∀ p ∈ w.passes, p.job = .slaSweep → p.start ≤ since

theorem Pending.step {id : Nat} {since : Int} (h : w.Pending cfg ivals id since) (e : Event)
    (hfinds : w.SweepFinds cfg id e) : (w.step cfg ivals e).Pending cfg ivals id since := by
  refine ⟨h.kept.step e, h.sound.step e, ?_⟩
  have hsound := h.sound.elapse e.elapsed
  rcases h.marked with ⟨b, hmarked⟩ | hnone
  · exact .inl ⟨b, Marked.act (w := w.elapse e.elapsed) hmarked hsound e.act⟩
  obtain ⟨elapsed, a⟩ := e
  cases a with
  | handle s =>
    refine .inr ?_
    show ∀ p ∈ ((w.elapse elapsed).act cfg ivals (.handle s)).passes, _
    rw [(act_handle cfg ivals (w.elapse elapsed) s).2.2]
    exact hnone
  | tick job token reachable =>
    show (∃ b, ((w.elapse elapsed).act cfg ivals _).Marked id b) ∨
      ∀ p ∈ ((w.elapse elapsed).act cfg ivals (.tick job token reachable)).passes, _
    cases hlive : ExpiringStore.contains (w.elapse elapsed).redis (w.elapse elapsed).clock
        (lockKey job.name) with
    | true =>
      rw [act_refused token (.inr hlive)]
      exact .inr hnone
    | false =>
      cases reachable with
      | false =>
        rw [act_refused token (.inl rfl)]
        exact .inr hnone
      | true =>
        rw [act_claimed token hlive]
        cases job with
        | slaSweep => exact .inl (Waits.swept hfinds hsound)
        | outbox =>
          refine .inr fun p hp hjob => ?_
          rcases List.mem_append.mp hp with hp | hp
          · exact hnone p hp hjob
          · rw [List.mem_singleton.mp hp] at hjob
            cases hjob

/-- The next tick that reaches Redis after the key has expired finds the
request marked, or marks it. -/
theorem Pending.tick {id : Nat} {since : Int} (h : w.Pending cfg ivals id since) (elapsed : Nat)
    (token : String) (hfinds : w.SweepFinds cfg id ⟨elapsed, .tick .slaSweep token true⟩)
    (hexpired : since + Job.slaSweep.ttl ivals < w.clock + elapsed) :
    ∃ b, (w.step cfg ivals ⟨elapsed, .tick .slaSweep token true⟩).Marked id b := by
  have hnext := h.step ⟨elapsed, .tick .slaSweep token true⟩ hfinds
  rcases hnext.marked with hmarked | hnone
  · exact hmarked
  · -- The job was run in time, so after `since`.
    obtain ⟨p, hp, hjob, hlive⟩ := (h.kept.elapse elapsed).ran cfg .slaSweep token
    have hclock : (w.step cfg ivals ⟨elapsed, .tick .slaSweep token true⟩).clock =
        w.clock + elapsed := by
      show ((w.elapse elapsed).act cfg ivals _).clock = _
      unfold act
      dsimp only
      split <;> rfl
    have hle := hnone p hp hjob
    have hlive' : w.clock + elapsed ≤ p.start + Job.slaSweep.ttl ivals := hclock ▸ hlive
    omega

/-- A mark stays through every run. -/
theorem Marked.run {id : Nat} {b : Int} (h : w.Marked id b) (hsound : w.Sound) (es : List Event) :
    (Runs.run (step cfg ivals) w es).Marked id b ∧ (Runs.run (step cfg ivals) w es).Sound :=
  run_invariant (I := fun w : Deployment => w.Marked id b ∧ w.Sound)
    (fun w e ⟨hmarked, hsound⟩ =>
      ⟨Marked.act (w := w.elapse e.elapsed) hmarked (hsound.elapse e.elapsed) e.act,
        hsound.step e⟩) ⟨h, hsound⟩ es

/-- A marked request has had its one notice, and none before its time. -/
theorem Marked.notified {id : Nat} {b : Int} (h : w.Marked id b) (hsound : w.Sound) :
    noticesOf w.db id true = 1 ∧ b ≤ w.clock := by
  obtain ⟨r, hr, rfl, hb⟩ := h
  obtain ⟨⟨-, hnoted⟩, htold⟩ := hsound.told r.id _ (hsound.wf.life?_mem hr)
  refine ⟨Eq.trans htold ?_, hnoted.overdue.past b hb⟩
  show r.slaBreachedAt.isSome.toNat = 1
  rw [hb]
  rfl

end Deployment

/-- An overdue request is escalated by the first tick that can: if from some
moment of a run on every tick of the sweep would find it running, past its
deadline and among the first 200 of what is due, then a tick that reaches
Redis later than the time of the key after that moment leaves it marked, and
from then on it stays so with exactly one notice of its breach. -/
theorem overdue_requests_are_escalated (cfg : Settings) (ivals : Intervals) {db : Db}
    (h : Start db) (clock : Int) (before between : List Deployment.Event) (id elapsed : Nat)
    (token : String) :
    let w := run (Deployment.step cfg ivals) (.fresh db clock) before
    let last : Deployment.Event := ⟨elapsed, .tick .slaSweep token true⟩
    Along (Deployment.step cfg ivals) (Deployment.SweepFinds cfg id) w (between ++ [last]) →
      w.clock + Job.slaSweep.ttl ivals <
        (run (Deployment.step cfg ivals) w between).clock + elapsed →
      ∃ b ≤ (run (Deployment.step cfg ivals) w (between ++ [last])).clock, ∀ later,
        let v := run (Deployment.step cfg ivals) w (between ++ last :: later)
        (∃ r ∈ v.db.requests, r.id = id ∧ r.slaBreachedAt = some b) ∧
          noticesOf v.db id true = 1 := by
  intro w last hfinds hexpired
  obtain ⟨hbetween, hlast, -⟩ := along_append.mp hfinds
  have hstart : w.Pending cfg ivals id w.clock :=
    ⟨Deployment.kept_run cfg ivals db clock before, Deployment.sound_run cfg ivals h clock before,
      .inr fun p hp _ => (Deployment.kept_run cfg ivals db clock before).behind p hp⟩
  have hpending := run_invariant_along (fun _ e hw hC => hw.step e hC) hstart hbetween
  obtain ⟨b, hmarked⟩ := hpending.tick elapsed token hlast hexpired
  have hsound : (Deployment.step cfg ivals _ last).Sound := hpending.sound.step last
  rw [run_concat]
  refine ⟨b, (hmarked.notified hsound).2, fun later => ?_⟩
  obtain ⟨hstays, hsound'⟩ : (run (Deployment.step cfg ivals) _ later).Marked id b ∧
      (run (Deployment.step cfg ivals) _ later).Sound := hmarked.run hsound later
  rw [run_append, run_cons]
  exact ⟨hstays, (hstays.notified hsound').1⟩

/-! ### A filing nobody answers -/

instance (cfg : Settings) (id : Nat) (w : Deployment) : Decidable (w.Waits cfg id) :=
  inferInstanceAs (Decidable (∃ r ∈ w.db.requests, r.id = id ∧ r.status ∈ RequestStatus.slaRunning ∧
    r.slaDeadline < w.clock ∧
    ((due cfg w.clock w.db).filter fun x => x.slaDeadline ≤ r.slaDeadline).length ≤ sweepBatch))

/-- A request is filed, and two days later a message is delivered. -/
def forgotten : List Deployment.Event :=
  [⟨0, .handle (filing 0).step⟩, ⟨180000000000, .tick .outbox "a" true⟩]

/-- The sweep first ticks while Redis is away. -/
theorem overdue_requests_are_escalated_office :
    ∃ b ≤ (180900000000 : Int), ∀ later,
      let v := run (Deployment.step {} {}) (run (Deployment.step {} {}) (.fresh office 0) forgotten)
        ([⟨0, .tick .slaSweep "b" false⟩] ++ ⟨900000000, .tick .slaSweep "c" true⟩ :: later)
      (∃ r ∈ v.db.requests, r.id = 10 ∧ r.slaBreachedAt = some b) ∧ noticesOf v.db 10 true = 1 :=
  overdue_requests_are_escalated {} {} office_start 0 forgotten
    [⟨0, .tick .slaSweep "b" false⟩] 10 900000000 "c"
    ⟨show Deployment.Waits {} 10 _ by decide, show Deployment.Waits {} 10 _ by decide, trivial⟩
    (by decide)

end Royd
