/-
Royd.Lifecycle.SlaBudget — the SLA clock conserves its budget.

A request starts with the working time its service promises. `OnBudget`
says where that budget stands: while the clock runs it is a running
stopwatch (`IntervalCount.Budget`), while the request is returned it is one
that was stopped at the pause, and once the request is closed the deadline
lies on the right side of the closing. Time passes by `OnBudget.advance`,
operations happen by `change_onBudget`; a run alternates the two.
-/
import Royd.Lifecycle.States
import Royd.Services.Report
import Royd.Lifecycle.History
import Royd.Sla.CalendarTheorems

namespace Royd

open Api IntervalCount Sla

/-! ## Working time used -/

/-- The working time from `since` to `now` if the clock of the request runs
in `db`, and nothing otherwise. -/
def clockTime (cfg : Settings) (requestId : Nat) (db : Db) (since now : Int) : Int :=
  if (db.getRequest requestId).any (RequestStatus.slaRunning.contains ·.status) then
    workingTimeBetween cfg.cal since now
  else 0

/-- The working time the office has used up by `now`, when the request is
as `db` has it from `since` on and the events `es` follow. -/
def used (cfg : Settings) (requestId : Nat) : Db → Int → List Event → Int → Int
  | db, since, [], now => clockTime cfg requestId db since now
  | db, since, e :: es, now =>
    clockTime cfg requestId db since e.now + used cfg requestId (step cfg db e) e.now es now

variable {cfg : Settings} {cats : List RequestCategory}

/-! ## Where the budget stands -/

/-- Of a budget of `h`, `u` was used up to instant `t`. -/
structure OnBudget (cfg : Settings) (h u t : Int) (req : Request) : Prop where
  running : req.status = .inProgress → Budget (works cfg.cal) h u t req.slaDeadline
  paused : req.status = .returned →
    ∃ p, req.slaPausedAt = some p ∧ p ≤ t ∧ Budget (works cfg.cal) h u p req.slaDeadline
  closed : req.status = .completed →
    ∃ c, req.closedAt = some c ∧ (u < h → c ≤ req.slaDeadline) ∧ (h < u → req.slaDeadline < c)

/-- A deadline is a new budget, counted from the filing. -/
theorem deadline_reach {now deadline : Int} {hrs : Nat} (hpos : 1 ≤ hrs)
    (h : slaDeadlineFrom cfg.cal now hrs = .ok deadline) :
    0 < hours hrs ∧ Reach (works cfg.cal) now (hours hrs) deadline := by
  have hlt : 0 < hours hrs := by
    unfold hours
    omega
  exact ⟨hlt, addWorkingTime_reach cfg.cal hlt h⟩

theorem filed_onBudget {db : Db} {now : Int} {category : RequestCategory} {req : Request}
    (hfiled : Filed cfg db now category req) (hpos : 1 ≤ category.slaHours) :
    OnBudget cfg (hours category.slaHours) 0 now req := by
  obtain ⟨hlt, hreach⟩ := deadline_reach hpos hfiled.deadline
  by_cases hauto : category.routing = .autoReply
  · obtain ⟨hstatus, hclosed, -, -⟩ := hfiled.answered hauto
    refine ⟨fun heq => ?_, fun heq => ?_, fun _ => ⟨now, hclosed, fun _ => ?_, fun hneg => ?_⟩⟩
    · rw [hstatus] at heq
      cases heq
    · rw [hstatus] at heq
      cases heq
    · exact (hreach.lt_of_pos hlt).le
    · omega
  · obtain ⟨hstatus, -⟩ := hfiled.routed hauto
    refine ⟨fun _ => Budget.start hlt hreach, fun heq => ?_, fun heq => ?_⟩
    · rw [hstatus] at heq
      cases heq
    · rw [hstatus] at heq
      cases heq

/-- Time passes from `t` to `now`: it is used up only while the clock runs. -/
theorem OnBudget.advance {h u t now : Int} {req : Request} (hb : OnBudget cfg h u t req)
    (ht : t ≤ now) :
    OnBudget cfg h
      (u + if RequestStatus.slaRunning.contains req.status then workingTimeBetween cfg.cal t now
        else 0) now req := by
  refine ⟨fun hstatus => ?_, fun hstatus => ?_, fun hstatus => ?_⟩
  · rw [hstatus, if_pos (by decide), workingTimeBetween_eq]
    exact (hb.running hstatus).advance ht
  · obtain ⟨p, hp, hpt, hbudget⟩ := hb.paused hstatus
    rw [hstatus, if_neg (by decide), add_zero]
    exact ⟨p, hp, hpt.trans ht, hbudget⟩
  · rw [hstatus, if_neg (by decide), add_zero]
    exact hb.closed hstatus

/-! ## Operations -/

/-- Leaving `returned` restarts the watch: exactly what was left at the
pause is left from now on, and the deadline does not move back. -/
theorem resumed_budget {h u now p old deadline : Int} {pausedAt : Option Int}
    (hresumed : Resumed cfg now pausedAt old deadline) (hp : pausedAt = some p) (hpn : p ≤ now)
    (hb : Budget (works cfg.cal) h u p old) :
    Budget (works cfg.cal) h u now deadline ∧ old ≤ deadline := by
  have hleft := hresumed.left p hp
  have hspent := hresumed.spent p hp
  rw [workingTimeBetween_eq] at hleft hspent
  exact hb.resume hpn (fun hpos => addWorkingTime_reach cfg.cal hpos (hleft hpos)) hspent

/-- Closing at `now` with the watch running: the deadline is on the side of
`now` that the budget tells. -/
theorem closing_side {h u now deadline : Int} (hb : Budget (works cfg.cal) h u now deadline) :
    (u < h → now ≤ deadline) ∧ (h < u → deadline < now) :=
  ⟨fun hu => (hb.left hu).1.le, fun hu => hb.overrun hu⟩

/-- An operation uses no time, keeps the budget and never moves the
deadline to an earlier instant. -/
theorem change_onBudget {h u now : Int} {l : Life} {req' : Request} {start : Nat} {s : Session}
    (hsound : l.Sound) (hb : OnBudget cfg h u now l.req)
    (hchange : Change cfg start now l.req req' s) :
    OnBudget cfg h u now req' ∧ l.req.slaDeadline ≤ req'.slaDeadline := by
  cases hchange with
  | assigned => exact ⟨⟨hb.running, hb.paused, hb.closed⟩, le_rfl⟩
  | @moved _ _ _ target allowed applied =>
    rcases hsound.moves allowed with ⟨hstatus, rfl⟩ | ⟨hstatus, rfl⟩
    · -- The watch is stopped now.
      have hnone : l.req.slaPausedAt = none := by
        rw [← Option.not_isSome_iff_eq_none, hsound.paused, hstatus]
        decide
      obtain ⟨hpause, hdeadline⟩ := applied.returned rfl
      rw [hnone, Option.none_or] at hpause
      rw [applied.shape]
      refine ⟨?_, hdeadline.ge⟩
      exact
        { running := fun heq => by cases heq
          paused := fun _ => ⟨now, hpause, le_rfl, by rw [hdeadline]; exact hb.running hstatus⟩
          closed := fun heq => by cases heq }
    · -- The watch is restarted now.
      obtain ⟨p, hp, hpn, hbudget⟩ := hb.paused hstatus
      obtain ⟨-, hresumed⟩ := applied.resumed (by decide) hstatus
      obtain ⟨hrunning, hle⟩ := resumed_budget hresumed hp hpn hbudget
      rw [applied.shape]
      refine ⟨?_, hle⟩
      exact
        { running := fun _ => hrunning
          paused := fun heq => by cases heq
          closed := fun heq => by cases heq }
  | @answered _ _ _ _ actor text isOpen visible applied =>
    have hclosing : Budget (works cfg.cal) h u now req'.slaDeadline ∧
        l.req.slaDeadline ≤ req'.slaDeadline := by
      rcases (hsound.not_completed isOpen).1 with hstatus | hstatus
      · have hkept := (applied.kept (by decide) (by dsimp only; rw [hstatus]; decide)).2
        rw [hkept]
        exact ⟨hb.running hstatus, le_rfl⟩
      · -- An answer straight from `returned` restarts the watch first.
        obtain ⟨p, hp, hpn, hbudget⟩ := hb.paused hstatus
        exact resumed_budget (applied.resumed (by decide) hstatus).2 hp hpn hbudget
    obtain ⟨hbudget, hle⟩ := hclosing
    refine ⟨?_, hle⟩
    rw [applied.shape]
    exact
      { running := fun heq => by cases heq
        paused := fun heq => by cases heq
        closed := fun _ => ⟨now, rfl, closing_side hbudget⟩ }
  | said => exact ⟨hb, le_rfl⟩
  | attached => exact ⟨hb, le_rfl⟩
  | noticed => exact ⟨⟨hb.running, hb.paused, hb.closed⟩, le_rfl⟩

/-! ## Runs -/

/-- A sound request of the tables whose budget stands at `u` at instant `t`. -/
def Db.OnBudget (cfg : Settings) (requestId : Nat) (h u t : Int) (db : Db) : Prop :=
  ∃ l, db.life? requestId = some l ∧ l.Sound ∧ Royd.OnBudget cfg h u t l.req

/-- The deadline of a request, if it is there. -/
def Db.deadlineOf (db : Db) (requestId : Nat) : Option Int :=
  (db.life? requestId).map (·.req.slaDeadline)

theorem life?_any {db : Db} {requestId : Nat} {l : Life} (h : db.life? requestId = some l)
    (p : Request → Bool) : (db.getRequest requestId).any p = p l.req := by
  obtain ⟨r, hr, rfl⟩ := Option.map_eq_some_iff.mp h
  rw [hr, Option.any_some]

theorem Db.OnBudget.advance {requestId : Nat} {h u t now : Int} {db : Db}
    (hb : db.OnBudget cfg requestId h u t) (ht : t ≤ now) :
    db.OnBudget cfg requestId h (u + clockTime cfg requestId db t now) now := by
  obtain ⟨l, hl, hsound, hbudget⟩ := hb
  refine ⟨l, hl, hsound, ?_⟩
  unfold clockTime
  rw [life?_any hl]
  exact hbudget.advance ht

/-- A chain of operations at one instant. -/
theorem steps_onBudget {h u now : Int} {l l' : Option Life} (hsteps : Life.Steps cfg now cats l l')
    {k : Life} (hk : l = some k) (hsound : k.Sound) (hb : Royd.OnBudget cfg h u now k.req) :
    ∃ k', l' = some k' ∧ k'.Sound ∧ Royd.OnBudget cfg h u now k'.req ∧
      k.req.slaDeadline ≤ k'.req.slaDeadline := by
  induction hsteps with
  | refl => exact ⟨k, hk, hsound, hb, le_rfl⟩
  | tail _ hstep ih =>
    obtain ⟨k₁, hk₁, hsound₁, hb₁, hle⟩ := ih
    cases hstep with
    | filed => cases hk₁
    | changed change =>
      cases hk₁
      obtain ⟨hb', hle'⟩ := change_onBudget hsound₁ hb₁ change
      exact ⟨_, rfl, change_sound hsound₁ change, hb', hle.trans hle'⟩

theorem step_onBudget {requestId : Nat} {h u : Int} {db : Db} {e : Event} (hwf : db.Wf)
    (hb : db.OnBudget cfg requestId h u e.now) :
    (step cfg db e).OnBudget cfg requestId h u e.now ∧
      ∃ d d', db.deadlineOf requestId = some d ∧
        (step cfg db e).deadlineOf requestId = some d' ∧ d ≤ d' := by
  obtain ⟨l, hl, hsound, hbudget⟩ := hb
  obtain ⟨k, hk, hsound', hb', hle⟩ :=
    steps_onBudget ((step_life cfg hwf e).2 requestId) hl hsound hbudget
  exact ⟨⟨k, hk, hsound', hb'⟩, _, _, by rw [Db.deadlineOf, hl]; rfl,
    by rw [Db.deadlineOf, hk]; rfl, hle⟩

/-- Through a whole run the budget stands at what was used so far. -/
theorem run_onBudget {requestId : Nat} {h : Int} : ∀ {es : List Event} {db : Db} {u t now : Int},
    db.Wf → db.OnBudget cfg requestId h u t → (∀ e ∈ es, t ≤ e.now) → Clocked es →
    t ≤ now → (∀ e ∈ es, e.now ≤ now) →
    (Runs.run (step cfg) db es).OnBudget cfg requestId h
      (u + used cfg requestId db t es now) now
  | [], _, _, _, _, _, hb, _, _, ht, _ => hb.advance ht
  | e :: es, db, u, t, now, hwf, hb, hlater, hclock, _, hnow => by
    obtain ⟨hfirst, hrest⟩ := List.pairwise_cons.mp hclock
    have hb' := (step_onBudget hwf (hb.advance (hlater e List.mem_cons_self))).1
    have hrun := run_onBudget (step_life cfg hwf e).1 hb'
      (fun e' he' => hfirst _ (List.mem_map_of_mem he')) hrest (hnow e List.mem_cons_self)
      (fun e' he' => hnow e' (List.mem_cons_of_mem _ he'))
    rw [Runs.run_cons]
    unfold used
    rwa [← add_assoc]

/-- Through a whole run the deadline only moves forward. -/
theorem run_deadline {requestId : Nat} {h : Int} : ∀ {es : List Event} {db : Db} {u t : Int},
    db.Wf → db.OnBudget cfg requestId h u t → (∀ e ∈ es, t ≤ e.now) → Clocked es →
    ∀ xs ys, es = xs ++ ys → ∃ d d', (Runs.run (step cfg) db xs).deadlineOf requestId = some d ∧
      (Runs.run (step cfg) db es).deadlineOf requestId = some d' ∧ d ≤ d'
  | [], db, u, t, _, hb, _, _, xs, ys, hsplit => by
    obtain ⟨rfl, rfl⟩ := List.append_eq_nil_iff.mp hsplit.symm
    obtain ⟨l, hl, -⟩ := hb
    have hd : (Runs.run (step cfg) db []).deadlineOf requestId = some l.req.slaDeadline := by
      rw [Runs.run_nil, Db.deadlineOf, hl]
      rfl
    exact ⟨_, _, hd, hd, le_rfl⟩
  | e :: es, db, u, t, hwf, hb, hlater, hclock, xs, ys, hsplit => by
    obtain ⟨hfirst, hrest⟩ := List.pairwise_cons.mp hclock
    obtain ⟨hb', d, d₁, hd, hd₁, hle⟩ :=
      step_onBudget hwf (hb.advance (hlater e List.mem_cons_self))
    have hfrom := run_deadline (step_life cfg hwf e).1 hb'
      (fun e' he' => hfirst _ (List.mem_map_of_mem he')) hrest
    cases xs with
    | nil =>
      obtain ⟨d₂, d', hd₂, hd', hle'⟩ := hfrom [] es rfl
      rw [Runs.run_nil, hd₁, Option.some.injEq] at hd₂
      subst hd₂
      exact ⟨d, d', hd, hd', hle.trans hle'⟩
    | cons x xs =>
      obtain ⟨rfl, htail⟩ := List.cons.inj hsplit
      exact hfrom xs ys htail

/-! ## The filing -/

/-- A request that appears at `now` is on the full budget of its service,
whatever else happens to it at that instant. -/
theorem steps_filed {now : Int} {l l' : Option Life} (hsteps : Life.Steps cfg now cats l l')
    (hnone : l = none) {k : Life} (hk : l' = some k) : k.Sound ∧
      ∀ category, cats.find? (·.id == k.req.categoryId) = some category →
        1 ≤ category.slaHours → Royd.OnBudget cfg (hours category.slaHours) 0 now k.req := by
  induction hsteps generalizing k with
  | refl =>
    rw [hnone] at hk
    cases hk
  | tail _ hstep ih =>
    cases hstep with
    | filed current catalogue filed opening answers =>
      cases hk
      refine ⟨filed_sound catalogue filed opening answers, fun category hcat hpos => ?_⟩
      have hservice := filed.service
      unfold Db.getCategory at hservice
      rw [current, hcat, Option.some.injEq] at hservice
      subst hservice
      exact filed_onBudget filed hpos
    | changed change =>
      cases hk
      obtain ⟨hsound, hbudget⟩ := ih rfl
      refine ⟨change_sound hsound change, fun category hcat hpos => ?_⟩
      have hbefore := hbudget category (by rw [← change.categoryId]; exact hcat) hpos
      exact (change_onBudget hsound hbefore change).1

/-- An event that makes a request appear files it. -/
theorem filing_onBudget {db : Db} {e : Event} {filed : Request} {category : RequestCategory}
    (hwf : db.Wf) (hnew : db.getRequest filed.id = none)
    (hfiled : filed ∈ (step cfg db e).requests)
    (hcat : db.getCategory filed.categoryId = some category) (hpos : 1 ≤ category.slaHours) :
    (step cfg db e).OnBudget cfg filed.id (hours category.slaHours) 0 e.now := by
  obtain ⟨hwf', hlife⟩ := step_life cfg hwf e
  have hmem := hwf'.life?_mem hfiled
  obtain ⟨hsound, hbudget⟩ := steps_filed (hlife filed.id) (by rw [Db.life?, hnew]; rfl) hmem
  exact ⟨_, hmem, hsound, hbudget category hcat hpos⟩

/-! ## The report -/

/-- The request counts as closed on time in the KPI report. -/
def OnTime (db : Db) (req : Request) : Prop :=
  ∀ (acc : Acc) (now : Int),
    (acc.add (reportRow db req) now).closedOnTime = acc.closedOnTime + 1

/-- The request counts as closed, but not on time. -/
def Late (db : Db) (req : Request) : Prop :=
  ∀ (acc : Acc) (now : Int), (acc.add (reportRow db req) now).closedOnTime = acc.closedOnTime

theorem onTime_of_le {db : Db} {req : Request} {c : Int} (hc : req.closedAt = some c)
    (hle : c ≤ req.slaDeadline) : OnTime db req := by
  intro acc now
  simp [Acc.add, reportRow, hc, hle, countIf]

theorem late_of_lt {db : Db} {req : Request} {c : Int} (hc : req.closedAt = some c)
    (hlt : req.slaDeadline < c) : Late db req := by
  intro acc now
  simp [Acc.add, reportRow, hc, hlt, countIf]

/-! ## Every run -/

/-- What the SLA budget `h` of a request promises at instant `now`, by
which `u` of it was used. -/
structure BudgetKept (cfg : Settings) (h u now : Int) (db : Db) (req : Request) : Prop where
  left : req.status ∈ RequestStatus.slaRunning → u < h →
    now < req.slaDeadline ∧ workingTimeBetween cfg.cal now req.slaDeadline = h - u
  spent : req.status ∈ RequestStatus.slaRunning → h ≤ u → req.slaDeadline ≤ now
  onTime : req.closedAt.isSome = true → u < h → OnTime db req
  late : req.closedAt.isSome = true → h < u → Late db req

theorem OnBudget.kept {h u now : Int} {db : Db} {l : Life} (hsound : l.Sound)
    (hb : Royd.OnBudget cfg h u now l.req) : BudgetKept cfg h u now db l.req := by
  have hstatus : l.req.status ∈ RequestStatus.slaRunning → l.req.status = .inProgress := by
    intro hrunning
    rcases hsound.status with hs | hs | hs
    · exact hs
    · rw [hs] at hrunning
      exact absurd hrunning (by decide)
    · rw [hs] at hrunning
      exact absurd hrunning (by decide)
  have hclosed : l.req.closedAt.isSome = true → l.req.status = .completed := by
    intro hsome
    by_contra hne
    rw [(hsound.unanswered hne).1] at hsome
    cases hsome
  constructor
  · intro hrunning hu
    rw [workingTimeBetween_eq]
    exact (hb.running (hstatus hrunning)).left hu
  · exact fun hrunning hu => (hb.running (hstatus hrunning)).spent hu
  · intro hsome hu
    obtain ⟨c, hc, hle, -⟩ := hb.closed (hclosed hsome)
    exact onTime_of_le hc (hle hu)
  · intro hsome hu
    obtain ⟨c, hc, -, hlt⟩ := hb.closed (hclosed hsome)
    exact late_of_lt hc (hlt hu)

/-- SLA budget conservation. A request filed by event `e₀` under a service
of `category.slaHours` hours keeps its budget through every run that
follows, and its deadline is never moved to an earlier instant. -/
theorem sla_budget (cfg : Settings) {db₀ : Db} (hstart : Start db₀) (pre : List Event)
    (e₀ : Event) (es : List Event) (hclock : Clocked (e₀ :: es)) {filed : Request}
    {category : RequestCategory} (hnew : (Runs.run (step cfg) db₀ pre).getRequest filed.id = none)
    (hfiled : filed ∈ (Runs.run (step cfg) db₀ (pre ++ [e₀])).requests)
    (hcat : (Runs.run (step cfg) db₀ pre).getCategory filed.categoryId = some category)
    (hpos : 1 ≤ category.slaHours) :
    ∃ req ∈ (Runs.run (step cfg) db₀ (pre ++ e₀ :: es)).requests, req.id = filed.id ∧
      (∀ now, (∀ e ∈ e₀ :: es, e.now ≤ now) →
        BudgetKept cfg (hours category.slaHours)
          (used cfg filed.id (Runs.run (step cfg) db₀ (pre ++ [e₀])) e₀.now es now) now
          (Runs.run (step cfg) db₀ (pre ++ e₀ :: es)) req) ∧
      ∀ xs ys, es = xs ++ ys → ∀ r ∈ (Runs.run (step cfg) db₀ (pre ++ e₀ :: xs)).requests,
        r.id = filed.id → r.slaDeadline ≤ req.slaDeadline := by
  have hwf := run_wf cfg hstart.wf pre
  have hafter : ∀ xs, Runs.run (step cfg) db₀ (pre ++ e₀ :: xs)
      = Runs.run (step cfg) (step cfg (Runs.run (step cfg) db₀ pre) e₀) xs := fun xs => by
    rw [Runs.run_append, Runs.run_cons]
  rw [Runs.run_concat] at hfiled ⊢
  have hfull := filing_onBudget hwf hnew hfiled hcat hpos
  have hwf₁ := (step_life cfg hwf e₀).1
  obtain ⟨hfirst, hrest⟩ := List.pairwise_cons.mp hclock
  have hlater : ∀ e ∈ es, e₀.now ≤ e.now := fun e he => hfirst _ (List.mem_map_of_mem he)
  have hmono := run_deadline hwf₁ hfull hlater hrest
  have hwf₂ := run_wf cfg hwf₁ es
  -- The request is still there at the end of the run.
  obtain ⟨-, d', -, hd', -⟩ := hmono es [] (by simp)
  obtain ⟨l, hl, rfl⟩ := Option.map_eq_some_iff.mp hd'
  obtain ⟨req, hreq, hid, rfl⟩ := life?_eq_some hl
  simp only [hafter]
  refine ⟨req, hreq, hid, fun now hnow => ?_, fun xs ys hsplit r hr hrid => ?_⟩
  · have hrun := run_onBudget hwf₁ hfull hlater hrest (hnow e₀ List.mem_cons_self)
      fun e he => hnow e (List.mem_cons_of_mem _ he)
    obtain ⟨k, hk, hsound, hb⟩ := hrun
    rw [hl, Option.some.injEq] at hk
    subst hk
    rw [zero_add] at hb
    exact OnBudget.kept hsound hb
  · obtain ⟨d, d', hd, hd', hle⟩ := hmono xs ys hsplit
    have hwfx := run_wf cfg hwf₁ xs
    rw [Db.deadlineOf, ← hrid, hwfx.life?_mem hr, Option.map_some, Option.some.injEq] at hd
    rw [Db.deadlineOf, hl, Option.map_some, Option.some.injEq] at hd'
    subst hd hd'
    exact hle

/-- The request the office files at instant 0, a Thursday night and a public
holiday in Tashkent: its 24 hours are those of the Friday. -/
def officeRequest : Request where
  id := 10
  trackingNo := "REQ-1"
  studentId := 1
  categoryId := 4
  title := "Ariza"
  description := "Matn"
  status := .inProgress
  assignedTo := some 2
  facultyId := some 1
  slaDeadline := hours 43
  createdAt := 0

/-- The office returns the request on the Friday, gets it back on the
Sunday and answers it on the Monday. -/
def officeWeek : List Event :=
  [returning (hours 30), resubmitting (hours 80), answering (hours 95)]

theorem sla_budget_office :
    ∃ req ∈ (Runs.run (step {}) office ([] ++ filing 0 :: officeWeek)).requests,
      req.id = officeRequest.id ∧
      (∀ now, (∀ e ∈ filing 0 :: officeWeek, e.now ≤ now) →
        BudgetKept {} (hours officeService.slaHours)
          (used {} officeRequest.id (Runs.run (step {}) office ([] ++ [filing 0])) (filing 0).now
            officeWeek now) now
          (Runs.run (step {}) office ([] ++ filing 0 :: officeWeek)) req) ∧
      ∀ xs ys, officeWeek = xs ++ ys →
        ∀ r ∈ (Runs.run (step {}) office ([] ++ filing 0 :: xs)).requests,
          r.id = officeRequest.id → r.slaDeadline ≤ req.slaDeadline :=
  have hclock : Clocked (filing 0 :: officeWeek) := by unfold Clocked officeWeek; decide
  have hfiled : officeRequest ∈ (Runs.run (step {}) office ([] ++ [filing 0])).requests := by
    decide +kernel
  have hcat : (Runs.run (step {}) office []).getCategory officeRequest.categoryId
      = some officeService := by decide +kernel
  sla_budget {} office_start [] (filing 0) officeWeek hclock (by decide +kernel) hfiled hcat
    (by decide)

end Royd
